/-!
# Text sinks of limited room

A sink keeps what still fits of each piece and refuses from there on.  An addition of several
pieces is given up at the first refusal; later additions are tried all the same.
-/

namespace TimingEye

/-- A text that grows until its room is used up. -/
structure Sink where
  /-- Characters that still fit, or no limit. -/
  room : Option Nat
  text : String := ""
  deriving DecidableEq, Repr

namespace Sink

/-- Adds one piece, and tells whether all of it fitted. -/
def put (sink : Sink) (piece : String) : Sink × Bool :=
  match sink.room with
  | none => ({ sink with text := sink.text ++ piece }, true)
  | some room =>
    if piece.length ≤ room then
      ({ room := some (room - piece.length), text := sink.text ++ piece }, true)
    else
      ({ room := some 0, text := sink.text ++ String.ofList (piece.toList.take room) }, false)

/-- Adds pieces up to the first that is refused. -/
def write (sink : Sink) : List String → Sink
  | [] => sink
  | piece :: rest =>
    match sink.put piece with
    | (grown, true) => grown.write rest
    | (full, false) => full

theorem write_cons (sink : Sink) (piece : String) (rest : List String) :
    sink.write (piece :: rest) =
      if (sink.put piece).2 then (sink.put piece).1.write rest else (sink.put piece).1 := by
  rw [write]
  rcases sink.put piece with ⟨grown, _ | _⟩ <;> rfl

/-! ## Unlimited texts -/

theorem put_of_unlimited {sink : Sink} (h : sink.room = none) (piece : String) :
    sink.put piece = ({ sink with text := sink.text ++ piece }, true) := by
  simp [put, h]

/-- A text without a limit takes all pieces. -/
theorem write_of_unlimited {sink : Sink} (h : sink.room = none) (pieces : List String) :
    sink.write pieces = { sink with text := sink.text ++ String.join pieces } := by
  induction pieces generalizing sink with
  | nil => simp [write]
  | cons piece rest ih =>
    have hgrown : ({ sink with text := sink.text ++ piece } : Sink).room = none := h
    have hput := put_of_unlimited h piece
    rw [write_cons, hput]
    simpa [String.append_assoc] using ih hgrown

end Sink

end TimingEye
