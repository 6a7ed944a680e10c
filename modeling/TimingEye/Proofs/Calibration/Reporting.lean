import TimingEye.Proofs.Calibration.Calls

/-!
# What reports cannot change

A calibration reports as it goes, to a text that may run full and to a log that lets some records
through.  Nothing it does depends on what becomes of these reports.

* `Sink.Truncates`: a text with limited room beside the same text without a limit;
* `progress_foldl_seen`: the progress text of a run, whatever else is seen of it;
* `reports_only_observe`: two calibrations that differ in their reports alone.
-/

namespace TimingEye

/-! ## A text that runs full -/

namespace Sink

/-- One text has no limit, and the other holds as much of it as there was room for. -/
structure Truncates (capacity : Nat) (limited whole : Sink) : Prop where
  whole_room : whole.room = none
  limited_room : limited.room = some (capacity - whole.text.length)
  text : limited.text.toList = whole.text.toList.take capacity

namespace Truncates

variable {capacity : Nat} {limited whole : Sink}

theorem empty (capacity : Nat) : Truncates capacity { room := some capacity } { room := none } where
  whole_room := rfl
  limited_room := rfl
  text := by simp

/-- A piece that fits goes into both texts. -/
theorem put_of_fits (h : Truncates capacity limited whole) {piece : String}
    (hfits : piece.length ≤ capacity - whole.text.length) :
    (limited.put piece).2 = true ∧
      Truncates capacity (limited.put piece).1 (whole.put piece).1 := by
  have hwhole := put_of_unlimited h.whole_room piece
  have hlimited : limited.put piece =
      ({ room := some (capacity - whole.text.length - piece.length),
         text := limited.text ++ piece }, true) := by
    simp [Sink.put, h.limited_room, hfits]
  rw [hlimited, hwhole]
  refine ⟨rfl, h.whole_room, ?_, ?_⟩
  · simp [Nat.sub_sub]
  · have hpiece : piece.toList.take (capacity - whole.text.length) = piece.toList := by
      apply List.take_of_length_le
      simpa [String.length_toList] using hfits
    simp [h.text, List.take_append, String.length_toList, hpiece]

/-- Of pieces the first of which does not fit, one text keeps what fits and the other one all. -/
theorem write_of_not_fits (h : Truncates capacity limited whole) {piece : String}
    (hfits : ¬piece.length ≤ capacity - whole.text.length) (rest : List String) :
    (limited.put piece).2 = false ∧
      Truncates capacity (limited.put piece).1 (whole.write (piece :: rest)) := by
  have hwhole := write_of_unlimited h.whole_room (piece :: rest)
  have hlimited : limited.put piece =
      ({ room := some 0,
         text := limited.text ++
           String.ofList (piece.toList.take (capacity - whole.text.length)) }, false) := by
    simp [Sink.put, h.limited_room, hfits]
  rw [hlimited, hwhole]
  refine ⟨rfl, h.whole_room, ?_, ?_⟩
  · simp
    omega
  · -- The room ends within this piece, so nothing after it counts.
    have hrest : capacity - whole.text.length - piece.length = 0 := by
      omega
    simp [h.text, List.take_append, String.length_toList, hrest]

/-- Pieces go into both texts; the limited one gives them up at the first that does not fit. -/
theorem write (h : Truncates capacity limited whole) (pieces : List String) :
    Truncates capacity (limited.write pieces) (whole.write pieces) := by
  induction pieces generalizing limited whole with
  | nil => exact h
  | cons piece rest ih =>
    by_cases hfits : piece.length ≤ capacity - whole.text.length
    · rcases h.put_of_fits hfits with ⟨hput, hgrown⟩
      have hwhole := put_of_unlimited h.whole_room piece
      rw [write_cons, write_cons, if_pos hput, hwhole]
      rw [hwhole] at hgrown
      exact ih hgrown
    · rcases h.write_of_not_fits hfits rest with ⟨hput, hkept⟩
      have hlimited : limited.write (piece :: rest) = (limited.put piece).1 := by
        simp [write_cons, hput]
      rw [hlimited]
      exact hkept

/-- Whatever is added, and in however many additions, the limited text keeps what fits. -/
theorem foldl_write (h : Truncates capacity limited whole) (additions : List (List String)) :
    Truncates capacity (additions.foldl Sink.write limited) (additions.foldl Sink.write whole) := by
  induction additions generalizing limited whole with
  | nil => exact h
  | cons pieces rest ih => exact ih (h.write pieces)

end Truncates
end Sink

/-! ## The reports of a run -/

/-- What an event adds to the progress text. -/
def Event.report? : Event → Option (List String)
  | act (.report pieces) => some pieces
  | act _ => none
  | probe _ => none

/-- The additions to the progress text among some events. -/
def reports (events : List Event) : List (List String) :=
  events.filterMap Event.report?

theorem Transcript.progress_seen (transcript : Transcript) (event : Event) :
    (transcript.seen event).progress =
      transcript.progress.map ((reports [event]).foldl Sink.write) := by
  have hunchanged : transcript.progress.map (([] : List (List String)).foldl Sink.write) =
      transcript.progress := by
    simp
  rcases event with action | passed
  · cases action with
    | report pieces => rfl
    | log record =>
      have hlogged : (transcript.logged record).progress = transcript.progress := by
        unfold Transcript.logged
        split <;> rfl
      exact hlogged.trans hunchanged.symm
    | _ => exact hunchanged.symm
  · exact hunchanged.symm

/-- The progress text of a run is made of its reports, in order. -/
theorem Transcript.progress_foldl_seen (events : List Event) (transcript : Transcript) :
    (events.foldl seen transcript).progress =
      transcript.progress.map ((reports events).foldl Sink.write) := by
  induction events generalizing transcript with
  | nil => simp [reports]
  | cons event rest ih =>
    have hreports : reports ([event] ++ rest) = reports [event] ++ reports rest :=
      List.filterMap_append
    rw [List.singleton_append] at hreports
    have hstep := progress_seen transcript event
    rw [List.foldl_cons, ih, hstep, hreports, Option.map_map]
    congr 1
    funext sink
    exact List.foldl_append.symm

/-! ## Two calibrations -/

section

variable {σ : Type} (hardware : Hardware (StateM σ)) (params : Params) (start : σ)

/-- One course of events tells all about a calibration, whoever reads its reports. -/
theorem exists_events_calibrationRun :
    ∃ (result : Except Overflow Verdict) (events : List Event) (final : σ), ∀ progress threshold,
      calibrationRun hardware params progress threshold start =
        ((result, events.foldl Transcript.seen { progress, threshold }), final) := by
  rcases Procedure.exists_path_watch hardware (calibrate params) start with
    ⟨events, result, final, _, _, hrun⟩
  exact ⟨result, events, final, fun progress threshold => hrun { progress, threshold }⟩

/-- Two calibrations that differ only in who reads their reports make the same calls, leave the
hardware in the same state and come to the same result.  Of the progress text, a sink with limited
room holds as many characters as it has room for, from the first one on. -/
theorem reports_only_observe :
    (∀ progress progress' threshold threshold',
      let run := calibrationRun hardware params progress threshold start
      let other := calibrationRun hardware params progress' threshold' start
      run.1.2.calls = other.1.2.calls ∧ run.2 = other.2 ∧ run.1.1 = other.1.1) ∧
    (∀ capacity threshold threshold',
      let limited := calibrationRun hardware params (some { room := some capacity }) threshold start
      let whole := calibrationRun hardware params (some { room := none }) threshold' start
      ∃ kept text, limited.1.2.progress.map Sink.text = some kept ∧
        whole.1.2.progress.map Sink.text = some text ∧
        kept.toList = text.toList.take capacity) := by
  rcases exists_events_calibrationRun hardware params start with ⟨result, events, final, hrun⟩
  constructor
  · intro progress progress' threshold threshold' run other
    have hcalls : run.1.2.calls = other.1.2.calls := by
      apply Array.toList_inj.mp
      change (calibrationRun _ _ _ _ _).1.2.calls.toList =
        (calibrationRun _ _ _ _ _).1.2.calls.toList
      rw [hrun, hrun, Transcript.calls_foldl_seen, Transcript.calls_foldl_seen]
    have hfinal : run.2 = other.2 :=
      (congrArg Prod.snd (hrun progress threshold)).trans
        (congrArg Prod.snd (hrun progress' threshold')).symm
    have hresult : run.1.1 = other.1.1 :=
      (congrArg (·.1.1) (hrun progress threshold)).trans
        (congrArg (·.1.1) (hrun progress' threshold')).symm
    exact ⟨hcalls, hfinal, hresult⟩
  · intro capacity threshold threshold' limited whole
    have htruncates := (Sink.Truncates.empty capacity).foldl_write (reports events)
    have hlimited : limited.1.2.progress =
        some ((reports events).foldl Sink.write { room := some capacity }) := by
      change (calibrationRun _ _ _ _ _).1.2.progress = _
      rw [hrun, Transcript.progress_foldl_seen]
      rfl
    have hwhole : whole.1.2.progress =
        some ((reports events).foldl Sink.write { room := none }) := by
      change (calibrationRun _ _ _ _ _).1.2.progress = _
      rw [hrun, Transcript.progress_foldl_seen]
      rfl
    exact ⟨_, _, congrArg (Option.map Sink.text) hlimited, congrArg (Option.map Sink.text) hwhole,
      htruncates.text⟩

end

end TimingEye
