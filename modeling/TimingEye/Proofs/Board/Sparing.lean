import TimingEye.Proofs.Board.Waiting
import TimingEye.Proofs.Calibration.Course

/-!
# Calibrating on the board

Whatever the memory does, a calibration goes through on a board whose line clears.  It samples the
timer for its records, but it never starts the timer over, and it does not reset the chip.

* `Talks`, `State.Ready`: boards that are ready for whoever may talk on their lines;
* `Spares`, `Sparing`: accesses that start nothing over, and computations that make no others;
* `sparing_run`: procedures on such a board;
* `sparing_calibrateMemory`: the calibration, which comes to a verdict.
-/

namespace TimingEye
namespace Board

/-! ## Firmware at work -/

/-- Somebody may talk on the serial line: the console, or a logger that prints to it. -/
def Talks (variant : Variant) (log : LogFacade) : Prop :=
  variant.uart = true ∧ (variant.console = true ∨ log.logger = some .console)

/-- The board is ready, for whoever may talk on it. -/
structure State.Ready (variant : Variant) (conditions : Conditions) (board : State) : Prop where
  soc : board.soc.Ready conditions
  talks : Talks variant board.log → conditions.talks

section Firmware

variable {α : Type} {variant : Variant} {conditions : Conditions} {gap cost : Nat}

/-- What goes through on the bus goes through in the firmware. -/
theorem Goes.onBus {act : Bus α} {holds : α → List BusAccess → Prop}
    (h : Goes id gap cost (Soc.Ready conditions) act
      fun value made soc => holds value made ∧ soc.Ready conditions) :
    Goes State.soc gap cost (State.Ready variant conditions) (onBus act)
      fun value made board => holds value made ∧ board.Ready variant conditions := by
  rintro ⟨soc, log⟩ hboard hpolls
  rcases h soc hboard.soc hpolls with ⟨value, made, after, hrun, haccesses, hleft, hholds, hafter⟩
  refine ⟨value, made, ⟨after, log⟩, ?_, haccesses, hleft, hholds, hafter, hboard.talks⟩
  simp only [Board.onBus, hrun]

/-- What a variant adds to the progress text. -/
def Variant.announces (variant : Variant) (pieces : List String) : List UInt8 :=
  if variant.console then variant.sends pieces else []

theorem goes_announce (pieces : List String) :
    Goes State.soc conditions.gap 0 (State.Ready variant conditions) (announce variant pieces)
      fun _ made board => Transmits (variant.announces pieces) made ∧
        board.Ready variant conditions := by
  apply Goes.ite
  · intro hconsole
    have hannounces : variant.announces pieces = variant.sends pieces := if_pos hconsole
    rw [hannounces]
    intro before h
    have htalks : variant.uart = true → conditions.talks := by
      intro huart
      exact h.talks ⟨huart, .inl hconsole⟩
    exact (goes_printAll htalks pieces).onBus before h
  · intro hnone
    have hannounces : variant.announces pieces = [] := if_neg hnone
    rw [hannounces]
    apply Goes.pure
    intro board h
    exact ⟨.nil, h⟩

/-! ## Accesses that start nothing over -/

/-- Whether an access starts the timer over or has to do with a reset. -/
def BusAccess.startsOver : BusAccess → Bool
  | .write .ctrlReset _ | .read .ctrlReset _ => true
  | .write .timerEn _ | .write .timerLoad _ | .write .timerReload _ => true
  | _ => false

/-- The chip is not reset, and the timer runs on as it did. -/
def Spares (accesses : List BusAccess) : Prop :=
  ∀ access ∈ accesses, access.startsOver = false

theorem spares_nil : Spares [] :=
  List.forall_mem_nil _

theorem spares_cons {access : BusAccess} {rest : List BusAccess} :
    Spares (access :: rest) ↔ access.startsOver = false ∧ Spares rest :=
  List.forall_mem_cons

theorem spares_append {first second : List BusAccess} :
    Spares (first ++ second) ↔ Spares first ∧ Spares second :=
  List.forall_mem_append

theorem AwaitsRoom.spares {polls : List BusAccess} (h : AwaitsRoom polls) : Spares polls := by
  induction h with
  | free _ => exact spares_cons.mpr ⟨rfl, spares_nil⟩
  | busy _ _ ih => exact spares_cons.mpr ⟨rfl, ih⟩

theorem Transmits.spares {octets : List UInt8} {trace : List BusAccess}
    (h : Transmits octets trace) : Spares trace := by
  induction h with
  | nil => exact spares_nil
  | cons octet hroom _ ih => exact spares_append.mpr ⟨hroom.spares, spares_cons.mpr ⟨rfl, ih⟩⟩

end Firmware

/-- A computation that goes through, spares the timer and the chip, and leaves the board ready. -/
def Sparing {α : Type} (variant : Variant) (conditions : Conditions) (cost : Nat)
    (act : Firmware α) (holds : α → Prop) : Prop :=
  Goes State.soc conditions.gap cost (State.Ready variant conditions) act
    fun value made board => (Spares made ∧ holds value) ∧ board.Ready variant conditions

namespace Sparing

variable {α β : Type} {variant : Variant} {conditions : Conditions} {cost : Nat}
  {holds : α → Prop} {holds' : β → Prop}

theorem pure {value : α} (h : holds value) :
    Sparing variant conditions cost (Pure.pure value) holds := by
  apply Goes.pure
  intro board hboard
  exact ⟨⟨spares_nil, h⟩, hboard⟩

theorem bind (spent rest : Nat) (hcost : spent + rest ≤ cost) {first : Firmware α}
    {next : α → Firmware β} (hfirst : Sparing variant conditions spent first holds)
    (hnext : ∀ value, holds value → Sparing variant conditions rest (next value) holds') :
    Sparing variant conditions cost (first >>= next) holds' := by
  apply Goes.bind spent rest hcost hfirst
  rintro value earlier ⟨hearlier, hvalue⟩
  apply (hnext value hvalue).weaken le_rfl
  rintro result made ⟨hmade, hresult⟩
  exact ⟨spares_append.mpr ⟨hearlier, hmade⟩, hresult⟩

end Sparing

/-! ## Reports -/

section Reports

variable {variant : Variant} {conditions : Conditions}

theorem sparing_announce (pieces : List String) :
    Sparing variant conditions 0 (announce variant pieces) fun _ => True := by
  apply (goes_announce pieces).weaken le_rfl
  intro _ made hmade
  exact ⟨hmade.spares, trivial⟩

/-- A record samples the timer once, and then it is sent. -/
theorem goes_printRecord (htalks : variant.uart = true → conditions.talks) (record : Record) :
    Goes id conditions.gap 1 (Soc.Ready conditions) (printRecord variant record)
      fun _ made soc => Spares made ∧ soc.Ready conditions := by
  have htime : Goes id conditions.gap 1 (Soc.Ready conditions) Timer.microseconds
      fun _ made soc => (∃ count, made = sampling count) ∧ soc.Ready conditions := by
    apply Goes.bind 1 0 le_rfl goes_elapsed
    rintro now earlier ⟨count, _, rfl⟩
    apply Goes.pure
    intro soc h
    exact ⟨⟨count, rfl⟩, h⟩
  apply Goes.bind 1 0 le_rfl htime
  rintro time earlier ⟨count, rfl⟩
  apply (goes_printAll htalks _).weaken le_rfl
  intro _ made hmade
  have hsampling : Spares (sampling count) :=
    spares_cons.mpr ⟨rfl, spares_cons.mpr ⟨rfl, spares_nil⟩⟩
  exact spares_append.mpr ⟨hsampling, hmade.spares⟩

theorem sparing_issue (record : Record) :
    Sparing variant conditions 1 (issue variant record) fun _ => True := by
  apply Goes.get_bind
  intro board h hpolls
  apply Goes.ite
  · intro hprints
    have htalks : variant.uart = true → conditions.talks := by
      intro huart
      have hlogger : board.log.logger = some .console := by
        simpa [LogFacade.prints] using (Bool.and_eq_true_iff.mp hprints).2
      exact h.talks ⟨huart, .inr hlogger⟩
    apply (goes_printRecord htalks record).onBus.weaken le_rfl
    intro _ made hmade
    exact ⟨hmade, trivial⟩
  · intro _
    exact Sparing.pure trivial

end Reports

/-! ## Operations -/

section Operations

variable {variant : Variant} {conditions : Conditions}

theorem sparing_registers_write (signal : Signal) (value : UInt8) :
    Sparing variant conditions 0 (registers.write signal value) fun _ => True := by
  have hpolls : (Csr.ofSignal signal).polls = 0 := by
    cases signal <;> rfl
  have hspares : Spares [.write (Csr.ofSignal signal) value.toUInt32] := by
    refine spares_cons.mpr ⟨?_, spares_nil⟩
    cases signal <;> rfl
  have hline : Csr.ofSignal signal ≠ .uartTxfull := by
    cases signal <;> decide
  have hreset : Csr.ofSignal signal ≠ .ctrlReset := by
    cases signal <;> decide
  have hwrite : Goes id conditions.gap _ (Soc.Ready conditions) _ _ :=
    goes_write _ value.toUInt32 hline hreset
  apply hwrite.onBus.weaken hpolls.le
  rintro _ made rfl
  exact ⟨hspares, trivial⟩

theorem sparing_drive (writes : List (Signal × UInt8)) :
    Sparing variant conditions 0 (registers.drive writes) fun _ => True := by
  induction writes with
  | nil => exact .pure trivial
  | cons write rest ih =>
    apply Sparing.bind 0 0 le_rfl (sparing_registers_write write.1 write.2)
    intro _ _
    exact ih

theorem sparing_writeWord (value : UInt32) :
    Sparing variant conditions 0 (registers.writeWord value) fun _ => True := by
  intro before h _
  have hafter : ((before.soc.noted (.store value)).stored value).Ready conditions :=
    ⟨h.soc.clears, h.soc.tick, h.soc.patience, h.soc.pollsLeft⟩
  have hboard : State.Ready variant conditions ⟨_, before.log⟩ := ⟨hafter, h.talks⟩
  have hspares : Spares [.store value] := spares_cons.mpr ⟨rfl, spares_nil⟩
  exact ⟨(), _, _, rfl, Array.toList_push, le_rfl, ⟨hspares, trivial⟩, hboard⟩

theorem sparing_readWord :
    Sparing variant conditions 0 registers.readWord fun _ => True := by
  intro before h _
  have hafter : (before.soc.noted (.load before.soc.cell)).Ready conditions :=
    ⟨h.soc.clears, h.soc.tick, h.soc.patience, h.soc.pollsLeft⟩
  have hboard : State.Ready variant conditions ⟨_, before.log⟩ := ⟨hafter, h.talks⟩
  have hspares : Spares [.load before.soc.cell] := spares_cons.mpr ⟨rfl, spares_nil⟩
  exact ⟨_, _, _, rfl, Array.toList_push, le_rfl, ⟨hspares, trivial⟩, hboard⟩

/-- The board has no caches to empty. -/
theorem sparing_flush :
    Sparing variant conditions 0 (onBus (Pure.pure ())) fun _ => True := by
  intro before h _
  exact ⟨(), [], before, rfl, (List.append_nil _).symm, le_rfl, ⟨spares_nil, trivial⟩, h⟩

theorem sparing_check (patterns : List UInt32) :
    Sparing variant conditions 0 (registers.check patterns) fun _ => True := by
  induction patterns with
  | nil => exact .pure trivial
  | cons pattern rest ih =>
    apply Sparing.bind 0 0 le_rfl (sparing_writeWord pattern)
    intro _ _
    apply Sparing.bind 0 0 le_rfl sparing_flush
    intro _ _
    apply Sparing.bind 0 0 le_rfl sparing_flush
    intro _ _
    apply Sparing.bind 0 0 le_rfl sparing_readWord
    intro found _
    apply Goes.ite
    · intro _
      exact ih
    · intro _
      exact Sparing.pure trivial

end Operations

/-! ## Procedures -/

/-- The most records that a procedure may log. -/
def mostRecords {α : Type} : Procedure α → Nat
  | .done _ | .overflow _ => 0
  | .act (.log _) next => mostRecords next + 1
  | .act _ next => mostRecords next
  | .probe next => max (mostRecords (next true)) (mostRecords (next false))

section Procedures

variable {α : Type} {variant : Variant} {conditions : Conditions}

/-- An action uses up a poll if it logs a record. -/
theorem sparing_perform (action : Action) (next : Procedure α) :
    ∃ cost, cost + mostRecords next ≤ mostRecords (.act action next) ∧
      Sparing variant conditions cost (action.perform hardware (reporter variant))
        fun _ => True := by
  cases action with
  | setDelay line taps => exact ⟨0, (Nat.zero_add _).le, sparing_drive _⟩
  | stepPhase direction => exact ⟨0, (Nat.zero_add _).le, sparing_drive _⟩
  | slip subPhase => exact ⟨0, (Nat.zero_add _).le, sparing_drive _⟩
  | report pieces => exact ⟨0, (Nat.zero_add _).le, sparing_announce pieces⟩
  | log record => exact ⟨1, (Nat.add_comm 1 _).le, sparing_issue record⟩

/-- A procedure goes through, whatever the memory answers, and takes one of its paths. -/
theorem sparing_run (procedure : Procedure α) :
    Sparing variant conditions (mostRecords procedure)
      (procedure.run hardware (reporter variant))
      fun result => ∃ events, Procedure.Path procedure events result := by
  -- By induction on the procedure: a probe is granted what the costlier of its two ends needs.
  induction procedure with
  | done value => exact .pure ⟨[], .done value⟩
  | overflow cause => exact .pure ⟨[], .overflow cause⟩
  | act action next ih =>
    rcases sparing_perform action next with ⟨cost, hcost, hperform⟩
    apply Sparing.bind cost (mostRecords next) hcost hperform
    intro _ _
    apply ih.weaken le_rfl
    rintro result made ⟨hmade, events, hpath⟩
    exact ⟨hmade, _, .act hpath⟩
  | probe next ih =>
    apply Sparing.bind 0 (mostRecords (.probe next)) (Nat.zero_add _).le (sparing_check _)
    intro passed _
    have hrest : mostRecords (next passed) ≤ mostRecords (.probe next) := by
      cases passed with
      | true => exact le_max_left _ _
      | false => exact le_max_right _ _
    apply (ih passed).weaken hrest
    rintro result made ⟨hmade, events, hpath⟩
    exact ⟨hmade, _, .probe hpath⟩

end Procedures

/-- The calibration comes to a verdict on every board that is ready. -/
theorem sparing_calibrateMemory (variant : Variant) (conditions : Conditions) :
    Sparing variant conditions (mostRecords (calibrate .standard)) (calibrateMemory variant)
      fun result => ∃ verdict, result = .ok verdict := by
  apply (sparing_run (calibrate .standard)).weaken le_rfl
  rintro result made ⟨hmade, events, hpath⟩
  rcases Course.of_path hpath with ⟨verdict, hverdict, _⟩
  exact ⟨hmade, verdict, hverdict⟩

end Board
end TimingEye
