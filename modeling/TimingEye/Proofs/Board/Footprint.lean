import TimingEye.Proofs.Board.FirstLogger
import TimingEye.Proofs.Board.Readings

/-!
# What a calibration touches

A calibration on the board drives control lines, stores test patterns and loads them, and prints.
It does nothing to the timer but sample it, once for each record that is printed.

* `BusAccess.calibrates`: the accesses that a calibration may make;
* `Touches`: boards that have been calibrated for a while, with so many samplings;
* `Occurs`, `exists_occurring`: the events of a procedure, in any variant;
* `touches_of_trail`: what some events touch;
* `PreparesLogging`, `preparesLogging`: what is done to the timer before all that.
-/

namespace TimingEye
namespace Board

/-- Whether a calibration may make an access. -/
def BusAccess.calibrates : BusAccess → Bool
  | .write csr _ => csr.isInterface || csr ∈ [.uartRxtx, .timerUpdateValue]
  | .read csr _ => csr ∈ [.uartTxfull, .timerValue]
  | .store value => value ∈ testPatterns
  | .load _ => true

theorem AwaitsRoom.calibrates {polls : List BusAccess} (h : AwaitsRoom polls) :
    ∀ access ∈ polls, access.calibrates = true := by
  induction h with
  | free _ => exact List.forall_mem_singleton.mpr rfl
  | busy _ _ ih => exact List.forall_mem_cons.mpr ⟨rfl, ih⟩

theorem Transmits.calibrates {octets : List UInt8} {trace : List BusAccess}
    (h : Transmits octets trace) : ∀ access ∈ trace, access.calibrates = true := by
  induction h with
  | nil => exact List.forall_mem_nil _
  | cons octet hroom _ ih =>
    exact List.forall_mem_append.mpr ⟨hroom.calibrates, List.forall_mem_cons.mpr ⟨rfl, ih⟩⟩

/-! ## Boards under calibration -/

/-- A board has been calibrated for a while, and its timer has been sampled so many times. -/
def Touches (samples : Nat) (before after : Soc) : Prop :=
  ∃ made, after.accesses.toList = before.accesses.toList ++ made ∧
    (∀ access ∈ made, access.calibrates = true) ∧ samplesIn made = samples ∧
    after.clock = Clock.sampled^[samples] before.clock

namespace Touches

theorem refl (soc : Soc) : Touches 0 soc soc :=
  ⟨[], (List.append_nil _).symm, List.forall_mem_nil _, rfl, rfl⟩

theorem trans {first second third : Soc} {samples more : Nat} (h : Touches samples first second)
    (h' : Touches more second third) : Touches (samples + more) first third := by
  rcases h with ⟨made, haccesses, hmade, hsamples, hclock⟩
  rcases h' with ⟨made', haccesses', hmade', hsamples', hclock'⟩
  refine ⟨made ++ made', ?_, List.forall_mem_append.mpr ⟨hmade, hmade'⟩, ?_, ?_⟩
  · rw [haccesses', haccesses, List.append_assoc]
  · rw [samplesIn_append, hsamples, hsamples']
  · rw [hclock', hclock, Nat.add_comm, Function.iterate_add_apply]

/-- A single access to something else than the timer. -/
theorem of_access {before after : Soc} {access : BusAccess}
    (haccesses : after.accesses = before.accesses.push access)
    (hcalibrates : access.calibrates = true) (hsamples : samplesIn [access] = 0)
    (hclock : after.clock = before.clock) : Touches 0 before after := by
  refine ⟨[access], ?_, List.forall_mem_singleton.mpr hcalibrates, hsamples, hclock⟩
  rw [haccesses, Array.toList_push]

theorem of_spoke {octets : List UInt8} {before after : Soc} (h : Spoke octets before after) :
    Touches 0 before after := by
  rcases h.accesses with ⟨made, haccesses, htransmits⟩
  exact ⟨made, haccesses, htransmits.calibrates, htransmits.timeless.samples, h.clock⟩

/-- A record that is printed takes one sampling. -/
theorem of_printed {variant : Variant} {record : Record} {before after : Soc}
    (h : Printed variant record before after) : Touches 1 before after := by
  rcases h.accesses with ⟨line, haccesses, htransmits⟩
  have hsampling : ∀ access ∈ sampling (before.clock.count 1), access.calibrates = true :=
    List.forall_mem_cons.mpr ⟨rfl, List.forall_mem_singleton.mpr rfl⟩
  refine ⟨sampling (before.clock.count 1) ++ line, ?_,
    List.forall_mem_append.mpr ⟨hsampling, htransmits.calibrates⟩, ?_, h.clock⟩
  · rw [haccesses, List.append_assoc]
  · rw [samplesIn_append, htransmits.timeless.samples]
    rfl

end Touches

/-- The board of the firmware has been calibrated for a while. -/
def State.Touches (samples : Nat) : State → State → Prop :=
  InvImage (Board.Touches samples) State.soc

theorem State.Touches.refl (board : State) : State.Touches 0 board board :=
  Board.Touches.refl board.soc

theorem State.Touches.trans {first second third : State} {samples more : Nat}
    (h : State.Touches samples first second) (h' : State.Touches more second third) :
    State.Touches (samples + more) first third :=
  Board.Touches.trans h h'

/-! ## Operations -/

section Operations

variable {variant : Variant}

theorem touches_onBus {α : Type} {samples : Nat} {act : Bus α}
    (h : Completes (Touches samples) act) : Completes (State.Touches samples) (onBus act) :=
  h.onBus

theorem touches_announce (pieces : List String) :
    Completes (State.Touches 0) (announce variant pieces) :=
  .ite (touches_onBus (.of_ends (ends_printAll variant pieces) .of_spoke)) (.pure .refl ())

theorem touches_issue {record : Record} {before after : State}
    (h : issue variant record before = .ok () after) :
    State.Touches (if before.log.prints record.severity then 1 else 0) before after := by
  have hprinted := ((ends_issue variant record before).of_ok h).2
  split at hprinted
  case isTrue hprints =>
    rw [if_pos hprints]
    exact .of_printed hprinted
  case isFalse hsilent =>
    rw [if_neg hsilent, hprinted]
    exact .refl before

theorem touches_registers_write (signal : Signal) (value : UInt8) :
    Completes (State.Touches 0) (registers.write signal value) := by
  have hcalibrates : (BusAccess.write (Csr.ofSignal signal) value.toUInt32).calibrates = true := by
    rw [BusAccess.calibrates, isInterface_ofSignal, Bool.true_or]
  have hsamples : samplesIn [.write (Csr.ofSignal signal) value.toUInt32] = 0 := by
    cases signal <;> rfl
  have hwrite : Completes (Touches 0) (Soc.write (Csr.ofSignal signal) value.toUInt32) := by
    intro before _ after hrun
    rcases (ends_write_signal signal value.toUInt32 before).of_ok hrun with ⟨hmute, haccesses⟩
    exact .of_access haccesses hcalibrates hsamples hmute.clock
  exact touches_onBus hwrite

theorem touches_drive (writes : List (Signal × UInt8)) :
    Completes (State.Touches 0) (registers.drive writes) := by
  induction writes with
  | nil => exact .pure .refl ()
  | cons write rest ih =>
    apply Completes.bind .trans (touches_registers_write write.1 write.2)
    intro _
    exact ih

/-- What holds across each access to the memory word holds across a check of it. -/
theorem completes_check {related : State → State → Prop} {patterns : List UInt32}
    (hrefl : ∀ board, related board board)
    (htrans : ∀ {first second third}, related first second → related second third →
      related first third)
    (hstore : ∀ pattern ∈ patterns, Completes related (registers.writeWord pattern))
    (hload : Completes related registers.readWord) :
    Completes related (registers.check patterns) := by
  induction patterns with
  | nil => exact .pure hrefl true
  | cons pattern rest ih =>
    rcases List.forall_mem_cons.mp hstore with ⟨hpattern, hrest⟩
    have hflush : Completes related (pure () : Firmware Unit) := .pure hrefl ()
    refine Completes.bind htrans hpattern fun _ => ?_
    refine Completes.bind htrans hflush fun _ => ?_
    refine Completes.bind htrans hflush fun _ => ?_
    refine Completes.bind htrans hload fun found => ?_
    exact .ite (ih hrest) (.pure hrefl false)

theorem touches_check {patterns : List UInt32} (h : patterns ⊆ testPatterns) :
    Completes (State.Touches 0) (registers.check patterns) := by
  refine completes_check State.Touches.refl State.Touches.trans ?_ ?_
  · intro pattern hmem
    have hstore : Completes (Touches 0) (Soc.store pattern) := by
      intro before _ after hrun
      cases hrun
      exact .of_access rfl (decide_eq_true (h hmem)) rfl rfl
    exact touches_onBus hstore
  · have hload : Completes (Touches 0) Soc.load := by
      intro before _ after hrun
      cases hrun
      exact .of_access rfl rfl rfl rfl
    exact touches_onBus hload

end Operations

/-! ## Events -/

/-- An event as it happens on the board of some variant. -/
def Occurs (variant : Variant) : Event → State → State → Prop
  | .act action, before, after => action.perform hardware (reporter variant) before = .ok () after
  | .probe passed, before, after => hardware.probe before = .ok passed after

/-- How many records of some events are printed. -/
def printedOf (log : LogFacade) (events : List Event) : Nat :=
  (recordsOf events).countP fun record => log.prints record.severity

section Events

variable {variant : Variant}

/-- A procedure that comes to its end has done so by some events. -/
theorem exists_occurring {α : Type} {procedure : Procedure α} {before after : State}
    {result : Except Overflow α}
    (h : procedure.run hardware (reporter variant) before = .ok result after) :
    ∃ events, Procedure.Path procedure events result ∧
      Trail (Occurs variant) before events after := by
  induction procedure generalizing before with
  | done value =>
    cases h
    exact ⟨[], .done value, .nil _⟩
  | overflow cause =>
    cases h
    exact ⟨[], .overflow cause, .nil _⟩
  | act action next ih =>
    rcases bind_eq_ok_iff.mp h with ⟨_, middle, hfirst, hrest⟩
    rcases ih hrest with ⟨events, hpath, htrail⟩
    exact ⟨_, .act hpath, .cons hfirst htrail⟩
  | probe next ih =>
    rcases bind_eq_ok_iff.mp h with ⟨passed, middle, hfirst, hrest⟩
    rcases ih passed hrest with ⟨events, hpath, htrail⟩
    exact ⟨_, .probe hpath, .cons hfirst htrail⟩

theorem log_of_occurs {event : Event} {before after : State}
    (h : Occurs variant event before after) : after.log = before.log := by
  cases event with
  | act action =>
    have hperformed : action.perform hardware (reporter variant) before = .ok () after := h
    have hkeeps := keeps_action variant action before
    rwa [hperformed] at hkeeps
  | probe passed =>
    have hchecked : registers.check testPatterns before = .ok passed after := h
    have hkeeps := keeps_check testPatterns before
    rwa [hchecked] at hkeeps

theorem touches_of_occurs {event : Event} {before after : State}
    (h : Occurs variant event before after) :
    State.Touches (printedOf before.log [event]) before after := by
  cases event with
  | probe passed => exact touches_check (List.Subset.refl _) _ _ _ h
  | act action =>
    cases action with
    | setDelay line taps => exact touches_drive _ _ _ _ h
    | stepPhase direction => exact touches_drive _ _ _ _ h
    | slip subPhase => exact touches_drive _ _ _ _ h
    | report pieces => exact touches_announce pieces _ _ _ h
    | log record =>
      have hcount : printedOf before.log [.act (.log record)] =
          if before.log.prints record.severity then 1 else 0 := by
        simp [printedOf, recordsOf, Event.record?, List.countP_cons]
      rw [hcount]
      exact touches_issue h

/-- Events leave the facade alone, and sample the timer once for each record that is printed. -/
theorem touches_of_trail {events : List Event} {before after : State}
    (h : Trail (Occurs variant) before events after) :
    after.log = before.log ∧ State.Touches (printedOf before.log events) before after := by
  -- The facade stays the same on the way, so all records are held against one threshold.
  induction h with
  | nil board => exact ⟨rfl, .refl board⟩
  | @cons event rest before middle after hoccurs _ ih =>
    have hlog := log_of_occurs hoccurs
    have hsplit : printedOf before.log (event :: rest) =
        printedOf before.log [event] + printedOf before.log rest := by
      have hrecords : recordsOf (event :: rest) = recordsOf [event] ++ recordsOf rest :=
        recordsOf_append [event] rest
      rw [printedOf, hrecords, List.countP_append]
      rfl
    rw [hlog] at ih
    rw [hsplit]
    exact ⟨ih.1, (touches_of_occurs hoccurs).trans ih.2⟩

end Events

/-! ## Before and after a calibration -/

/-- How the logging is prepared: the console logger is installed and the timer is started over for
it, or both are left alone. -/
inductive PreparesLogging (variant : Variant) (before after : State) : Prop where
  | installed (hlogger : variant.consoleLogger = true) (hfirst : before.log.logger = none)
      (hlog : after.log = ⟨some .console, .upTo .info⟩)
      (hrestarted : Restarted before.soc after.soc)
  | left (hleft : ¬(variant.consoleLogger = true ∧ before.log.logger = none))
      (hsame : after = before)

theorem preparesLogging {variant : Variant} {before after : State}
    (h : prepareLogging variant before = .ok () after) : PreparesLogging variant before after := by
  by_cases hfirst : variant.consoleLogger = true ∧ before.log.logger = none
  · rw [prepareLogging_of_first hfirst] at h
    have hends := (ends_restart before.soc).onBus ⟨before.soc, ⟨some .console, .upTo .info⟩⟩
    rcases hends.of_ok h with ⟨hrestarted, hlog⟩
    exact .installed hfirst.1 hfirst.2 hlog hrestarted
  · rw [prepareLogging_of_later hfirst] at h
    cases h
    exact .left hfirst rfl

/-- Whoever gives up does not return. -/
theorem giveUp_ne_ok {variant : Variant} {before after : State} :
    giveUp variant before ≠ .ok () after := by
  intro h
  rcases bind_eq_ok_iff.mp h with ⟨_, _, _, h⟩
  rcases bind_eq_ok_iff.mp h with ⟨_, counted, _, hreset⟩
  have hhalts : resetChip counted =
      .error .reset ⟨counted.soc.assigned .ctrlReset 1, counted.log⟩ := rfl
  cases hhalts.symm.trans hreset

end Board
end TimingEye
