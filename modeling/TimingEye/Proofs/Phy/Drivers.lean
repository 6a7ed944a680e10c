import TimingEye.Proofs.Calibration.CallOrder
import TimingEye.Proofs.Phy.Accesses

/-!
# What the drivers do to the timing

Each operation of the timing hardware is a fixed sequence of control-line writes.  As long as the
move lines and the slip lines are low between operations, each of them has a simple effect on the
timing of a bank, and leaves those lines low again.

* `Timing.after`: the timing after one operation, and `Timing.afterAll` after several;
* `Timing.AtRest`: the lines between two operations;
* `Timing.pulsed`, `Timing.driven_pulses`: pulses of a move line, at whatever level it was;
* `timing_of_calls`: on a bank at rest, the calls tell the timing.
-/

namespace TimingEye
namespace Phy

namespace Timing

/-! ## The effect of each operation -/

/-- The timing after a delay line has been set. -/
def delayed (timing : Timing) (line : DelayLine) (taps : Nat) : Timing where
  level signal :=
    if signal = line.loadn then 1
    else if signal = line.direction then 0
    else timing.level signal
  meter meter := if meter = .taps line then taps else timing.meter meter

/-- The timing after a delay line has gained some taps. -/
def tapped (timing : Timing) (line : DelayLine) (count : Nat) : Timing where
  level := timing.level
  meter meter :=
    if meter = .taps line then timing.meter meter + count else timing.meter meter

/-- The timing after a phase step. -/
def stepped (timing : Timing) (direction : PhaseDirection) : Timing where
  level
    | .phaseSel => 0
    | .phaseDir => direction.level
    | .phaseStep => 1
    | signal => timing.level signal
  meter meter :=
    if meter = .steps direction then timing.meter meter + 1 else timing.meter meter

/-- The timing after the selected slip lines have been pulsed. -/
def slipped (timing : Timing) (subPhase : SubPhase) : Timing where
  level := timing.level
  meter
    | .hr2x90Slips => timing.meter .hr2x90Slips + subPhase.hr2x90.toNat
    | .hr2xSlips => timing.meter .hr2xSlips + subPhase.hr2x.toNat
    | meter => timing.meter meter

/-- The timing after an operation. -/
def after (timing : Timing) : Call → Timing
  | .setDelay line taps => timing.delayed line taps.toNat
  | .stepPhase direction => timing.stepped direction
  | .slip subPhase => timing.slipped subPhase
  | .probe _ => timing

/-- The timing after operations in order. -/
def afterAll (timing : Timing) (calls : List Call) : Timing :=
  calls.foldl after timing

theorem afterAll_concat (timing : Timing) (calls : List Call) (call : Call) :
    timing.afterAll (calls ++ [call]) = (timing.afterAll calls).after call :=
  List.foldl_concat ..

/-- Between two operations the move lines and the slip lines are low. -/
structure AtRest (timing : Timing) : Prop where
  move : ∀ line : DelayLine, timing.level line.move = 0
  slipHr2x90 : timing.level .slipHr2x90 = 0
  slipHr2x : timing.level .slipHr2x = 0

theorem AtRest.after {timing : Timing} (h : timing.AtRest) (call : Call) :
    (timing.after call).AtRest := by
  cases call with
  | setDelay line taps =>
    have h90 := h.slipHr2x90
    have h2x := h.slipHr2x
    refine ⟨fun other => ?_, ?_, ?_⟩
    · have hmove := h.move other
      cases line <;> cases other <;> exact hmove
    · cases line <;> exact h90
    · cases line <;> exact h2x
  | stepPhase direction =>
    refine ⟨fun line => ?_, h.slipHr2x90, h.slipHr2x⟩
    have hmove := h.move line
    cases line <;> exact hmove
  | slip subPhase => exact ⟨h.move, h.slipHr2x90, h.slipHr2x⟩
  | probe passed => exact h

/-! ## Pulses of a move line -/

/-- A reload leaves the move line alone. -/
@[simp] theorem level_delayed_move (timing : Timing) (line : DelayLine) (taps : Nat) :
    (timing.delayed line taps).level line.move = timing.level line.move := by
  cases line <;> rfl

theorem tapped_delayed_zero (timing : Timing) (line : DelayLine) (count : Nat) :
    (timing.delayed line 0).tapped line count = timing.delayed line count := by
  ext other
  · rfl
  · by_cases hother : other = .taps line
    · simp [tapped, delayed, hother]
    · simp [tapped, delayed, hother]

/-- The pulses of a move line that are lost: the first one, where the line is high already. -/
def lostPulses (timing : Timing) (line : DelayLine) : Nat :=
  if timing.level line.move = 0 then 0 else 1

/-- The timing after some pulses of a move line, at whatever level it was. -/
def pulsed (timing : Timing) (line : DelayLine) (count : Nat) : Timing where
  level signal := if signal = line.move ∧ count ≠ 0 then 0 else timing.level signal
  meter meter :=
    if meter = .taps line then timing.meter meter + (count - timing.lostPulses line)
    else timing.meter meter

theorem driven_pulse (timing : Timing) (line : DelayLine) :
    timing.driven (pulse line.move) = timing.pulsed line 1 := by
  ext other
  · by_cases hother : other = line.move <;> simp [pulse, written, pulsed, hother]
  · -- A line that is high rises on no write, and the pulse does no more than lower it.
    by_cases hmove : timing.level line.move = 0 <;> cases line <;>
      simp only [DelayLine.move] at hmove ⊢ <;>
      simp [pulse, written, pulsed, lostPulses, advanced, Meter.cleared, DelayLine.move, hmove,
        eq_comm]

/-- A pulse leaves its line low, so that no later one is lost. -/
theorem lostPulses_pulsed (timing : Timing) (line : DelayLine) (count : Nat) :
    (timing.pulsed line count).lostPulses line =
      if count = 0 then timing.lostPulses line else 0 := by
  by_cases hcount : count = 0 <;> simp [lostPulses, pulsed, hcount]

theorem pulsed_pulsed_one (timing : Timing) (line : DelayLine) (count : Nat) :
    (timing.pulsed line count).pulsed line 1 = timing.pulsed line (count + 1) := by
  have hlost : timing.lostPulses line ≤ 1 := by
    rw [lostPulses]
    split <;> decide
  ext other
  · by_cases hother : other = line.move <;> simp [pulsed, hother]
  · by_cases hother : other = .taps line
    · have hcounts : count - timing.lostPulses line +
          (1 - (if count = 0 then timing.lostPulses line else 0)) =
            count + 1 - timing.lostPulses line := by
        split <;> omega
      calc
        ((timing.pulsed line count).pulsed line 1).meter other
            = timing.meter other + (count - timing.lostPulses line) +
                (1 - (if count = 0 then timing.lostPulses line else 0)) := by
          rw [← lostPulses_pulsed]
          simp [pulsed, hother]
        _ = timing.meter other + (count + 1 - timing.lostPulses line) := by
          rw [Nat.add_assoc, hcounts]
        _ = (timing.pulsed line (count + 1)).meter other := by
          simp [pulsed, hother]
    · simp [pulsed, hother]

/-- Each pulse of a move line adds a tap, but for the first one where the line was high. -/
theorem driven_pulses (timing : Timing) (line : DelayLine) (count : Nat) :
    timing.driven (List.replicate count (pulse line.move)).flatten = timing.pulsed line count := by
  induction count with
  | zero => ext other <;> simp [pulsed]
  | succ count ih =>
    calc
      timing.driven (List.replicate (count + 1) (pulse line.move)).flatten
          = (timing.driven (List.replicate count (pulse line.move)).flatten).driven
              (pulse line.move) := by
        rw [List.replicate_succ', List.flatten_append, List.flatten_singleton, driven_append]
      _ = (timing.pulsed line count).pulsed line 1 := by
        rw [ih, driven_pulse]
      _ = timing.pulsed line (count + 1) := pulsed_pulsed_one timing line count

/-- On a line that is low no pulse is lost. -/
theorem pulsed_eq_tapped {timing : Timing} {line : DelayLine} (hmove : timing.level line.move = 0)
    (count : Nat) : timing.pulsed line count = timing.tapped line count := by
  ext other
  · by_cases hother : other = line.move <;> simp [pulsed, tapped, hother, hmove]
  · simp [pulsed, tapped, lostPulses, hmove]

/-! ## Writes with the effect of an operation -/

/-- Reloading a delay line drops its taps. -/
theorem driven_reloadWrites (timing : Timing) (line : DelayLine) :
    timing.driven (reloadWrites line) = timing.delayed line 0 := by
  ext other
  · cases line <;> cases other <;>
      simp [reloadWrites, written, delayed, DelayLine.loadn, DelayLine.direction]
  · cases line <;> rcases other with (_ | _) | (_ | _) | _ | _ <;>
      simp [reloadWrites, written, delayed, advanced, Meter.cleared, DelayLine.loadn,
        DelayLine.direction]

theorem driven_delayWrites {timing : Timing} {line : DelayLine}
    (hmove : timing.level line.move = 0) (taps : UInt8) :
    timing.driven (delayWrites line taps) = timing.delayed line taps.toNat := by
  have hlow : (timing.delayed line 0).level line.move = 0 := by
    rw [level_delayed_move, hmove]
  calc
    timing.driven (delayWrites line taps)
        = (timing.delayed line 0).driven
            (List.replicate taps.toNat (pulse line.move)).flatten := by
      rw [delayWrites, driven_append, driven_reloadWrites]
    _ = (timing.delayed line 0).tapped line taps.toNat := by
      rw [driven_pulses, pulsed_eq_tapped hlow]
    _ = timing.delayed line taps.toNat := tapped_delayed_zero timing line taps.toNat

theorem driven_stepWrites (timing : Timing) (direction : PhaseDirection) :
    timing.driven (stepWrites direction) = timing.stepped direction := by
  ext other
  · cases other <;> simp [stepWrites, written, stepped]
  · cases direction <;> rcases other with (_ | _) | (_ | _) | _ | _ <;>
      simp [stepWrites, written, stepped, advanced, Meter.cleared, PhaseDirection.level]

theorem driven_slipWrites {timing : Timing} (h90 : timing.level .slipHr2x90 = 0)
    (h2x : timing.level .slipHr2x = 0) (subPhase : SubPhase) :
    timing.driven (slipWrites subPhase) = timing.slipped subPhase := by
  ext other
  · cases other <;> simp [slipWrites, written, slipped, h90, h2x]
  · rcases subPhase with ⟨_ | _, _ | _⟩ <;> rcases other with (_ | _) | (_ | _) | _ | _ <;>
      simp [slipWrites, written, slipped, advanced, Meter.cleared, h90, h2x, Bool.toUInt8]

end Timing

/-! ## Calls on a bank -/

namespace Bank

/-- The accesses of an operation that goes through. -/
def Uses : Call → List Access → Prop
  | .setDelay line taps, accesses => accesses = (delayWrites line taps).map Access.ofWrite
  | .stepPhase direction, accesses => accesses = (stepWrites direction).map Access.ofWrite
  | .slip subPhase, accesses => accesses = (slipWrites subPhase).map Access.ofWrite
  | .probe passed, accesses => Checked testPatterns accesses passed

theorem exists_uses {call : Call} {before after : Bank} (h : hardware.Acts call before after) :
    ∃ accesses, Uses call accesses ∧ Trail Does before accesses after := by
  cases call with
  | setDelay line taps => exact ⟨_, rfl, trail_of_drive h⟩
  | stepPhase direction => exact ⟨_, rfl, trail_of_drive h⟩
  | slip subPhase => exact ⟨_, rfl, trail_of_drive h⟩
  | probe passed =>
    rcases exists_checked testPatterns before with ⟨answer, accesses, final, hrun, hchecked, htrail⟩
    have hresult : EStateM.Result.ok answer final = .ok passed after := hrun.symm.trans h
    cases hresult
    exact ⟨accesses, hchecked, htrail⟩

/-- Only a control-line write can fault, and it is preceded by such writes. -/
theorem exists_traced_of_faults {α : Type} {call : Call} {cause : Overflow} {before final : Bank}
    (h : hardware.Faults cause call before final) :
    ∃ trace last, (∀ access ∈ trace, access.isWrite = true) ∧
      Traced before (.error cause final : EStateM.Result Overflow Bank α) trace last := by
  cases call with
  | setDelay line taps => exact exists_traced_of_drive h
  | stepPhase direction => exact exists_traced_of_drive h
  | slip subPhase => exact exists_traced_of_drive h
  | probe passed =>
    rcases exists_checked testPatterns before with ⟨_, _, _, hrun, _, _⟩
    cases hrun.symm.trans h

/-- On a bank at rest, an operation has its effect. -/
theorem timing_of_acts {call : Call} {before after : Bank} (hrest : before.timing.AtRest)
    (h : hardware.Acts call before after) : after.timing = before.timing.after call := by
  rcases exists_uses h with ⟨accesses, huses, htrail⟩
  cases call with
  | setDelay line taps =>
    subst huses
    calc
      after.timing = before.timing.driven (delayWrites line taps) := timing_of_writes htrail
      _ = before.timing.delayed line taps.toNat := Timing.driven_delayWrites (hrest.move line) taps
  | stepPhase direction =>
    subst huses
    calc
      after.timing = before.timing.driven (stepWrites direction) := timing_of_writes htrail
      _ = before.timing.stepped direction := Timing.driven_stepWrites before.timing direction
  | slip subPhase =>
    subst huses
    calc
      after.timing = before.timing.driven (slipWrites subPhase) := timing_of_writes htrail
      _ = before.timing.slipped subPhase :=
        Timing.driven_slipWrites hrest.slipHr2x90 hrest.slipHr2x subPhase
  | probe passed => exact timing_of_trail htrail huses.isWrite_eq_false

/-- On a bank at rest, the calls tell the timing, and the bank is at rest after them. -/
theorem timing_of_calls {calls : List Call} {before after : Bank} (hrest : before.timing.AtRest)
    (h : Trail hardware.Acts before calls after) :
    after.timing = before.timing.afterAll calls ∧ after.timing.AtRest := by
  -- Each operation leaves the bank at rest, and so ready for the next one.
  induction h with
  | nil bank => exact ⟨rfl, hrest⟩
  | @cons call _ _ _ _ hstep _ ih =>
    have heffect := timing_of_acts hrest hstep
    have hmiddle := hrest.after call
    rw [← heffect] at hmiddle
    rcases ih hmiddle with ⟨htiming, hafter⟩
    rw [heffect] at htiming
    exact ⟨htiming, hafter⟩

end Bank

end Phy
end TimingEye
