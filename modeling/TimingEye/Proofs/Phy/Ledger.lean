import TimingEye.Proofs.Phy.Drivers

/-!
# The ledger of a register bank

On a bank at rest the timing is a ledger of the calls: a delay line holds the taps it was last set
to, and each of the other counters has gone up by the number of calls that name it.

* `delayLine_afterAll`: the taps and the lines of a delay line that has been set;
* `slips_afterAll`, `steps_afterAll`: the slip counters and the step counters;
* `phaseLines_afterAll`: the lines that the phase steps leave behind;
* `gained`: what some calls add to one of these;
* `countP_slipsUpTo`: the slips into the first settings, bit by bit.
-/

namespace TimingEye

/-! ## Slips by bit -/

theorem countP_slipsUpTo {coarse : Nat} (h : coarse < 256) :
    (slipsUpTo coarse).countP (·.hr2x90) = (List.range' 1 coarse).countP (·.testBit 0) ∧
    (slipsUpTo coarse).countP (·.hr2x) = (List.range' 1 coarse).countP (·.testBit 1) := by
  induction coarse with
  | zero => exact ⟨rfl, rfl⟩
  | succ coarse ih =>
    have hslip : SubPhase.ofCoarse (UInt8.ofNat (coarse + 1)) =
        ⟨(coarse + 1).testBit 0, (coarse + 1).testBit 1⟩ := by
      rw [SubPhase.ofCoarse_eq, UInt8.toNat_ofNat_of_lt' h]
    rcases ih (Nat.lt_of_succ_lt h) with ⟨h90, h2x⟩
    have hrange : List.range' 1 (coarse + 1) = List.range' 1 coarse ++ [coarse + 1] := by
      rw [List.range'_concat, Nat.one_mul, Nat.add_comm]
    rw [slipsUpTo_succ, hslip, hrange, List.countP_append, List.countP_append, List.countP_append,
      List.countP_append, h90, h2x]
    exact ⟨rfl, rfl⟩

/-! ## Steps in order -/

/-- The phase step that a call asks for. -/
def Call.step? : Call → Option PhaseDirection
  | .stepPhase direction => some direction
  | .setDelay _ _ | .slip _ | .probe _ => none

/-- All phase steps that were asked for, in order. -/
def stepsOf (calls : List Call) : List PhaseDirection :=
  calls.filterMap Call.step?

@[simp] theorem stepsOf_append (first second : List Call) :
    stepsOf (first ++ second) = stepsOf first ++ stepsOf second := by
  simp [stepsOf]

namespace Phy
namespace Timing

/-! ## Counters by calls -/

theorem after_setDelay_self (timing : Timing) (line : DelayLine) (taps : UInt8) :
    (timing.after (.setDelay line taps)).meter (.taps line) = taps.toNat ∧
    (timing.after (.setDelay line taps)).level line.loadn = 1 ∧
    (timing.after (.setDelay line taps)).level line.direction = 0 := by
  cases line <;> exact ⟨rfl, rfl, rfl⟩

theorem after_of_ne (timing : Timing) {line : DelayLine} {call : Call}
    (h : ¬∃ taps, call = .setDelay line taps) :
    (timing.after call).meter (.taps line) = timing.meter (.taps line) ∧
    (timing.after call).level line.loadn = timing.level line.loadn ∧
    (timing.after call).level line.direction = timing.level line.direction := by
  cases call with
  | setDelay other taps =>
    have hother : other ≠ line := fun heq => h ⟨taps, by rw [heq]⟩
    cases line <;> cases other <;> first | exact absurd rfl hother | exact ⟨rfl, rfl, rfl⟩
  | _ => cases line <;> exact ⟨rfl, rfl, rfl⟩

theorem delaysOf_singleton_eq_nil_iff {line : DelayLine} {call : Call} :
    delaysOf line [call] = [] ↔ ¬∃ taps, call = .setDelay line taps := by
  cases call with
  | setDelay other last => by_cases hother : other = line <;> simp [delaysOf, Call.delay?, hother]
  | _ => simp [delaysOf, Call.delay?]

/-- A delay line that has been set holds the taps it was last set to, and is ready for more. -/
theorem delayLine_afterAll (timing : Timing) {line : DelayLine} {calls : List Call} {taps : UInt8}
    (h : (delaysOf line calls).getLast? = some taps) :
    (timing.afterAll calls).meter (.taps line) = taps.toNat ∧
    (timing.afterAll calls).level line.loadn = 1 ∧
    (timing.afterAll calls).level line.direction = 0 := by
  induction calls using List.reverseRecOn with
  | nil => cases h
  | append_singleton calls call ih =>
    rw [delaysOf_append] at h
    rw [afterAll_concat]
    by_cases hset : ∃ taps, call = .setDelay line taps
    · -- This call is the one that counts.
      rcases hset with ⟨last, rfl⟩
      have hlast : last = taps := by
        simpa [delaysOf, Call.delay?] using h
      subst hlast
      exact after_setDelay_self _ line last
    · -- Any other call leaves this line alone.
      rw [delaysOf_singleton_eq_nil_iff.mpr hset, List.append_nil] at h
      rcases ih h with ⟨htaps, hloadn, hdirection⟩
      rcases after_of_ne (timing.afterAll calls) hset with ⟨htaps', hloadn', hdirection'⟩
      exact ⟨htaps'.trans htaps, hloadn'.trans hloadn, hdirection'.trans hdirection⟩

/-- A delay line that has not been set is as it was. -/
theorem delayLine_afterAll_of_unset (timing : Timing) {line : DelayLine} {calls : List Call}
    (h : delaysOf line calls = []) :
    (timing.afterAll calls).meter (.taps line) = timing.meter (.taps line) ∧
    (timing.afterAll calls).level line.loadn = timing.level line.loadn ∧
    (timing.afterAll calls).level line.direction = timing.level line.direction := by
  induction calls using List.reverseRecOn with
  | nil => exact ⟨rfl, rfl, rfl⟩
  | append_singleton calls call ih =>
    rw [delaysOf_append, List.append_eq_nil_iff] at h
    rcases ih h.1 with ⟨htaps, hloadn, hdirection⟩
    rcases after_of_ne (timing.afterAll calls) (delaysOf_singleton_eq_nil_iff.mp h.2) with
      ⟨htaps', hloadn', hdirection'⟩
    rw [afterAll_concat]
    exact ⟨htaps'.trans htaps, hloadn'.trans hloadn, hdirection'.trans hdirection⟩

/-- Each slip counter has gone up by the number of slips of its line. -/
theorem slips_afterAll (timing : Timing) (calls : List Call) :
    (timing.afterAll calls).meter .hr2x90Slips =
      timing.meter .hr2x90Slips + (slipsOf calls).countP (·.hr2x90) ∧
    (timing.afterAll calls).meter .hr2xSlips =
      timing.meter .hr2xSlips + (slipsOf calls).countP (·.hr2x) := by
  induction calls using List.reverseRecOn with
  | nil => exact ⟨rfl, rfl⟩
  | append_singleton calls call ih =>
    rcases ih with ⟨h90, h2x⟩
    rw [afterAll_concat, slipsOf_append, List.countP_append, List.countP_append,
      ← Nat.add_assoc, ← Nat.add_assoc, ← h90, ← h2x]
    cases call with
    | slip subPhase => rcases subPhase with ⟨_ | _, _ | _⟩ <;> exact ⟨rfl, rfl⟩
    | _ => exact ⟨rfl, rfl⟩

/-- Each step counter has gone up by the number of steps of its direction. -/
theorem steps_afterAll (timing : Timing) (calls : List Call) (direction : PhaseDirection) :
    (timing.afterAll calls).meter (.steps direction) =
      timing.meter (.steps direction) + calls.count (.stepPhase direction) := by
  induction calls using List.reverseRecOn with
  | nil => rfl
  | append_singleton calls call ih =>
    have hcall : ∀ timing : Timing, (timing.after call).meter (.steps direction) =
        timing.meter (.steps direction) + [call].count (.stepPhase direction) := by
      intro timing
      cases call with
      | stepPhase other => cases direction <;> cases other <;> rfl
      | setDelay line taps => cases line <;> rfl
      | _ => rfl
    rw [afterAll_concat, List.count_append, ← Nat.add_assoc, ← ih]
    exact hcall _

/-- The steps leave the phase lines as the last one of them has set these. -/
theorem phaseLines_afterAll (timing : Timing) (calls : List Call) :
    (timing.afterAll calls).level .phaseDir =
      ((stepsOf calls).getLast?.map PhaseDirection.level).getD (timing.level .phaseDir) ∧
    (timing.afterAll calls).level .phaseSel =
      if stepsOf calls = [] then timing.level .phaseSel else 0 := by
  induction calls using List.reverseRecOn with
  | nil => exact ⟨rfl, rfl⟩
  | append_singleton calls call ih =>
    rw [afterAll_concat, stepsOf_append]
    by_cases hstep : ∃ direction, call = .stepPhase direction
    · rcases hstep with ⟨direction, rfl⟩
      have hlast : stepsOf [.stepPhase direction] = [direction] := rfl
      rw [hlast, List.getLast?_concat, if_neg (List.concat_ne_nil direction _)]
      exact ⟨rfl, rfl⟩
    · -- Any other call leaves both lines alone.
      have hnone : stepsOf [call] = [] := by
        cases call with
        | stepPhase direction => exact absurd ⟨direction, rfl⟩ hstep
        | _ => rfl
      have hkept : ∀ timing : Timing,
          (timing.after call).level .phaseDir = timing.level .phaseDir ∧
          (timing.after call).level .phaseSel = timing.level .phaseSel := by
        intro timing
        cases call with
        | stepPhase direction => exact absurd ⟨direction, rfl⟩ hstep
        | setDelay line taps => cases line <;> exact ⟨rfl, rfl⟩
        | _ => exact ⟨rfl, rfl⟩
      rw [hnone, List.append_nil, (hkept _).1, (hkept _).2]
      exact ih

end Timing

/-- The counters that no operation clears. -/
def Meter.Lasts : Meter → Prop
  | .taps _ => False
  | .steps _ | .hr2x90Slips | .hr2xSlips => True

/-- What some calls add to a counter that lasts. -/
def gained (calls : List Call) : Meter → Nat
  | .taps _ => 0
  | .steps direction => calls.count (.stepPhase direction)
  | .hr2x90Slips => (slipsOf calls).countP (·.hr2x90)
  | .hr2xSlips => (slipsOf calls).countP (·.hr2x)

theorem gained_append (first second : List Call) (meter : Meter) :
    gained (first ++ second) meter = gained first meter + gained second meter := by
  cases meter <;> simp [gained]

theorem Timing.lasting_afterAll (timing : Timing) (calls : List Call) {meter : Meter}
    (h : meter.Lasts) :
    (timing.afterAll calls).meter meter = timing.meter meter + gained calls meter := by
  cases meter with
  | taps line => cases h
  | steps direction => exact timing.steps_afterAll calls direction
  | hr2x90Slips => exact (timing.slips_afterAll calls).1
  | hr2xSlips => exact (timing.slips_afterAll calls).2

end Phy
end TimingEye
