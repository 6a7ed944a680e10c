import TimingEye.Proofs.Calibration.Effort
import TimingEye.Proofs.Phy.Ledger

/-!
# Room in the counters

A counter of a register bank faults when it would leave its word.  A bank whose counters have room
for as much as a calibration can ask of them goes through all of it.

* `Timing.Affords`: writes that no counter is too full for;
* `Timing.AffordsCall`, `Bank.not_faults`: operations that go through;
* `Bank.HasRoomFor`, `exists_course_of_room`: calibrations that go through.
-/

namespace TimingEye
namespace Phy

/-- The largest reading of a counter. -/
def Meter.capacity : Meter → Nat
  | .taps _ => 255
  | .steps _ | .hr2x90Slips | .hr2xSlips => 4294967295

namespace Timing

/-! ## Writes -/

/-- The counter that a write advances, if it advances one, is not full. -/
def AffordsWrite (timing : Timing) (signal : Signal) (value : UInt8) : Prop :=
  ∀ meter, timing.advanced signal = some meter → timing.level signal = 0 → value ≠ 0 →
    timing.meter meter < meter.capacity

/-- No write, in its turn, finds the counter it advances full. -/
def Affords (timing : Timing) : List (Signal × UInt8) → Prop
  | [] => True
  | write :: rest =>
    timing.AffordsWrite write.1 write.2 ∧ (timing.written write.1 write.2).Affords rest

theorem affords_append {timing : Timing} {first second : List (Signal × UInt8)} :
    timing.Affords (first ++ second) ↔
      timing.Affords first ∧ (timing.driven first).Affords second := by
  induction first generalizing timing with
  | nil => simp [Affords]
  | cons write rest ih => simp [Affords, ih, and_assoc]

theorem affords_reloadWrites (timing : Timing) (line : DelayLine) :
    timing.Affords (reloadWrites line) := by
  cases line <;>
    simp [reloadWrites, Affords, AffordsWrite, advanced, DelayLine.loadn, DelayLine.direction]

theorem affords_pulse {timing : Timing} {line : DelayLine}
    (hroom : timing.meter (.taps line) < 255) : timing.Affords (pulse line.move) := by
  cases line <;>
    simpa [pulse, Affords, AffordsWrite, advanced, DelayLine.move, Meter.capacity] using
      fun _ => hroom

/-- A pulse adds one tap at most. -/
theorem taps_driven_pulse_le (timing : Timing) (line : DelayLine) :
    (timing.driven (pulse line.move)).meter (.taps line) ≤ timing.meter (.taps line) + 1 := by
  rw [driven_pulse]
  simp [pulsed]

theorem affords_pulses {timing : Timing} {line : DelayLine} {count : Nat}
    (hroom : timing.meter (.taps line) + count ≤ 255) :
    timing.Affords (List.replicate count (pulse line.move)).flatten := by
  induction count generalizing timing with
  | zero => exact trivial
  | succ count ih =>
    have hpulse : timing.Affords (pulse line.move) := affords_pulse (by omega)
    have htaps := taps_driven_pulse_le timing line
    have hrest : (timing.driven (pulse line.move)).Affords
        (List.replicate count (pulse line.move)).flatten := ih (by omega)
    rw [List.replicate_succ, List.flatten_cons, affords_append]
    exact ⟨hpulse, hrest⟩

/-- A delay line is reloaded before it is set, so it always has room. -/
theorem affords_delayWrites (timing : Timing) (line : DelayLine) (taps : UInt8) :
    timing.Affords (delayWrites line taps) := by
  have hnone : (timing.delayed line 0).meter (.taps line) = 0 := by
    simp [delayed]
  have hoctet : taps.toNat < 256 := taps.toNat_lt
  have hpulses : (timing.delayed line 0).Affords
      (List.replicate taps.toNat (pulse line.move)).flatten := affords_pulses (by omega)
  rw [delayWrites, affords_append, driven_reloadWrites]
  exact ⟨affords_reloadWrites timing line, hpulses⟩

theorem affords_stepWrites {timing : Timing} {direction : PhaseDirection}
    (hroom : timing.meter (.steps direction) < 4294967295) :
    timing.Affords (stepWrites direction) := by
  cases direction <;>
    simpa [stepWrites, Affords, AffordsWrite, advanced, written, Meter.cleared, Meter.capacity,
      PhaseDirection.level] using hroom

/-- Only the lines that are pulsed need room. -/
theorem affords_slipWrites {timing : Timing} {subPhase : SubPhase}
    (h90 : subPhase.hr2x90 = true → timing.meter .hr2x90Slips < 4294967295)
    (h2x : subPhase.hr2x = true → timing.meter .hr2xSlips < 4294967295) :
    timing.Affords (slipWrites subPhase) := by
  rcases subPhase with ⟨_ | _, _ | _⟩ <;> simp only [forall_const] at h90 h2x <;>
    simp [slipWrites, Affords, AffordsWrite, advanced, written, Meter.cleared, Meter.capacity,
      Bool.toUInt8, h90, h2x]

/-! ## Operations -/

/-- An operation finds room in the counters it advances. -/
def AffordsCall (timing : Timing) : Call → Prop
  | .setDelay _ _ => True
  | .stepPhase direction => timing.meter (.steps direction) < 4294967295
  | .slip _ => timing.meter .hr2x90Slips < 4294967295 ∧ timing.meter .hr2xSlips < 4294967295
  | .probe _ => True

end Timing

namespace Bank

/-- No counter has more than its word holds. -/
theorem meter_le_capacity (bank : Bank) (meter : Meter) :
    bank.timing.meter meter ≤ meter.capacity := by
  rcases meter with (_ | _) | (_ | _) | _ | _
  case taps.clock => exact Nat.le_of_lt_succ bank.clockTaps.toNat_lt
  case taps.io => exact Nat.le_of_lt_succ bank.ioTaps.toNat_lt
  case steps.null => exact Nat.le_of_lt_succ bank.nullSteps.toNat_lt
  case steps.up => exact Nat.le_of_lt_succ bank.upSteps.toNat_lt
  case hr2x90Slips => exact Nat.le_of_lt_succ bank.hr2x90Slips.toNat_lt
  case hr2xSlips => exact Nat.le_of_lt_succ bank.hr2xSlips.toNat_lt

theorem exists_advance {bank : Bank} {meter : Meter}
    (hroom : bank.timing.meter meter < meter.capacity) :
    ∃ after, bank.advance meter = .ok after := by
  rcases meter with (_ | _) | (_ | _) | _ | _
  case taps.clock | taps.io => exact ⟨_, by rw [advance, nextOctet_of_lt hroom]; rfl⟩
  all_goals exact ⟨_, by rw [advance, nextWord_of_lt hroom]; rfl⟩

theorem exists_write {bank : Bank} {signal : Signal} {value : UInt8}
    (h : bank.timing.AffordsWrite signal value) :
    ∃ after, registers.write signal value bank = .ok () after := by
  have hreact : ∃ after, (bank.driven signal value).react value (bank.rises signal value) signal =
      .ok after := by
    by_cases hkept : Meter.cleared signal = none ∨ value ≠ 0
    · cases hrising : bank.rises signal value with
      | false => exact ⟨_, react_of_no_edge _ hkept⟩
      | true =>
        rw [react_eq_advance _ hkept, advanced_driven]
        cases hadvanced : bank.timing.advanced signal with
        | none => exact ⟨_, rfl⟩
        | some meter =>
          have hedge := rises_iff.mp hrising
          have hroom : (bank.driven signal value).timing.meter meter < meter.capacity :=
            h meter hadvanced hedge.1 hedge.2
          exact exists_advance hroom
    · -- Driven low, the lines that clear a counter clear it.
      have hlow : value = 0 := by
        by_contra hvalue
        exact hkept (.inr hvalue)
      subst hlow
      cases signal
      case clkLoadn | ioLoadn => exact ⟨_, rfl⟩
      all_goals exact absurd (.inl rfl) hkept
  rcases hreact with ⟨after, hafter⟩
  exact ⟨after, write_eq_ok_iff.mpr hafter⟩

theorem exists_drive {writes : List (Signal × UInt8)} {bank : Bank}
    (h : bank.timing.Affords writes) : ∃ after, registers.drive writes bank = .ok () after := by
  induction writes generalizing bank with
  | nil => exact ⟨bank, rfl⟩
  | cons write rest ih =>
    rcases exists_write h.1 with ⟨middle, hwrite⟩
    have hwritten : Written write.1 write.2 bank middle := written_of_write hwrite
    have hrest : middle.timing.Affords rest := by
      rw [hwritten.timing]
      exact h.2
    rcases ih hrest with ⟨after, hafter⟩
    refine ⟨after, ?_⟩
    rw [drive_cons, hwrite]
    exact hafter

/-- An operation that finds room does not fault. -/
theorem not_faults {call : Call} {cause : Overflow} {before final : Bank}
    (hroom : before.timing.AffordsCall call) :
    ¬hardware.Faults cause call before final := by
  have hdrive : ∀ {writes}, before.timing.Affords writes →
      registers.drive writes before ≠ .error cause final := by
    intro writes hafford hfault
    rcases exists_drive hafford with ⟨after, hafter⟩
    cases hafter.symm.trans hfault
  intro hfault
  cases call with
  | setDelay line taps => exact hdrive (Timing.affords_delayWrites _ line taps) hfault
  | stepPhase direction => exact hdrive (Timing.affords_stepWrites hroom) hfault
  | slip subPhase =>
    exact hdrive (Timing.affords_slipWrites (fun _ => hroom.1) fun _ => hroom.2) hfault
  | probe passed =>
    rcases exists_checked testPatterns before with ⟨_, _, _, hrun, _, _⟩
    cases hrun.symm.trans hfault

/-! ## Calibrations -/

/-- The counters of a bank have room for as much as a calibration may ask of them. -/
structure HasRoomFor (params : Params) (bank : Bank) : Prop where
  nullSteps : bank.nullSteps.toNat + params.coarseSteps.toNat * params.probes.toNat ≤ 4294967295
  upSteps : bank.upSteps.toNat + params.probes.toNat / 2 ≤ 4294967295
  hr2x90Slips : bank.hr2x90Slips.toNat + params.coarseSteps.toNat ≤ 4294967295
  hr2xSlips : bank.hr2xSlips.toNat + params.coarseSteps.toNat ≤ 4294967295

/-- All lines of a fresh bank are low. -/
theorem level_of_fresh (retention : Retention) (cell : UInt32) (signal : Signal) :
    ({ retention, cell } : Bank).timing.level signal = 0 :=
  LineLevels.level_low signal

theorem atRest_of_fresh (retention : Retention) (cell : UInt32) :
    ({ retention, cell } : Bank).timing.AtRest := by
  have hlow := level_of_fresh retention cell
  exact ⟨fun line => hlow line.move, hlow _, hlow _⟩

/-- All counters of a fresh bank are empty. -/
theorem meter_of_fresh (retention : Retention) (cell : UInt32) (meter : Meter) :
    ({ retention, cell } : Bank).timing.meter meter = 0 := by
  rcases meter with (_ | _) | (_ | _) | _ | _ <;> rfl

theorem hasRoomFor_of_fresh {params : Params} (retention : Retention) (cell : UInt32)
    (hcount : params.coarseSteps.toNat * params.probes.toNat < 4294967296) :
    ({ retention, cell } : Bank).HasRoomFor params := by
  have hsteps := params.coarseSteps.toNat_lt
  have hprobes := params.probes.toNat_lt
  have hempty : (0 : UInt32).toNat = 0 := rfl
  constructor <;> simp only [hempty] <;> omega

/-- Wherever a calibration has got to, its next call finds room. -/
theorem affordsCall_of_course {params : Params} {events : List Event} {verdict : Verdict}
    {earlier later : List Call} {call : Call} {start bank : Bank}
    (hcourse : Course params events verdict) (hcalls : calls events = earlier ++ call :: later)
    (hrest : start.timing.AtRest) (hroom : start.HasRoomFor params)
    (htrail : Trail hardware.Acts start earlier bank) : bank.timing.AffordsCall call := by
  have hlimits := hcourse.withinLimits
  have htiming := (timing_of_calls hrest htrail).1
  cases call with
  | setDelay line taps => exact trivial
  | probe passed => exact trivial
  | stepPhase direction =>
    -- The steps so far and this one are among those of the whole calibration.
    have hcount : earlier.count (.stepPhase direction) + 1 ≤
        (calls events).count (.stepPhase direction) := by
      rw [hcalls, List.count_append, List.count_cons_self]
      omega
    have hmeter := Timing.steps_afterAll start.timing earlier direction
    rw [← htiming] at hmeter
    change bank.timing.meter (.steps direction) < 4294967295
    cases direction with
    | null =>
      have hstart : start.timing.meter (.steps .null) = start.nullSteps.toNat := rfl
      have hall := hlimits.nullSteps
      have hprobes := hlimits.probeCount_le
      have hfits := hroom.nullSteps
      omega
    | up =>
      have hstart : start.timing.meter (.steps .up) = start.upSteps.toNat := rfl
      have hall := hlimits.upSteps
      have hfits := hroom.upSteps
      omega
  | slip subPhase =>
    have hcount : (slipsOf earlier).length + 1 ≤ (slipsOf (calls events)).length := by
      have hcons : slipsOf (.slip subPhase :: later) = subPhase :: slipsOf later := rfl
      rw [hcalls, slipsOf_append, hcons, List.length_append, List.length_cons]
      omega
    have hall := hlimits.slips
    have hmeters := Timing.slips_afterAll start.timing earlier
    rw [← htiming] at hmeters
    have h90 : (slipsOf earlier).countP (·.hr2x90) ≤ (slipsOf earlier).length :=
      List.countP_le_length
    have h2x : (slipsOf earlier).countP (·.hr2x) ≤ (slipsOf earlier).length :=
      List.countP_le_length
    have hstart90 : start.timing.meter .hr2x90Slips = start.hr2x90Slips.toNat := rfl
    have hstart2x : start.timing.meter .hr2xSlips = start.hr2xSlips.toNat := rfl
    have hfits90 := hroom.hr2x90Slips
    have hfits2x := hroom.hr2xSlips
    constructor <;> omega

/-- A bank with room goes through a whole calibration. -/
theorem exists_course_of_room (params : Params) (transcript : Transcript) {bank : Bank}
    (hrest : bank.timing.AtRest) (hroom : bank.HasRoomFor params) :
    ∃ events verdict final, Procedure.Path (calibrate params) events (.ok verdict) ∧
      Course params events verdict ∧ Trail hardware.Acts bank (calls events) final ∧
      (calibrate params).watch hardware transcript bank =
        .ok (.ok verdict, events.foldl Transcript.seen transcript) final := by
  have htakes := Procedure.takes_watch hardware (calibrate params) transcript bank
  generalize (calibrate params).watch hardware transcript bank = outcome at htakes ⊢
  cases htakes with
  | ended hpath htrail =>
    rcases Course.of_path hpath with ⟨verdict, rfl, hcourse⟩
    exact ⟨_, verdict, _, hpath, hcourse, htrail, rfl⟩
  | faulted later hpath hcalls htrail hfault =>
    rcases Course.of_path hpath with ⟨verdict, rfl, hcourse⟩
    have haffords := affordsCall_of_course hcourse hcalls hrest hroom htrail
    exact absurd hfault (not_faults haffords)

end Bank

end Phy
end TimingEye
