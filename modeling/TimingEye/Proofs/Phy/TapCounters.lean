import TimingEye.Proofs.Calibration.Bounds
import TimingEye.Proofs.Phy.Room

/-!
# Tap counters never overrun

A delay line is reloaded each time it is set, so its counter has room for the taps that follow,
whatever the bank has been through before.  The other counters of a bank only ever grow, and they
are the only ones that can stop a calibration.

* `Bank.Overran`: a bank that a write has left with a full counter;
* `Bank.exists_overran_of_faults`: a call that faults finds such a counter, which counts no taps;
* `calibration_in_bounds`: what a calibration counts and asks for, on any hardware and on any bank.
-/

namespace TimingEye
namespace Phy

theorem Timing.eq_move_of_advanced {timing : Timing} {signal : Signal} {line : DelayLine}
    (h : timing.advanced signal = some (.taps line)) : signal = line.move := by
  cases signal <;> cases h <;> rfl

namespace Bank

/-- The last access to a bank was a write to a line whose counter is full. -/
structure Overran (final : Bank) (meter : Meter) : Prop where
  last : ∃ earlier signal value, final.accesses.toList = earlier ++ [.write signal value] ∧
    final.timing.advanced signal = some meter
  full : final.timing.meter meter = meter.capacity

theorem exists_overran_of_write {signal : Signal} {value : UInt8} {bank final : Bank}
    {cause : Overflow} (h : registers.write signal value bank = .error cause final) :
    ∃ meter, final.Overran meter ∧ final.timing.advanced signal = some meter := by
  have hfinal : final = bank.driven signal value := by
    change write signal value bank = _ at h
    unfold write at h
    dsimp only at h
    split at h
    · cases h
    · cases h
      rfl
  have hadvanced := advanced_driven bank signal value
  rw [← hfinal] at hadvanced
  by_contra hnone
  have hafford : bank.timing.AffordsWrite signal value := by
    intro meter hmeter _ _
    have hkept : final.timing.meter meter = bank.timing.meter meter := by
      rw [hfinal]
      rfl
    refine lt_of_le_of_ne (meter_le_capacity bank meter) fun hfull => hnone ⟨meter, ?_, ?_⟩
    · refine ⟨⟨bank.accesses.toList, signal, value, ?_, hadvanced.trans hmeter⟩, hkept.trans hfull⟩
      rw [hfinal]
      exact Array.toList_push
    · exact hadvanced.trans hmeter
  rcases exists_write hafford with ⟨after, hafter⟩
  cases h.symm.trans hafter

theorem exists_overran_of_drive {writes : List (Signal × UInt8)} {bank final : Bank}
    {cause : Overflow} (h : registers.drive writes bank = .error cause final) :
    ∃ meter, final.Overran meter ∧
      ∃ write ∈ writes, final.timing.advanced write.1 = some meter := by
  induction writes generalizing bank with
  | nil => cases h
  | cons write rest ih =>
    rw [drive_cons] at h
    cases hwrite : registers.write write.1 write.2 bank with
    | error cause' final' =>
      rw [hwrite] at h
      cases h
      rcases exists_overran_of_write hwrite with ⟨meter, hoverran, hadvanced⟩
      exact ⟨meter, hoverran, write, List.mem_cons_self, hadvanced⟩
    | ok _ middle =>
      rw [hwrite] at h
      rcases ih h with ⟨meter, hoverran, other, hmem, hadvanced⟩
      exact ⟨meter, hoverran, other, List.mem_cons_of_mem _ hmem, hadvanced⟩

/-- A call that faults finds a counter full, and never one that counts taps. -/
theorem exists_overran_of_faults {call : Call} {cause : Overflow} {before final : Bank}
    (h : hardware.Faults cause call before final) :
    ∃ meter, final.Overran meter ∧ ∀ line, meter ≠ .taps line := by
  -- Apart from those of a delay line, no operation drives a move line.
  have hdrive : ∀ {writes}, (∀ write ∈ writes, ∀ line : DelayLine, write.1 ≠ line.move) →
      registers.drive writes before = .error cause final →
      ∃ meter, final.Overran meter ∧ ∀ line, meter ≠ .taps line := by
    intro writes hunmoved hfault
    rcases exists_overran_of_drive hfault with ⟨meter, hoverran, write, hmem, hadvanced⟩
    refine ⟨meter, hoverran, ?_⟩
    rintro line rfl
    exact hunmoved write hmem line (Timing.eq_move_of_advanced hadvanced)
  cases call with
  | setDelay line taps => exact absurd h (not_faults trivial)
  | probe passed => exact absurd h (not_faults trivial)
  | stepPhase direction =>
    refine hdrive ?_ h
    intro write hmem line
    simp only [stepWrites, List.mem_cons, List.not_mem_nil, or_false] at hmem
    rcases hmem with rfl | rfl | rfl | rfl <;> cases line <;> simp [DelayLine.move]
  | slip subPhase =>
    refine hdrive ?_ h
    intro write hmem line
    simp only [slipWrites, List.mem_cons, List.not_mem_nil, or_false] at hmem
    rcases hmem with rfl | rfl | rfl | rfl <;> cases line <;> simp [DelayLine.move]

end Bank

/-- A calibration stays in bounds.

At each of its points, whatever the answers so far, its counters have room for what is counted
next.  On all hardware it comes to a verdict, with no more calls than its limits allow.  On a bank,
in whatever state, it comes to a verdict too, unless a counter of steps or slips is too full; the
counters of taps never are. -/
theorem calibration_in_bounds (params : Params) :
    (calibrate params).Throughout (InBounds params) [] ∧
    (∀ (σ : Type) (hardware : Hardware (StateM σ)) (progress : Option Sink)
        (threshold : Threshold) (start : σ),
      let run := (calibrationRun hardware params progress threshold start).1
      let calls := run.2.calls.toList
      ∃ verdict, run.1 = .ok verdict ∧
        verdict.visited ≤ params.coarseSteps.toNat ∧
        (delaysOf .clock calls).length = verdict.visited ∧
        (delaysOf .io calls).length = verdict.visited ∧
        (∀ taps ∈ delaysOf .clock calls, taps.toNat ≤ 63) ∧
        probeCount calls ≤ params.coarseSteps.toNat * params.probes.toNat ∧
        calls.count (.stepPhase .null) = probeCount calls ∧
        (slipsOf calls).length ≤ params.coarseSteps.toNat ∧
        calls.count (.stepPhase .up) ≤ params.probes.toNat / 2) ∧
    (∀ (bank : Bank) (transcript : Transcript),
      (∃ verdict seen final,
        (calibrate params).watch Bank.hardware transcript bank = .ok (.ok verdict, seen) final) ∨
      (∃ cause final meter,
        (calibrate params).watch Bank.hardware transcript bank = .error cause final ∧
        final.Overran meter ∧ ∀ line, meter ≠ .taps line)) := by
  refine ⟨throughout_calibrate params, ?_, ?_⟩
  · intro σ hardware progress threshold start run calls
    rcases exists_course_calibrationRun hardware params progress threshold start with
      ⟨events, verdict, hcourse, _, hverdict, hcalls⟩
    change calls = _ at hcalls
    have hlimits := hcourse.withinLimits
    have hvisited := hcourse.length_answerRows
    rcases hcourse.delaysOf_calls with ⟨hclock, hio⟩
    rw [hcalls]
    refine ⟨verdict, hverdict, ?_, ?_, ?_, hcourse.clockDelay_le, hlimits.probeCount_le,
      hlimits.nullSteps, hlimits.slips, hlimits.upSteps⟩
    · exact hvisited ▸ hlimits.settings
    · rw [hclock, List.length_map, List.length_range, hvisited]
    · rw [hio, List.length_replicate, hvisited]
  · intro bank transcript
    have htakes := Procedure.takes_watch Bank.hardware (calibrate params) transcript bank
    generalize (calibrate params).watch Bank.hardware transcript bank = outcome at htakes ⊢
    cases htakes with
    | ended hpath htrail =>
      rcases Course.of_path hpath with ⟨verdict, rfl, _⟩
      exact .inl ⟨verdict, _, _, rfl⟩
    | faulted later hpath hcalls htrail hfault =>
      rcases Bank.exists_overran_of_faults hfault with ⟨meter, hoverran, htaps⟩
      exact .inr ⟨_, _, meter, rfl, hoverran, htaps⟩

end Phy
end TimingEye
