import TimingEye.Proofs.Phy.Room

/-!
# Setting a delay line on any bank

A delay line can be set whatever its bank has been through.  At most one tap gets lost on the way:
where the move line was left high, the first pulse finds no edge to rise on.

* `pulsesAfterReload`, `Timing.driven_pulsesAfterReload`: how far the writes have got, and the
  timing there;
* `Bank.SameMemory`: banks that hold the same word and treat writes to it alike;
* `Bank.SetsDelay`: what setting a delay line comes to, and what it leaves alone;
* `delay_set_on_any_bank`: that is what it does to every bank.
-/

namespace TimingEye
namespace Phy

/-! ## Pulses after a reload -/

/-- The writes that set a delay line, up to some of its pulses. -/
def pulsesAfterReload (line : DelayLine) (count : Nat) : List (Signal × UInt8) :=
  reloadWrites line ++ (List.replicate count (pulse line.move)).flatten

theorem delayWrites_eq_append (line : DelayLine) {taps : UInt8} {count : Nat}
    (h : count ≤ taps.toNat) :
    delayWrites line taps = pulsesAfterReload line count ++
      (List.replicate (taps.toNat - count) (pulse line.move)).flatten := by
  rw [pulsesAfterReload, List.append_assoc, ← List.flatten_append, ← List.replicate_add,
    Nat.add_sub_cancel' h]
  rfl

theorem Timing.driven_pulsesAfterReload (timing : Timing) (line : DelayLine) (count : Nat) :
    timing.driven (pulsesAfterReload line count) = (timing.delayed line 0).pulsed line count := by
  rw [pulsesAfterReload, driven_append, driven_reloadWrites, driven_pulses]

/-! ## What is left alone -/

namespace Bank

/-- The taps that a delay line holds. -/
def taps (bank : Bank) : DelayLine → UInt8
  | .clock => bank.clockTaps
  | .io => bank.ioTaps

theorem meter_taps (bank : Bank) (line : DelayLine) :
    bank.timing.meter (.taps line) = (bank.taps line).toNat := by
  cases line <;> rfl

/-- Two banks hold the same word, and treat accesses to it alike. -/
structure SameMemory (before after : Bank) : Prop where
  retention : after.retention = before.retention
  cell : after.cell = before.cell
  forced : after.forced = before.forced

/-- Control-line writes do not reach the memory. -/
theorem sameMemory_of_writes {writes : List (Signal × UInt8)} {before after : Bank}
    (h : Trail Does before (writes.map Access.ofWrite) after) : SameMemory before after := by
  induction writes generalizing before with
  | nil =>
    cases h
    exact ⟨rfl, rfl, rfl⟩
  | cons write rest ih =>
    rcases Trail.cons_iff.mp h with ⟨middle, hwrite, hrest⟩
    have hwritten : Written write.1 write.2 before middle := written_of_write hwrite
    have hlater := ih hrest
    exact ⟨hlater.retention.trans hwritten.same.retention,
      hlater.cell.trans hwritten.same.cell, hlater.forced.trans hwritten.same.forced⟩

/-- What setting a delay line comes to, and what it leaves alone. -/
structure SetsDelay (before : Bank) (line : DelayLine) (taps : UInt8) (after : Bank) : Prop where
  /-- All that is done are writes to the lines of the delay line, two for each tap. -/
  accesses : ∃ made, after.accesses.toList = before.accesses.toList ++ made ∧
    made = (delayWrites line taps).map Access.ofWrite ∧ made.length = 3 + 2 * taps.toNat ∧
    ∀ access ∈ made, access.isWrite = true
  loadn : after.lines.level line.loadn = 1
  direction : after.lines.level line.direction = 0
  move : after.lines.level line.move = if taps = 0 then before.lines.level line.move else 0
  tapsHeld : (after.taps line).toNat =
    if before.lines.level line.move = 0 ∨ taps = 0 then taps.toNat else taps.toNat - 1
  /-- After any number of its pulses the line has as many taps, or one less if it was high. -/
  pulses : ∀ count ≤ taps.toNat, ∃ reached,
    Trail Does before ((pulsesAfterReload line count).map Access.ofWrite) reached ∧
    Trail Does reached
      ((List.replicate (taps.toNat - count) (pulse line.move)).flatten.map Access.ofWrite) after ∧
    (reached.taps line).toNat = if before.lines.level line.move = 0 then count else count - 1
  otherLines : ∀ signal, signal ≠ line.loadn → signal ≠ line.direction → signal ≠ line.move →
    after.lines.level signal = before.lines.level signal
  otherMeters : ∀ meter, meter ≠ .taps line →
    after.timing.meter meter = before.timing.meter meter
  memory : SameMemory before after

variable {line : DelayLine} {taps : UInt8} {before after : Bank}

/-- Some pulses after a reload leave as many taps, less the one that may get lost. -/
theorem taps_of_pulses {count : Nat}
    (h : Trail Does before ((pulsesAfterReload line count).map Access.ofWrite) after) :
    (after.taps line).toNat = if before.lines.level line.move = 0 then count else count - 1 := by
  have hlost : (before.timing.delayed line 0).lostPulses line =
      if before.lines.level line.move = 0 then 0 else 1 := by
    rw [Timing.lostPulses, Timing.level_delayed_move]
    rfl
  calc
    (after.taps line).toNat = after.timing.meter (.taps line) := (meter_taps after line).symm
    _ = ((before.timing.delayed line 0).pulsed line count).meter (.taps line) := by
      rw [timing_of_writes h, Timing.driven_pulsesAfterReload]
    _ = count - (before.timing.delayed line 0).lostPulses line := by
      simp [Timing.pulsed, Timing.delayed]
    _ = if before.lines.level line.move = 0 then count else count - 1 := by
      rw [hlost]
      split <;> rfl

theorem setsDelay_of_drive (h : registers.drive (delayWrites line taps) before = .ok () after) :
    before.SetsDelay line taps after := by
  have htrail := trail_of_drive h
  have hall : delayWrites line taps = pulsesAfterReload line taps.toNat := rfl
  have htiming : after.timing = (before.timing.delayed line 0).pulsed line taps.toNat := by
    rw [timing_of_writes htrail, hall, Timing.driven_pulsesAfterReload]
  have hlevel : ∀ signal, after.lines.level signal =
      ((before.timing.delayed line 0).pulsed line taps.toNat).level signal :=
    congrFun (congrArg Timing.level htiming)
  have hmeter : ∀ meter, after.timing.meter meter =
      ((before.timing.delayed line 0).pulsed line taps.toNat).meter meter :=
    congrFun (congrArg Timing.meter htiming)
  have hbefore : before.timing.level = before.lines.level := rfl
  have hnone : taps.toNat = 0 ↔ taps = 0 := UInt8.toNat_inj (b := 0)
  constructor
  case accesses =>
    refine ⟨_, accesses_of_trail htrail, rfl, ?_, fun _ => isWrite_of_mem_map_ofWrite⟩
    rw [List.length_map, length_delayWrites]
  case loadn =>
    rw [hlevel]
    cases line <;> rfl
  case direction =>
    rw [hlevel]
    cases line <;> rfl
  case move =>
    rw [hlevel]
    simp [Timing.pulsed, hnone, hbefore]
  case tapsHeld =>
    rw [taps_of_pulses (hall ▸ htrail)]
    by_cases hzero : taps = 0 <;> simp [hzero]
  case pulses =>
    intro count hcount
    rw [delayWrites_eq_append line hcount, List.map_append] at htrail
    rcases Trail.append_iff.mp htrail with ⟨reached, hreached, hrest⟩
    exact ⟨reached, hreached, hrest, taps_of_pulses hreached⟩
  case otherLines =>
    intro signal hloadn hdirection hmove
    rw [hlevel]
    simp [Timing.pulsed, Timing.delayed, hloadn, hdirection, hmove, hbefore]
  case otherMeters =>
    intro meter hother
    rw [hmeter]
    simp [Timing.pulsed, Timing.delayed, hother]
  case memory => exact sameMemory_of_writes htrail

end Bank

/-- A delay line can be set on every bank, at whatever levels its lines are and however full its
counters.  It then holds the taps asked for, less one if its move line was high and a first pulse
was lost, and nothing else has changed. -/
theorem delay_set_on_any_bank (bank : Bank) (line : DelayLine) (taps : UInt8) :
    ∃ after, Bank.hardware.setDelay line taps bank = .ok () after ∧
      bank.SetsDelay line taps after := by
  rcases Bank.exists_drive (Timing.affords_delayWrites bank.timing line taps) with ⟨after, hafter⟩
  exact ⟨after, hafter, Bank.setsDelay_of_drive hafter⟩

end Phy
end TimingEye
