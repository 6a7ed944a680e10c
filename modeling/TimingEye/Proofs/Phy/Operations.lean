import TimingEye.Proofs.Operations
import TimingEye.Proofs.Phy.DelaySetting
import TimingEye.Proofs.Phy.Forgetting
import TimingEye.Proofs.Phy.TapCounters

/-!
# Operations on a register bank

The operations of the timing hardware may follow each other in any order.  After each of them the
registers of a bank are a ledger of what has been asked for since the bank was fresh.

* `Operation.advances`, `Bank.exists_performAll`: the room that operations need, and that it is
  enough;
* `Bank.KeepsLedger`, `Bank.keepsLedger_of_calls`: what the registers and the word tell of calls;
* `operations_keep_ledger`: that they do so after every operation.
-/

namespace TimingEye

/-- Whether an operation advances a counter that none clears. -/
def Operation.advances : Operation → Phy.Meter → Bool
  | stepPhase direction, .steps other => direction = other
  | slip subPhase, .hr2x90Slips => subPhase.hr2x90
  | slip subPhase, .hr2xSlips => subPhase.hr2x
  | _, _ => false

namespace Phy

theorem gained_eq_countP (calls : List Call) (meter : Meter) :
    gained calls meter = (calls.map Call.operation).countP (·.advances meter) := by
  induction calls with
  | nil => cases meter <;> rfl
  | cons call rest ih =>
    have hcall : gained [call] meter = [call.operation].countP (·.advances meter) := by
      cases call <;> cases meter <;> simp [gained, slipsOf, Call.slip?, Call.operation,
        Operation.advances, List.countP_cons, List.count_cons]
    calc
      gained (call :: rest) meter = gained [call] meter + gained rest meter :=
        gained_append [call] rest meter
      _ = [call.operation].countP (·.advances meter) +
          (rest.map Call.operation).countP (·.advances meter) := by
        rw [hcall, ih]
      _ = ((call :: rest).map Call.operation).countP (·.advances meter) :=
        List.countP_append.symm

namespace Bank

/-! ## Room for operations -/

/-- An operation goes through where the counters that it advances are not full. -/
theorem exists_acts_of_operation {operation : Operation} {bank : Bank}
    (hroom : ∀ meter : Meter, meter.Lasts →
      bank.timing.meter meter + [operation].countP (·.advances meter) ≤ meter.capacity) :
    ∃ call after, call.operation = operation ∧ hardware.Acts call bank after := by
  -- Only a probe has an answer that is not known in advance.
  have hquiet : ∀ call : Call, call.operation = operation → (∀ passed, call ≠ .probe passed) →
      ∃ call after, call.operation = operation ∧ hardware.Acts call bank after := by
    intro call hoperation hprobe
    have hfits : ∀ meter : Meter, meter.Lasts →
        bank.timing.meter meter + gained [call] meter ≤ meter.capacity := by
      intro meter hlasts
      rw [gained_eq_countP, List.map_singleton, hoperation]
      exact hroom meter hlasts
    rcases exists_acts hfits fun passed _ _ heq => absurd heq (hprobe passed) with ⟨after, hacts⟩
    exact ⟨call, after, hoperation, hacts⟩
  cases operation with
  | setDelay line taps => exact hquiet (.setDelay line taps) rfl fun _ => Call.noConfusion
  | stepPhase direction => exact hquiet (.stepPhase direction) rfl fun _ => Call.noConfusion
  | slip subPhase => exact hquiet (.slip subPhase) rfl fun _ => Call.noConfusion
  | probe =>
    rcases exists_checked testPatterns bank with ⟨passed, _, after, hrun, _, _⟩
    exact ⟨.probe passed, after, rfl, hrun⟩

/-- A bank at rest goes through all operations that its counters have room for. -/
theorem exists_performAll {asked : List (Operation × Place)} {start : Bank}
    (hrest : start.timing.AtRest)
    (hroom : ∀ meter : Meter, meter.Lasts →
      start.timing.meter meter + (asked.map Prod.fst).countP (·.advances meter) ≤
        meter.capacity) :
    ∃ calls final, performAll registers asked start = .ok calls final := by
  induction asked using List.reverseRecOn with
  | nil => exact ⟨[], start, rfl⟩
  | append_singleton asked last ih =>
    have hall : ∀ meter : Meter, meter.Lasts →
        start.timing.meter meter + (asked.map Prod.fst).countP (·.advances meter) +
          [last.1].countP (·.advances meter) ≤ meter.capacity := by
      intro meter hlasts
      have hboth := hroom meter hlasts
      rwa [List.map_append, List.countP_append, ← Nat.add_assoc] at hboth
    have hearlier : ∀ meter : Meter, meter.Lasts →
        start.timing.meter meter + (asked.map Prod.fst).countP (·.advances meter) ≤
          meter.capacity :=
      fun meter hlasts => (Nat.le_add_right _ _).trans (hall meter hlasts)
    rcases ih hearlier with ⟨calls, middle, hrun⟩
    rcases performAll_eq_ok_iff.mp hrun with ⟨hoperations, htrail⟩
    have hfits : ∀ meter : Meter, meter.Lasts →
        middle.timing.meter meter + [last.1].countP (·.advances meter) ≤ meter.capacity := by
      intro meter hlasts
      rw [(timing_of_calls hrest htrail).1, Timing.lasting_afterAll _ _ hlasts,
        gained_eq_countP, hoperations]
      exact hall meter hlasts
    rcases exists_acts_of_operation hfits with ⟨call, final, hoperation, hacts⟩
    refine ⟨calls ++ [call], final, performAll_eq_ok_iff.mpr ⟨?_, ?_⟩⟩
    · rw [List.map_append, List.map_append, hoperations, List.map_singleton, hoperation]
      rfl
    · exact Trail.concat_iff.mpr ⟨middle, htrail, hacts⟩

/-! ## The ledger -/

/-- What the registers and the word of a bank tell of the calls since it was fresh. -/
structure KeepsLedger (bank : Bank) (cell : UInt32) (calls : List Call) : Prop where
  /-- A delay line holds the taps it was last set to. -/
  taps : ∀ line, bank.taps line = (delaysOf line calls).getLast?.getD 0
  nullSteps : bank.nullSteps.toNat = calls.count (.stepPhase .null)
  upSteps : bank.upSteps.toNat = calls.count (.stepPhase .up)
  hr2x90Slips : bank.hr2x90Slips.toNat = (slipsOf calls).countP (·.hr2x90)
  hr2xSlips : bank.hr2xSlips.toNat = (slipsOf calls).countP (·.hr2x)
  move : ∀ line : DelayLine, bank.lines.level line.move = 0
  slipHr2x90 : bank.lines.level .slipHr2x90 = 0
  slipHr2x : bank.lines.level .slipHr2x = 0
  phaseSel : bank.lines.level .phaseSel = 0
  /-- The direction line stands as the last step has left it. -/
  phaseDir : bank.lines.level .phaseDir =
    ((stepsOf calls).getLast?.map PhaseDirection.level).getD 0
  cell : bank.cell = cell ∨ bank.cell ∈ testPatterns

variable {retention : Retention} {cell : UInt32} {calls : List Call} {bank : Bank}

/-- Calls write nothing but patterns to the word. -/
theorem cell_of_calls {start : Bank} (h : Trail hardware.Acts start calls bank) :
    bank.cell = start.cell ∨ bank.cell ∈ testPatterns := by
  induction h with
  | nil bank => exact .inl rfl
  | @cons call _ _ _ _ hstep _ ih =>
    rcases ih with hkept | hmem
    · rcases exists_uses hstep with ⟨accesses, huses, htrail⟩
      rcases cell_of_trail htrail with hcell | hwritten
      · exact .inl (hkept.trans hcell)
      · -- Only a probe writes the word.
        rw [hkept]
        cases call with
        | probe passed => exact .inr (huses.mem_of_writeWord hwritten)
        | _ =>
          subst huses
          cases isWrite_of_mem_map_ofWrite hwritten
    · exact .inr hmem

/-- A counter that lasts has counted the calls that advance it. -/
theorem meter_of_calls (h : Trail hardware.Acts { retention, cell } calls bank) (meter : Meter)
    (hlasts : meter.Lasts) : bank.timing.meter meter = gained calls meter := by
  rw [(timing_of_calls (atRest_of_fresh retention cell) h).1, Timing.lasting_afterAll _ _ hlasts,
    meter_of_fresh, Nat.zero_add]

theorem gained_le_of_calls (h : Trail hardware.Acts { retention, cell } calls bank)
    (meter : Meter) : gained calls meter ≤ 4294967295 := by
  have hcounted : meter.Lasts → gained calls meter ≤ meter.capacity := by
    intro hlasts
    rw [← meter_of_calls h meter hlasts]
    exact meter_le_capacity bank meter
  cases meter with
  | taps line => exact Nat.zero_le _
  | _ => exact hcounted trivial

theorem keepsLedger_of_calls (h : Trail hardware.Acts { retention, cell } calls bank) :
    bank.KeepsLedger cell calls := by
  rcases timing_of_calls (atRest_of_fresh retention cell) h with ⟨htiming, hrest⟩
  have hphase := Timing.phaseLines_afterAll ({ retention, cell } : Bank).timing calls
  rw [← htiming, level_of_fresh, level_of_fresh, ite_self] at hphase
  constructor
  case taps =>
    intro line
    apply UInt8.toNat_inj.mp
    rw [← meter_taps, htiming]
    cases hlast : (delaysOf line calls).getLast? with
    | none =>
      have hunset := List.getLast?_eq_none_iff.mp hlast
      rw [(Timing.delayLine_afterAll_of_unset _ hunset).1, meter_of_fresh]
      rfl
    | some taps => exact (Timing.delayLine_afterAll _ hlast).1
  case nullSteps => exact meter_of_calls h (.steps .null) trivial
  case upSteps => exact meter_of_calls h (.steps .up) trivial
  case hr2x90Slips => exact meter_of_calls h .hr2x90Slips trivial
  case hr2xSlips => exact meter_of_calls h .hr2xSlips trivial
  case move => exact hrest.move
  case slipHr2x90 => exact hrest.slipHr2x90
  case slipHr2x => exact hrest.slipHr2x
  case phaseSel => exact hphase.2
  case phaseDir => exact hphase.1
  case cell => exact cell_of_calls h

end Bank

/-- Operations on a fresh bank, asked for at either place, go through unless one of the counters of
steps and slips would have to count further than it can; no counter of taps ever stops them.  After
each operation the bank keeps the ledger of the calls so far, and where the next one is a probe, it
passes exactly if the memory keeps writes at the clock delay that the bank then holds. -/
theorem operations_keep_ledger {retention : Retention}
    (hunscripted : ∀ runs rest, retention ≠ .scripted runs rest) (cell : UInt32)
    (asked : List (Operation × Place)) :
    let fresh : Bank := { retention, cell }
    ((∃ calls final, performAll Bank.registers asked fresh = .ok calls final) ↔
      ∀ meter : Meter, (asked.map Prod.fst).countP (·.advances meter) < 4294967296) ∧
    (∀ cause final, performAll Bank.registers asked fresh = .error cause final →
      ∃ meter, final.Overran meter ∧ ∀ line, meter ≠ .taps line) ∧
    (∀ calls final, performAll Bank.registers asked fresh = .ok calls final →
      calls.map Call.operation = asked.map Prod.fst ∧
      ∀ earlier later, calls = earlier ++ later → ∃ reached,
        performAll Bank.registers (asked.take earlier.length) fresh = .ok earlier reached ∧
        performAll Bank.registers (asked.drop earlier.length) reached = .ok later final ∧
        reached.KeepsLedger cell earlier ∧
        ∀ passed rest, later = .probe passed :: rest →
          passed = retention.keeps reached.clockTaps.toNat) := by
  intro fresh
  have hrest : fresh.timing.AtRest := Bank.atRest_of_fresh retention cell
  have hempty : ∀ meter, fresh.timing.meter meter = 0 := Bank.meter_of_fresh retention cell
  have hsteady := Retention.steady_of_unscripted hunscripted
  refine ⟨⟨?_, ?_⟩, ?_, ?_⟩
  · rintro ⟨calls, final, hrun⟩ meter
    rcases performAll_eq_ok_iff.mp hrun with ⟨hoperations, htrail⟩
    rw [← hoperations, ← gained_eq_countP]
    exact Nat.lt_succ_of_le (Bank.gained_le_of_calls htrail meter)
  · intro hcounts
    apply Bank.exists_performAll hrest
    intro meter hlasts
    rw [hempty, Nat.zero_add]
    cases meter with
    | taps line => cases hlasts
    | _ => exact Nat.le_of_lt_succ (hcounts _)
  · intro cause final hrun
    rcases exists_faults_of_performAll hrun with ⟨call, middle, hfault⟩
    exact Bank.exists_overran_of_faults hfault
  · intro calls final hrun
    refine ⟨(performAll_eq_ok_iff.mp hrun).1, ?_⟩
    rintro earlier later rfl
    rcases exists_performAll_cut hrun with ⟨reached, hearlier, hlater⟩
    have htrail := (performAll_eq_ok_iff.mp hearlier).2
    refine ⟨reached, hearlier, hlater, Bank.keepsLedger_of_calls htrail, ?_⟩
    rintro passed rest rfl
    rcases Trail.cons_iff.mp (performAll_eq_ok_iff.mp hlater).2 with ⟨_, hprobe, _⟩
    have hidle := (Bank.idle_of_fresh retention cell).of_calls hsteady htrail
    exact Bank.answer_of_probe hsteady hidle.holds hprobe

/-- Operations at both places, with a probe where an eye from three to five taps is open and another
one where it is not. -/
def mixedOperations : List (Operation × Place) :=
  [(.setDelay .clock 4, .hardware), (.probe, .registers), (.stepPhase .null, .registers),
    (.slip { hr2x90 := true, hr2x := false }, .hardware), (.setDelay .clock 6, .registers),
    (.probe, .hardware), (.stepPhase .up, .hardware)]

/-- The calls that these operations come to. -/
def mixedCalls : List Call :=
  [.setDelay .clock 4, .probe true, .stepPhase .null, .slip { hr2x90 := true, hr2x := false },
    .setDelay .clock 6, .probe false, .stepPhase .up]

theorem operations_keep_ledger_of_mixedOperations :
    (∀ runs rest, Retention.eye 3 5 ≠ .scripted runs rest) ∧
    ∃ final, performAll Bank.registers mixedOperations
        { retention := .eye 3 5, cell := secondPattern } = .ok mixedCalls final ∧
      final.clockTaps = 6 ∧ final.ioTaps = 0 ∧ final.nullSteps.toNat = 1 ∧
      final.upSteps.toNat = 1 ∧ final.hr2x90Slips.toNat = 1 ∧ final.hr2xSlips.toNat = 0 ∧
      final.lines.level .phaseDir = 1 ∧ final.cell ∈ testPatterns := by
  have hunscripted : ∀ runs rest, Retention.eye 3 5 ≠ .scripted runs rest := by
    intro runs rest h
    cases h
  have hcounts : ∀ meter : Meter,
      (mixedOperations.map Prod.fst).countP (·.advances meter) < 4294967296 :=
    fun _ => List.countP_le_length.trans_lt (by decide)
  have hanswers :
      (match performAll Bank.registers mixedOperations
        { retention := .eye 3 5, cell := secondPattern } with
      | .ok calls _ => calls
      | .error _ _ => []) = mixedCalls := by
    decide +kernel
  rcases operations_keep_ledger hunscripted secondPattern mixedOperations with
    ⟨hgoes, _, hledger⟩
  rcases hgoes.mpr hcounts with ⟨calls, final, hrun⟩
  obtain rfl : calls = mixedCalls := by
    rw [hrun] at hanswers
    exact hanswers
  rcases (hledger _ final hrun).2 mixedCalls [] (List.append_nil _).symm with
    ⟨reached, _, hrest, hkept, _⟩
  obtain rfl : reached = final := by
    cases hrest
    rfl
  have hwritten : reached.cell ∈ testPatterns := by
    rcases hkept.cell with hcell | hmem
    · rw [hcell]
      decide
    · exact hmem
  exact ⟨hunscripted, reached, hrun, hkept.taps .clock, hkept.taps .io, hkept.nullSteps,
    hkept.upSteps, hkept.hr2x90Slips, hkept.hr2xSlips, hkept.phaseDir, hwritten⟩

end Phy
end TimingEye
