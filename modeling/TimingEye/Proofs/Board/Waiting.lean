import TimingEye.Proofs.Board.Going

/-!
# Waiting for the timer

A wait samples the timer until enough cycles have passed.  How often it does so depends on the
interval and on the tick alone, whatever the timer stands at.

* `samplings`: the accesses by which a running timer is sampled so many times;
* `samplesOf`: how many samplings a wait takes after its first one;
* `goes_wait`: a wait, sampling by sampling;
* `goes_restart`: starting the timer over.
-/

namespace TimingEye
namespace Board

/-! ## Samplings -/

/-- The accesses by which the timer is sampled, standing at some count. -/
def sampling (count : UInt32) : List BusAccess :=
  [.write .timerUpdateValue 1, .read .timerValue count]

/-- The accesses by which a timer is sampled again and again that advances by a tick each time. -/
def samplings (tick : UInt32) : (counter : UInt32) → (samples : Nat) → List BusAccess
  | _, 0 => []
  | counter, samples + 1 => sampling (counter - tick) ++ samplings tick (counter - tick) samples

/-- A timer that runs. -/
structure Soc.Counts (tick counter : UInt32) (soc : Soc) : Prop where
  enabled : soc.csrs.word .timerEn ≠ 0
  tick : soc.tick = tick
  counter : soc.counter = counter

section Sampling

variable {conditions : Conditions} {gap : Nat} {tick counter : UInt32}

theorem goes_readTimer :
    Goes id gap 0 (Soc.Ready conditions) (Soc.read .timerValue)
      fun count made soc => made = [.read .timerValue count] ∧ soc.Ready conditions := by
  intro before h _
  have hready : (before.noted (.read .timerValue before.latch)).Ready conditions :=
    ⟨h.clears, h.tick, h.patience, h.pollsLeft⟩
  exact ⟨_, _, _, rfl, Array.toList_push, le_rfl, rfl, hready⟩

/-- Whatever the timer does, sampling it is two accesses. -/
theorem goes_elapsed :
    Goes id gap 1 (Soc.Ready conditions) Timer.elapsed fun now made soc =>
      (∃ count, now = Timer.start - count ∧ made = sampling count) ∧ soc.Ready conditions := by
  apply Goes.bind 1 0 le_rfl (goes_write .timerUpdateValue 1 (by decide) (by decide))
  rintro _ earlier rfl
  apply Goes.bind 0 0 le_rfl goes_readTimer
  rintro count earlier rfl
  apply Goes.pure
  intro soc h
  exact ⟨⟨count, rfl, rfl⟩, h⟩

/-- A timer that runs advances by a tick at each sampling. -/
theorem counts_elapsed {before after : Soc} {now : UInt32} (h : before.Counts tick counter)
    (hrun : Timer.elapsed before = .ok now after) :
    now = Timer.start - (counter - tick) ∧ after.Counts tick (counter - tick) := by
  rcases bind_eq_ok_iff.mp hrun with ⟨_, middle, hwrite, hread⟩
  have henabled : (before.assigned .timerUpdateValue 1).csrs.word .timerEn ≠ 0 := by
    have hother : (before.assigned .timerUpdateValue 1).csrs.word .timerEn =
        before.csrs.word .timerEn := CsrWords.word_assign_of_ne _ _ (by decide)
    rw [hother]
    exact h.enabled
  have hcount : (before.assigned .timerUpdateValue 1).counter -
      (before.assigned .timerUpdateValue 1).tick = counter - tick := by
    rw [← h.counter, ← h.tick]
    rfl
  have hmiddle : middle.Counts tick (counter - tick) ∧ middle.latch = counter - tick := by
    simp only [Soc.write] at hwrite
    split at hwrite
    · cases hwrite
      simp only [Soc.react, Soc.sampled, if_neg henabled]
      exact ⟨⟨henabled, h.tick, hcount⟩, hcount⟩
    · cases hwrite
  rcases hmiddle with ⟨hcounts, hlatch⟩
  rcases bind_eq_ok_iff.mp hread with ⟨count, last, hlast, hreturn⟩
  have hcounted : last.Counts tick (counter - tick) ∧ count = counter - tick := by
    cases hlast
    exact ⟨⟨hcounts.enabled, hcounts.tick, hcounts.counter⟩, hlatch⟩
  injection hreturn with hnow hafter
  subst hnow hafter
  rw [hcounted.2]
  exact ⟨rfl, hcounted.1⟩

/-- On a timer that runs, a sampling reads what the timer has advanced to. -/
theorem goes_elapsed_counting :
    Goes id gap 1 (fun soc => soc.Counts tick counter ∧ soc.Ready conditions) Timer.elapsed
      fun now made soc => (now = Timer.start - (counter - tick) ∧
        made = sampling (counter - tick)) ∧
          soc.Counts tick (counter - tick) ∧ soc.Ready conditions := by
  rintro before ⟨hcounts, h⟩ hpolls
  rcases goes_elapsed before h hpolls with
    ⟨now, made, after, hrun, haccesses, hleft, ⟨count, hnow, rfl⟩, hafter⟩
  rcases counts_elapsed hcounts hrun with ⟨hnow', hcounts'⟩
  have hcount : count = counter - tick := (UInt32.sub_right_inj _).mp (hnow.symm.trans hnow')
  subst hcount
  exact ⟨now, _, after, hrun, haccesses, hleft, ⟨hnow, rfl⟩, hcounts', hafter⟩

/-! ## Waits -/

/-- At the next sampling a tick more has passed, if that does not wrap. -/
theorem toNat_passed {since : UInt32} {passed : Nat}
    (hpassed : (Timer.start - counter - since).toNat = passed)
    (hwrap : passed + tick.toNat < 4294967296) :
    (Timer.start - (counter - tick) - since).toUInt64.toNat = passed + tick.toNat := by
  have hnow : Timer.start - (counter - tick) - since = Timer.start - counter - since + tick := by
    grind
  rw [UInt32.toNat_toUInt64, hnow, UInt32.toNat_add, hpassed]
  exact Nat.mod_eq_of_lt hwrap

/-- Samples are taken until so many cycles have passed.  `passed` is what has passed before the
first of them, and `late` of them follow it. -/
theorem goes_await {since : UInt32} {cycles : UInt64} {passed late attempts : Nat}
    (hpassed : (Timer.start - counter - since).toNat = passed)
    (hearly : 0 < late → passed + tick.toNat * late < cycles.toNat)
    (hlate : cycles.toNat ≤ passed + tick.toNat * (late + 1))
    (hwrap : passed + tick.toNat * (late + 1) < 4294967296) (hattempts : late < attempts) :
    Goes id gap (late + 1) (fun soc => soc.Counts tick counter ∧ soc.Ready conditions)
      (Timer.await since cycles attempts)
      fun _ made soc => made = samplings tick counter (late + 1) ∧ soc.Ready conditions := by
  -- By induction on the samplings that follow the next one: the timer has not wrapped by then, so
  -- what has passed is a count of ticks.
  induction late generalizing passed counter attempts with
  | zero =>
    obtain ⟨attempts, rfl⟩ := Nat.exists_eq_succ_of_ne_zero (Nat.ne_zero_of_lt hattempts)
    have hfits : passed + tick.toNat < 4294967296 := by omega
    have hnow := toNat_passed hpassed hfits
    have hdone : ¬(Timer.start - (counter - tick) - since).toUInt64 < cycles := by
      rw [UInt64.lt_iff_toNat_lt, hnow]
      omega
    apply Goes.bind 1 0 le_rfl goes_elapsed_counting
    rintro now earlier ⟨rfl, rfl⟩
    rw [if_neg hdone]
    apply Goes.pure
    intro soc h
    exact ⟨rfl, h.2⟩
  | succ late ih =>
    obtain ⟨attempts, rfl⟩ := Nat.exists_eq_succ_of_ne_zero (Nat.ne_zero_of_lt hattempts)
    have hticks : ∀ late, tick.toNat * (late + 1) = tick.toNat + tick.toNat * late := by
      intro late
      rw [Nat.mul_succ, Nat.add_comm]
    have hnext := hearly late.succ_pos
    rw [hticks, hticks] at hlate hwrap
    rw [hticks] at hnext
    have hfits : passed + tick.toNat < 4294967296 := by omega
    have hnow := toNat_passed hpassed hfits
    have hgoing : (Timer.start - (counter - tick) - since).toUInt64 < cycles := by
      rw [UInt64.lt_iff_toNat_lt, hnow]
      omega
    apply Goes.bind 1 (late + 1) (by omega) goes_elapsed_counting
    rintro now earlier ⟨rfl, rfl⟩
    rw [if_pos hgoing]
    rw [UInt32.toNat_toUInt64] at hnow
    have hrest := ih hnow (fun _ => by omega) (by rw [hticks]; omega) (by rw [hticks]; omega)
      (Nat.lt_of_succ_lt_succ hattempts)
    apply hrest.weaken le_rfl
    rintro _ made rfl
    rfl

/-- How many samplings a wait takes after its first one. -/
def samplesOf (cycles tick : Nat) : Nat :=
  max 1 ((cycles + tick - 1) / tick)

/-- The samplings of a wait end with the first one that is late enough. -/
theorem exists_late (cycles : Nat) {tick : Nat} (htick : 0 < tick) :
    ∃ late, samplesOf cycles tick = late + 1 ∧ (0 < late → tick * late < cycles) ∧
      cycles ≤ tick * (late + 1) := by
  have hdiv := Nat.mul_div_le (cycles + tick - 1) tick
  have hmod := Nat.lt_mul_div_succ (cycles + tick - 1) htick
  rw [Nat.mul_succ] at hmod
  -- The quotient, rounded up, is nothing only for an interval of no cycles.
  cases hquotient : (cycles + tick - 1) / tick with
  | zero =>
    rw [hquotient] at hmod
    refine ⟨0, ?_, nofun, by omega⟩
    rw [samplesOf, hquotient]
    rfl
  | succ late =>
    rw [hquotient] at hdiv hmod
    rw [Nat.mul_succ] at hdiv
    refine ⟨late, ?_, fun _ => by omega, by omega⟩
    rw [samplesOf, hquotient]
    exact max_eq_right (Nat.le_add_left 1 late)

/-- The samplings of a wait take as many cycles as were asked for, and less than a tick more. -/
theorem le_mul_samplesOf (cycles : Nat) {tick : Nat} (htick : 0 < tick) :
    cycles ≤ tick * samplesOf cycles tick ∧
      (0 < cycles → tick * samplesOf cycles tick < cycles + tick) := by
  rcases exists_late cycles htick with ⟨late, hsamples, hearly, hlate⟩
  rw [hsamples]
  refine ⟨hlate, ?_⟩
  intro hsome
  rw [Nat.mul_succ]
  rcases Nat.eq_zero_or_pos late with rfl | hlater
  · omega
  · exact Nat.add_lt_add_right (hearly hlater) tick

/-- The timer does not wrap twice over a wait that fits into its period. -/
theorem mul_samplesOf_lt_of_fits {cycles tick : Nat} (htick : 0 < tick) (hword : tick < 4294967296)
    (hwrap : cycles ≤ tick ∨ cycles + tick ≤ 4294967296) :
    tick * samplesOf cycles tick < 4294967296 := by
  rcases hwrap with hshort | hfits
  · -- One sampling is late enough.
    have hquotient : (cycles + tick - 1) / tick < 2 := Nat.div_lt_of_lt_mul (by omega)
    have hone : samplesOf cycles tick = 1 := max_eq_left (by omega)
    rwa [hone, Nat.mul_one]
  · rcases Nat.eq_zero_or_pos cycles with rfl | hsome
    · have hnone : (0 + tick - 1) / tick = 0 := Nat.div_eq_of_lt (by omega)
      rw [samplesOf, hnone, max_eq_left (Nat.zero_le 1), Nat.mul_one]
      exact hword
    · exact ((le_mul_samplesOf cycles htick).2 hsome).trans_le hfits

theorem cyclesOf_of_fits {interval : UInt64}
    (hfits : interval.toNat * Timer.cyclesPerMicrosecond < 18446744073709551616) :
    ∃ cycles, Timer.cyclesOf interval = Pure.pure cycles ∧
      cycles.toNat = interval.toNat * Timer.cyclesPerMicrosecond := by
  have hcount : (UInt64.ofNat Timer.cyclesPerMicrosecond).toNat = Timer.cyclesPerMicrosecond := rfl
  refine ⟨interval * UInt64.ofNat Timer.cyclesPerMicrosecond, ?_, ?_⟩
  · rw [Timer.cyclesOf, scaledLong_of_lt hfits]
  · rw [UInt64.toNat_mul, hcount]
    exact Nat.mod_eq_of_lt hfits

/-- A wait takes its first sampling, and then as many as the interval and the tick ask for. -/
theorem goes_wait {interval : UInt64} (htick : tick ≠ 0)
    (hfits : interval.toNat * Timer.cyclesPerMicrosecond < 4294967296)
    (hwrap : interval.toNat * Timer.cyclesPerMicrosecond ≤ tick.toNat ∨
      interval.toNat * Timer.cyclesPerMicrosecond + tick.toNat ≤ 4294967296) :
    Goes id gap (1 + samplesOf (interval.toNat * Timer.cyclesPerMicrosecond) tick.toNat)
      (fun soc => soc.Counts tick counter ∧ soc.Ready conditions) (Timer.wait interval)
      fun _ made soc => made = samplings tick counter
          (1 + samplesOf (interval.toNat * Timer.cyclesPerMicrosecond) tick.toNat) ∧
        soc.Ready conditions := by
  have hpositive : 0 < tick.toNat := by
    apply Nat.pos_of_ne_zero
    intro hzero
    exact htick (UInt32.toNat_inj.mp hzero)
  rcases cyclesOf_of_fits (hfits.trans (by decide)) with ⟨cycles, hcycles, hcyclesNat⟩
  rw [← hcyclesNat] at hwrap ⊢
  rcases exists_late cycles.toNat hpositive with ⟨late, hsamples, hearly, hlate⟩
  have hend : tick.toNat * (late + 1) < 4294967296 := by
    rw [← hsamples]
    exact mul_samplesOf_lt_of_fits hpositive tick.toNat_lt hwrap
  rw [hsamples]
  apply Goes.bind 1 (late + 1) le_rfl goes_elapsed_counting
  rintro since earlier ⟨rfl, rfl⟩
  rw [hcycles, pure_bind]
  apply Goes.get_bind
  intro before _ hpolls
  have hattempts : late < before.pollsLeft + 1 := by
    change gap + (late + 1) ≤ before.pollsLeft at hpolls
    omega
  have hnone : (Timer.start - (counter - tick) - (Timer.start - (counter - tick))).toNat = 0 := by
    rw [UInt32.sub_self]
    rfl
  have hawait : Goes id gap (late + 1) (fun soc => soc.Counts tick (counter - tick) ∧
      soc.Ready conditions) (Timer.await (Timer.start - (counter - tick)) cycles
        (before.pollsLeft + 1)) fun _ made soc =>
          made = samplings tick (counter - tick) (late + 1) ∧ soc.Ready conditions := by
    apply goes_await hnone
    · rwa [Nat.zero_add]
    · rwa [Nat.zero_add]
    · rwa [Nat.zero_add]
    · exact hattempts
  apply hawait.weaken le_rfl
  rintro _ made rfl
  rw [Nat.add_comm 1 (late + 1)]
  rfl

/-! ## Starting over -/

/-- The accesses by which the timer is started over. -/
def restarting : List BusAccess :=
  [.write .timerEn 0, .write .timerLoad Timer.start, .write .timerReload Timer.start,
    .write .timerEn 1]

/-- A timer that is started over runs from its largest value, whatever it did before. -/
theorem counts_restart {before after : Soc} (hrun : Timer.restart before = .ok () after) :
    after.Counts before.tick Timer.start := by
  rcases bind_eq_ok_iff.mp hrun with ⟨_, stopped, hstop, hrun⟩
  rcases bind_eq_ok_iff.mp hrun with ⟨_, loaded, hload, hrun⟩
  rcases bind_eq_ok_iff.mp hrun with ⟨_, reloaded, hreload, hstart⟩
  cases hstop
  cases hload
  cases hreload
  cases hstart
  constructor <;> simp [Soc.react, Soc.assigned, Soc.noted]

theorem goes_restart :
    Goes id gap 0 (Soc.Ready conditions) Timer.restart fun _ made soc =>
      made = restarting ∧ soc.Counts conditions.tick Timer.start ∧ soc.Ready conditions := by
  have hready : Goes id gap 0 (Soc.Ready conditions) Timer.restart fun _ made soc =>
      made = restarting ∧ soc.Ready conditions := by
    apply Goes.bind 0 0 le_rfl (goes_write .timerEn 0 (by decide) (by decide))
    rintro _ stopped rfl
    apply Goes.bind 0 0 le_rfl (goes_write .timerLoad Timer.start (by decide) (by decide))
    rintro _ loaded rfl
    apply Goes.bind 0 0 le_rfl (goes_write .timerReload Timer.start (by decide) (by decide))
    rintro _ reloaded rfl
    apply (goes_write .timerEn 1 (by decide) (by decide)).weaken le_rfl
    rintro _ started rfl
    rfl
  -- What the timer counts from is read off the run itself.
  intro before h hpolls
  rcases hready before h hpolls with ⟨_, made, after, hrun, haccesses, hleft, rfl, hafter⟩
  have hcounts := counts_restart hrun
  rw [h.tick] at hcounts
  exact ⟨(), _, after, hrun, haccesses, hleft, rfl, hcounts, hafter⟩

end Sampling

end Board
end TimingEye
