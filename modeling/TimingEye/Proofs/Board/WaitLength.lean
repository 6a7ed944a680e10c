import TimingEye.Proofs.Board.Readings

/-!
# How long a wait takes

A wait compares differences of 32 bits with a number of cycles of 64 bits.  So it takes the time
that was asked for as long as that fits into one period of the timer, whether the timer wraps in
between or not.  A longer wait never ends, and neither does one on a timer that stands still.

* `Clock.samplings`: the accesses by which a clock is sampled again and again;
* `exists_elapsed`, `elapsed_of_spent`: a sampling goes through, unless it is one too many;
* `Soc.WaitsOut`, `Soc.WaitsForGood`: waits that end in time, and waits that do not end;
* `wait_takes_its_time`: the wait for any interval on any board.
-/

namespace TimingEye
namespace Board

/-! ## Samplings one after another -/

/-- The accesses by which a clock is sampled so many times. -/
def Clock.samplings (clock : Clock) (samples : Nat) : List BusAccess :=
  (clock.counts samples).flatMap sampling

theorem Clock.samplings_succ (clock : Clock) (samples : Nat) :
    clock.samplings (samples + 1) =
      sampling (clock.count 1) ++ clock.sampled.samplings samples := by
  rw [samplings, Nat.add_comm, counts_add, List.flatMap_append]
  rfl

/-- A clock that runs is sampled as a timer is that runs. -/
theorem Clock.samplings_of_enabled {clock : Clock} (h : clock.enabled ≠ 0) (samples : Nat) :
    clock.samplings samples = Board.samplings clock.tick clock.counter samples := by
  induction samples generalizing clock with
  | zero => rfl
  | succ samples ih =>
    have hsampled : clock.sampled = { clock with counter := clock.counter - clock.tick } := if_neg h
    have hcount : clock.count 1 = clock.counter - clock.tick := by
      have hone : UInt32.ofNat 1 * clock.tick = clock.tick := UInt32.one_mul clock.tick
      rw [count, if_neg h, hone]
    have hrest : clock.sampled.samplings samples =
        Board.samplings clock.tick (clock.counter - clock.tick) samples := by
      rw [hsampled]
      exact ih h
    rw [samplings_succ, hrest, hcount]
    rfl

/-- A sampling goes through while there are polls left, and uses up one of them. -/
theorem exists_elapsed {soc : Soc} (hpolls : soc.pollsLeft ≠ 0) :
    ∃ after, Timer.elapsed soc = .ok (Timer.start - soc.clock.count 1) after ∧
      Sampled soc after ∧ after.pollsLeft + 1 = soc.pollsLeft := by
  have hwrite : Soc.write .timerUpdateValue 1 soc =
      .ok () ((soc.assigned .timerUpdateValue 1).react (soc.csrs.word .timerUpdateValue) 1
        .timerUpdateValue) := by
    simp only [Soc.write, Soc.halts, if_neg hpolls]
  obtain ⟨now, after, hrun, hleft⟩ : ∃ now after, Timer.elapsed soc = .ok now after ∧
      after.pollsLeft = soc.pollsLeft - 1 := ⟨_, _, bind_of_ok hwrite, rfl⟩
  rcases (ends_elapsed soc).of_ok hrun with ⟨rfl, hsampled⟩
  refine ⟨after, hrun, hsampled, ?_⟩
  rw [hleft]
  exact Nat.succ_pred_eq_of_ne_zero hpolls

/-- A sampling too many is cut off, but it is noted. -/
theorem elapsed_of_spent {soc : Soc} (hpolls : soc.pollsLeft = 0) :
    Timer.elapsed soc = .error (.stalled .timer) (soc.assigned .timerUpdateValue 1) := by
  apply bind_of_error
  simp only [Soc.write, Soc.halts, if_pos hpolls]

/-! ## Waits -/

/-- The same board, with its polls watched for so long. -/
def Soc.watchedFor (soc : Soc) (patience : Nat) : Soc :=
  { soc with patience, pollsLeft := patience }

/-- The cycles of an interval in microseconds. -/
def Timer.cyclesIn (interval : UInt64) : Nat :=
  interval.toNat * cyclesPerMicrosecond

/-- The samplings that a wait takes after its first one on a board. -/
def Soc.samplesFor (soc : Soc) (interval : UInt64) : Nat :=
  samplesOf (Timer.cyclesIn interval) soc.tick.toNat

/-- A wait comes to its end, and in time. -/
structure Soc.WaitsOut (soc : Soc) (interval : UInt64) : Prop where
  /-- It ends after so many samplings, whatever the timer stands at. -/
  returns : ∀ patience ≥ 1 + soc.samplesFor interval, ∃ after,
    Timer.wait interval (soc.watchedFor patience) = .ok () after ∧
      after.accesses.toList =
        soc.accesses.toList ++ soc.clock.samplings (1 + soc.samplesFor interval)
  /-- From its first sampling to its last one, the timer counts down by all of the ticks. -/
  passed : (soc.clock.count 1 - soc.clock.count (1 + soc.samplesFor interval)).toNat =
    soc.tick.toNat * soc.samplesFor interval
  enough : Timer.cyclesIn interval ≤ soc.tick.toNat * soc.samplesFor interval
  punctual : 0 < Timer.cyclesIn interval →
    soc.tick.toNat * soc.samplesFor interval < Timer.cyclesIn interval + soc.tick.toNat

/-- A wait never ends: however long it is watched, it goes on to sample the timer, and it is only
cut by a sampling too many. -/
def Soc.WaitsForGood (soc : Soc) (interval : UInt64) : Prop :=
  ∀ patience, ∃ after,
    Timer.wait interval (soc.watchedFor patience) = .error (.stalled .timer) after ∧
      after.accesses.toList = soc.accesses.toList ++ soc.clock.samplings patience ++
        [.write .timerUpdateValue 1]

/-- A wait for more cycles than can be counted: that is noticed after one sampling. -/
def Soc.FailsToCount (soc : Soc) (interval : UInt64) : Prop :=
  ∀ patience ≥ 1, ∃ after,
    Timer.wait interval (soc.watchedFor patience) = .error (.fault .multiplication) after ∧
      after.accesses.toList = soc.accesses.toList ++ soc.clock.samplings 1

section Waits

variable {soc : Soc} {interval : UInt64}

/-! ### Waits that end -/

theorem waitsOut_of_fits (henabled : soc.clock.enabled ≠ 0) (htick : soc.tick ≠ 0)
    (hword : Timer.cyclesIn interval < 4294967296)
    (hfits : Timer.cyclesIn interval ≤ soc.tick.toNat ∨
      Timer.cyclesIn interval + soc.tick.toNat ≤ 4294967296) : soc.WaitsOut interval := by
  have hpositive : 0 < soc.tick.toNat :=
    Nat.pos_of_ne_zero fun hzero => htick (UInt32.toNat_inj.mp hzero)
  have hlength := le_mul_samplesOf (Timer.cyclesIn interval) hpositive
  constructor
  case returns =>
    intro patience hpatience
    -- Nobody talks on the line while the firmware waits.
    have hready : (soc.watchedFor patience).Ready ⟨False, 0, soc.tick, patience⟩ :=
      ⟨False.elim, rfl, rfl, le_rfl⟩
    have hcounts : (soc.watchedFor patience).Counts soc.tick soc.counter := ⟨henabled, rfl, rfl⟩
    have hpolls : 0 + (1 + soc.samplesFor interval) ≤ patience := by
      rwa [Nat.zero_add]
    rcases goes_wait htick hword hfits _ ⟨hcounts, hready⟩ hpolls with
      ⟨_, _, after, hrun, haccesses, _, rfl, _⟩
    refine ⟨after, hrun, ?_⟩
    rw [Clock.samplings_of_enabled henabled]
    exact haccesses
  case passed =>
    have hdifference : soc.clock.count 1 - soc.clock.count (1 + soc.samplesFor interval) =
        UInt32.ofNat (soc.samplesFor interval) * soc.tick := by
      have hnext : UInt32.ofNat (1 + soc.samplesFor interval) =
          UInt32.ofNat 1 + UInt32.ofNat (soc.samplesFor interval) := UInt32.ofNat_add 1 _
      simp only [Clock.count, if_neg henabled, hnext]
      change soc.counter - UInt32.ofNat 1 * soc.tick - (soc.counter - _ * soc.tick) = _
      grind
    have hperiod : soc.tick.toNat * soc.samplesFor interval < 4294967296 :=
      mul_samplesOf_lt_of_fits hpositive soc.tick.toNat_lt hfits
    have hsamples : soc.samplesFor interval < 4294967296 :=
      (Nat.le_mul_of_pos_left _ hpositive).trans_lt hperiod
    rw [hdifference, UInt32.toNat_mul, UInt32.toNat_ofNat_of_lt' hsamples, Nat.mul_comm]
    exact Nat.mod_eq_of_lt hperiod
  case enough => exact hlength.1
  case punctual => exact hlength.2

/-! ### Waits that do not end -/

/-- Samples are taken until no polls are left, if all of them come too early. -/
theorem exists_stalled_await {since : UInt32} {cycles : UInt64} {attempts : Nat}
    (hattempts : soc.pollsLeft < attempts)
    (hearly : ∀ n, (Timer.start - soc.clock.count (n + 1) - since).toUInt64 < cycles) :
    ∃ after, Timer.await since cycles attempts soc = .error (.stalled .timer) after ∧
      after.accesses.toList = soc.accesses.toList ++ soc.clock.samplings soc.pollsLeft ++
        [.write .timerUpdateValue 1] := by
  obtain ⟨attempts, rfl⟩ := Nat.exists_eq_succ_of_ne_zero (Nat.ne_zero_of_lt hattempts)
  -- By induction on the polls that are left: each sampling uses up one of them.
  induction hpolls : soc.pollsLeft generalizing soc attempts with
  | zero =>
    refine ⟨_, bind_of_error (elapsed_of_spent hpolls), ?_⟩
    have hnone : soc.clock.samplings 0 = [] := rfl
    rw [hnone, List.append_nil]
    exact Array.toList_push
  | succ polls ih =>
    have hsome : soc.pollsLeft ≠ 0 := by omega
    rcases exists_elapsed hsome with ⟨middle, hrun, hsampled, hleft⟩
    have hmiddle : middle.pollsLeft = polls := by omega
    obtain ⟨attempts, rfl⟩ : ∃ fewer, attempts = fewer + 1 :=
      Nat.exists_eq_succ_of_ne_zero (by omega)
    have hlater : ∀ n, (Timer.start - middle.clock.count (n + 1) - since).toUInt64 < cycles := by
      intro n
      rw [hsampled.clock, Clock.count_sampled]
      exact hearly (n + 1)
    rcases ih hlater attempts (by omega) hmiddle with ⟨after, hrest, haccesses⟩
    refine ⟨after, ?_, ?_⟩
    · rw [Timer.await, bind_of_ok hrun, if_pos (hearly 0)]
      exact hrest
    · rw [haccesses, hsampled.accesses, hsampled.clock, Clock.samplings_succ, List.append_assoc,
        List.append_assoc, List.append_assoc, List.append_assoc]

theorem waitsForGood_of_early {cycles : UInt64} (hcycles : Timer.cyclesOf interval = pure cycles)
    (hearly : ∀ n, (soc.clock.count 1 - soc.clock.count (n + 2)).toUInt64 < cycles) :
    soc.WaitsForGood interval := by
  intro patience
  by_cases hpatience : patience = 0
  · subst hpatience
    refine ⟨_, bind_of_error (elapsed_of_spent rfl), ?_⟩
    have hnone : soc.clock.samplings 0 = [] := rfl
    rw [hnone, List.append_nil]
    exact Array.toList_push
  · have hpolls : (soc.watchedFor patience).pollsLeft ≠ 0 := hpatience
    rcases exists_elapsed hpolls with ⟨middle, hrun, hsampled, hleft⟩
    have hmiddle : patience = middle.pollsLeft + 1 := hleft.symm
    have hlater : ∀ n, (Timer.start - middle.clock.count (n + 1) -
        (Timer.start - (soc.watchedFor patience).clock.count 1)).toUInt64 < cycles := by
      intro n
      have hdifference : Timer.start - middle.clock.count (n + 1) -
          (Timer.start - (soc.watchedFor patience).clock.count 1) =
            soc.clock.count 1 - soc.clock.count (n + 2) := by
        rw [hsampled.clock, Clock.count_sampled]
        change Timer.start - soc.clock.count (n + 2) - (Timer.start - soc.clock.count 1) = _
        grind
      rw [hdifference]
      exact hearly n
    rcases exists_stalled_await (Nat.lt_succ_self _) hlater with ⟨after, hawait, haccesses⟩
    refine ⟨after, ?_, ?_⟩
    · rw [Timer.wait, bind_of_ok hrun, hcycles, pure_bind]
      exact hawait
    · rw [haccesses, hsampled.accesses, hsampled.clock, hmiddle, Clock.samplings_succ,
        List.append_assoc, List.append_assoc, List.append_assoc, List.append_assoc]
      rfl

/-- No difference of 32 bits is as long as a period of the timer. -/
theorem waitsForGood_of_period (hcounted : Timer.cyclesIn interval < 18446744073709551616)
    (hlong : 4294967296 ≤ Timer.cyclesIn interval) : soc.WaitsForGood interval := by
  rcases cyclesOf_of_fits hcounted with ⟨cycles, hcycles, hcyclesNat⟩
  apply waitsForGood_of_early hcycles
  intro n
  rw [UInt64.lt_iff_toNat_lt, UInt32.toNat_toUInt64, hcyclesNat]
  exact (UInt32.toNat_lt _).trans_le hlong

/-- A timer that stands still reads the same at each sampling. -/
theorem waitsForGood_of_disabled (hcounted : Timer.cyclesIn interval < 18446744073709551616)
    (hdisabled : soc.clock.enabled = 0) (hsome : 0 < Timer.cyclesIn interval) :
    soc.WaitsForGood interval := by
  rcases cyclesOf_of_fits hcounted with ⟨cycles, hcycles, hcyclesNat⟩
  apply waitsForGood_of_early hcycles
  intro n
  have hsame : soc.clock.count 1 - soc.clock.count (n + 2) = 0 := by
    simp only [Clock.count, if_pos hdisabled, UInt32.sub_self]
  rw [hsame, UInt64.lt_iff_toNat_lt, hcyclesNat]
  exact hsome

/-! ### Waits that cannot be counted -/

theorem failsToCount_of_uncounted (huncounted : 18446744073709551616 ≤ Timer.cyclesIn interval) :
    soc.FailsToCount interval := by
  intro patience hpatience
  have hpolls : (soc.watchedFor patience).pollsLeft ≠ 0 := Nat.ne_zero_of_lt hpatience
  rcases exists_elapsed hpolls with ⟨middle, hrun, hsampled, _⟩
  have hproduct : scaledLong interval (UInt64.ofNat Timer.cyclesPerMicrosecond) =
      .error .multiplication := if_neg huncounted.not_gt
  have hcycles : Timer.cyclesOf interval = throw (.fault .multiplication) := by
    rw [Timer.cyclesOf, hproduct]
  refine ⟨middle, ?_, hsampled.accesses⟩
  rw [Timer.wait, bind_of_ok hrun, hcycles]
  rfl

end Waits

/-- On a timer that runs, a wait that fits into its period takes as long as was asked for, and less
than a tick longer, wherever the timer stands and whether it wraps in between or not.  A wait of a
period or more never ends, and neither does one on a timer that stands still.  A wait for more
cycles than can be counted fails after its first sampling. -/
theorem wait_takes_its_time (soc : Soc) (interval : UInt64) :
    (soc.clock.enabled ≠ 0 → soc.tick ≠ 0 → Timer.cyclesIn interval < 4294967296 →
      (Timer.cyclesIn interval ≤ soc.tick.toNat ∨
        Timer.cyclesIn interval + soc.tick.toNat ≤ 4294967296) → soc.WaitsOut interval) ∧
    (Timer.cyclesIn interval < 18446744073709551616 →
      (4294967296 ≤ Timer.cyclesIn interval ∨
        soc.clock.enabled = 0 ∧ 0 < Timer.cyclesIn interval) → soc.WaitsForGood interval) ∧
    (18446744073709551616 ≤ Timer.cyclesIn interval → soc.FailsToCount interval) := by
  refine ⟨waitsOut_of_fits, ?_, failsToCount_of_uncounted⟩
  rintro hcounted (hlong | ⟨hdisabled, hsome⟩)
  · exact waitsForGood_of_period hcounted hlong
  · exact waitsForGood_of_disabled hcounted hdisabled hsome

/-- A board whose timer is about to wrap. -/
def Soc.wrapping : Soc where
  csrs := CsrWords.zero.assign .timerEn 1
  counter := 50
  tick := 48
  patience := 20000

/-- A wait goes on across a wrap of the timer, and ends in time. -/
theorem wait_takes_its_time_across_wrap :
    Soc.wrapping.clock.counts 4 = [2, 4294967250, 4294967202, 4294967154] ∧
    Soc.wrapping.samplesFor 3 = 3 ∧ Soc.wrapping.WaitsOut 3 := by
  refine ⟨by decide, by decide, ?_⟩
  exact (wait_takes_its_time Soc.wrapping 3).1 (by decide) (by decide) (by decide)
    (.inr (by decide))

end Board
end TimingEye
