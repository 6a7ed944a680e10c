import TimingEye.Proofs.Board.Sparing

/-!
# How a bring-up ends

As long as the serial line clears again and again and the timer advances, a bring-up ends in one
of two ways: it returns with the memory calibrated, or it counts down and resets the chip.

* `CountsDown`: the accesses of a countdown;
* `sweepMemory`: the bring-up up to its verdict;
* `bringUp_outcome`: the bring-up of any board.
-/

namespace TimingEye
namespace Board

/-! ## The countdown -/

/-- The accesses of a second's wait, if the board has a timer to wait for. -/
def waiting (variant : Variant) (tick : UInt32) : List BusAccess :=
  if variant.timer then
    restarting ++ samplings tick Timer.start (1 + samplesOf clockFrequency tick.toNat)
  else []

/-- The accesses of a countdown: a second's wait before each count. -/
inductive CountsDown (variant : Variant) (tick : UInt32) : Nat → List BusAccess → Prop where
  | zero : CountsDown variant tick 0 []
  | succ {count : Nat} {told rest : List BusAccess}
      (htold : Transmits (variant.announces (countPieces (count + 1))) told)
      (h : CountsDown variant tick count rest) :
      CountsDown variant tick (count + 1) (waiting variant tick ++ told ++ rest)

/-- Whether an access has to do with a reset. -/
def BusAccess.resets : BusAccess → Bool
  | .write .ctrlReset _ | .read .ctrlReset _ => true
  | _ => false

theorem resets_of_spares {accesses : List BusAccess} (h : Spares accesses) :
    ∀ access ∈ accesses, access.resets = false := by
  intro access hmem
  by_contra hresets
  have hspares := h access hmem
  rcases access with ⟨csr, _⟩ | ⟨csr, _⟩ | _ | _
  case write | read => cases csr <;> first | exact hresets rfl | cases hspares
  all_goals exact hresets rfl

theorem spares_samplings (tick counter : UInt32) (samples : Nat) :
    Spares (samplings tick counter samples) := by
  induction samples generalizing counter with
  | zero => exact spares_nil
  | succ samples ih => exact spares_cons.mpr ⟨rfl, spares_cons.mpr ⟨rfl, ih _⟩⟩

/-- A countdown starts the timer over, but does not reset the chip. -/
theorem CountsDown.resets_eq_false {variant : Variant} {tick : UInt32} {count : Nat}
    {accesses : List BusAccess} (h : CountsDown variant tick count accesses) :
    ∀ access ∈ accesses, access.resets = false := by
  have hwaiting : ∀ access ∈ waiting variant tick, access.resets = false := by
    rw [waiting]
    split
    · have hrestarting : ∀ access ∈ restarting, access.resets = false := by decide
      have hsamplings := resets_of_spares
        (spares_samplings tick Timer.start (1 + samplesOf clockFrequency tick.toNat))
      exact List.forall_mem_append.mpr ⟨hrestarting, hsamplings⟩
    · exact List.forall_mem_nil _
  induction h with
  | zero => exact List.forall_mem_nil _
  | succ htold _ ih =>
    have htold := resets_of_spares htold.spares
    exact List.forall_mem_append.mpr ⟨List.forall_mem_append.mpr ⟨hwaiting, htold⟩, ih⟩

/-- The polls of a second's wait. -/
def waitingPolls (tick : UInt32) : Nat :=
  1 + samplesOf clockFrequency tick.toNat

section Countdown

variable {variant : Variant} {conditions : Conditions}

/-- A second's wait starts the timer over, so it does not matter how the timer stood before. -/
theorem goes_waitSecond (htick : variant.timer = true → conditions.tick ≠ 0) :
    Goes State.soc conditions.gap (waitingPolls conditions.tick)
      (State.Ready variant conditions) (waitSecond variant)
      fun _ made board => made = waiting variant conditions.tick ∧
        board.Ready variant conditions := by
  apply Goes.ite
  · intro htimer
    have hcycles : (1000000 : UInt64).toNat * Timer.cyclesPerMicrosecond = clockFrequency := rfl
    have hfrequency : clockFrequency = 48000000 := rfl
    have htickNat := conditions.tick.toNat_lt
    have hwaiting : waiting variant conditions.tick =
        restarting ++ samplings conditions.tick Timer.start (waitingPolls conditions.tick) :=
      if_pos htimer
    have hwait : Goes id conditions.gap (waitingPolls conditions.tick)
        (fun soc => soc.Counts conditions.tick Timer.start ∧ soc.Ready conditions)
        (Timer.wait 1000000) fun _ made soc =>
          made = samplings conditions.tick Timer.start (waitingPolls conditions.tick) ∧
            soc.Ready conditions := by
      rw [waitingPolls, ← hcycles]
      apply goes_wait (htick htimer)
      · rw [hcycles]
        decide
      · -- A tick below a second is far from wrapping after a second.
        rw [hcycles]
        omega
    apply Goes.onBus
    apply Goes.bind 0 (waitingPolls conditions.tick) (Nat.zero_add _).le goes_restart
    rintro _ earlier rfl
    apply hwait.weaken le_rfl
    rintro _ made rfl
    exact hwaiting.symm
  · intro hnone
    have hwaiting : waiting variant conditions.tick = [] := if_neg hnone
    apply Goes.pure
    intro board h
    exact ⟨hwaiting.symm, h⟩

theorem goes_countDown (htick : variant.timer = true → conditions.tick ≠ 0) (count : Nat) :
    Goes State.soc conditions.gap (count * waitingPolls conditions.tick)
      (State.Ready variant conditions) (countDown variant count)
      fun _ made board => CountsDown variant conditions.tick count made ∧
        board.Ready variant conditions := by
  induction count with
  | zero =>
    apply Goes.pure
    intro board h
    exact ⟨.zero, h⟩
  | succ count ih =>
    have hcost : waitingPolls conditions.tick + count * waitingPolls conditions.tick =
        (count + 1) * waitingPolls conditions.tick := by
      rw [Nat.succ_mul, Nat.add_comm]
    apply Goes.bind _ _ hcost.le (goes_waitSecond htick)
    rintro _ waited rfl
    apply Goes.bind 0 _ (Nat.zero_add _).le (goes_announce _)
    intro _ told htold
    apply ih.weaken le_rfl
    intro _ rest hrest
    rw [← List.append_assoc]
    exact .succ htold hrest

end Countdown

/-! ## The bring-up -/

/-- The bring-up up to its verdict. -/
def sweepMemory (variant : Variant) : Firmware (Except Overflow Verdict) := do
  prepareLogging variant
  announce variant [banner]
  calibrateMemory variant

/-- The accesses by which the logging is prepared: the timer is started for a logger that has just
been installed. -/
def preparing (variant : Variant) (log : LogFacade) : List BusAccess :=
  if variant.consoleLogger = true ∧ log.logger = none then restarting else []

section BringUp

variable {variant : Variant} {conditions : Conditions}

theorem exists_prepareLogging {before : State} (h : before.Ready variant conditions)
    (hpolls : conditions.gap ≤ before.soc.pollsLeft) :
    ∃ after, prepareLogging variant before = .ok () after ∧
      after.soc.accesses.toList = before.soc.accesses.toList ++ preparing variant before.log ∧
      before.soc.pollsLeft ≤ after.soc.pollsLeft ∧ after.Ready variant conditions := by
  by_cases hfirst : variant.consoleLogger = true ∧ before.log.logger = none
  · have hconsole : variant.console = true := by
      simp only [Variant.consoleLogger, Bool.and_eq_true] at hfirst
      exact hfirst.1.1.1
    rcases goes_restart before.soc h.soc hpolls with
      ⟨_, _, after, hrun, haccesses, hleft, rfl, _, hafter⟩
    have htalks : Talks variant ⟨some .console, .upTo .info⟩ → conditions.talks := by
      rintro ⟨huart, _⟩
      exact h.talks ⟨huart, .inl hconsole⟩
    refine ⟨⟨after, ⟨some .console, .upTo .info⟩⟩, ?_, ?_, hleft, hafter, htalks⟩
    · rw [prepareLogging_of_first hfirst]
      simp only [onBus, hrun]
    · rw [preparing, if_pos hfirst]
      exact haccesses
  · refine ⟨before, prepareLogging_of_later hfirst, ?_, le_rfl, h⟩
    rw [preparing, if_neg hfirst, List.append_nil]

/-- The bring-up comes to a verdict, and has only started the timer for its logger. -/
theorem exists_sweepMemory {before : State} (h : before.Ready variant conditions)
    (hpolls : conditions.gap + mostRecords (calibrate .standard) ≤ before.soc.pollsLeft) :
    ∃ verdict sweep after, sweepMemory variant before = .ok (.ok verdict) after ∧
      after.soc.accesses.toList =
        before.soc.accesses.toList ++ preparing variant before.log ++ sweep ∧ Spares sweep ∧
      before.soc.pollsLeft ≤ after.soc.pollsLeft + mostRecords (calibrate .standard) ∧
      after.Ready variant conditions := by
  rcases exists_prepareLogging h (by omega) with ⟨prepared, hprepare, haccesses, hleft, hprepared⟩
  have hsweep : Sparing variant conditions (mostRecords (calibrate .standard))
      (do announce variant [banner]; calibrateMemory variant)
      fun result => ∃ verdict, result = .ok verdict := by
    apply Sparing.bind 0 _ (Nat.zero_add _).le (sparing_announce _)
    intro _ _
    exact sparing_calibrateMemory variant conditions
  rcases hsweep prepared hprepared (by omega) with
    ⟨_, sweep, after, hrun, haccesses', hleft', ⟨hspares, verdict, rfl⟩, hafter⟩
  refine ⟨verdict, sweep, after, ?_, ?_, hspares, hleft.trans hleft', hafter⟩
  · rw [sweepMemory, bind_of_ok hprepare]
    exact hrun
  · rw [← haccesses]
    exact haccesses'

/-- Giving up goes through until it resets the chip. -/
theorem exists_giveUp {before : State} (h : before.Ready variant conditions)
    (htick : variant.timer = true → conditions.tick ≠ 0)
    (hpolls : conditions.gap + restartCountdown * waitingPolls conditions.tick ≤
      before.soc.pollsLeft) :
    ∃ notice counts after, giveUp variant before = .error .reset after ∧
      Transmits (variant.announces [failureNotice]) notice ∧
      CountsDown variant conditions.tick restartCountdown counts ∧
      after.soc.accesses.toList =
        before.soc.accesses.toList ++ notice ++ counts ++ [.write .ctrlReset 1] := by
  rcases goes_announce [failureNotice] before h (by omega) with
    ⟨_, notice, told, htell, haccesses, hleft, hnotice, htold⟩
  rcases goes_countDown htick restartCountdown told htold (by omega) with
    ⟨_, counts, counted, hcount, haccesses', _, hcounts, _⟩
  have hreset : resetChip counted =
      .error .reset ⟨counted.soc.assigned .ctrlReset 1, counted.log⟩ := rfl
  refine ⟨notice, counts, ⟨counted.soc.assigned .ctrlReset 1, counted.log⟩, ?_, hnotice, hcounts,
    ?_⟩
  · rw [giveUp, bind_of_ok htell, bind_of_ok hcount, hreset]
  · rw [← haccesses, ← haccesses']
    exact Array.toList_push

end BringUp

/-- What the bring-up does once there is a verdict. -/
def concludeWith (variant : Variant) : Verdict → Firmware Unit
  | .calibrated _ => pure ()
  | .exhausted _ => giveUp variant

/-- The sweep is the first part of the bring-up. -/
theorem bringUp_eq_bind {variant : Variant} (hhyperram : variant.hyperram = true) :
    bringUp variant = sweepMemory variant >>= fun
      | .ok verdict => concludeWith variant verdict
      | .error cause => throw (.fault cause) := by
  simp only [bringUp, if_pos hhyperram, sweepMemory, bind_assoc]
  congr 1
  funext _
  congr 1
  funext _
  congr 1
  funext result
  rcases result with cause | point | sweep <;> rfl

theorem bringUp_of_sweepMemory {variant : Variant} {before after : State} {verdict : Verdict}
    (hhyperram : variant.hyperram = true)
    (h : sweepMemory variant before = .ok (.ok verdict) after) :
    bringUp variant before = concludeWith variant verdict after := by
  rw [bringUp_eq_bind hhyperram, bind_of_ok h]

/-- What halts the sweep halts the bring-up. -/
theorem bringUp_of_sweepMemory_error {variant : Variant} {before after : State} {halt : Halt}
    (hhyperram : variant.hyperram = true) (h : sweepMemory variant before = .error halt after) :
    bringUp variant before = .error halt after := by
  rw [bringUp_eq_bind hhyperram, bind_of_error h]

/-- The bring-up comes to a verdict and ends as the verdict says.  Only a countdown needs the timer
to advance. -/
theorem exists_ending {variant : Variant} {conditions : Conditions} {before : State}
    (hhyperram : variant.hyperram = true) (h : before.Ready variant conditions)
    (hpolls : conditions.gap + mostRecords (calibrate .standard) +
      restartCountdown * waitingPolls conditions.tick ≤ before.soc.pollsLeft) :
    ∃ verdict sweep swept, sweepMemory variant before = .ok (.ok verdict) swept ∧
      swept.soc.accesses.toList =
        before.soc.accesses.toList ++ preparing variant before.log ++ sweep ∧ Spares sweep ∧
      (∀ point, verdict = .calibrated point → bringUp variant before = .ok () swept) ∧
      (∀ failed, verdict = .exhausted failed → (variant.timer = true → conditions.tick ≠ 0) →
        ∃ notice counts after, bringUp variant before = .error .reset after ∧
          Transmits (variant.announces [failureNotice]) notice ∧
          CountsDown variant conditions.tick restartCountdown counts ∧
          after.soc.accesses.toList =
            swept.soc.accesses.toList ++ notice ++ counts ++ [.write .ctrlReset 1]) := by
  rcases exists_sweepMemory h (by omega) with
    ⟨verdict, sweep, swept, hsweep, haccesses, hspares, hleft, hswept⟩
  refine ⟨verdict, sweep, swept, hsweep, haccesses, hspares, ?_, ?_⟩
  · rintro point rfl
    exact bringUp_of_sweepMemory hhyperram hsweep
  · rintro failed rfl htick
    rw [bringUp_of_sweepMemory hhyperram hsweep]
    exact exists_giveUp hswept htick (by omega)

/-- The same board, with its polls watched for so long. -/
def State.watchedFor (board : State) (patience : Nat) : State :=
  ⟨{ board.soc with patience, pollsLeft := patience }, board.log⟩

/-- A board whose line clears for whoever may talk on it is ready, however long it is watched. -/
theorem exists_ready {variant : Variant} {board : State}
    (hline : Talks variant board.log → board.soc.LineClears) :
    ∃ gap, ∀ patience, (board.watchedFor patience).Ready variant
      ⟨Talks variant board.log, gap, board.soc.tick, patience⟩ := by
  obtain ⟨gap, hgap⟩ : ∃ gap, Talks variant board.log → board.soc.ClearsWithin gap := by
    -- Where nobody may talk, the line need not clear at all.
    by_cases htalks : Talks variant board.log
    · rcases Soc.exists_clearsWithin (hline htalks) with ⟨gap, hgap⟩
      exact ⟨gap, fun _ => hgap⟩
    · exact ⟨0, fun h => absurd h htalks⟩
  exact ⟨gap, fun patience => ⟨⟨hgap, rfl, rfl, le_rfl⟩, fun h => h⟩⟩

/-- The end of a bring-up that has come to a verdict: it has returned with an operating point, or
reset the chip without one. -/
def concluded (after : State) : Verdict → EStateM.Result Halt State Unit
  | .calibrated _ => .ok () after
  | .exhausted _ => .error .reset after

/-- Every bring-up that is watched for long enough ends as its verdict says, as long as the line
clears and there is a timer to count down by. -/
theorem exists_concluded {variant : Variant} {board : State} (hhyperram : variant.hyperram = true)
    (hline : Talks variant board.log → board.soc.LineClears) :
    ∃ bound, ∀ patience ≥ bound, ∃ verdict swept,
      sweepMemory variant (board.watchedFor patience) = .ok (.ok verdict) swept ∧
      ((∀ failed, verdict = .exhausted failed → variant.timer = true → board.soc.tick ≠ 0) →
        ∃ after, bringUp variant (board.watchedFor patience) = concluded after verdict) := by
  rcases exists_ready hline with ⟨gap, hready⟩
  refine ⟨gap + mostRecords (calibrate .standard) +
    restartCountdown * waitingPolls board.soc.tick, ?_⟩
  intro patience hpatience
  rcases exists_ending hhyperram (hready patience) hpatience with
    ⟨verdict, _, swept, hsweep, _, _, hreturns, hresets⟩
  refine ⟨verdict, swept, hsweep, fun htick => ?_⟩
  cases verdict with
  | calibrated point => exact ⟨swept, hreturns point rfl⟩
  | exhausted failed =>
    rcases hresets failed rfl (htick failed rfl) with ⟨_, _, after, hrun, _⟩
    exact ⟨after, hrun⟩

/-- As long as the line clears again and again for whoever may talk on it, and the timer advances,
every bring-up that is watched for long enough comes to a verdict, starting the timer at most for
the logger that it installs.  With an operating point it returns there and then; without one it
says so, counts down from five with a complete wait before each count, and resets the chip by its
last access. -/
theorem bringUp_outcome (variant : Variant) (board : State) (hhyperram : variant.hyperram = true)
    (hline : Talks variant board.log → board.soc.LineClears)
    (htick : variant.timer = true → board.soc.tick ≠ 0) :
    ∃ bound, ∀ patience ≥ bound, ∃ verdict sweep swept,
      sweepMemory variant (board.watchedFor patience) = .ok (.ok verdict) swept ∧
      swept.soc.accesses.toList =
        board.soc.accesses.toList ++ preparing variant board.log ++ sweep ∧ Spares sweep ∧
      (∀ point, verdict = .calibrated point →
        bringUp variant (board.watchedFor patience) = .ok () swept) ∧
      (∀ failed, verdict = .exhausted failed → ∃ notice counts after,
        bringUp variant (board.watchedFor patience) = .error .reset after ∧
        Transmits (variant.announces [failureNotice]) notice ∧
        CountsDown variant board.soc.tick restartCountdown counts ∧
        (∀ access ∈ notice ++ counts, access.resets = false) ∧
        after.soc.accesses.toList =
          swept.soc.accesses.toList ++ notice ++ counts ++ [.write .ctrlReset 1]) := by
  rcases exists_ready hline with ⟨gap, hready⟩
  -- Only sent octets make up for polls, and there may be none: each record and each wait has to be
  -- paid for beforehand.
  refine ⟨gap + mostRecords (calibrate .standard) +
    restartCountdown * waitingPolls board.soc.tick, ?_⟩
  intro patience hpatience
  rcases exists_ending hhyperram (hready patience) hpatience with
    ⟨verdict, sweep, swept, hsweep, haccesses, hspares, hreturns, hresets⟩
  refine ⟨verdict, sweep, swept, hsweep, haccesses, hspares, hreturns, ?_⟩
  intro failed hfailed
  rcases hresets failed hfailed htick with
    ⟨notice, counts, after, hrun, hnotice, hcounts, haccesses'⟩
  have hresets : ∀ access ∈ notice ++ counts, access.resets = false :=
    List.forall_mem_append.mpr ⟨resets_of_spares hnotice.spares, hcounts.resets_eq_false⟩
  exact ⟨notice, counts, after, hrun, hnotice, hcounts, hresets, haccesses'⟩

/-- A line that is never busy clears. -/
theorem lineClears_of_fresh (tick : UInt32) (patience : Nat) :
    ({ tick, patience } : Soc).LineClears := by
  intro polls
  have hscript : BusyScript.tail^[polls] {} = {} := Function.iterate_fixed rfl polls
  have hpolled : ({ tick, patience } : Soc).polled polls = 0 := by
    rw [Soc.polled, BusyScript.word, hscript]
    exact CsrWords.word_zero _
  refine ⟨0, ?_⟩
  rw [Nat.add_zero, hpolled]
  rfl

/-- A fresh board meets the conditions: its bring-up returns or resets the chip. -/
theorem bringUp_outcome_of_fresh_board :
    Variant.full.hyperram = true ∧ ({ tick := 1, patience := 20000 } : Soc).LineClears ∧
    (1 : UInt32) ≠ 0 ∧
    ∃ bound, ∀ patience ≥ bound, ∃ after,
      bringUp .full (State.watchedFor ⟨{ tick := 1, patience := 20000 }, {}⟩ patience) =
        .ok () after ∨
      bringUp .full (State.watchedFor ⟨{ tick := 1, patience := 20000 }, {}⟩ patience) =
        .error .reset after := by
  have hline := lineClears_of_fresh 1 20000
  refine ⟨rfl, hline, by decide, ?_⟩
  rcases bringUp_outcome .full ⟨{ tick := 1, patience := 20000 }, {}⟩ rfl (fun _ => hline)
    (fun _ => by decide) with ⟨bound, hbound⟩
  refine ⟨bound, ?_⟩
  intro patience hpatience
  rcases hbound patience hpatience with ⟨verdict, _, swept, _, _, _, hreturns, hresets⟩
  cases verdict with
  | calibrated point => exact ⟨swept, .inl (hreturns point rfl)⟩
  | exhausted failed =>
    rcases hresets failed rfl with ⟨_, _, after, hrun, _⟩
    exact ⟨after, .inr hrun⟩

end Board
end TimingEye
