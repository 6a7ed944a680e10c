import TimingEye.Proofs.Board.Outcome
import TimingEye.Proofs.Board.Telling

/-!
# The transcript of a bring-up

Everything that leaves through the serial line during a bring-up is known from the answers of the
memory, from who had installed a logger by then, and from what the timer was at.

* `State.preparedLog`, `State.preparedClock`: the facade and the clock that the sweep finds;
* `bringUpText`: what a bring-up says;
* `Transcribes`: how a bring-up may end, with what it has said by then;
* `bringUp_transcript`: the bring-up of any board.
-/

namespace TimingEye
namespace Board

/-! ## The timer -/

/-- Nothing has been said. -/
def SameSent (before after : Soc) : Prop :=
  after.sent = before.sent

theorem sent_react {csr : Csr} (h : csr ≠ .uartRxtx) (soc : Soc) (before value : UInt32) :
    (soc.react before value csr).sent = soc.sent := by
  cases csr
  case uartRxtx => exact absurd rfl h
  case timerEn | hyperramClkLoadn | hyperramClkMove =>
    simp only [Soc.react]
    split <;> rfl
  case timerUpdateValue => exact (effect_sampling soc before value).2.2.1
  all_goals rfl

/-- The timer says nothing. -/
theorem frames_sent : Frames SameSent (Csr.ofSampling ++ Csr.ofStarting) := by
  constructor
  case refl =>
    intro soc
    rfl
  case trans =>
    intro first second third hfirst hsecond
    exact hsecond.trans hfirst
  case write =>
    intro csr hmem value before
    have hsilent : csr ≠ .uartRxtx := by
      rintro rfl
      exact absurd hmem (by decide)
    have hreset : csr ≠ .ctrlReset := by
      rintro rfl
      exact absurd hmem (by decide)
    have hends := ends_write hreset value before
    simp only [Ends, Soc.write] at hends ⊢
    cases hhalts : before.halts value csr with
    | none => exact sent_react hsilent _ _ _
    | some halt =>
      rw [hhalts] at hends
      exact ⟨rfl, hends⟩
  case read =>
    intro csr hmem before
    cases csr
    case uartTxfull => exact absurd hmem (by decide)
    all_goals rfl

theorem Ends.of_settles {σ α : Type} {related : σ → σ → Prop} {act : EStateM Halt σ α}
    (h : Settles related act) (before : σ) :
    Ends before act fun _ after => related before after := by
  have hbefore := h before
  rw [Ends]
  cases hrun : act before with
  | ok value after =>
    rw [hrun] at hbefore
    exact hbefore
  | error halt after =>
    rw [hrun] at hbefore
    exact hbefore.2

/-! ## Preparing the log -/

/-- The facade once the bring-up has tried to install its logger. -/
def State.preparedLog (board : State) : LogFacade :=
  (board.log.install .console (.upTo .info)).2

/-- The clock by then: it has been started over for a logger that was installed. -/
def State.preparedClock (board : State) : Clock :=
  if board.log.logger = none then ⟨1, Timer.start, Timer.start, board.soc.tick⟩
  else board.soc.clock

/-- The sweep is ready to begin. -/
structure Prepared (board prepared : State) : Prop where
  log : prepared.log = board.preparedLog
  clock : prepared.soc.clock = board.preparedClock
  sent : prepared.soc.sent = board.soc.sent

theorem ends_prepareLogging (board : State) :
    Ends board (prepareLogging .full) fun _ after => Prepared board after := by
  by_cases hnone : board.log.logger = none
  · have hlog : board.preparedLog = ⟨some .console, .upTo .info⟩ := by
      rw [State.preparedLog, LogFacade.install, hnone]
    have hclock : board.preparedClock = ⟨1, Timer.start, Timer.start, board.soc.tick⟩ :=
      if_pos hnone
    have hstarted : Ends ⟨board.soc, ⟨some .console, .upTo .info⟩⟩ (onBus Timer.restart)
        fun _ after => Prepared board after := by
      apply ((ends_restart board.soc).onBus ⟨board.soc, ⟨some .console, .upTo .info⟩⟩).weaken
      rintro _ after _ ⟨hrestarted, hlogged⟩
      exact ⟨hlogged.trans hlog.symm, hrestarted.clock.trans hclock.symm, hrestarted.sent⟩
    rwa [Ends, prepareLogging_of_first ⟨rfl, hnone⟩]
  · -- There is a logger already, and it is left alone.
    have hlog : board.preparedLog = board.log := by
      rcases Option.ne_none_iff_exists'.mp hnone with ⟨logger, hlogger⟩
      rw [State.preparedLog, LogFacade.install, hlogger]
    have hleft := prepareLogging_of_later fun h : Variant.full.consoleLogger = true ∧ _ => hnone h.2
    exact Ends.of_end hleft ⟨hlog.symm, (if_neg hnone).symm, rfl⟩

/-! ## Giving up -/

/-- The counts of a countdown. -/
def countdownText : Nat → String
  | 0 => ""
  | count + 1 => String.join (countPieces (count + 1)) ++ countdownText count

theorem countdownText_restartCountdown :
    countdownText restartCountdown = "\x085\x084\x083\x082\x081" := by
  decide

theorem ends_countDown (count : Nat) (before : State) :
    Ends before (countDown .full count) fun _ after => after.soc.sent.toList =
      before.soc.sent.toList ++ Console.wire (countdownText count) := by
  induction count generalizing before with
  | zero => exact (List.append_nil _).symm
  | succ count ih =>
    have hsettles := frames_sent.waitSecond (List.subset_append_left _ _)
      (List.subset_append_right _ _) .full
    rw [countDown]
    apply (Ends.of_settles hsettles before).bind
    intro _ waited _ hwaited
    apply (ends_announce _ waited).bind
    rintro _ told _ ⟨htold, _⟩
    apply (ih told).weaken
    intro _ after _ hafter
    rw [hafter, htold.sent, hwaited, countdownText, Console.wire_append, List.append_assoc]

/-- How giving up may end: with a reset, once everything has been said, or cut by a poll. -/
inductive GivesUp (before : State) : EStateM.Result Halt State Unit → Prop where
  | reset (after : State) (hsent : after.soc.sent.toList = before.soc.sent.toList ++
      Console.wire (failureNotice ++ countdownText restartCountdown)) :
      GivesUp before (.error .reset after)
  | stalled (poll : Poll) (after : State) : GivesUp before (.error (.stalled poll) after)

theorem givesUp_giveUp (before : State) : GivesUp before (giveUp .full before) := by
  rw [giveUp]
  apply (ends_announce [failureNotice] before).run_bind .stalled
  rintro _ told _ ⟨htold, _⟩
  apply (ends_countDown restartCountdown told).run_bind .stalled
  intro _ counted _ hcounted
  have hnotice : String.join [failureNotice] = failureNotice := by simp
  refine .reset ⟨counted.soc.assigned .ctrlReset 1, counted.log⟩ ?_
  change counted.soc.sent.toList = _
  rw [hcounted, htold.sent, hnotice, Console.wire_append, List.append_assoc]

/-! ## The whole bring-up -/

/-- What is said last: nothing once there is an operating point. -/
def partingText : Verdict → String
  | .calibrated _ => ""
  | .exhausted _ => failureNotice ++ "\x085\x084\x083\x082\x081"

/-- What a bring-up says that finds a logging facade and reads some times. -/
def bringUpText (log : LogFacade) (time : Nat → Nat) (rows : List (List Bool))
    (verdict : Verdict) : String :=
  banner ++ sweepText log time .standard rows verdict ++ partingText verdict

/-- A bring-up has prepared its logging and printed its banner, and its calibration has got to a
verdict by some events. -/
def Sweeps (board : State) (events : List Event) (verdict : Verdict) (swept : State) : Prop :=
  ∃ prepared started, prepareLogging .full board = .ok () prepared ∧
    announce .full [banner] prepared = .ok () started ∧
    Procedure.Path (calibrate .standard) events (.ok verdict) ∧ Trail Happens started events swept

/-- How a bring-up may end, and what it has said by then: it returns with an operating point, resets
the chip without one, or is cut by a poll. -/
inductive Transcribes (board : State) : EStateM.Result Halt State Unit → Prop where
  | returned {events : List Event} {point : Calibrated} {swept : State}
      (hsweeps : Sweeps board events (.calibrated point) swept)
      (hsent : swept.soc.sent.toList = board.soc.sent.toList ++
        Console.wire (bringUpText board.preparedLog board.preparedClock.time
          (answerRows (calls events)) (.calibrated point))) :
      Transcribes board (.ok () swept)
  | reset {events : List Event} {sweep : Exhausted} {swept after : State}
      (hsweeps : Sweeps board events (.exhausted sweep) swept)
      (hsent : after.soc.sent.toList = board.soc.sent.toList ++
        Console.wire (bringUpText board.preparedLog board.preparedClock.time
          (answerRows (calls events)) (.exhausted sweep))) :
      Transcribes board (.error .reset after)
  | stalled (poll : Poll) (after : State) : Transcribes board (.error (.stalled poll) after)

/-- The sweep of a bring-up has said what its answers and its verdict tell. -/
theorem sent_of_sweeps {board swept : State} {events : List Event} {verdict : Verdict}
    (h : Sweeps board events verdict swept) :
    swept.soc.sent.toList = board.soc.sent.toList ++ Console.wire (banner ++
      sweepText board.preparedLog board.preparedClock.time .standard (answerRows (calls events))
        verdict) := by
  rcases h with ⟨prepared, started, hprepare, hannounce, hpath, htrail⟩
  have hprepared := (ends_prepareLogging board).of_ok hprepare
  rcases (ends_announce [banner] prepared).of_ok hannounce with ⟨hspoke, hlog⟩
  rcases Course.of_path hpath with ⟨_, hverdict, hcourse⟩
  cases hverdict
  have hbanner : String.join [banner] = banner := by simp
  have hsent := (sent_of_trail htrail).2
  rw [hlog, hspoke.clock, hprepared.log, hprepared.clock, said_course _ _ hcourse] at hsent
  rw [hsent, hspoke.sent, hprepared.sent, hbanner, Console.wire_append, List.append_assoc]

theorem transcribes_bringUp (board : State) : Transcribes board (bringUp .full board) := by
  have hhyperram : Variant.full.hyperram = true := rfl
  rw [bringUp, if_pos hhyperram]
  apply (ends_prepareLogging board).run_bind .stalled
  intro _ prepared hprepare _
  apply (ends_announce [banner] prepared).run_bind .stalled
  intro _ started hannounce _
  have hrun : Ends started (calibrateMemory .full) fun result swept =>
      ∃ events, Procedure.Path (calibrate .standard) events result ∧
        Trail Happens started events swept := ends_run (calibrate .standard) started
  apply hrun.run_bind .stalled
  rintro _ swept _ ⟨events, hpath, htrail⟩
  rcases Course.of_path hpath with ⟨verdict, rfl, _⟩
  have hsweeps : Sweeps board events verdict swept :=
    ⟨prepared, started, hprepare, hannounce, hpath, htrail⟩
  have hsent := sent_of_sweeps hsweeps
  cases verdict with
  | calibrated point =>
    refine .returned hsweeps ?_
    rw [hsent, bringUpText, partingText, String.append_empty]
  | exhausted sweep =>
    change Transcribes board (giveUp .full swept)
    have hgives := givesUp_giveUp swept
    generalize giveUp .full swept = result at hgives ⊢
    cases hgives with
    | stalled poll after => exact .stalled poll after
    | reset after hsaid =>
      refine .reset hsweeps ?_
      rw [hsaid, hsent, countdownText_restartCountdown, bringUpText, partingText,
        Console.wire_append _ (failureNotice ++ _), List.append_assoc]

/-! ## The first logger -/

/-- A logger that is installed by the bring-up prints the record of the verdict and no other. -/
theorem bringUpText_of_first {board : State} (h : board.log.logger = none)
    (rows : List (List Bool)) (verdict : Verdict) :
    bringUpText board.preparedLog board.preparedClock.time rows verdict =
      banner ++ progressText .standard rows ++
        String.join (logLine (board.soc.tick.toNat / 48) verdict.record) ++
        partingText verdict := by
  have hlog : board.preparedLog = ⟨some .console, .upTo .info⟩ := by
    rw [State.preparedLog, LogFacade.install, h]
  have htime : board.preparedClock.time 1 = board.soc.tick.toNat / 48 := by
    have hpassed : Timer.start - (Timer.start - UInt32.ofNat 1 * board.soc.tick) =
        board.soc.tick := by
      grind
    have hrunning : ¬(1 : UInt32) = 0 := by decide
    rw [State.preparedClock, if_pos h, Clock.time, Clock.count, if_neg hrunning, hpassed]
    rfl
  have hsettings : settingsTold ⟨some .console, .upTo .info⟩ board.preparedClock.time .standard
      rows = progressText .standard rows := by
    have hrecord : ∀ coarse row, recordTold ⟨some .console, .upTo .info⟩
        (board.preparedClock.time (coarse + 1)) (settingRecord .standard coarse row) = "" :=
      fun _ _ => rfl
    simp only [settingsTold, settingTold, hrecord, String.append_empty]
    rfl
  have hverdict : recordTold ⟨some .console, .upTo .info⟩ (board.preparedClock.time 1)
      verdict.record = String.join (logLine (board.soc.tick.toNat / 48) verdict.record) := by
    rw [htime]
    cases verdict <;> rfl
  have hsamples : recordsPrinted ⟨some .console, .upTo .info⟩ rows.length = 0 := rfl
  rw [bringUpText, sweepText, hlog, hsamples, hsettings, hverdict, ← String.append_assoc]

/-- As long as the line clears again and again and the timer advances, no poll goes on for good. -/
theorem exists_unstalled {board : State} (hline : board.soc.LineClears)
    (htick : board.soc.tick ≠ 0) :
    ∃ bound, ∀ patience ≥ bound, ∀ poll after,
      bringUp .full (board.watchedFor patience) ≠ .error (.stalled poll) after := by
  have htalks : Talks .full board.log → board.soc.LineClears := fun _ => hline
  rcases exists_concluded rfl htalks with ⟨bound, hbound⟩
  refine ⟨bound, ?_⟩
  intro patience hpatience poll after hcut
  rcases hbound patience hpatience with ⟨verdict, _, _, hends⟩
  rcases hends fun _ _ _ => htick with ⟨ended, hrun⟩
  rw [hrun] at hcut
  cases verdict <;> cases hcut

/-- Unless a poll goes on for good, every bring-up of the full variant sends the banner, what the
sweep tells of its settings and its verdict, and the countdown if there is no operating point; and
nothing else.  Records are printed as the facade says once the bring-up has tried to install its
logger, with the times that the timer is at.  If that logger is the first one, the record of the
verdict is the only one, and its time is that of one tick.  No poll goes on for good where the
line clears and the timer advances. -/
theorem bringUp_transcript (board : State) :
    Transcribes board (bringUp .full board) ∧
    (board.log.logger = none → ∀ rows verdict,
      bringUpText board.preparedLog board.preparedClock.time rows verdict =
        banner ++ progressText .standard rows ++
          String.join (logLine (board.soc.tick.toNat / 48) verdict.record) ++
          partingText verdict) ∧
    (board.soc.LineClears → board.soc.tick ≠ 0 → ∃ bound, ∀ patience ≥ bound, ∀ poll after,
      bringUp .full (board.watchedFor patience) ≠ .error (.stalled poll) after) :=
  ⟨transcribes_bringUp board, fun hfirst => bringUpText_of_first hfirst,
    fun hline htick => exists_unstalled hline htick⟩

end Board
end TimingEye
