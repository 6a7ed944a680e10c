import TimingEye.Board.Script
import TimingEye.Proofs.Board.Outcome
import TimingEye.Proofs.Board.Telling

/-!
# The first logger

A logger is installed once and for good.  So the facade that a script has got to can be told from
its steps: the logger is that of the first step that would install one, and the threshold is the
last that was put in force.

* `Keeps`: computations that leave the facade as it is, however they end;
* `Step.relog`, `log_perform`: what a single step makes of the facade;
* `facadeAfter`, `log_of_trail`: the facade after a whole script;
* `Prints`: steps that print a record;
* `FirstLoggerWins`, `firstLoggerWins_of_trail`: what every board that a script has got to goes by.
-/

namespace TimingEye
namespace Board

/-! ## Computations that keep the facade -/

/-- The state that a computation leaves behind, however it has ended. -/
def leftBehind {σ α : Type} : EStateM.Result Halt σ α → σ
  | .ok _ after | .error _ after => after

/-- However a computation ends, the facade is as it was. -/
def Keeps {α : Type} (act : Firmware α) : Prop :=
  ∀ before, (leftBehind (act before)).log = before.log

section Keeps

variable {α β : Type} {first : Firmware α} {next : α → Firmware β}

/-- What follows may leave the facade as the first part has left it. -/
theorem log_bind {before : State} {log : LogFacade} (h : (leftBehind (first before)).log = log)
    (hnext : ∀ value, Keeps (next value)) : (leftBehind ((first >>= next) before)).log = log := by
  cases hrun : first before with
  | ok value middle =>
    rw [hrun] at h
    rw [bind_of_ok hrun, hnext value middle]
    exact h
  | error halt after =>
    rw [hrun] at h
    rw [bind_of_error hrun]
    exact h

theorem keeps_bind (hfirst : Keeps first) (hnext : ∀ value, Keeps (next value)) :
    Keeps (first >>= next) := by
  intro before
  exact log_bind (hfirst before) hnext

theorem keeps_pure (value : α) : Keeps (Pure.pure value) := by
  intro before
  rfl

theorem keeps_ite {condition : Prop} [Decidable condition] {first second : Firmware α}
    (hfirst : Keeps first) (hsecond : Keeps second) :
    Keeps (if condition then first else second) := by
  split
  · exact hfirst
  · exact hsecond

/-- The bus does not know of the facade. -/
theorem keeps_onBus (act : Bus α) : Keeps (onBus act) := by
  rintro ⟨soc, log⟩
  simp only [onBus]
  cases act soc <;> rfl

end Keeps

/-! ### The calibration -/

theorem keeps_announce (variant : Variant) (pieces : List String) :
    Keeps (announce variant pieces) :=
  keeps_ite (keeps_onBus _) (keeps_pure ())

theorem keeps_issue (variant : Variant) (record : Record) : Keeps (issue variant record) := by
  have hget : Keeps (get : Firmware State) := fun _ => rfl
  apply keeps_bind hget
  intro board
  exact keeps_ite (keeps_onBus _) (keeps_pure ())

theorem keeps_drive (writes : List (Signal × UInt8)) : Keeps (registers.drive writes) := by
  induction writes with
  | nil => exact keeps_pure ()
  | cons write rest ih =>
    apply keeps_bind (keeps_onBus _)
    intro _
    exact ih

theorem keeps_check (patterns : List UInt32) : Keeps (registers.check patterns) := by
  induction patterns with
  | nil => exact keeps_pure true
  | cons pattern rest ih =>
    apply keeps_bind (keeps_onBus (Soc.registers.writeWord pattern))
    intro _
    apply keeps_bind (keeps_onBus Soc.registers.flushSharedCache)
    intro _
    apply keeps_bind (keeps_onBus Soc.registers.flushDataCache)
    intro _
    apply keeps_bind (keeps_onBus Soc.registers.readWord)
    intro found
    exact keeps_ite ih (keeps_pure false)

theorem keeps_action (variant : Variant) (action : Action) :
    Keeps (action.perform hardware (reporter variant)) := by
  cases action with
  | setDelay line taps => exact keeps_drive _
  | stepPhase direction => exact keeps_drive _
  | slip subPhase => exact keeps_drive _
  | report pieces => exact keeps_announce variant pieces
  | log record => exact keeps_issue variant record

/-- Procedures log through the facade, but they do not change it. -/
theorem keeps_run {α : Type} (variant : Variant) (procedure : Procedure α) :
    Keeps (procedure.run hardware (reporter variant)) := by
  induction procedure with
  | done value => exact keeps_pure _
  | overflow cause => exact keeps_pure _
  | act action next ih =>
    apply keeps_bind (keeps_action variant action)
    intro _
    exact ih
  | probe next ih =>
    apply keeps_bind (keeps_check testPatterns)
    intro passed
    exact ih passed

/-! ### The bring-up -/

theorem keeps_countDown (variant : Variant) (count : Nat) : Keeps (countDown variant count) := by
  induction count with
  | zero => exact keeps_pure ()
  | succ count ih =>
    apply keeps_bind (keeps_ite (keeps_onBus _) (keeps_pure ()))
    intro _
    apply keeps_bind (keeps_announce variant _)
    intro _
    exact ih

theorem keeps_giveUp (variant : Variant) : Keeps (giveUp variant) := by
  apply keeps_bind (keeps_announce variant _)
  intro _
  apply keeps_bind (keeps_countDown variant _)
  intro _
  exact keeps_onBus _

theorem log_prepareLogging (before : State) : (leftBehind (prepareLogging .full before)).log =
    (before.log.install .console (.upTo .info)).2 := by
  rcases before with ⟨soc, ⟨logger, threshold⟩⟩
  cases logger with
  | some logger => rfl
  | none => exact keeps_onBus Timer.restart ⟨soc, ⟨some .console, .upTo .info⟩⟩

/-- A bring-up installs the console logger if it is the first, and that is all. -/
theorem log_bringUp (before : State) : (leftBehind (bringUp .full before)).log =
    (before.log.install .console (.upTo .info)).2 := by
  have hhyperram : Variant.full.hyperram = true := rfl
  rw [bringUp, if_pos hhyperram]
  apply log_bind (log_prepareLogging before)
  intro _
  apply keeps_bind (keeps_announce .full _)
  intro _
  apply keeps_bind (keeps_run .full _)
  intro result
  rcases result with cause | (point | sweep)
  · exact fun _ => rfl
  · exact keeps_pure ()
  · exact keeps_giveUp .full

/-! ## Single steps -/

/-- The facade after an attempt to install a logger: the logger that is there has precedence. -/
theorem LogFacade.install_snd (facade : LogFacade) (logger : Logger) (threshold : Threshold) :
    (facade.install logger threshold).2 =
      ⟨facade.logger.or (some logger),
        if facade.logger.isNone then threshold else facade.threshold⟩ := by
  rcases facade with ⟨installed, _⟩
  cases installed <;> rfl

section Steps

variable {α : Type}

namespace Step

/-- The logger that a step would install, and the threshold that comes with it. -/
def installs : Step α → Option (Logger × Threshold)
  | register threshold => some (.console, threshold)
  | otherLogger threshold => some (.silent, threshold)
  | bringUp => some (.console, .upTo .info)
  | _ => none

/-- The threshold that a step puts in force.  That of a logger counts only while there is none. -/
def puts (free : Bool) : Step α → Option Threshold
  | setThreshold threshold => some threshold
  | step => step.installs.bind fun entry => if free then some entry.2 else none

/-- What a step makes of the facade. -/
def relog (log : LogFacade) (step : Step α) : LogFacade where
  logger := log.logger.or (step.installs.map Prod.fst)
  threshold := (step.puts log.logger.isNone).getD log.threshold

theorem puts_of_installs {step : Step α} {logger : Logger} {threshold : Threshold}
    (h : step.installs = some (logger, threshold)) (free : Bool) :
    step.puts free = if free then some threshold else none := by
  cases step <;> cases h <;> rfl

theorem relog_of_installs {step : Step α} {logger : Logger} {threshold : Threshold}
    (h : step.installs = some (logger, threshold)) (log : LogFacade) :
    step.relog log = (log.install logger threshold).2 := by
  rw [relog, puts_of_installs h, h, LogFacade.install_snd]
  cases log.logger <;> rfl

theorem relog_of_unconcerned {step : Step α} {log : LogFacade} (hinstalls : step.installs = none)
    (hputs : step.puts log.logger.isNone = none) : step.relog log = log := by
  rw [relog, hputs, hinstalls, Option.map_none, Option.or_none, Option.getD_none]

/-- Where there is a logger, no step replaces it. -/
theorem logger_relog {log : LogFacade} {logger : Logger} (h : log.logger = some logger)
    (step : Step α) : (step.relog log).logger = some logger := by
  rw [relog, h, Option.some_or]

/-- Where there is a logger, to install another one changes nothing. -/
theorem relog_of_some {log : LogFacade} {logger : Logger} (h : log.logger = some logger)
    {step : Step α} (hinstalls : step.installs ≠ none) : step.relog log = log := by
  rcases Option.ne_none_iff_exists'.mp hinstalls with ⟨entry, hentry⟩
  rw [relog_of_installs hentry, LogFacade.install, h]

/-- All other steps leave the facade alone. -/
theorem keeps_perform {step : Step α} (hinstalls : step.installs = none)
    (hputs : step.puts true = none) : Keeps (step.perform .full) := by
  have hquiet : ∀ {β : Type} (act : Bus β) (answer : β → Result α),
      Keeps (do return answer (← onBus act)) := by
    intro _ act answer
    apply keeps_bind (keeps_onBus act)
    intro value
    exact keeps_pure _
  cases step with
  | bringUp | register _ | otherLogger _ => cases hinstalls
  | setThreshold _ => cases hputs
  | issue record =>
    apply keeps_bind (keeps_issue .full record)
    intro _
    exact keeps_pure _
  | restartTimer | wait _ | print _ | direct _ | pokeCsr _ _ | setTick _ =>
    exact hquiet _ fun _ => _
  | microseconds => exact hquiet _ .number
  | readCsr csr =>
    exact keeps_ite (hquiet _ fun value => .number (csr.width.clip value).toNat) (keeps_pure _)
  | writeCsr csr value => exact keeps_ite (hquiet _ fun _ => .quiet) (keeps_pure _)
  | askThreshold | strayCsr | uninterrupted _ | idle | unknown => exact fun _ => rfl

end Step

/-- However a step ends, this is what it makes of the facade. -/
theorem log_perform (step : Step α) (before : State) :
    (leftBehind (step.perform .full before)).log = step.relog before.log := by
  cases step with
  | register _ | otherLogger _ => exact (Step.relog_of_installs rfl _).symm
  | bringUp =>
    rw [Step.relog_of_installs rfl]
    apply log_bind (log_bringUp before)
    intro _
    exact keeps_pure _
  | setThreshold threshold => exact congrArg (LogFacade.mk · threshold) (Option.or_none).symm
  | _ =>
    rw [Step.relog_of_unconcerned rfl rfl]
    exact Step.keeps_perform rfl rfl before

/-! ## Scripts -/

/-- A step has been performed on a board, and the script goes on. -/
def Step.Leads (step : Step α) (before after : State) : Prop :=
  ∃ result, step.perform .full before.fresh = .ok result after

/-- What the first of some steps that would install a logger installs. -/
def firstInstall (steps : List (Step α)) : Option (Logger × Threshold) :=
  steps.findSome? Step.installs

/-- The thresholds that some steps put in force after some others, one after another. -/
def thresholdsPut (earlier : List (Step α)) : List (Step α) → List Threshold
  | [] => []
  | step :: rest =>
    (step.puts (firstInstall earlier).isNone).toList ++ thresholdsPut (earlier ++ [step]) rest

/-- The facade after a script that has begun without a logger: the first logger, and the last
threshold that was put in force. -/
def facadeAfter (steps : List (Step α)) : LogFacade where
  logger := (firstInstall steps).map Prod.fst
  threshold := ((thresholdsPut [] steps).getLast?).getD .off

theorem firstInstall_concat (steps : List (Step α)) (step : Step α) :
    firstInstall (steps ++ [step]) = (firstInstall steps).or step.installs := by
  rw [firstInstall, List.findSome?_append, List.findSome?_singleton, firstInstall]

theorem thresholdsPut_concat (earlier steps : List (Step α)) (step : Step α) :
    thresholdsPut earlier (steps ++ [step]) =
      thresholdsPut earlier steps ++
        (step.puts (firstInstall (earlier ++ steps)).isNone).toList := by
  induction steps generalizing earlier with
  | nil => simp [thresholdsPut]
  | cons head rest ih => simp [thresholdsPut, ih]

/-- One more step makes of the facade what it makes of any. -/
theorem facadeAfter_concat (steps : List (Step α)) (step : Step α) :
    facadeAfter (steps ++ [step]) = step.relog (facadeAfter steps) := by
  have hfree : (facadeAfter steps).logger.isNone = (firstInstall steps).isNone := Option.isNone_map
  have hlogger : (firstInstall (steps ++ [step])).map Prod.fst =
      (facadeAfter steps).logger.or (step.installs.map Prod.fst) := by
    rw [firstInstall_concat, Option.map_or, facadeAfter]
  have hthreshold : ((thresholdsPut [] (steps ++ [step])).getLast?).getD .off =
      (step.puts (facadeAfter steps).logger.isNone).getD (facadeAfter steps).threshold := by
    rw [hfree, thresholdsPut_concat, List.nil_append]
    cases step.puts (firstInstall steps).isNone <;> simp [facadeAfter]
  rw [facadeAfter, hlogger, hthreshold, Step.relog]

theorem log_fresh (board : State) : board.fresh.log = board.log := rfl

theorem log_of_leads {step : Step α} {before after : State} (h : step.Leads before after) :
    after.log = step.relog before.log := by
  rcases h with ⟨result, hrun⟩
  have hlog := log_perform step before.fresh
  rw [hrun] at hlog
  exact hlog

/-- A script that has begun without a logger has got to the facade that its steps tell. -/
theorem log_of_trail {soc : Soc} {steps : List (Step α)} {board : State}
    (h : Trail Step.Leads ⟨soc, {}⟩ steps board) : board.log = facadeAfter steps := by
  -- The last step makes of the facade what it makes of any.
  induction steps using List.reverseRecOn generalizing board with
  | nil =>
    cases h
    rfl
  | append_singleton steps step ih =>
    rcases Trail.concat_iff.mp h with ⟨middle, hsteps, hstep⟩
    rw [log_of_leads hstep, ih hsteps, facadeAfter_concat]

/-- No script replaces the logger that there is. -/
theorem logger_of_trail {steps : List (Step α)} {before after : State} {logger : Logger}
    (h : Trail Step.Leads before steps after) (hlogger : before.log.logger = some logger) :
    after.log.logger = some logger := by
  induction h with
  | nil _ => exact hlogger
  | cons hstep _ ih =>
    apply ih
    rw [log_of_leads hstep]
    exact Step.logger_relog hlogger _

/-! ## Records -/

/-- A step prints a record: unless a poll goes on for good, it samples the timer and writes to the
serial line, and no poll goes on for good where the line clears. -/
structure Prints (step : Step α) (result : Result α) (record : Record) (board : State) : Prop where
  printed : Ends board.fresh (step.perform .full) fun value after =>
    value = result ∧ Printed .full record board.fresh.soc after.soc ∧
      .write .timerUpdateValue 1 ∈ after.soc.accesses ∧
      ∃ octet : UInt8, .write .uartRxtx octet.toUInt32 ∈ after.soc.accesses
  ends : board.soc.LineClears → ∃ bound, ∀ patience ≥ bound, ∃ after,
    step.perform .full (board.watchedFor patience).fresh = .ok result after

theorem Transmits.exists_write {octets : List UInt8} {trace : List BusAccess}
    (h : Transmits octets trace) (hsome : octets ≠ []) :
    ∃ octet : UInt8, .write .uartRxtx octet.toUInt32 ∈ trace := by
  cases h with
  | nil => exact absurd rfl hsome
  | cons octet hroom hrest => exact ⟨octet, by simp⟩

/-- A line that is logged is never empty. -/
theorem sends_logLine_ne_nil (time : Nat) (record : Record) :
    Variant.full.sends (logLine time record) ≠ [] := by
  have huart : Variant.full.uart = true := rfl
  have hbracket : Console.wire "[" = [91] := by decide
  simp [Variant.sends, if_pos huart, logLine, hbracket]

theorem Printed.accesses_mem {record : Record} {before after : Soc}
    (h : Printed .full record before after) :
    .write .timerUpdateValue 1 ∈ after.accesses ∧
      ∃ octet : UInt8, .write .uartRxtx octet.toUInt32 ∈ after.accesses := by
  rcases h.accesses with ⟨line, haccesses, htransmits⟩
  rcases htransmits.exists_write (sends_logLine_ne_nil _ _) with ⟨octet, hoctet⟩
  simp only [← Array.mem_toList_iff, haccesses]
  exact ⟨by simp [sampling], octet, List.mem_append_right _ hoctet⟩

/-- Where the line clears, a step ends on every board that is watched for long enough, if what it
does goes through with one poll to spare. -/
theorem exists_end {board : State} {act : Firmware Unit}
    {post : Conditions → Unit → List BusAccess → State → Prop} (hline : board.soc.LineClears)
    (hgoes : ∀ conditions : Conditions, conditions.talks →
      Goes State.soc conditions.gap 1 (State.Ready .full conditions) act (post conditions))
    (result : Result α) :
    ∃ bound, ∀ patience ≥ bound, ∃ after,
      (do act; return result) (board.watchedFor patience).fresh = .ok result after := by
  rcases Soc.exists_clearsWithin hline with ⟨gap, hgap⟩
  refine ⟨gap + 1, ?_⟩
  intro patience hpatience
  have hready : (board.watchedFor patience).fresh.Ready .full
      ⟨True, gap, board.soc.tick, patience⟩ :=
    ⟨⟨fun _ => hgap, rfl, rfl, le_rfl⟩, fun _ => trivial⟩
  rcases hgoes _ trivial _ hready hpatience with ⟨_, _, after, hrun, _⟩
  exact ⟨after, bind_of_ok hrun⟩

theorem prints_direct (record : Record) (board : State) :
    Prints (Step.direct record : Step α) (.flag true) record board := by
  constructor
  · apply ((ends_printRecord .full record board.fresh.soc).onBus board.fresh).bind
    rintro _ after _ ⟨hprinted, _⟩
    exact ⟨rfl, hprinted, hprinted.accesses_mem⟩
  · intro hline
    apply exists_end hline
    intro conditions htalks
    exact (goes_printRecord (fun _ => htalks) record).onBus

theorem prints_issue {record : Record} {board : State}
    (h : board.log.prints record.severity = true) :
    Prints (Step.issue record : Step α) .quiet record board := by
  constructor
  · apply (ends_issue .full record board.fresh).bind
    rintro _ after _ ⟨_, hprinted⟩
    rw [log_fresh, if_pos h] at hprinted
    exact ⟨rfl, hprinted, hprinted.accesses_mem⟩
  · intro hline
    apply exists_end hline
    intro _ _
    exact sparing_issue record

/-- A record that is not to be printed leaves no trace. -/
theorem perform_issue_of_unprinted {record : Record} {board : State}
    (h : ¬board.log.prints record.severity = true) :
    (Step.issue record : Step α).perform .full board.fresh = .ok .quiet board.fresh := by
  have hissue : issue .full record board.fresh = .ok () board.fresh := by
    have hget : (get : Firmware State) board.fresh = .ok board.fresh board.fresh := rfl
    have hsilent : ¬board.fresh.log.prints record.severity = true := h
    rw [issue, bind_of_ok hget, if_neg hsilent]
    rfl
  exact bind_of_ok hissue

theorem LogFacade.prints_iff {log : LogFacade} {severity : Severity} : log.prints severity = true ↔
    log.logger = some .console ∧ log.threshold.admits severity = true := by
  rw [LogFacade.prints, Bool.and_eq_true, beq_iff_eq, and_comm]

/-! ## The rules -/

/-- What a board goes by that a script has got to: the first logger has won, for good. -/
structure FirstLoggerWins (steps : List (Step α)) (board : State) : Prop where
  /-- The first logger is the one that is installed, and the last threshold is in force. -/
  log : board.log = facadeAfter steps
  /-- Whatever the next step is and however it ends, this remains so. -/
  next : ∀ step : Step α,
    (leftBehind (step.perform .full board.fresh)).log = facadeAfter (steps ++ [step])
  /-- A logger is installed if and only if no step has installed one. -/
  installed : ∀ threshold,
    (∃ after, (Step.register threshold : Step α).perform .full board.fresh =
      .ok (.flag (firstInstall steps).isNone) after) ∧
    ∃ after, (Step.otherLogger threshold : Step α).perform .full board.fresh =
      .ok (.flag (firstInstall steps).isNone) after
  /-- No script replaces the logger. -/
  stays : ∀ logger, board.log.logger = some logger → ∀ (later : List (Step α)) after,
    Trail Step.Leads board later after → after.log.logger = some logger
  /-- To install one more logger changes nothing, and neither does one more bring-up. -/
  kept : ∀ step : Step α, board.log.logger ≠ none → step.installs ≠ none →
    (leftBehind (step.perform .full board.fresh)).log = board.log
  /-- A record is printed if the console logger is installed and the threshold admits it; otherwise
  it leaves no trace. -/
  issue : ∀ record,
    if board.log.logger = some .console ∧ board.log.threshold.admits record.severity = true then
      Prints (Step.issue record : Step α) .quiet record board
    else (Step.issue record : Step α).perform .full board.fresh = .ok .quiet board.fresh
  /-- Past the facade every record is printed. -/
  direct : ∀ record, Prints (Step.direct record : Step α) (.flag true) record board

/-- Every script that begins without a logger goes by these rules, however its steps are mixed. -/
theorem firstLoggerWins_of_trail {soc : Soc} {steps : List (Step α)} {board : State}
    (h : Trail Step.Leads ⟨soc, {}⟩ steps board) : FirstLoggerWins steps board := by
  have hlog := log_of_trail h
  have hfirst : board.log.logger.isNone = (firstInstall steps).isNone := by
    rw [hlog]
    exact Option.isNone_map
  have hinstalls : ∀ logger threshold,
      (board.log.install logger threshold).1 = (firstInstall steps).isNone := by
    intro logger threshold
    rw [← hfirst, LogFacade.install]
    cases board.log.logger <;> rfl
  constructor
  case log => exact hlog
  case next =>
    intro step
    rw [log_perform, log_fresh, hlog, facadeAfter_concat]
  case installed =>
    intro threshold
    rw [← hinstalls .console threshold]
    constructor
    · exact ⟨_, rfl⟩
    · rw [hinstalls .console threshold, ← hinstalls .silent threshold]
      exact ⟨_, rfl⟩
  case stays =>
    intro logger hlogger later after hlater
    exact logger_of_trail hlater hlogger
  case kept =>
    intro step hlogger hinstalls
    rcases Option.ne_none_iff_exists'.mp hlogger with ⟨logger, hsome⟩
    rw [log_perform, log_fresh]
    exact Step.relog_of_some hsome hinstalls
  case issue =>
    intro record
    split
    case isTrue hprints => exact prints_issue (LogFacade.prints_iff.mpr hprints)
    case isFalse hsilent =>
      exact perform_issue_of_unprinted fun hprints => hsilent (LogFacade.prints_iff.mp hprints)
  case direct =>
    intro record
    exact prints_direct record board

/-- A silent logger that was first stays, with its own threshold; the console logger is refused. -/
theorem firstLoggerWins_of_silent_trail :
    Trail Step.Leads ⟨{ patience := 1 }, {}⟩
      ([.setThreshold (.upTo .trace), .otherLogger (.upTo .error), .register (.upTo .debug)] :
        List (Step Unit))
      ⟨{ patience := 1 }, ⟨some .silent, .upTo .error⟩⟩ ∧
    FirstLoggerWins
      ([.setThreshold (.upTo .trace), .otherLogger (.upTo .error), .register (.upTo .debug)] :
        List (Step Unit))
      ⟨{ patience := 1 }, ⟨some .silent, .upTo .error⟩⟩ := by
  have htrail : Trail Step.Leads ⟨{ patience := 1 }, {}⟩
      ([.setThreshold (.upTo .trace), .otherLogger (.upTo .error), .register (.upTo .debug)] :
        List (Step Unit))
      ⟨{ patience := 1 }, ⟨some .silent, .upTo .error⟩⟩ :=
    .cons ⟨_, rfl⟩ (.cons ⟨_, rfl⟩ (.cons ⟨_, rfl⟩ (.nil _)))
  exact ⟨htrail, firstLoggerWins_of_trail htrail⟩

end Steps

end Board
end TimingEye
