import Mathlib.Data.List.Forall2
import TimingEye.Proofs.Board.Alike

/-!
# Back-pressure does not show

A busy line makes the firmware poll, and nothing else.  Two boards that differ in nothing but their
lines do the same, step by step, as long as neither waits for good: with the same results, the same
octets sent, the timer sampled at the same times, and the same accesses apart from the polls.

* `State.Alike`: boards that are alike, with firmware in the same state;
* `agree_bringUp`, `agree_perform`: the bring-up, and every step that does not ask for the line;
* `back_pressure_hidden`: whole scripts.
-/

namespace TimingEye
namespace Board

/-! ## The firmware -/

/-- Two boards with the same firmware, in the same state, on hardware that is alike. -/
structure State.Alike (board board' : State) : Prop where
  soc : board.soc.Alike board'.soc
  log : board'.log = board.log

theorem Agree.onBus {α : Type} {act act' : Bus α} (h : Agree Soc.Alike act act') :
    Agree State.Alike (onBus act) (onBus act') := by
  rintro ⟨soc, log⟩ ⟨soc', log'⟩ ⟨hsoc, hlog⟩
  cases hlog
  have hend := h soc soc' hsoc
  simp only [Board.onBus]
  generalize act soc = outcome at hend
  generalize act' soc' = outcome' at hend
  cases hend with
  | ended value hafter => exact .ended value ⟨hafter, rfl⟩
  | halted halt hafter => exact .halted halt ⟨hafter, rfl⟩
  | cutFirst poll after => exact .cutFirst poll _ _
  | cutSecond poll after => exact .cutSecond poll _ _

theorem agree_installLogger (logger : Logger) (threshold : Threshold) :
    Agree State.Alike (installLogger logger threshold) (installLogger logger threshold) := by
  rintro ⟨soc, log⟩ ⟨soc', log'⟩ ⟨hsoc, hlog⟩
  cases hlog
  exact .ended (log.install logger threshold).1 ⟨hsoc, rfl⟩

theorem agree_setThreshold (threshold : Threshold) :
    Agree State.Alike (setThreshold threshold) (setThreshold threshold) := by
  rintro ⟨soc, log⟩ ⟨soc', log'⟩ ⟨hsoc, hlog⟩
  cases hlog
  exact .ended () ⟨hsoc, rfl⟩

section

variable (variant : Variant)

theorem agree_announce (pieces : List String) :
    Agree State.Alike (announce variant pieces) (announce variant pieces) :=
  .ite (agree_printAll variant pieces).onBus (.pure ())

theorem agree_issue (record : Record) :
    Agree State.Alike (issue variant record) (issue variant record) := by
  apply Agree.get_bind
  intro board board' h
  rw [h.log]
  exact .ite (agree_printRecord variant record).onBus (.pure ())

theorem agree_drive (writes : List (Signal × UInt8)) :
    Agree State.Alike (registers.drive writes) (registers.drive writes) := by
  induction writes with
  | nil => exact .pure ()
  | cons write rest ih =>
    apply Agree.bind (agree_write (Csr.ofSignal write.1) _).onBus
    intro _
    exact ih

theorem agree_check (patterns : List UInt32) :
    Agree State.Alike (registers.check patterns) (registers.check patterns) := by
  have hflush : Agree Soc.Alike (pure () : Bus Unit) (pure ()) := .pure ()
  induction patterns with
  | nil => exact .pure true
  | cons pattern rest ih =>
    apply Agree.bind (agree_store pattern).onBus
    intro _
    apply Agree.bind hflush.onBus
    intro _
    apply Agree.bind hflush.onBus
    intro _
    apply Agree.bind agree_load.onBus
    intro found
    exact .ite ih (.pure false)

theorem agree_action (action : Action) :
    Agree State.Alike (action.perform hardware (reporter variant))
      (action.perform hardware (reporter variant)) := by
  cases action with
  | setDelay line taps => exact agree_drive (delayWrites line taps)
  | stepPhase direction => exact agree_drive (stepWrites direction)
  | slip subPhase => exact agree_drive (slipWrites subPhase)
  | report pieces => exact agree_announce variant pieces
  | log record => exact agree_issue variant record

theorem agree_run {α : Type} (procedure : Procedure α) :
    Agree State.Alike (procedure.run hardware (reporter variant))
      (procedure.run hardware (reporter variant)) := by
  induction procedure with
  | done result => exact .pure _
  | overflow cause => exact .pure _
  | act action next ih =>
    apply Agree.bind (agree_action variant action)
    intro _
    exact ih
  | probe next ih =>
    apply Agree.bind (agree_check testPatterns)
    exact ih

theorem agree_prepareLogging :
    Agree State.Alike (prepareLogging variant) (prepareLogging variant) := by
  apply Agree.ite
  · apply Agree.bind (agree_installLogger .console (.upTo .info))
    intro installed
    exact .ite agree_restart.onBus (.pure ())
  · exact .pure ()

theorem agree_countDown (count : Nat) :
    Agree State.Alike (countDown variant count) (countDown variant count) := by
  have hwait : Agree Soc.Alike (do Timer.restart; Timer.wait 1000000)
      (do Timer.restart; Timer.wait 1000000) := by
    apply Agree.bind agree_restart
    intro _
    exact agree_wait 1000000
  induction count with
  | zero => exact .pure ()
  | succ count ih =>
    have hsecond : Agree State.Alike (waitSecond variant) (waitSecond variant) :=
      .ite hwait.onBus (.pure ())
    apply Agree.bind hsecond
    intro _
    apply Agree.bind (agree_announce variant _)
    intro _
    exact ih

theorem agree_giveUp : Agree State.Alike (giveUp variant) (giveUp variant) := by
  apply Agree.bind (agree_announce variant _)
  intro _
  apply Agree.bind (agree_countDown variant _)
  intro _
  exact (agree_write .ctrlReset 1).onBus

theorem agree_bringUp : Agree State.Alike (bringUp variant) (bringUp variant) := by
  apply Agree.ite
  · apply Agree.bind (agree_prepareLogging variant)
    intro _
    apply Agree.bind (agree_announce variant _)
    intro _
    apply Agree.bind (agree_run variant _)
    rintro (cause | point | sweep)
    · exact .halt _
    · exact .pure ()
    · exact agree_giveUp variant
  · exact .pure ()

/-! ## Scripts -/

variable {α : Type}

theorem Agree.answering {act : Firmware Unit} (h : Agree State.Alike act act) (result : Result α) :
    Agree State.Alike (do act; return result) (do act; return result) := by
  apply Agree.bind h
  intro _
  exact .pure result

theorem agree_perform {step : Step α} (h : step ≠ .readCsr .uartTxfull) :
    Agree State.Alike (step.perform variant) (step.perform variant) := by
  cases step with
  | bringUp => exact (agree_bringUp variant).answering _
  | restartTimer => exact .ite (agree_restart.onBus.answering _) (.pure _)
  | microseconds =>
    apply Agree.ite ?_ (.pure _)
    apply Agree.bind agree_microseconds.onBus
    intro time
    exact .pure _
  | wait interval => exact .ite ((agree_wait interval).onBus.answering _) (.pure _)
  | print text => exact .ite ((agree_print variant text).onBus.answering _) (.pure _)
  | register threshold =>
    apply Agree.ite ?_ (.pure _)
    apply Agree.bind (agree_installLogger .console threshold)
    intro installed
    exact .pure _
  | direct record => exact .ite ((agree_printRecord variant record).onBus.answering _) (.pure _)
  | otherLogger threshold =>
    apply Agree.bind (agree_installLogger .silent threshold)
    intro installed
    exact .pure _
  | issue record => exact (agree_issue variant record).answering _
  | setThreshold threshold => exact (agree_setThreshold threshold).answering _
  | askThreshold =>
    apply Agree.get_bind
    intro board board' hboard
    rw [hboard.log]
    exact .pure _
  | readCsr csr =>
    have hline : csr ≠ .uartTxfull := by
      rintro rfl
      exact h rfl
    apply Agree.ite ?_ (.pure _)
    apply Agree.bind (agree_read hline).onBus
    intro value
    exact .pure _
  | writeCsr csr value =>
    exact .ite ((agree_write csr _).onBus.answering _) (.pure _)
  | strayCsr => exact .pure _
  | uninterrupted value => exact .pure _
  | pokeCsr csr value =>
    have hpoke : Agree Soc.Alike (modify (·.poked csr value) : Bus Unit)
        (modify (·.poked csr value)) := by
      intro soc soc' hsoc
      exact .ended () (hsoc.poked csr value)
    exact hpoke.onBus.answering _
  | setTick tick =>
    have htick : Agree Soc.Alike (modify ({ · with tick }) : Bus Unit)
        (modify ({ · with tick })) := by
      intro soc soc' hsoc
      exact .ended () { hsoc with tick := rfl }
    exact htick.onBus.answering _
  | idle => exact .pure _
  | unknown => exact .pure _

theorem State.Alike.fresh {board board' : State} (h : board.Alike board') :
    board.fresh.Alike board'.fresh :=
  ⟨{ h.soc with sent := rfl, accesses := rfl }, h.log⟩

/-- Two reports say the same, apart from the polls of the serial line. -/
structure Report.Alike (report report' : Report α) : Prop where
  result : report'.result = report.result
  sent : report'.sent = report.sent
  accesses : withoutPolls report'.accesses = withoutPolls report.accesses

/-- No step of a script is stopped by a poll that goes on for good. -/
def NeverStalls (steps : List (Step α)) (board : State) : Prop :=
  ∀ poll, Result.halted (.stalled poll) ∉ (runScript variant steps board).map Report.result

variable {variant}

/-- Back-pressure does not show.  On two boards that are alike apart from when their lines are busy,
a script whose steps do not themselves read the busy register has the same results.  Each step sends
the same octets, and with them the same times of its log records, and it makes the same accesses
apart from the polls of the line. -/
theorem back_pressure_hidden {steps : List (Step α)} {board board' : State}
    (hsteps : ∀ step ∈ steps, step ≠ .readCsr .uartTxfull) (halike : board.Alike board')
    (hrun : NeverStalls variant steps board) (hrun' : NeverStalls variant steps board') :
    List.Forall₂ Report.Alike (runScript variant steps board) (runScript variant steps board') := by
  -- Each step leaves the boards alike, and both scripts are over if it halts them.
  induction steps generalizing board board' with
  | nil => exact .nil
  | cons step rest ih =>
    have hend := agree_perform variant (hsteps step List.mem_cons_self) _ _ halike.fresh
    have hrest : ∀ other ∈ rest, other ≠ .readCsr .uartTxfull := fun other hmem =>
      hsteps other (List.mem_cons_of_mem _ hmem)
    rw [NeverStalls, runScript] at hrun hrun'
    rw [runScript, runScript]
    generalize step.perform variant board.fresh = outcome at hend hrun ⊢
    generalize step.perform variant board'.fresh = outcome' at hend hrun' ⊢
    cases hend with
    | ended result hafter =>
      refine .cons ⟨rfl, hafter.soc.sent, hafter.soc.accesses⟩ (ih hrest hafter ?_ ?_)
      · exact fun poll hmem => hrun poll (List.mem_cons_of_mem _ hmem)
      · exact fun poll hmem => hrun' poll (List.mem_cons_of_mem _ hmem)
    | halted halt hafter => exact .cons ⟨rfl, hafter.soc.sent, hafter.soc.accesses⟩ .nil
    | cutFirst poll after => exact absurd List.mem_cons_self (hrun poll)
    | cutSecond poll after => exact absurd List.mem_cons_self (hrun' poll)

/-- One line is busy twice before the first octet and once before the second; the other never is. -/
theorem back_pressure_hidden_of_busy_start :
    let script : List (Step Unit) :=
      [.register (.upTo .info), .restartTimer, .setTick 48, .issue ⟨.info, "app", "up"⟩,
        .print "on\n"]
    let busy : State := ⟨{ patience := 10, busy := { pending := [1, 1, 0, 1, 0] } }, {}⟩
    let idle : State := ⟨{ patience := 10 }, {}⟩
    (∀ step ∈ script, step ≠ .readCsr .uartTxfull) ∧ busy.Alike idle ∧
      NeverStalls .full script busy ∧ NeverStalls .full script idle ∧
      List.Forall₂ Report.Alike (runScript .full script busy) (runScript .full script idle) := by
  intro script busy idle
  have hsteps : ∀ step ∈ script, step ≠ .readCsr .uartTxfull := by simp [script]
  have halike : busy.Alike idle := ⟨⟨fun _ _ => rfl, rfl, rfl, rfl, rfl, rfl, rfl, rfl, rfl⟩, rfl⟩
  have hbusy : (runScript .full script busy).map Report.result =
      [.flag true, .quiet, .quiet, .quiet, .flag true] := by
    decide +kernel
  have hidle : (runScript .full script idle).map Report.result =
      [.flag true, .quiet, .quiet, .quiet, .flag true] := by
    decide +kernel
  have hrun : NeverStalls .full script busy := fun poll => by simp [hbusy]
  have hrun' : NeverStalls .full script idle := fun poll => by simp [hidle]
  exact ⟨hsteps, halike, hrun, hrun', back_pressure_hidden hsteps halike hrun hrun'⟩

end

end Board
end TimingEye
