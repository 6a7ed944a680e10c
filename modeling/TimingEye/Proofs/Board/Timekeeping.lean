import TimingEye.Board.Script
import TimingEye.Proofs.Board.Telling
import TimingEye.Proofs.Board.WaitLength
import TimingEye.Proofs.Trail

/-!
# Keeping time

Once the timer has been started, every sampling charges the tick that is in force, whichever
operation it is a part of.  So the time is what has been charged, modulo the period of the timer,
and it is the same whoever asks for it.

* `Timer.countAt`, `Timer.timeAt`: what the timer reads after some cycles, and the time by then;
* `Clock.Charged`: a clock that runs, and what it has been charged since its start;
* `Step.sparesTimer`, `advances_perform`: steps that do nothing to the timer but sample it;
* `Episode`, `recorded`, `charged`: steps as they were performed, and what their samplings charge;
* `KeepsTime`, `timer_keeps_time`: what every script goes by that has started the timer.
-/

namespace TimingEye
namespace Board

/-! ## Cycles and times -/

namespace Timer

/-- What the timer reads when so many cycles have been charged since its start. -/
def countAt (cycles : Nat) : UInt32 :=
  UInt32.ofNat (4294967295 - cycles % 4294967296)

/-- The time by then, in microseconds.  It begins anew when the timer wraps. -/
def timeAt (cycles : Nat) : Nat :=
  cycles % 4294967296 / cyclesPerMicrosecond

theorem countAt_eq (cycles : Nat) : countAt cycles = start - UInt32.ofNat cycles := by
  have hcycles : cycles % 4294967296 < 4294967296 := Nat.mod_lt _ (by decide)
  have hstart : start.toNat = 4294967295 := rfl
  apply UInt32.toNat_inj.mp
  rw [countAt, UInt32.toNat_sub, UInt32.toNat_ofNat', UInt32.toNat_ofNat', hstart]
  omega

theorem toMicroseconds_countAt (cycles : Nat) :
    toMicroseconds (start - countAt cycles) = timeAt cycles := by
  have hpassed : start - countAt cycles = UInt32.ofNat cycles := by
    rw [countAt_eq]
    grind
  rw [toMicroseconds, hpassed, UInt32.toNat_ofNat', timeAt]

/-- Within one period the time does not go back. -/
theorem timeAt_le_timeAt {earlier later : Nat} (h : earlier ≤ later)
    (hperiod : later < 4294967296) : timeAt earlier ≤ timeAt later := by
  rw [timeAt, timeAt, Nat.mod_eq_of_lt (h.trans_lt hperiod), Nat.mod_eq_of_lt hperiod]
  exact Nat.div_le_div_right h

theorem timeAt_le (cycles : Nat) : timeAt cycles ≤ 89478485 := by
  have hcycles : cycles % 4294967296 < 4294967296 := Nat.mod_lt _ (by decide)
  have hfrequency : cyclesPerMicrosecond = 48 := rfl
  rw [timeAt, hfrequency]
  omega

end Timer

/-- A clock runs, and so many cycles have been charged since its start. -/
structure Clock.Charged (cycles : Nat) (clock : Clock) : Prop where
  enabled : clock.enabled ≠ 0
  counter : clock.counter = Timer.countAt cycles

namespace Clock.Charged

variable {clock : Clock} {cycles : Nat}

theorem count (h : clock.Charged cycles) (samples : Nat) :
    clock.count samples = Timer.countAt (cycles + samples * clock.tick.toNat) := by
  have hticks : UInt32.ofNat (cycles + samples * clock.tick.toNat) =
      UInt32.ofNat cycles + UInt32.ofNat samples * clock.tick := by
    rw [UInt32.ofNat_add, UInt32.ofNat_mul, UInt32.ofNat_toNat]
  rw [Clock.count, if_neg h.enabled, h.counter, Timer.countAt_eq, Timer.countAt_eq, hticks]
  grind

theorem time (h : clock.Charged cycles) (samples : Nat) :
    clock.time samples = Timer.timeAt (cycles + samples * clock.tick.toNat) := by
  rw [Clock.time, h.count, Timer.toMicroseconds_countAt]

/-- A sampling charges a tick. -/
theorem sampled (h : clock.Charged cycles) :
    clock.sampled.Charged (cycles + clock.tick.toNat) ∧ clock.sampled.tick = clock.tick := by
  have hnext := h.count 1
  have hone : UInt32.ofNat 1 * clock.tick = clock.tick := UInt32.one_mul clock.tick
  rw [Clock.count, if_neg h.enabled, hone, Nat.one_mul] at hnext
  rw [Clock.sampled, if_neg h.enabled]
  exact ⟨⟨h.enabled, hnext⟩, rfl⟩

theorem iterate_sampled (h : clock.Charged cycles) (samples : Nat) :
    (Clock.sampled^[samples] clock).Charged (cycles + samples * clock.tick.toNat) := by
  induction samples generalizing clock cycles with
  | zero => rwa [Nat.zero_mul]
  | succ samples ih =>
    have hrest := ih h.sampled.1
    rwa [h.sampled.2, Nat.add_assoc, Nat.add_comm clock.tick.toNat, ← Nat.succ_mul] at hrest

end Clock.Charged

/-! ## Steps that spare the timer -/

/-- The registers of the timer. -/
def Csr.ofTimer : List Csr :=
  ofStarting ++ ofSampling ++ [timerEvStatus, timerEvPending, timerEvEnable]

/-- Whether a step does nothing to the timer but sample it for the time: it neither starts it over
nor accesses one of its registers on its own. -/
def Step.sparesTimer {α : Type} : Step α → Bool
  | bringUp | restartTimer => false
  | readCsr csr | writeCsr csr _ | pokeCsr csr _ => csr ∉ Csr.ofTimer
  | _ => true

section Accesses

variable {csr : Csr}

theorem advances_read (h : csr ∉ Csr.ofTimer) : Completes Advances (Soc.read csr) := by
  have hvalue : csr ≠ .timerValue := by
    rintro rfl
    exact h (by decide)
  intro before value after hrun
  obtain ⟨word, haccesses, hclock⟩ : ∃ word, after.accesses.toList =
      before.accesses.toList ++ [.read csr word] ∧ after.clock = before.clock := by
    cases csr
    case timerValue => exact absurd rfl hvalue
    case uartTxfull =>
      have hpolled := (ends_poll before).of_ok hrun
      exact ⟨value, hpolled.accesses, hpolled.mute.clock⟩
    all_goals
      cases hrun
      exact ⟨_, Array.toList_push, rfl⟩
  have htimeless : Timeless [.read csr word] := by
    refine ⟨rfl, ?_⟩
    cases csr <;> first | rfl | exact absurd rfl hvalue
  exact .of_timeless haccesses htimeless hclock

theorem clock_react (h : csr ∉ Csr.ofTimer) (soc : Soc) (before value : UInt32) :
    (soc.react before value csr).clock = soc.clock := by
  cases csr
  case timerEn | timerUpdateValue => exact absurd (by decide) h
  case hyperramClkLoadn | hyperramClkMove =>
    simp only [Soc.react]
    split <;> rfl
  all_goals rfl

theorem advances_write (h : csr ∉ Csr.ofTimer) (value : UInt32) :
    Completes Advances (Soc.write csr value) := by
  have hstarting : csr ∉ Csr.ofStarting := fun hmem =>
    h (List.mem_append_left _ (List.mem_append_left _ hmem))
  have htimeless : Timeless [.write csr value] := by
    refine ⟨?_, rfl⟩
    cases csr <;> first | rfl | exact absurd (by decide) h
  intro before _ after hrun
  have hafter : after = (before.assigned csr value).react (before.csrs.word csr) value csr := by
    simp only [Soc.write] at hrun
    split at hrun <;> cases hrun
    rfl
  refine .of_timeless ?_ htimeless ?_
  · rw [hafter, (unmoved_react _ _ _ _).accesses]
    exact Array.toList_push
  · rw [hafter, clock_react h, clock_assigned hstarting]

theorem advances_poke (h : csr ∉ Csr.ofTimer) (value : UInt32) :
    Completes Advances (modify (·.poked csr value) : Bus Unit) := by
  have hassigned : ∀ other ∈ Csr.ofTimer, ∀ soc : Soc,
      (soc.csrs.assign csr value).word other = soc.csrs.word other := by
    rintro other hmem soc
    apply CsrWords.word_assign_of_ne
    rintro rfl
    exact h hmem
  have htimeless : Timeless [] := ⟨rfl, rfl⟩
  intro before _ after hrun
  cases hrun
  obtain ⟨haccesses, hclock⟩ : (before.poked csr value).accesses = before.accesses ∧
      (before.poked csr value).clock = before.clock := by
    cases csr
    case timerValue => exact absurd (by decide) h
    all_goals
      simp only [Soc.poked, Soc.clock, hassigned .timerEn (by decide),
        hassigned .timerLoad (by decide), and_self]
  refine .of_timeless ?_ htimeless hclock
  rw [List.append_nil]
  exact congrArg Array.toList haccesses

end Accesses

/-! ### Whole steps -/

/-- The board of the firmware has advanced in time. -/
def State.Advances : State → State → Prop :=
  InvImage Board.Advances State.soc

theorem State.Advances.refl (board : State) : board.Advances board :=
  Board.Advances.refl board.soc

theorem State.Advances.trans {first second third : State} (h : first.Advances second)
    (h' : second.Advances third) : first.Advances third :=
  Board.Advances.trans h h'

section Steps

variable {α : Type} {variant : Variant}

theorem advances_issue (record : Record) : Completes State.Advances (issue variant record) :=
  .get_bind fun _ => .ite (advances_printRecord variant record).onBus (.pure .refl ())

/-- What a step answers is put together without a look at the timer. -/
theorem advances_answer {β : Type} {act : Firmware β} (h : Completes State.Advances act)
    (answer : β → Result α) : Completes State.Advances (do return answer (← act)) :=
  .bind .trans h fun _ => .pure .refl _

theorem advances_whenPresent (present : Bool) {act : Firmware (Result α)}
    (h : Completes State.Advances act) : Completes State.Advances (whenPresent present act) :=
  .ite h (.pure .refl _)

/-- Whoever changes the state of the firmware leaves the timer alone. -/
theorem advances_firmware {β : Type} {act : Firmware β}
    (h : ∀ before value after, act before = .ok value after → after.soc = before.soc) :
    Completes State.Advances act := by
  intro before value after hrun
  change Board.Advances before.soc after.soc
  rw [h before value after hrun]
  exact .refl before.soc

theorem advances_install (logger : Logger) (threshold : Threshold) :
    Completes State.Advances (installLogger logger threshold) := by
  apply advances_firmware
  intro before value after hrun
  cases hrun
  rfl

/-- Whatever a step does, the timer advances with the samplings that it makes. -/
theorem advances_perform {step : Step α} (hspares : step.sparesTimer = true)
    (htick : ∀ tick, step ≠ .setTick tick) : Completes State.Advances (step.perform variant) := by
  have hquiet : ∀ result : Result α, Completes State.Advances (pure result) := fun result =>
    .pure .refl result
  cases step with
  | bringUp | restartTimer => cases hspares
  | setTick tick => exact absurd rfl (htick tick)
  | microseconds =>
    exact advances_whenPresent _ (advances_answer advances_microseconds.onBus .number)
  | wait interval =>
    exact advances_whenPresent _ (advances_answer (advances_wait interval).onBus fun _ => .quiet)
  | print text =>
    exact advances_whenPresent _
      (advances_answer (advances_print variant text).onBus fun _ => .flag true)
  | direct record =>
    exact advances_whenPresent _
      (advances_answer (advances_printRecord variant record).onBus fun _ => .flag true)
  | issue record => exact advances_answer (advances_issue record) fun _ => .quiet
  | register threshold =>
    exact advances_whenPresent _ (advances_answer (advances_install .console threshold) .flag)
  | otherLogger threshold => exact advances_answer (advances_install .silent threshold) .flag
  | setThreshold threshold =>
    have hset : Completes State.Advances (Board.setThreshold threshold) := by
      apply advances_firmware
      intro before value after hrun
      cases hrun
      rfl
    exact advances_answer hset fun _ => .quiet
  | askThreshold => exact .get_bind fun board => hquiet _
  | readCsr csr =>
    have hread := (advances_read (of_decide_eq_true hspares)).onBus
    exact .ite (advances_answer hread fun value => .number (csr.width.clip value).toNat) (hquiet _)
  | writeCsr csr value =>
    have hwrite := (advances_write (of_decide_eq_true hspares) (csr.width.clip value)).onBus
    exact .ite (advances_answer hwrite fun _ => .quiet) (hquiet _)
  | pokeCsr csr value =>
    have hpoke := (advances_poke (of_decide_eq_true hspares) value).onBus
    exact advances_answer hpoke fun _ => .quiet
  | strayCsr | uninterrupted _ | idle | unknown => exact hquiet _

/-! ## Episodes -/

/-- A step as it was performed: the tick and the facade that it found, and what it reported. -/
structure Episode (α : Type) where
  step : Step α
  tick : UInt32
  log : LogFacade
  report : Report α

namespace Episode

/-- How often an episode samples the timer. -/
def samples (episode : Episode α) : Nat :=
  samplesIn episode.report.accesses.toList

/-- What the samplings of an episode charge. -/
def charge (episode : Episode α) : Nat :=
  episode.samples * episode.tick.toNat

/-- The record that an episode prints. -/
def printed? (variant : Variant) : Episode α → Option Record
  | ⟨.direct record, _, _, _⟩ => if variant.consoleLogger then some record else none
  | ⟨.issue record, _, log, _⟩ => if log.prints record.severity then some record else none
  | _ => none

/-- An episode takes a board to the next one. -/
structure Takes (variant : Variant) (episode : Episode α) (before after : State) : Prop where
  tick : before.soc.tick = episode.tick
  log : before.log = episode.log
  performed : episode.step.perform variant before.fresh = .ok episode.report.result after
  sent : after.soc.sent = episode.report.sent
  accesses : after.soc.accesses = episode.report.accesses

/-- A record has been printed by which so many cycles have been charged: the timer has been sampled
once and before all else, and the line has the time of this sampling. -/
structure Stamped (variant : Variant) (cycles : Nat) (record : Record) (episode : Episode α) :
    Prop where
  samples : episode.samples = 1
  accesses : ∃ line,
    episode.report.accesses.toList = sampling (Timer.countAt cycles) ++ line ∧
      Transmits (variant.sends (logLine (Timer.timeAt cycles) record)) line
  sent : episode.report.sent.toList = variant.sends (logLine (Timer.timeAt cycles) record)

/-- What an episode reports before which so many cycles have been charged. -/
structure OnTime (variant : Variant) (cycles : Nat) (episode : Episode α) : Prop where
  /-- Each sampling charges a tick, and reads what is then left of the period. -/
  readings : Board.readings episode.report.accesses.toList =
    (List.range episode.samples).map fun n =>
      Timer.countAt (cycles + (n + 1) * episode.tick.toNat)
  microseconds : episode.step = .microseconds → episode.samples = 1 ∧
    episode.report.result = .number (Timer.timeAt (cycles + episode.charge))
  stamped : ∀ record, episode.printed? variant = some record →
    episode.Stamped variant (cycles + episode.charge) record

section Takes

variable {episode : Episode α} {before after : State} {cycles : Nat}

/-- Whatever an episode is, it reads the timer as it stands, and charges its samplings. -/
theorem Takes.counts (h : episode.Takes variant before after)
    (hspares : episode.step.sparesTimer = true) :
    Board.readings episode.report.accesses.toList = before.soc.clock.counts episode.samples ∧
    ∀ cycles, before.soc.clock.Charged cycles →
      after.soc.clock.Charged (cycles + episode.charge) := by
  have hperformed := h.performed
  by_cases htick : ∃ tick, episode.step = .setTick tick
  · -- A new tick is in force from the next sampling on.
    rcases htick with ⟨tick, hstep⟩
    rw [hstep] at hperformed
    obtain ⟨hclock, haccesses⟩ : after.soc.clock = { before.soc.clock with tick } ∧
        after.soc.accesses = #[] := by
      generalize episode.report.result = result at hperformed
      cases hperformed
      exact ⟨rfl, rfl⟩
    have hnone : episode.report.accesses.toList = [] := by
      rw [← h.accesses, haccesses]
    have hsamples : episode.samples = 0 := by
      rw [samples, hnone]
      rfl
    rw [charge, hsamples, hnone, hclock, Nat.zero_mul]
    exact ⟨rfl, fun _ hcharged => ⟨hcharged.enabled, hcharged.counter⟩⟩
  · have hadvances := advances_perform hspares (fun tick hstep => htick ⟨tick, hstep⟩) _ _ _
      hperformed
    rcases hadvances with ⟨made, haccesses, hreadings, hclock⟩
    have hmade : episode.report.accesses.toList = made := by
      rw [← h.accesses, haccesses]
      rfl
    rw [samples, charge, samples, hmade, ← h.tick, hclock]
    exact ⟨hreadings, fun _ hcharged => hcharged.iterate_sampled _⟩

/-- A fresh board has noted nothing yet, so what it notes is what the episode reports. -/
theorem Takes.toList_accesses (h : episode.Takes variant before after) {made : List BusAccess}
    (hmade : after.soc.accesses.toList = before.fresh.soc.accesses.toList ++ made) :
    episode.report.accesses.toList = made := by
  rw [← h.accesses, hmade]
  rfl

/-- The clock that a single sampling reads. -/
theorem Takes.clock_of_samples (h : episode.Takes variant before after)
    (hcharged : before.soc.clock.Charged cycles) (hsamples : episode.samples = 1) :
    before.soc.clock.count 1 = Timer.countAt (cycles + episode.charge) ∧
      before.soc.clock.time 1 = Timer.timeAt (cycles + episode.charge) := by
  rw [charge, hsamples, ← h.tick]
  exact ⟨hcharged.count 1, hcharged.time 1⟩

theorem Takes.microseconds (h : episode.Takes variant before after)
    (htimer : variant.timer = true) (hcharged : before.soc.clock.Charged cycles)
    (hstep : episode.step = .microseconds) : episode.samples = 1 ∧
      episode.report.result = .number (Timer.timeAt (cycles + episode.charge)) := by
  have hends : Ends before.fresh ((Step.microseconds : Step α).perform variant) fun result after =>
      result = .number (before.soc.clock.time 1) ∧ Sampled before.fresh.soc after.soc := by
    rw [Step.perform, whenPresent, if_pos htimer]
    apply ((ends_microseconds before.fresh.soc).onBus before.fresh).bind
    rintro time after _ ⟨⟨rfl, hsampled⟩, _⟩
    exact .pure ⟨rfl, hsampled⟩
  have hperformed := h.performed
  rw [hstep] at hperformed
  rcases hends.of_ok hperformed with ⟨hresult, hsampled⟩
  have hsamples : episode.samples = 1 := by
    rw [samples, h.toList_accesses hsampled.accesses]
    rfl
  rw [hresult, (h.clock_of_samples hcharged hsamples).2]
  exact ⟨hsamples, rfl⟩

theorem Takes.stamped_of_printed (h : episode.Takes variant before after)
    (hcharged : before.soc.clock.Charged cycles) {record : Record}
    (hprinted : Printed variant record before.fresh.soc after.soc) :
    episode.Stamped variant (cycles + episode.charge) record := by
  rcases hprinted.accesses with ⟨line, haccesses, htransmits⟩
  rw [List.append_assoc] at haccesses
  have hlist := h.toList_accesses haccesses
  have hsamples : episode.samples = 1 := by
    rw [samples, hlist, samplesIn_append, htransmits.timeless.samples]
    rfl
  rcases h.clock_of_samples hcharged hsamples with ⟨hcount, htime⟩
  have hsent : episode.report.sent.toList =
      variant.sends (logLine (before.soc.clock.time 1) record) := by
    rw [← h.sent, hprinted.sent]
    rfl
  rw [htime] at hsent
  refine ⟨hsamples, ⟨line, ?_, ?_⟩, hsent⟩
  · rw [hlist, ← hcount]
    rfl
  · rw [← htime]
    exact htransmits

/-- Through the facade or past it, a record that is printed has the time of its sampling. -/
theorem Takes.stamped (h : episode.Takes variant before after)
    (hcharged : before.soc.clock.Charged cycles) {record : Record}
    (hprinted : episode.printed? variant = some record) :
    episode.Stamped variant (cycles + episode.charge) record := by
  apply h.stamped_of_printed hcharged
  have hperformed := h.performed
  rcases episode with ⟨step, tick, log, report⟩
  cases step <;> simp only [printed?, reduceCtorEq] at hprinted
  case direct other =>
    split at hprinted
    case isFalse => cases hprinted
    case isTrue hlogger =>
      cases hprinted
      have hends : Ends before.fresh ((Step.direct record : Step α).perform variant) fun _ after =>
          Printed variant record before.fresh.soc after.soc := by
        rw [Step.perform, whenPresent, if_pos hlogger]
        apply ((ends_printRecord variant record before.fresh.soc).onBus before.fresh).bind
        rintro _ after _ ⟨hprinted, _⟩
        exact .pure hprinted
      exact hends.of_ok hperformed
  case issue other =>
    split at hprinted
    case isFalse => cases hprinted
    case isTrue hprints =>
      cases hprinted
      have hlog : before.fresh.log = log := h.log
      rw [← hlog] at hprints
      have hends : Ends before.fresh ((Step.issue record : Step α).perform variant) fun _ after =>
          Printed variant record before.fresh.soc after.soc := by
        apply (ends_issue variant record before.fresh).bind
        rintro _ after _ ⟨_, hprinted⟩
        rw [if_pos hprints] at hprinted
        exact .pure hprinted
      exact hends.of_ok hperformed

theorem Takes.onTime (h : episode.Takes variant before after)
    (hspares : episode.step.sparesTimer = true) (htimer : variant.timer = true)
    (hcharged : before.soc.clock.Charged cycles) : episode.OnTime variant cycles := by
  constructor
  case readings =>
    rw [(h.counts hspares).1, Clock.counts, ← h.tick]
    congr 1
    funext n
    exact hcharged.count (n + 1)
  case microseconds => exact h.microseconds htimer hcharged
  case stamped =>
    intro record hprinted
    exact h.stamped hcharged hprinted

end Takes

end Episode

/-! ## Scripts -/

/-- What the samplings of some episodes charge. -/
def charged (episodes : List (Episode α)) : Nat :=
  (episodes.map Episode.charge).sum

theorem charged_append (first second : List (Episode α)) :
    charged (first ++ second) = charged first + charged second := by
  simp only [charged, List.map_append, List.sum_append]

theorem charged_concat (episodes : List (Episode α)) (last : Episode α) :
    charged (episodes ++ [last]) = charged episodes + last.charge := by
  rw [charged_append]
  rfl

/-- The timer has counted down by what has been charged. -/
theorem charged_of_trail {episodes : List (Episode α)} {before after : State} {cycles : Nat}
    (htrail : Trail (Episode.Takes variant) before episodes after)
    (hspares : ∀ episode ∈ episodes, episode.step.sparesTimer = true)
    (hcharged : before.soc.clock.Charged cycles) :
    after.soc.clock.Charged (cycles + charged episodes) := by
  induction htrail generalizing cycles with
  | nil _ => exact hcharged
  | @cons episode rest _ _ _ htakes _ ih =>
    have hmiddle := (htakes.counts (hspares episode List.mem_cons_self)).2 _ hcharged
    have hsplit : cycles + charged (episode :: rest) = cycles + episode.charge + charged rest :=
      (Nat.add_assoc _ _ _).symm
    rw [hsplit]
    exact ih (fun other hmem => hspares other (List.mem_cons_of_mem _ hmem)) hmiddle

/-- What a script goes by whose episodes have begun with the start of the timer, and the board that
it has got to. -/
structure KeepsTime (variant : Variant) (episodes : List (Episode α)) (board : State) : Prop where
  /-- Every time is that of what has been charged by then, whichever operations have charged it. -/
  onTime : ∀ earlier episode later, episodes = earlier ++ episode :: later →
    episode.OnTime variant (charged earlier)
  bounded : ∀ episode ∈ episodes, episode.step = .microseconds →
    ∃ time ≤ 89478485, episode.report.result = .number time
  /-- As long as less than a period has been charged, the time does not go back. -/
  ordered : ∀ earlier first between second later,
    episodes = earlier ++ first :: between ++ second :: later →
    first.step = .microseconds → second.step = .microseconds →
    charged (earlier ++ first :: between ++ [second]) < 4294967296 →
    ∃ time time', first.report.result = .number time ∧ second.report.result = .number time' ∧
      time ≤ time'
  /-- Whoever asks for the time is answered. -/
  answered : 0 < board.soc.patience → ∃ after,
    (Step.microseconds : Step α).perform variant board.fresh =
      .ok (.number (Timer.timeAt (charged episodes + board.soc.tick.toNat))) after

theorem keepsTime_of_trail {episodes : List (Episode α)} {started board : State}
    (htimer : variant.timer = true) (hstarted : started.soc.clock.Charged 0)
    (htrail : Trail (Episode.Takes variant) started episodes board)
    (hspares : ∀ episode ∈ episodes, episode.step.sparesTimer = true) :
    KeepsTime variant episodes board := by
  have honTime : ∀ earlier episode later, episodes = earlier ++ episode :: later →
      episode.OnTime variant (charged earlier) := by
    rintro earlier episode later rfl
    rcases Trail.append_iff.mp htrail with ⟨middle, hearlier, hlater⟩
    rcases Trail.cons_iff.mp hlater with ⟨_, htakes, _⟩
    have hmiddle := charged_of_trail hearlier
      (fun other hmem => hspares other (List.mem_append_left _ hmem)) hstarted
    rw [Nat.zero_add] at hmiddle
    exact htakes.onTime (hspares episode (by simp)) htimer hmiddle
  have hanswer : ∀ earlier episode later, episodes = earlier ++ episode :: later →
      episode.step = .microseconds →
      episode.report.result = .number (Timer.timeAt (charged (earlier ++ [episode]))) := by
    intro earlier episode later hepisodes hstep
    rw [charged_concat]
    exact ((honTime earlier episode later hepisodes).microseconds hstep).2
  constructor
  case onTime => exact honTime
  case bounded =>
    intro episode hmem hstep
    rcases List.append_of_mem hmem with ⟨earlier, later, hepisodes⟩
    exact ⟨_, Timer.timeAt_le _, hanswer earlier episode later hepisodes hstep⟩
  case ordered =>
    intro earlier first between second later hepisodes hfirst hsecond hperiod
    have hfirst' : episodes = earlier ++ first :: (between ++ second :: later) := by
      rw [hepisodes, List.append_assoc, List.cons_append]
    refine ⟨_, _, hanswer _ _ _ hfirst' hfirst, hanswer _ _ _ hepisodes hsecond,
      Timer.timeAt_le_timeAt ?_ hperiod⟩
    rw [List.append_cons earlier first between, List.append_assoc, charged_append _ (_ ++ _)]
    exact Nat.le_add_right _ _
  case answered =>
    intro hpatience
    have htime : board.soc.clock.time 1 =
        Timer.timeAt (charged episodes + board.soc.tick.toNat) := by
      have hcharged := (charged_of_trail htrail hspares hstarted).time 1
      rwa [Nat.zero_add, Nat.one_mul] at hcharged
    have hpolls : board.fresh.soc.pollsLeft ≠ 0 := Nat.ne_zero_of_lt hpatience
    rcases exists_elapsed hpolls with ⟨after, hrun, _⟩
    have hmicroseconds : Timer.microseconds board.fresh.soc =
        .ok (Timer.timeAt (charged episodes + board.soc.tick.toNat)) after := by
      rw [← htime]
      exact bind_of_ok hrun
    have hbus : onBus Timer.microseconds board.fresh =
        .ok (Timer.timeAt (charged episodes + board.soc.tick.toNat)) ⟨after, board.log⟩ := by
      simp only [onBus, hmicroseconds]
      rfl
    refine ⟨⟨after, board.log⟩, ?_⟩
    rw [Step.perform, whenPresent, if_pos htimer]
    exact bind_of_ok hbus

/-! ### Scripts as they are performed -/

/-- The episodes of a script, and the board that it gets to, unless some step brings it to a
halt. -/
def recorded (variant : Variant) : List (Step α) → State → Option (List (Episode α) × State)
  | [], board => some ([], board)
  | step :: rest, board =>
    match step.perform variant board.fresh with
    | .ok result after => do
      let (episodes, final) ← recorded variant rest after
      let report : Report α := ⟨result, after.soc.sent, after.soc.accesses⟩
      return (⟨step, board.soc.tick, board.log, report⟩ :: episodes, final)
    | .error _ _ => none

/-- The first step of a script is performed, and then the others. -/
theorem recorded_cons {step : Step α} {rest : List (Step α)} {episodes : List (Episode α)}
    {board final : State} (h : recorded variant (step :: rest) board = some (episodes, final)) :
    ∃ episode later middle, episodes = episode :: later ∧ episode.step = step ∧
      episode.Takes variant board middle ∧ recorded variant rest middle = some (later, final) := by
  rw [recorded] at h
  split at h
  case h_1 result middle hperformed =>
    rcases Option.bind_eq_some_iff.mp h with ⟨⟨later, reached⟩, hrest, hsame⟩
    cases hsame
    exact ⟨_, later, middle, rfl, rfl, ⟨rfl, rfl, hperformed, rfl, rfl⟩, hrest⟩
  case h_2 => cases h

theorem trail_of_recorded {steps : List (Step α)} {episodes : List (Episode α)}
    {board final : State} (h : recorded variant steps board = some (episodes, final)) :
    Trail (Episode.Takes variant) board episodes final ∧ episodes.map Episode.step = steps ∧
      runScript variant steps board = episodes.map Episode.report := by
  induction steps generalizing board episodes with
  | nil =>
    cases h
    exact ⟨.nil _, rfl, rfl⟩
  | cons step rest ih =>
    rcases recorded_cons h with ⟨episode, later, middle, rfl, rfl, htakes, hrest⟩
    rcases ih hrest with ⟨htrail, hsteps, hreports⟩
    refine ⟨.cons htakes htrail, by rw [List.map_cons, hsteps], ?_⟩
    rw [runScript, htakes.performed]
    change ⟨_, middle.soc.sent, middle.soc.accesses⟩ :: runScript variant rest middle = _
    rw [htakes.sent, htakes.accesses, hreports]
    rfl

/-- However the timer stood before, once it is started it keeps time: through all waits, records
and changes of the tick, whoever asks for the time is told what all samplings have charged. -/
theorem timer_keeps_time (htimer : variant.timer = true) {steps : List (Step α)}
    (hspares : ∀ step ∈ steps, step.sparesTimer = true) {board final : State} {start : Episode α}
    {episodes : List (Episode α)}
    (h : recorded variant (.restartTimer :: steps) board = some (start :: episodes, final)) :
    runScript variant (.restartTimer :: steps) board =
      start.report :: episodes.map Episode.report ∧ KeepsTime variant episodes final := by
  refine ⟨(trail_of_recorded h).2.2, ?_⟩
  rcases recorded_cons h with ⟨_, _, started, hsame, hstep, htakes, hrest⟩
  cases hsame
  rcases trail_of_recorded hrest with ⟨htrail, hsteps, _⟩
  have hstarted : started.soc.clock = ⟨1, Timer.start, Timer.start, board.soc.tick⟩ := by
    have hends : Ends board.fresh ((Step.restartTimer : Step α).perform variant) fun _ after =>
        after.soc.clock = ⟨1, Timer.start, Timer.start, board.soc.tick⟩ := by
      rw [Step.perform, whenPresent, if_pos htimer]
      apply ((ends_restart board.fresh.soc).onBus board.fresh).bind
      rintro _ after _ ⟨hrestarted, _⟩
      exact .pure hrestarted.clock
    have hperformed := htakes.performed
    rw [hstep] at hperformed
    exact hends.of_ok hperformed
  have hcharged : started.soc.clock.Charged 0 := by
    have hrunning : (1 : UInt32) ≠ 0 := by decide
    have hnone : Timer.start = Timer.countAt 0 := by decide
    rw [hstarted]
    exact ⟨hrunning, hnone⟩
  apply keepsTime_of_trail htimer hcharged htrail
  intro episode hmem
  apply hspares
  rw [← hsteps]
  exact List.mem_map_of_mem hmem

/-- A board whose timer runs already, from some load that is not its largest one. -/
def State.counting : State where
  soc :=
    { csrs := (CsrWords.zero.assign .timerEn 1).assign .timerLoad 7
      counter := 5
      latch := 9
      patience := 20000 }

/-- Half a period is charged by each sampling: two by a wait, and one by whoever asks for the
time. -/
def halfPeriods : List (Step Unit) :=
  [.setTick 2147483648, .microseconds, .wait 1, .direct ⟨.info, "clock", "tick"⟩, .microseconds]

/-- The time begins anew at each wrap, and goes on through waits and records. -/
theorem timer_keeps_time_across_wraps :
    ∃ (start : Episode Unit) (episodes : List (Episode Unit)) (final : State),
      recorded .full (.restartTimer :: halfPeriods) State.counting =
        some (start :: episodes, final) ∧
      episodes.map (Report.result ∘ Episode.report) =
        [.quiet, .number 44739242, .quiet, .flag true, .number 44739242] ∧
      KeepsTime .full episodes final := by
  have hresults : (recorded .full (.restartTimer :: halfPeriods) State.counting).map
      (fun run => run.1.map (Report.result ∘ Episode.report)) =
        some [.quiet, .quiet, .number 44739242, .quiet, .flag true, .number 44739242] := by
    decide +kernel
  rcases Option.map_eq_some_iff.mp hresults with ⟨⟨episodes, final⟩, hrecorded, hresults⟩
  rcases recorded_cons hrecorded with ⟨start, later, _, rfl, _⟩
  have hspares : ∀ step ∈ halfPeriods, step.sparesTimer = true := by decide
  exact ⟨start, later, final, hrecorded, (List.cons.inj hresults).2,
    (timer_keeps_time rfl hspares hrecorded).2⟩

end Steps

end Board
end TimingEye
