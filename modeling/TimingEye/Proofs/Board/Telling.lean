import TimingEye.Proofs.Board.Mirror
import TimingEye.Proofs.Board.Speaking
import TimingEye.Proofs.Calibration.Narrative

/-!
# What a calibration says

The progress text and the log of a calibration leave through one serial line, in the order in which
they are told.  What is printed of the log depends on who installed a logger before, and the times
in it on what the timer was at by then.

* `said`: what events say, with a clock that advances whenever a record is printed;
* `Happens`, `ends_run`: the events of a procedure on the board;
* `sweepText`, `said_course`: what a calibration says, worked out from its answers.
-/

namespace TimingEye
namespace Board

/-! ## Texts on the line -/

theorem Console.wire_append (first second : String) :
    Console.wire (first ++ second) = Console.wire first ++ Console.wire second := by
  simp [Console.wire, Console.octets]

/-- A text is sent as a whole, in however many pieces it is printed. -/
theorem Variant.sends_of_uart {variant : Variant} (h : variant.uart = true)
    (pieces : List String) : variant.sends pieces = Console.wire (String.join pieces) := by
  rw [sends, if_pos h]
  induction pieces with
  | nil => rfl
  | cons piece rest ih => rw [List.flatMap_cons, String.join_cons, Console.wire_append, ih]

theorem sends_full (pieces : List String) :
    Variant.full.sends pieces = Console.wire (String.join pieces) :=
  Variant.sends_of_uart rfl pieces

/-! ## Events -/

/-- What an event says at some time. -/
def Event.speech (log : LogFacade) (clock : Clock) : Event → String
  | .act (.report pieces) => String.join pieces
  | .act (.log record) =>
    if log.prints record.severity then String.join (logLine (clock.time 1) record) else ""
  | _ => ""

/-- The clock after an event: a record that is printed samples it. -/
def Clock.after (log : LogFacade) (clock : Clock) : Event → Clock
  | .act (.log record) => if log.prints record.severity then clock.sampled else clock
  | _ => clock

/-- What an event does to the board, apart from the memory interface. -/
structure Tells (event : Event) (before after : State) : Prop where
  log : after.log = before.log
  sent : after.soc.sent.toList = before.soc.sent.toList ++
    Console.wire (Event.speech before.log before.soc.clock event)
  clock : after.soc.clock = before.soc.clock.after before.log event

theorem ends_announce (pieces : List String) (before : State) :
    Ends before (announce .full pieces) fun _ after =>
      Spoke (Console.wire (String.join pieces)) before.soc after.soc ∧ after.log = before.log := by
  rw [← sends_full]
  exact (ends_printAll .full pieces before.soc).onBus before

theorem ends_issue (variant : Variant) (record : Record) (before : State) :
    Ends before (issue variant record) fun _ after => after.log = before.log ∧
      if before.log.prints record.severity then
        Printed variant record before.soc after.soc
      else after = before := by
  have hget : Ends before (get : Firmware State) fun board after =>
      board = before ∧ after = before := ⟨rfl, rfl⟩
  apply hget.bind
  rintro board middle _ ⟨hboard, hmiddle⟩
  rw [hboard, hmiddle]
  apply Ends.ite
  · intro hprints
    apply ((ends_printRecord variant record before.soc).onBus before).weaken
    rintro _ after _ ⟨hprinted, hlog⟩
    rw [if_pos hprints]
    exact ⟨hlog, hprinted⟩
  · intro hsilent
    apply Ends.pure
    rw [if_neg hsilent]
    exact ⟨rfl, rfl⟩

/-! ### Calls -/

/-- The firmware has said nothing, and has left the timer and the facade alone. -/
structure Aside (before after : State) : Prop where
  mute : Mute before.soc after.soc
  log : after.log = before.log

theorem Aside.refl (board : State) : Aside board board :=
  ⟨.refl board.soc, rfl⟩

theorem Aside.trans {first second third : State} (h : Aside first second)
    (h' : Aside second third) : Aside first third :=
  ⟨h.mute.trans h'.mute, h'.log.trans h.log⟩

/-- A sequence lies aside if its parts do. -/
theorem Ends.aside {α β : Type} {before : State} {first : Firmware α} {next : α → Firmware β}
    (h : Ends before first fun _ after => Aside before after)
    (hnext : ∀ value middle, Ends middle (next value) fun _ after => Aside middle after) :
    Ends before (first >>= next) fun _ after => Aside before after := by
  apply h.bind
  intro value middle _ hmiddle
  apply (hnext value middle).weaken
  intro _ after _ hafter
  exact hmiddle.trans hafter

/-- A control line is driven without a word, and away from the timer. -/
theorem ends_write_signal (signal : Signal) (value : UInt32) (before : Soc) :
    Ends before (Soc.write (Csr.ofSignal signal) value) fun _ after =>
      Mute before after ∧
        after.accesses = before.accesses.push (.write (Csr.ofSignal signal) value) := by
  have hstarting : Csr.ofSignal signal ∉ Csr.ofStarting := by
    cases signal <;> decide
  apply (ends_write (ofSignal_ne rfl signal) value before).weaken
  rintro _ after _ rfl
  rw [react_ofSignal]
  exact ⟨⟨rfl, clock_assigned hstarting value before⟩, rfl⟩

theorem ends_registers_write (signal : Signal) (value : UInt8) (before : State) :
    Ends before (registers.write signal value) fun _ after => Aside before after := by
  apply ((ends_write_signal signal value.toUInt32 before.soc).onBus before).weaken
  rintro _ after _ ⟨⟨hmute, _⟩, hlog⟩
  exact ⟨hmute, hlog⟩

theorem ends_drive (writes : List (Signal × UInt8)) (before : State) :
    Ends before (registers.drive writes) fun _ after => Aside before after := by
  induction writes generalizing before with
  | nil => exact .refl before
  | cons write rest ih =>
    apply (ends_registers_write write.1 write.2 before).aside
    intro _ middle
    exact ih middle

theorem ends_check (patterns : List UInt32) (before : State) :
    Ends before (registers.check patterns) fun _ after => Aside before after := by
  induction patterns generalizing before with
  | nil => exact .refl before
  | cons pattern rest ih =>
    have hwrite : Ends before (registers.writeWord pattern) fun _ after => Aside before after :=
      ⟨⟨rfl, rfl⟩, rfl⟩
    apply hwrite.aside
    intro _ written
    have hshared : Ends written registers.flushSharedCache fun _ after => Aside written after :=
      .refl written
    apply hshared.aside
    intro _ shared
    have hdata : Ends shared registers.flushDataCache fun _ after => Aside shared after :=
      .refl shared
    apply hdata.aside
    intro _ flushed
    have hread : Ends flushed registers.readWord fun _ after => Aside flushed after :=
      ⟨⟨rfl, rfl⟩, rfl⟩
    apply hread.aside
    intro found middle
    apply Ends.ite
    · intro _
      exact ih middle
    · intro _
      exact .refl middle

/-! ## Procedures -/

/-- An event as it happens on the board. -/
def Happens : Event → State → State → Prop
  | .act action, before, after => action.perform hardware (reporter .full) before = .ok () after
  | .probe passed, before, after => hardware.probe before = .ok passed after

/-- A call says nothing. -/
theorem Aside.tells {action : Action} {before after : State}
    (hcall : ∃ call, (Event.act action).call? = some call) (h : Aside before after) :
    Tells (.act action) before after := by
  rcases hcall with ⟨call, hcall⟩
  have hnothing : Console.wire "" = [] := rfl
  refine ⟨h.log, ?_, ?_⟩
  · cases action <;> cases hcall <;>
      simp only [Event.speech, hnothing, List.append_nil, h.mute.sent]
  · cases action <;> cases hcall <;> exact h.mute.clock

theorem ends_action (action : Action) (before : State) :
    Ends before (action.perform hardware (reporter .full)) fun _ after =>
      Tells (.act action) before after := by
  have hcall : ∀ writes, (∃ call, (Event.act action).call? = some call) →
      Ends before (registers.drive writes) fun _ after => Tells (.act action) before after := by
    intro writes hcall
    apply (ends_drive writes before).weaken
    intro _ after _ haside
    exact haside.tells hcall
  cases action with
  | setDelay line taps => exact hcall _ ⟨_, rfl⟩
  | stepPhase direction => exact hcall _ ⟨_, rfl⟩
  | slip subPhase => exact hcall _ ⟨_, rfl⟩
  | report pieces =>
    apply (ends_announce pieces before).weaken
    rintro _ after _ ⟨hspoke, hlog⟩
    exact ⟨hlog, hspoke.sent, hspoke.clock⟩
  | log record =>
    apply (ends_issue .full record before).weaken
    rintro _ after _ ⟨hlog, hprinted⟩
    by_cases hprints : before.log.prints record.severity = true
    · rw [if_pos hprints] at hprinted
      refine ⟨hlog, ?_, ?_⟩
      · rw [hprinted.sent, sends_full, Event.speech, if_pos hprints]
      · rw [hprinted.clock, Clock.after, if_pos hprints]
    · rw [if_neg hprints] at hprinted
      subst hprinted
      have hnothing : Console.wire "" = [] := rfl
      refine ⟨rfl, ?_, ?_⟩
      · rw [Event.speech, if_neg hprints, hnothing, List.append_nil]
      · rw [Clock.after, if_neg hprints]

theorem tells_of_happens {event : Event} {before after : State} (h : Happens event before after) :
    Tells event before after := by
  cases event with
  | act action => exact (ends_action action before).of_ok h
  | probe passed =>
    have haside := (ends_check testPatterns before).of_ok h
    refine ⟨haside.log, ?_, haside.mute.clock⟩
    rw [haside.mute.sent]
    exact (List.append_nil _).symm

/-- A procedure comes to an end of its tree. -/
theorem ends_run {α : Type} (procedure : Procedure α) (before : State) :
    Ends before (procedure.run hardware (reporter .full)) fun result after =>
      ∃ events, Procedure.Path procedure events result ∧ Trail Happens before events after := by
  induction procedure generalizing before with
  | done value => exact ⟨[], .done value, .nil before⟩
  | overflow cause => exact ⟨[], .overflow cause, .nil before⟩
  | act action next ih =>
    apply (ends_action action before).bind
    intro _ middle hrun _
    apply (ih middle).weaken
    rintro result after _ ⟨events, hpath, htrail⟩
    exact ⟨_, .act hpath, .cons hrun htrail⟩
  | probe next ih =>
    apply (ends_check testPatterns before).bind
    intro passed middle hrun _
    apply (ih passed middle).weaken
    rintro result after _ ⟨events, hpath, htrail⟩
    exact ⟨_, .probe hpath, .cons hrun htrail⟩

/-- What some events say, one after another. -/
def said (log : LogFacade) : Clock → List Event → String
  | _, [] => ""
  | clock, event :: rest => Event.speech log clock event ++ said log (clock.after log event) rest

/-- A procedure says what its events say. -/
theorem sent_of_trail {events : List Event} {before after : State}
    (h : Trail Happens before events after) :
    after.log = before.log ∧ after.soc.sent.toList =
      before.soc.sent.toList ++ Console.wire (said before.log before.soc.clock events) := by
  induction h with
  | nil board => exact ⟨rfl, (List.append_nil _).symm⟩
  | cons hstep _ ih =>
    have htells := tells_of_happens hstep
    rcases ih with ⟨hlog, hsent⟩
    rw [htells.log, htells.clock] at hsent
    refine ⟨hlog.trans htells.log, ?_⟩
    rw [hsent, htells.sent, said, Console.wire_append, List.append_assoc]

/-! ## The sweep -/

/-- What a record says that is issued at some time, if it is printed at all. -/
def recordTold (log : LogFacade) (time : Nat) (record : Record) : String :=
  if log.prints record.severity then String.join (logLine time record) else ""

/-- How many samplings the records of some settings take. -/
def recordsPrinted (log : LogFacade) (settings : Nat) : Nat :=
  if log.prints .debug then settings else 0

/-- What is said about a setting: its line of progress, and its record. -/
def settingTold (log : LogFacade) (time : Nat → Nat) (params : Params) (coarse : Nat)
    (row : List Bool) : String :=
  settingLine params coarse row ++
    recordTold log (time (coarse + 1)) (settingRecord params coarse row)

/-- What is said about the settings that were visited, from the first one on. -/
def settingsTold (log : LogFacade) (time : Nat → Nat) (params : Params)
    (rows : List (List Bool)) : String :=
  String.join (rows.zipIdx.map fun setting => settingTold log time params setting.2 setting.1)

/-- What a sweep says: about its settings, and about its verdict. -/
def sweepText (log : LogFacade) (time : Nat → Nat) (params : Params) (rows : List (List Bool))
    (verdict : Verdict) : String :=
  settingsTold log time params rows ++
    recordTold log (time (recordsPrinted log rows.length + 1)) verdict.record

theorem settingsTold_concat (log : LogFacade) (time : Nat → Nat) (params : Params)
    (rows : List (List Bool)) (row : List Bool) :
    settingsTold log time params (rows ++ [row]) =
      settingsTold log time params rows ++ settingTold log time params rows.length row := by
  simp [settingsTold, List.zipIdx_append]

section Said

variable (log : LogFacade) (clock : Clock)

theorem said_append (first second : List Event) :
    said log clock (first ++ second) =
      said log clock first ++ said log (first.foldl (Clock.after log) clock) second := by
  induction first generalizing clock with
  | nil => rfl
  | cons event rest ih =>
    rw [List.cons_append, said, said, ih, List.foldl_cons, String.append_assoc]

/-- The clock advances with the records that are printed. -/
theorem foldl_after (events : List Event) :
    events.foldl (Clock.after log) clock =
      Clock.sampled^[(recordsOf events).countP fun record => log.prints record.severity] clock := by
  induction events generalizing clock with
  | nil => rfl
  | cons event rest ih =>
    have hsplit : recordsOf (event :: rest) = recordsOf [event] ++ recordsOf rest :=
      recordsOf_append [event] rest
    have hfirst : clock.after log event =
        Clock.sampled^[(recordsOf [event]).countP fun record => log.prints record.severity]
          clock := by
      rcases event with action | passed
      · cases action with
        | log record =>
          by_cases hprints : log.prints record.severity = true <;>
            simp [Clock.after, recordsOf, Event.record?, hprints]
        | _ => rfl
      · rfl
    rw [List.foldl_cons, ih, hfirst, hsplit, List.countP_append, Nat.add_comm,
      Function.iterate_add_apply]

/-- Where no record is logged, only the progress text is said. -/
theorem said_of_unlogged {events : List Event} (h : recordsOf events = []) :
    said log clock events = textOf events := by
  induction events generalizing clock with
  | nil => rfl
  | cons event rest ih =>
    have hsplit : recordsOf [event] ++ recordsOf rest = [] := by
      rw [← recordsOf_append]
      exact h
    rcases List.append_eq_nil_iff.mp hsplit with ⟨hevent, hrest⟩
    rw [said, ih _ hrest, textOf_cons]
    rcases event with action | passed
    · cases action with
      | log record => cases hevent
      | _ => rfl
    · rfl

/-- A record is said on its own. -/
theorem said_log (record : Record) :
    said log clock [.act (.log record)] = recordTold log (clock.time 1) record :=
  String.append_empty

/-- The record of a setting ends what is said about it. -/
theorem exists_settingEvents {params : Params} {coarse : Nat} {row : List Bool}
    (h : coarse < 256) (hmeasures : params.Measures row) :
    ∃ body, settingEvents params (UInt8.ofNat coarse) row =
        body ++ [.act (.log (settingRecord params coarse row))] ∧
      recordsOf body = [] ∧ textOf body = settingLine params coarse row := by
  obtain ⟨body, message, hbody⟩ : ∃ body message, settingEvents params (UInt8.ofNat coarse) row =
      body ++ [.act (calibrationRecord .debug message)] := by
    rw [settingEvents]
    exact ⟨_, _, List.append_cons _ _ _⟩
  have hrecords := recordsOf_settingEvents h hmeasures
  have htext : textOf (settingEvents params (UInt8.ofNat coarse) row) =
      settingLine params coarse row := textOf_settingEvents h
  rw [hbody, recordsOf_append] at hrecords
  rw [hbody, textOf_append] at htext
  rcases List.append_inj' (hrecords.trans (List.nil_append _).symm) rfl with ⟨hsilent, hlast⟩
  refine ⟨body, ?_, hsilent, ?_⟩
  · rw [hbody, ← List.singleton_inj.mp hlast]
    rfl
  · rw [← htext]
    exact String.append_empty.symm

/-- A setting is told at the time of the samplings so far. -/
theorem said_settingEvents {params : Params} {coarse : Nat} {row : List Bool}
    (h : coarse < 256) (hmeasures : params.Measures row) :
    said log (Clock.sampled^[recordsPrinted log coarse] clock)
        (settingEvents params (UInt8.ofNat coarse) row) =
      settingTold log clock.time params coarse row := by
  rcases exists_settingEvents h hmeasures with ⟨body, hbody, hsilent, htext⟩
  have hclock : body.foldl (Clock.after log) (Clock.sampled^[recordsPrinted log coarse] clock) =
      Clock.sampled^[recordsPrinted log coarse] clock := by
    rw [foldl_after, hsilent]
    rfl
  rw [hbody, said_append, hclock, said_of_unlogged _ _ hsilent, htext, said_log, settingTold,
    Clock.time_iterate, recordTold, recordTold]
  by_cases hprints : log.prints .debug = true
  · rw [recordsPrinted, if_pos hprints]
  · have hsilent : ¬log.prints (settingRecord params coarse row).severity = true := hprints
    rw [if_neg hsilent, if_neg hsilent]

/-- Either all settings have their records printed, or none has. -/
theorem countP_settingRecords (params : Params) (rows : List (List Bool)) :
    (rows.zipIdx.map fun setting => settingRecord params setting.2 setting.1).countP
      (fun record => log.prints record.severity) = recordsPrinted log rows.length := by
  rw [List.countP_map]
  by_cases hprints : log.prints .debug = true <;>
    simp [Function.comp_def, settingRecord, recordsPrinted, hprints]

theorem foldl_after_rejectedEvents {params : Params} {rows : List (List Bool)}
    (h : rows.length ≤ 256) (hmeasures : ∀ row ∈ rows, params.Measures row) :
    (rejectedEvents params rows).foldl (Clock.after log) clock =
      Clock.sampled^[recordsPrinted log rows.length] clock := by
  rw [foldl_after, recordsOf_rejectedEvents h hmeasures]
  exact congrArg (Clock.sampled^[·] clock) (countP_settingRecords log params rows)

theorem said_rejectedEvents {params : Params} {rows : List (List Bool)} (h : rows.length ≤ 256)
    (hmeasures : ∀ row ∈ rows, params.Measures row) :
    said log clock (rejectedEvents params rows) = settingsTold log clock.time params rows := by
  induction rows using List.reverseRecOn with
  | nil => rfl
  | append_singleton rows row ih =>
    rw [List.length_append, List.length_singleton] at h
    have hearlier : ∀ earlier ∈ rows, params.Measures earlier := fun earlier hmem =>
      hmeasures earlier (List.mem_append_left _ hmem)
    have hslip : ∀ clock, said log clock [.act (slipInto (rows.length + 1))] = "" := fun _ => rfl
    rw [rejectedEvents_concat, rejectedSettingEvents, said_append, said_append, hslip,
      String.append_empty, ih (Nat.le_of_succ_le h) hearlier,
      foldl_after_rejectedEvents log clock (Nat.le_of_succ_le h) hearlier,
      said_settingEvents log clock (Nat.lt_of_succ_le h) (hmeasures row (by simp)),
      settingsTold_concat]

/-- A calibration says what its answers and its verdict tell. -/
theorem said_course {params : Params} {events : List Event} {verdict : Verdict}
    (h : Course params events verdict) :
    said log clock events =
      sweepText log clock.time params (answerRows (calls events)) verdict := by
  have hoctet := params.coarseSteps.toNat_lt
  cases h with
  | accepted rejected row hrejected haccepted hlength =>
    have hshort : rejected.length < 256 := by omega
    have hmeasures : ∀ earlier ∈ rejected, params.Measures earlier := fun earlier hmem =>
      (hrejected earlier hmem).measures
    rcases untold_steps (params.window row / 2) with ⟨htext, hrecords⟩
    have hearlier := foldl_after_rejectedEvents log clock hshort.le hmeasures
    have hsetting := said_settingEvents log clock hshort haccepted.measures
    -- The records before the last one are those of the settings.
    have hclock : (rejectedEvents params rejected ++
        settingEvents params (UInt8.ofNat rejected.length) row ++
        List.replicate (params.window row / 2) (Event.act (.stepPhase .up))).foldl
          (Clock.after log) clock =
        Clock.sampled^[recordsPrinted log (rejected ++ [row]).length] clock := by
      rw [foldl_after, recordsOf_append, recordsOf_append, hrecords,
        recordsOf_rejectedEvents hshort.le hmeasures,
        recordsOf_settingEvents hshort haccepted.measures, ← countP_settingRecords log params]
      simp [List.zipIdx_append]
    rw [calibrationRecord, answerRows_acceptedEvents hshort, said_append, hclock, said_append,
      said_of_unlogged _ _ hrecords, htext, String.append_empty, said_append, hearlier, hsetting,
      said_rejectedEvents log clock hshort.le hmeasures, said_log, Clock.time_iterate,
      ← settingsTold_concat]
    rfl
  | exhausted rejected sweep hrejected hlength _ _ =>
    have hshort : rejected.length < 256 := by omega
    have hmeasures : ∀ earlier ∈ rejected, params.Measures earlier := fun earlier hmem =>
      (hrejected earlier hmem).measures
    rw [calibrationRecord, answerRows_rejectedEvents hshort, said_append,
      foldl_after_rejectedEvents log clock hshort.le hmeasures,
      said_rejectedEvents log clock hshort.le hmeasures, said_log, Clock.time_iterate]
    rfl

end Said

end Board
end TimingEye
