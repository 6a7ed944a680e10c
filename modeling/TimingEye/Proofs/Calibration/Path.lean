import TimingEye.Calibration.Transcript
import TimingEye.Proofs.Trail

/-!
# Paths through a procedure

A run of a procedure follows one path of its decision tree, and the path tells everything about
the run: which calls the hardware received, what was reported, and how the run ended.

* `Event`, `calls`: what happens along a path, and what the hardware sees of it;
* `Procedure.Path`: the paths of a tree, with the results at their ends;
* `Procedure.exists_path_watch`: a watched run follows a path, and its transcript is that path;
* `Procedure.takes_watch`: the same on hardware that may fault, up to the call that does;
* `Procedure.watch_of_trail`: where the hardware goes through the calls of a path, the run takes it.
-/

namespace TimingEye

/-! ## Events -/

/-- One thing that happens in a run of a procedure. -/
inductive Event where
  | act (action : Action)
  | probe (passed : Bool)
  deriving DecidableEq, Repr

/-- The call the hardware receives; reports do not reach it. -/
def Event.call? : Event → Option Call
  | act (.setDelay line taps) => some (.setDelay line taps)
  | act (.stepPhase direction) => some (.stepPhase direction)
  | act (.slip subPhase) => some (.slip subPhase)
  | act (.report _) => none
  | act (.log _) => none
  | probe passed => some (.probe passed)

/-- The calls among some events. -/
def calls (events : List Event) : List Call :=
  events.filterMap Event.call?

@[simp] theorem calls_nil : calls [] = [] := rfl

@[simp] theorem calls_cons (event : Event) (rest : List Event) :
    calls (event :: rest) = event.call?.toList ++ calls rest := by
  cases h : event.call? <;> simp [calls, h]

@[simp] theorem calls_append (first second : List Event) :
    calls (first ++ second) = calls first ++ calls second := by
  simp [calls]

/-- What a transcript holds after one more event. -/
def Transcript.seen (transcript : Transcript) : Event → Transcript
  | .act (.setDelay line taps) => transcript.called (.setDelay line taps)
  | .act (.stepPhase direction) => transcript.called (.stepPhase direction)
  | .act (.slip subPhase) => transcript.called (.slip subPhase)
  | .act (.report pieces) => transcript.reported pieces
  | .act (.log record) => transcript.logged record
  | .probe passed => transcript.called (.probe passed)

theorem Transcript.calls_seen (transcript : Transcript) (event : Event) :
    (transcript.seen event).calls.toList =
      transcript.calls.toList ++ TimingEye.calls [event] := by
  rcases event with action | passed
  · cases action with
    | log record =>
      by_cases hadmit : transcript.threshold.admits record.severity = true <;>
        simp [Transcript.seen, Transcript.logged, TimingEye.calls, Event.call?, hadmit]
    | _ => simp [Transcript.seen, Transcript.called, Transcript.reported, TimingEye.calls,
        Event.call?]
  · simp [Transcript.seen, Transcript.called, TimingEye.calls, Event.call?]

/-- A transcript records the calls in the order in which they happen. -/
theorem Transcript.calls_foldl_seen (events : List Event) (transcript : Transcript) :
    (events.foldl seen transcript).calls.toList =
      transcript.calls.toList ++ TimingEye.calls events := by
  induction events generalizing transcript with
  | nil => simp
  | cons event rest ih =>
    rw [List.foldl_cons, ih, calls_seen, List.append_assoc, ← calls_append]
    rfl

/-! ## Paths -/

namespace Procedure

variable {α β : Type}

/-- The paths from the root of a tree to one of its ends. -/
inductive Path : Procedure α → List Event → Except Overflow α → Prop where
  | done (result : α) : Path (done result) [] (.ok result)
  | overflow (cause : Overflow) : Path (overflow cause) [] (.error cause)
  | act {action : Action} {next : Procedure α} {events : List Event}
      {result : Except Overflow α} :
      Path next events result → Path (act action next) (.act action :: events) result
  | probe {next : Bool → Procedure α} {passed : Bool} {events : List Event}
      {result : Except Overflow α} :
      Path (next passed) events result → Path (probe next) (.probe passed :: events) result

namespace Path

variable {events : List Event}

/-- A path of a sequence runs through its first part and, unless that fails, through its second. -/
theorem of_bind {first : Procedure α} {next : α → Procedure β} {result : Except Overflow β}
    (h : Path (first >>= next) events result) :
    (∃ before after value, events = before ++ after ∧ Path first before (.ok value) ∧
      Path (next value) after result) ∨
    (∃ cause, result = .error cause ∧ Path first events (.error cause)) := by
  -- The tree of a sequence is its first tree, with the second one hung at each of its ends.
  induction first generalizing events with
  | done value => exact .inl ⟨[], events, value, rfl, .done value, h⟩
  | overflow cause =>
    cases h
    exact .inr ⟨cause, rfl, .overflow cause⟩
  | act action rest ih =>
    cases h with
    | act hrest =>
      rcases ih hrest with ⟨before, after, value, rfl, hbefore, hafter⟩ | ⟨cause, rfl, hcause⟩
      · exact .inl ⟨_, after, value, rfl, .act hbefore, hafter⟩
      · exact .inr ⟨cause, rfl, .act hcause⟩
  | probe rest ih =>
    cases h with
    | probe hrest =>
      rcases ih _ hrest with ⟨before, after, value, rfl, hbefore, hafter⟩ | ⟨cause, rfl, hcause⟩
      · exact .inl ⟨_, after, value, rfl, .probe hbefore, hafter⟩
      · exact .inr ⟨cause, rfl, .probe hcause⟩

theorem of_pure {value : α} {result : Except Overflow α} (h : Path (pure value) events result) :
    events = [] ∧ result = .ok value := by
  cases h
  exact ⟨rfl, rfl⟩

theorem of_perform {action : Action} {next : Unit → Procedure β} {result : Except Overflow β}
    (h : Path (perform action >>= next) events result) :
    ∃ after, events = .act action :: after ∧ Path (next ()) after result := by
  cases h with
  | act hrest => exact ⟨_, rfl, hrest⟩

theorem of_perform_if {condition : Bool} {action : Action} {next : Unit → Procedure β}
    {result : Except Overflow β}
    (h : Path ((if condition then perform action else pure ()) >>= next) events result) :
    ∃ after, events = (if condition then [.act action] else []) ++ after ∧
      Path (next ()) after result := by
  cases condition with
  | false => exact ⟨events, rfl, h⟩
  | true => exact of_perform h

theorem of_ask {next : Bool → Procedure β} {result : Except Overflow β}
    (h : Path (ask >>= next) events result) :
    ∃ passed after, events = .probe passed :: after ∧ Path (next passed) after result := by
  cases h with
  | probe hrest => exact ⟨_, _, rfl, hrest⟩

theorem of_checked {counted : Except Overflow α} {value : α} {next : α → Procedure β}
    {result : Except Overflow β} (hvalue : counted = .ok value)
    (h : Path (checked counted >>= next) events result) : Path (next value) events result := by
  rw [hvalue] at h
  exact h

end Path

/-- Every tree has an end. -/
theorem exists_path (procedure : Procedure α) :
    ∃ events result, Path procedure events result := by
  induction procedure with
  | done value => exact ⟨[], .ok value, .done value⟩
  | overflow cause => exact ⟨[], .error cause, .overflow cause⟩
  | act action next ih =>
    rcases ih with ⟨events, result, hpath⟩
    exact ⟨_, result, .act hpath⟩
  | probe next ih =>
    -- Either branch would do.
    rcases ih false with ⟨events, result, hpath⟩
    exact ⟨_, result, .probe hpath⟩

end Procedure

/-! ## Runs follow paths -/

section Watching

variable {α σ : Type}

/-- What a call does to the state of some hardware. -/
def Hardware.Performs (hardware : Hardware (StateM σ)) : Call → σ → σ → Prop
  | .setDelay line taps, before, after => (hardware.setDelay line taps).run before = ((), after)
  | .stepPhase direction, before, after => (hardware.stepPhase direction).run before = ((), after)
  | .slip subPhase, before, after => (hardware.slip subPhase).run before = ((), after)
  | .probe passed, before, after => hardware.probe.run before = (passed, after)

/-- A watched run follows a path of the procedure, and the hardware performs the calls of that path.
Whatever has been seen before the run, its transcript goes on with what is seen along the path. -/
theorem Procedure.exists_path_watch (hardware : Hardware (StateM σ)) (procedure : Procedure α)
    (start : σ) :
    ∃ events result final, Path procedure events result ∧
      Trail hardware.Performs start (calls events) final ∧
      ∀ transcript, (procedure.watch hardware transcript).run start =
        ((result, events.foldl Transcript.seen transcript), final) := by
  -- A call is performed before the rest of the tree runs, so its step heads the trail; reports
  -- do not reach the hardware and leave the trail as it is.
  induction procedure generalizing start with
  | done value => exact ⟨[], .ok value, start, .done value, .nil start, fun _ => rfl⟩
  | overflow cause => exact ⟨[], .error cause, start, .overflow cause, .nil start, fun _ => rfl⟩
  | act action next ih =>
    cases action with
    | setDelay line taps =>
      rcases ih ((hardware.setDelay line taps).run start).2 with
        ⟨events, result, final, hpath, htrail, hrun⟩
      exact ⟨_, result, final, .act hpath, .cons rfl htrail, fun _ => hrun _⟩
    | stepPhase direction =>
      rcases ih ((hardware.stepPhase direction).run start).2 with
        ⟨events, result, final, hpath, htrail, hrun⟩
      exact ⟨_, result, final, .act hpath, .cons rfl htrail, fun _ => hrun _⟩
    | slip subPhase =>
      rcases ih ((hardware.slip subPhase).run start).2 with
        ⟨events, result, final, hpath, htrail, hrun⟩
      exact ⟨_, result, final, .act hpath, .cons rfl htrail, fun _ => hrun _⟩
    | report pieces =>
      rcases ih start with ⟨events, result, final, hpath, htrail, hrun⟩
      exact ⟨_, result, final, .act hpath, htrail, fun _ => hrun _⟩
    | log record =>
      rcases ih start with ⟨events, result, final, hpath, htrail, hrun⟩
      exact ⟨_, result, final, .act hpath, htrail, fun _ => hrun _⟩
  | probe next ih =>
    rcases ih (hardware.probe.run start).1 (hardware.probe.run start).2 with
      ⟨events, result, final, hpath, htrail, hrun⟩
    exact ⟨_, result, final, .probe hpath, .cons rfl htrail, fun _ => hrun _⟩

end Watching

/-! ## Runs that may fault -/

section Faulting

variable {ε α σ : Type}

/-- What a call does to hardware that may fault, where it does not fault. -/
def Hardware.Acts (hardware : Hardware (EStateM ε σ)) : Call → σ → σ → Prop
  | .setDelay line taps, before, after => hardware.setDelay line taps before = .ok () after
  | .stepPhase direction, before, after => hardware.stepPhase direction before = .ok () after
  | .slip subPhase, before, after => hardware.slip subPhase before = .ok () after
  | .probe passed, before, after => hardware.probe before = .ok passed after

/-- A call that faults; a probe faults before it has an answer. -/
def Hardware.Faults (hardware : Hardware (EStateM ε σ)) (cause : ε) : Call → σ → σ → Prop
  | .setDelay line taps, before, after => hardware.setDelay line taps before = .error cause after
  | .stepPhase direction, before, after => hardware.stepPhase direction before = .error cause after
  | .slip subPhase, before, after => hardware.slip subPhase before = .error cause after
  | .probe _, before, after => hardware.probe before = .error cause after

/-- A watched run on hardware that may fault takes a path to its end, or up to a call that
faults. -/
inductive Procedure.Takes (hardware : Hardware (EStateM ε σ)) (procedure : Procedure α)
    (transcript : Transcript) (start : σ) :
    EStateM.Result ε σ (Except Overflow α × Transcript) → Prop where
  | ended {events : List Event} {result : Except Overflow α} {final : σ}
      (hpath : Path procedure events result)
      (htrail : Trail hardware.Acts start (calls events) final) :
      Takes hardware procedure transcript start
        (.ok (result, events.foldl Transcript.seen transcript) final)
  | faulted {events : List Event} {result : Except Overflow α} {earlier : List Call}
      {call : Call} (later : List Call) {middle final : σ} {cause : ε}
      (hpath : Path procedure events result) (hcalls : calls events = earlier ++ call :: later)
      (htrail : Trail hardware.Acts start earlier middle)
      (hfault : hardware.Faults cause call middle final) :
      Takes hardware procedure transcript start (.error cause final)

variable {hardware : Hardware (EStateM ε σ)} {procedure next : Procedure α}
  {transcript : Transcript} {start middle : σ} {event : Event}
  {outcome : EStateM.Result ε σ (Except Overflow α × Transcript)}

theorem Procedure.Takes.cons
    (hbranch : ∀ {events result}, Path next events result → Path procedure (event :: events) result)
    (hstep : Trail hardware.Acts start event.call?.toList middle)
    (h : Takes hardware next (transcript.seen event) middle outcome) :
    Takes hardware procedure transcript start outcome := by
  cases h with
  | ended hpath htrail =>
    refine .ended (hbranch hpath) ?_
    rw [calls_cons]
    exact hstep.append htrail
  | faulted later hpath hcalls htrail hfault =>
    refine .faulted later (hbranch hpath) ?_ (hstep.append htrail) hfault
    rw [calls_cons, hcalls, List.append_assoc]

theorem Procedure.Takes.fault {call : Call} {cause : ε} {final : σ}
    (hbranch : ∀ {events result}, Path next events result → Path procedure (event :: events) result)
    (hcall : event.call? = some call) (hfault : hardware.Faults cause call start final) :
    Takes hardware procedure transcript start (.error cause final) := by
  -- The run does not go on, but the tree does.
  rcases next.exists_path with ⟨events, result, hpath⟩
  refine .faulted (calls events) (hbranch hpath) ?_ (.nil start) hfault
  rw [calls_cons, hcall]
  rfl

theorem Procedure.Takes.of_operation {operation : EStateM ε σ Unit} {action : Action} {call : Call}
    (hcall : (Event.act action).call? = some call)
    (hseen : transcript.seen (.act action) = transcript.called call)
    (hacts : ∀ after, operation start = .ok () after → hardware.Acts call start after)
    (hfaults : ∀ cause after, operation start = .error cause after →
      hardware.Faults cause call start after)
    (h : ∀ after, Takes hardware next (transcript.called call) after
      (next.watch hardware (transcript.called call) after)) :
    Takes hardware (act action next) transcript start
      (EStateM.bind (EStateM.bind operation fun _ => EStateM.pure ((), transcript.called call))
        (fun done => next.watch hardware done.2) start) := by
  simp only [EStateM.bind]
  cases hrun : operation start with
  | ok _ after =>
    have hstep : Trail hardware.Acts start (Event.act action).call?.toList after := by
      rw [hcall]
      exact .single (hacts after hrun)
    refine .cons .act hstep ?_
    rw [hseen]
    exact h after
  | error cause after => exact .fault .act hcall (hfaults cause after hrun)

/-- A probe that is answered hands on to its branch. -/
theorem Procedure.watch_probe {next : Bool → Procedure α} {passed : Bool}
    (h : hardware.probe start = .ok passed middle) :
    (probe next).watch hardware transcript start =
      (next passed).watch hardware (transcript.called (.probe passed)) middle := by
  change EStateM.bind (EStateM.bind (EStateM.bind hardware.probe _) _) _ start = _
  simp only [EStateM.bind, h]
  rfl

/-- Whatever the hardware does, a watched run takes a path. -/
theorem Procedure.takes_watch (hardware : Hardware (EStateM ε σ)) (procedure : Procedure α)
    (transcript : Transcript) (start : σ) :
    Takes hardware procedure transcript start (procedure.watch hardware transcript start) := by
  induction procedure generalizing transcript start with
  | done value => exact .ended (.done value) (.nil start)
  | overflow cause => exact .ended (.overflow cause) (.nil start)
  | act action next ih =>
    cases action with
    | setDelay line taps => exact .of_operation rfl rfl (fun _ h => h) (fun _ _ h => h) (ih _)
    | stepPhase direction => exact .of_operation rfl rfl (fun _ h => h) (fun _ _ h => h) (ih _)
    | slip subPhase => exact .of_operation rfl rfl (fun _ h => h) (fun _ _ h => h) (ih _)
    | report pieces => exact .cons .act (.nil start) (ih _ start)
    | log record => exact .cons .act (.nil start) (ih _ start)
  | probe next ih =>
    cases hrun : hardware.probe start with
    | ok passed after =>
      rw [watch_probe hrun]
      exact .cons .probe (.single hrun) (ih passed _ after)
    | error cause after =>
      have hwatch : (probe next).watch hardware transcript start = .error cause after := by
        change EStateM.bind (EStateM.bind (EStateM.bind hardware.probe _) _) _ start = _
        simp only [EStateM.bind, hrun]
      -- A probe that faults has no answer, so the branch it would have taken is immaterial.
      have hfault : hardware.Faults cause (.probe false) start after := hrun
      rw [hwatch]
      exact .fault .probe rfl hfault

/-- An operation that goes through hands on to the rest of the run. -/
theorem Procedure.watch_operation {operation : EStateM ε σ Unit} {call : Call}
    (h : operation start = .ok () middle) :
    EStateM.bind (EStateM.bind operation fun _ => EStateM.pure ((), transcript.called call))
        (fun done => next.watch hardware done.2) start =
      next.watch hardware (transcript.called call) middle := by
  simp only [EStateM.bind, h]
  rfl

/-- If the hardware goes through the calls of a path, a watched run takes that path. -/
theorem Procedure.watch_of_trail {events : List Event} {result : Except Overflow α} {final : σ}
    (hpath : Path procedure events result)
    (htrail : Trail hardware.Acts start (calls events) final) (transcript : Transcript) :
    procedure.watch hardware transcript start =
      .ok (result, events.foldl Transcript.seen transcript) final := by
  induction hpath generalizing transcript start with
  | done value =>
    cases htrail
    rfl
  | overflow cause =>
    cases htrail
    rfl
  | @act action _ _ _ _ ih =>
    cases action with
    | setDelay line taps =>
      rcases Trail.cons_iff.mp htrail with ⟨_, hstep, hrest⟩
      exact (watch_operation hstep).trans (ih hrest _)
    | stepPhase direction =>
      rcases Trail.cons_iff.mp htrail with ⟨_, hstep, hrest⟩
      exact (watch_operation hstep).trans (ih hrest _)
    | slip subPhase =>
      rcases Trail.cons_iff.mp htrail with ⟨_, hstep, hrest⟩
      exact (watch_operation hstep).trans (ih hrest _)
    | report pieces => exact ih htrail _
    | log record => exact ih htrail _
  | probe _ ih =>
    rcases Trail.cons_iff.mp htrail with ⟨_, hprobe, hrest⟩
    exact (watch_probe hprobe).trans (ih hrest _)

end Faulting

end TimingEye
