import TimingEye.Phy.Script
import TimingEye.Proofs.Phy.SteadyMemory
import TimingEye.Proofs.Simulation

/-!
# Calibrations forget

What has been done to a bank before a calibration leaves traces in its lines, its counters and its
memory word.  The calibration sees none of them: on a steady memory it takes the same path
wherever it begins, as far as its counters have room.

* `Step.Leads`, `trail_of_runScript`: pasts, as scripts bring them about;
* `Bank.Idle`, `Bank.idle_of_history`: banks between two operations, and that pasts lead to them;
* `Bank.exists_trail_of_answers`: the calls of one run, made elsewhere;
* `Alike`, `AlikeRuns`: accesses that differ in failing probes only, and runs that do;
* `calibration_forgets_history`: a calibration compared with the same one on a fresh bank.
-/

namespace TimingEye
namespace Phy

/-! ## Pasts -/

/-- Everything but a raw write to a control line. -/
def Step.Operates : Step → Prop
  | .write _ _ => False
  | _ => True

/-- A step that goes through, as a script performs it. -/
def Step.Leads (step : Step) (before after : Bank) : Prop :=
  ∃ result, step.perform { before with accesses := #[] } = .ok result after

def Result.faulted : Result → Bool
  | .fault _ => true
  | _ => false

/-- The bank a script leaves behind. -/
def bankAfter (steps : List Step) (start : Bank) : Bank :=
  ((runScript steps start).getLast?.map (·.2)).getD start

/-- A script without a fault has gone through all of its steps. -/
theorem trail_of_runScript {steps : List Step} {start : Bank}
    (h : ∀ entry ∈ runScript steps start, entry.1.faulted = false) :
    Trail Step.Leads start steps (bankAfter steps start) := by
  induction steps generalizing start with
  | nil => exact .nil start
  | cons step rest ih =>
    rw [runScript] at h
    cases hperform : step.perform { start with accesses := #[] } with
    | ok result middle =>
      rw [hperform] at h
      have hrest := ih fun entry hmem => h entry (List.mem_cons_of_mem _ hmem)
      have hlast : bankAfter (step :: rest) start = bankAfter rest middle := by
        rw [bankAfter, runScript, hperform, bankAfter, List.getLast?_cons]
        cases (runScript rest middle).getLast? <;> rfl
      rw [hlast]
      exact .cons ⟨result, hperform⟩ hrest
    | error cause final =>
      rw [hperform] at h
      cases h _ List.mem_cons_self

namespace Bank

/-- A bank between two operations: its lines are at rest and its memory is as given. -/
structure Idle (retention : Retention) (bank : Bank) : Prop where
  atRest : bank.timing.AtRest
  holds : bank.Holds retention

variable {retention : Retention} {before after : Bank}

theorem idle_of_fresh (retention : Retention) (cell : UInt32) :
    ({ retention, cell } : Bank).Idle retention :=
  ⟨atRest_of_fresh retention cell, ⟨rfl, rfl⟩⟩

theorem Idle.of_calls {calls : List Call} (hsteady : retention.Steady) (h : before.Idle retention)
    (htrail : Trail hardware.Acts before calls after) : after.Idle retention :=
  ⟨(timing_of_calls h.atRest htrail).2, h.holds.of_calls hsteady htrail⟩

theorem Idle.of_does {access : Access} (hsteady : retention.Steady) (h : before.Idle retention)
    (hread : access.isWrite = false) (hdoes : Does access before after) : after.Idle retention := by
  have htiming := timing_of_does hdoes hread
  exact ⟨htiming ▸ h.atRest, h.holds.of_does hsteady hdoes⟩

/-- A calibration that goes through has taken a course. -/
theorem exists_course_of_watch {params : Params} {transcript : Transcript} {start final : Bank}
    {outcome : Except Overflow Verdict × Transcript}
    (h : (calibrate params).watch hardware transcript start = .ok outcome final) :
    ∃ events verdict, Procedure.Path (calibrate params) events (.ok verdict) ∧
      Course params events verdict ∧ Trail hardware.Acts start (calls events) final ∧
      outcome = (.ok verdict, events.foldl Transcript.seen transcript) := by
  have htakes := Procedure.takes_watch hardware (calibrate params) transcript start
  rw [h] at htakes
  cases htakes with
  | ended hpath htrail =>
    rcases Course.of_path hpath with ⟨verdict, rfl, hcourse⟩
    exact ⟨_, verdict, hpath, hcourse, htrail, rfl⟩

theorem Idle.of_step {step : Step} (hsteady : retention.Steady) (hoperates : step.Operates)
    (h : before.Idle retention) (hleads : step.Leads before after) : after.Idle retention := by
  rcases hleads with ⟨result, hperform⟩
  have hclean : ({ before with accesses := #[] } : Bank).Idle retention :=
    ⟨h.atRest, ⟨h.holds.retention, h.holds.forced⟩⟩
  generalize ({ before with accesses := #[] } : Bank) = clean at hperform hclean
  have hcall : ∀ call, hardware.Acts call clean after → after.Idle retention :=
    fun _ hacts => hclean.of_calls hsteady (.single hacts)
  have hread : ∀ access : Access, access.isWrite = false → Does access clean after →
      after.Idle retention := fun _ => hclean.of_does hsteady
  cases step with
  | setDelay line taps =>
    rcases bind_eq_ok_iff.mp hperform with ⟨_, _, hacts, hdone⟩
    cases hdone
    exact hcall (.setDelay line taps) hacts
  | stepPhase direction =>
    rcases bind_eq_ok_iff.mp hperform with ⟨_, _, hacts, hdone⟩
    cases hdone
    exact hcall (.stepPhase direction) hacts
  | slip subPhase =>
    rcases bind_eq_ok_iff.mp hperform with ⟨_, _, hacts, hdone⟩
    cases hdone
    exact hcall (.slip subPhase) hacts
  | probe =>
    rcases bind_eq_ok_iff.mp hperform with ⟨passed, _, hacts, hdone⟩
    cases hdone
    exact hcall (.probe passed) hacts
  | calibrate params transcript =>
    rcases bind_eq_ok_iff.mp hperform with ⟨⟨outcome, seen⟩, middle, hwatch, hdone⟩
    rcases exists_course_of_watch hwatch with ⟨events, verdict, _, _, htrail, houtcome⟩
    cases houtcome
    cases hdone
    exact hclean.of_calls hsteady htrail
  | write signal value => exact hoperates.elim
  | writeWord value =>
    rcases bind_eq_ok_iff.mp hperform with ⟨_, _, hdoes, hdone⟩
    cases hdone
    exact hread (.writeWord value) rfl hdoes
  | readWord =>
    rcases bind_eq_ok_iff.mp hperform with ⟨value, _, hdoes, hdone⟩
    cases hdone
    exact hread (.readWord value) rfl hdoes
  | cell | clockTaps | unknown =>
    cases hperform
    exact hclean

theorem idle_of_history {history : List Step} (hsteady : retention.Steady)
    (hoperates : ∀ step ∈ history, step.Operates) (h : before.Idle retention)
    (htrail : Trail Step.Leads before history after) : after.Idle retention := by
  induction htrail with
  | nil bank => exact h
  | cons hstep _ ih =>
    refine ih (fun step hmem => hoperates step (List.mem_cons_of_mem _ hmem)) ?_
    exact h.of_step hsteady (hoperates _ List.mem_cons_self) hstep

/-! ## The same calls elsewhere -/

/-- An operation that finds room goes through, a probe if its answer is the one expected. -/
theorem exists_acts {call : Call} {bank : Bank}
    (hroom : ∀ meter : Meter, meter.Lasts →
      bank.timing.meter meter + gained [call] meter ≤ meter.capacity)
    (hanswer : ∀ passed answer after, call = .probe passed →
      hardware.Acts (.probe answer) bank after → answer = passed) :
    ∃ after, hardware.Acts call bank after := by
  cases call with
  | setDelay line taps => exact exists_drive (Timing.affords_delayWrites _ line taps)
  | stepPhase direction =>
    have hfits := hroom (.steps direction) trivial
    have hone : gained [.stepPhase direction] (.steps direction) = 1 := List.count_singleton_self
    rw [hone] at hfits
    exact exists_drive (Timing.affords_stepWrites hfits)
  | slip subPhase =>
    have hfits90 := hroom .hr2x90Slips trivial
    have hfits2x := hroom .hr2xSlips trivial
    have hone : slipsOf [.slip subPhase] = [subPhase] := rfl
    simp only [gained, hone, List.countP_singleton] at hfits90 hfits2x
    apply exists_drive (Timing.affords_slipWrites ?_ ?_)
    · intro hpulsed
      rw [if_pos hpulsed] at hfits90
      exact hfits90
    · intro hpulsed
      rw [if_pos hpulsed] at hfits2x
      exact hfits2x
  | probe passed =>
    rcases exists_checked testPatterns bank with ⟨answer, _, after, hrun, _, _⟩
    obtain rfl := hanswer passed answer after rfl hrun
    exact ⟨after, hrun⟩

section Runs

variable {params : Params} {transcript : Transcript} {events : List Event} {verdict : Verdict}
  {start final start' final' : Bank}

/-- A bank with room goes through the calls of a course whose probes have the answers of its
memory. -/
theorem exists_trail_of_answers (hsteady : retention.Steady)
    (hcourse : Course params events verdict)
    (hanswers : AnsweredBy (fun d => retention.keeps (d / 4)) (calls events))
    (h : start.Idle retention)
    (hroom : ∀ meter : Meter, meter.Lasts →
      start.timing.meter meter + gained (calls events) meter ≤ meter.capacity)
    {earlier later : List Call} (hcut : calls events = earlier ++ later) :
    ∃ middle, Trail hardware.Acts start earlier middle := by
  induction earlier using List.reverseRecOn generalizing later with
  | nil => exact ⟨start, .nil start⟩
  | append_singleton earlier call ih =>
    rw [List.append_assoc, List.singleton_append] at hcut
    rcases ih hcut with ⟨middle, htrail⟩
    have hidle := h.of_calls hsteady htrail
    have htiming := (timing_of_calls h.atRest htrail).1
    have hfits : ∀ meter : Meter, meter.Lasts →
        middle.timing.meter meter + gained [call] meter ≤ meter.capacity := by
      intro meter hlasts
      have hall := hroom meter hlasts
      rw [hcut, List.append_cons, gained_append, gained_append] at hall
      rw [htiming, Timing.lasting_afterAll _ _ hlasts]
      omega
    -- The setting decides about a probe, here as there.
    have hanswer : ∀ passed answer after, call = .probe passed →
        hardware.Acts (.probe answer) middle after → answer = passed := by
      rintro passed answer after rfl hprobe
      have htimed := timedAt_before_probe hcourse hcut h.atRest htrail
      have hfound := answer_of_probe hsteady hidle.holds hprobe
      rw [htimed.clockTaps] at hfound
      exact hfound.trans (hanswers earlier passed later hcut).symm
    rcases exists_acts hfits hanswer with ⟨after, hacts⟩
    exact ⟨after, Trail.concat_iff.mpr ⟨middle, htrail, hacts⟩⟩

/-- Where one bank has gone through a calibration, another one with room does so too, with the same
outcome. -/
theorem exists_watch_elsewhere {outcome : Except Overflow Verdict × Transcript}
    (hsteady : retention.Steady) (h : start.Idle retention) (h' : start'.Idle retention)
    (hrun : (calibrate params).watch hardware transcript start = .ok outcome final)
    (hroom : ∀ meter : Meter, meter.Lasts →
      start'.timing.meter meter + final.timing.meter meter ≤
        meter.capacity + start.timing.meter meter) :
    ∃ final', (calibrate params).watch hardware transcript start' = .ok outcome final' := by
  rcases exists_course_of_watch hrun with ⟨events, verdict, hpath, hcourse, htrail, rfl⟩
  have hanswers := answeredBy_of_course hcourse h.atRest hsteady h.holds htrail
  have hfits : ∀ meter : Meter, meter.Lasts →
      start'.timing.meter meter + gained (calls events) meter ≤ meter.capacity := by
    intro meter hlasts
    have htotal := start.timing.lasting_afterAll (calls events) hlasts
    rw [← (timing_of_calls h.atRest htrail).1] at htotal
    have hall := hroom meter hlasts
    omega
  rcases exists_trail_of_answers hsteady hcourse hanswers h' hfits (List.append_nil _).symm with
    ⟨final', htrail'⟩
  exact ⟨final', Procedure.watch_of_trail hpath htrail' transcript⟩

end Runs

end Bank

/-! ## Runs compared -/

/-- Accesses that are the same, but for probes that fail in either way. -/
inductive Alike : List Access → List Access → Prop where
  | nil : Alike [] []
  | same (part : List Access) {rest rest' : List Access} (h : Alike rest rest') :
      Alike (part ++ rest) (part ++ rest')
  | failed {part part' rest rest' : List Access} (hpart : Checked testPatterns part false)
      (hpart' : Checked testPatterns part' false) (h : Alike rest rest') :
      Alike (part ++ rest) (part' ++ rest')

namespace Alike

/-- The accesses of the same calls are alike. -/
theorem of_uses {calls : List Call} {parts parts' : List (List Access)}
    (h : List.Forall₂ Bank.Uses calls parts) (h' : List.Forall₂ Bank.Uses calls parts') :
    Alike parts.flatten parts'.flatten := by
  induction h generalizing parts' with
  | nil =>
    cases h'
    exact .nil
  | @cons call part _ _ huses _ ih =>
    cases h' with
    | cons huses' hrest' =>
      have hrest := ih hrest'
      cases call with
      | probe passed =>
        cases passed with
        | true =>
          obtain rfl := huses.eq_of_passed.trans huses'.eq_of_passed.symm
          exact .same part hrest
        | false => exact .failed huses huses' hrest
      | _ =>
        obtain rfl := huses.trans huses'.symm
        exact .same part hrest

/-- A failing probe writes to no control line, so both sides write to the same ones. -/
theorem writes {trace trace' : List Access} (h : Alike trace trace') :
    trace.filter Access.isWrite = trace'.filter Access.isWrite := by
  have hreads : ∀ {part}, Checked testPatterns part false → part.filter Access.isWrite = [] := by
    intro part hpart
    rw [List.filter_eq_nil_iff]
    intro access hmem
    simp [hpart.isWrite_eq_false access hmem]
  induction h with
  | nil => rfl
  | same part _ ih => rw [List.filter_append, List.filter_append, ih]
  | failed hpart hpart' _ ih =>
    rw [List.filter_append, List.filter_append, hreads hpart, hreads hpart', ih]

end Alike

/-- Two runs do the same to their banks: they leave the same taps, advance the other counters by
the same amounts, and write to the same control lines.  Their accesses differ at most where a probe
fails, in how far it gets and in what it reads. -/
structure AlikeRuns (start final start' final' : Bank) : Prop where
  clockTaps : final'.clockTaps = final.clockTaps
  ioTaps : final'.ioTaps = final.ioTaps
  gained : ∀ meter : Meter, meter.Lasts →
    final'.timing.meter meter + start.timing.meter meter =
      final.timing.meter meter + start'.timing.meter meter
  accesses : ∃ trace trace', final.accesses.toList = start.accesses.toList ++ trace ∧
    final'.accesses.toList = start'.accesses.toList ++ trace' ∧
    trace.filter Access.isWrite = trace'.filter Access.isWrite ∧ Alike trace trace'

namespace Bank

variable {retention : Retention} {params : Params} {transcript : Transcript}
  {start final start' final' : Bank}

/-- Runs that make the same calls are alike, if there are any. -/
theorem alikeRuns_of_course {events : List Event} {verdict : Verdict}
    (hcourse : Course params events verdict) (hsteps : params.coarseSteps ≠ 0)
    (hrest : start.timing.AtRest) (hrest' : start'.timing.AtRest)
    (htrail : Trail hardware.Acts start (calls events) final)
    (htrail' : Trail hardware.Acts start' (calls events) final') :
    AlikeRuns start final start' final' := by
  have hvisited := hcourse.visited_pos hsteps
  rcases delays_of_course hcourse hrest htrail hvisited with ⟨hclock, hio⟩
  rcases delays_of_course hcourse hrest' htrail' hvisited with ⟨hclock', hio'⟩
  rcases exists_parts_of_calls hcourse (List.append_nil _).symm hrest htrail with
    ⟨parts, hparts, htrace, _⟩
  rcases exists_parts_of_calls hcourse (List.append_nil _).symm hrest' htrail' with
    ⟨parts', hparts', htrace', _⟩
  have halike := Alike.of_uses hparts hparts'
  refine ⟨UInt8.toNat_inj.mp (hclock'.trans hclock.symm), hio'.trans hio.symm, ?_,
    _, _, accesses_of_trail htrace, accesses_of_trail htrace', halike.writes, halike⟩
  intro meter hlasts
  rw [(timing_of_calls hrest htrail).1, (timing_of_calls hrest' htrail').1,
    Timing.lasting_afterAll _ _ hlasts, Timing.lasting_afterAll _ _ hlasts]
  omega

/-- Two runs of a calibration on the same steady memory have the same outcome and are alike. -/
theorem alikeRuns_of_watch {outcome outcome' : Except Overflow Verdict × Transcript}
    (hsteady : retention.Steady) (hsteps : params.coarseSteps ≠ 0)
    (h : start.Idle retention) (h' : start'.Idle retention)
    (hrun : (calibrate params).watch hardware transcript start = .ok outcome final)
    (hrun' : (calibrate params).watch hardware transcript start' = .ok outcome' final') :
    outcome' = outcome ∧ AlikeRuns start final start' final' := by
  rcases exists_course_of_watch hrun with ⟨events, verdict, hpath, hcourse, htrail, rfl⟩
  rcases exists_course_of_watch hrun' with ⟨events', verdict', hpath', hcourse', htrail', rfl⟩
  have hanswers := answeredBy_of_course hcourse h.atRest hsteady h.holds htrail
  have hanswers' := answeredBy_of_course hcourse' h'.atRest hsteady h'.holds htrail'
  -- The settings give the same answers in both runs, so both take the same path.
  rcases AnsweredBy.path_unique [] hpath hpath' hanswers hanswers' with ⟨rfl, hresult⟩
  cases hresult
  exact ⟨rfl, alikeRuns_of_course hcourse hsteps h.atRest h'.atRest htrail htrail'⟩

end Bank

/-- Let a bank with a steady memory have any past that leaves the control lines to their drivers.
A calibration of at least one setting goes through on it exactly if it does so on a fresh bank with
the same memory, whatever word that one holds, and if the counters have room for what is added to
them there.  Both runs then have the same outcome and are alike, and so is the same calibration
after the first one. -/
theorem calibration_forgets_history {params : Params} {retention : Retention} {initial : UInt32}
    {history : List Step} {bank : Bank}
    (hunscripted : ∀ runs rest, retention ≠ .scripted runs rest)
    (hsteps : params.coarseSteps ≠ 0) (hoperates : ∀ step ∈ history, step.Operates)
    (hreached : Trail Step.Leads { retention, cell := initial } history bank)
    (transcript : Transcript) (cell : UInt32) :
    let run := (calibrate params).watch Bank.hardware transcript
    let fresh : Bank := { retention, cell }
    (∀ outcome, (∃ final, run bank = .ok outcome final) ↔
      ∃ final', run fresh = .ok outcome final' ∧ ∀ meter : Meter, meter.Lasts →
        bank.timing.meter meter + final'.timing.meter meter ≤ meter.capacity) ∧
    (∀ outcome final outcome' final', run bank = .ok outcome final →
      run fresh = .ok outcome' final' → outcome' = outcome ∧ AlikeRuns bank final fresh final') ∧
    (∀ outcome final outcome' again, run bank = .ok outcome final →
      run final = .ok outcome' again → outcome' = outcome ∧ AlikeRuns bank final final again) ∧
    (bank.HasRoomFor params → ∃ verdict seen final, run bank = .ok (.ok verdict, seen) final) := by
  intro run fresh
  have hsteady := Retention.steady_of_unscripted hunscripted
  have hfresh : fresh.Idle retention := Bank.idle_of_fresh retention cell
  have hbank : bank.Idle retention :=
    Bank.idle_of_history hsteady hoperates (Bank.idle_of_fresh retention initial) hreached
  have hempty : ∀ meter, fresh.timing.meter meter = 0 := Bank.meter_of_fresh retention cell
  refine ⟨fun outcome => ⟨?_, ?_⟩, ?_, ?_, ?_⟩
  · rintro ⟨final, hrun⟩
    have hroom : ∀ meter : Meter, meter.Lasts → fresh.timing.meter meter +
        final.timing.meter meter ≤ meter.capacity + bank.timing.meter meter := by
      intro meter _
      have hfits := final.meter_le_capacity meter
      rw [hempty]
      omega
    rcases Bank.exists_watch_elsewhere hsteady hbank hfresh hrun hroom with ⟨final', hrun'⟩
    refine ⟨final', hrun', ?_⟩
    intro meter hlasts
    have hgained := (Bank.alikeRuns_of_watch hsteady hsteps hbank hfresh hrun hrun').2.gained
    have hsum := hgained meter hlasts
    have hfits := final.meter_le_capacity meter
    rw [hempty] at hsum
    omega
  · rintro ⟨final', hrun', hfits⟩
    have hroom : ∀ meter : Meter, meter.Lasts → bank.timing.meter meter +
        final'.timing.meter meter ≤ meter.capacity + fresh.timing.meter meter := by
      intro meter hlasts
      exact (hfits meter hlasts).trans (Nat.le_add_right _ _)
    exact Bank.exists_watch_elsewhere hsteady hfresh hbank hrun' hroom
  · intro outcome final outcome' final' hrun hrun'
    exact Bank.alikeRuns_of_watch hsteady hsteps hbank hfresh hrun hrun'
  · intro outcome final outcome' again hrun hagain
    rcases Bank.exists_course_of_watch hrun with ⟨_, _, _, _, htrail, _⟩
    have hfinal := hbank.of_calls hsteady htrail
    exact Bank.alikeRuns_of_watch hsteady hsteps hbank hfinal hrun hagain
  · intro hroom
    rcases Bank.exists_course_of_room params transcript hbank.atRest hroom with
      ⟨_, verdict, final, _, _, _, hrun⟩
    exact ⟨verdict, _, final, hrun⟩

/-- A past in which every driver has been at work. -/
def shortHistory : List Step :=
  [.setDelay .clock 3, .stepPhase .up, .slip { hr2x90 := true, hr2x := false },
    .writeWord firstPattern, .probe,
    .calibrate { coarseSteps := 2, probes := 3, breakWindow := 2, acceptWindow := 2 } {}]

/-- A calibration after that past, and the same one on a fresh bank. -/
theorem calibration_forgets_shortHistory :
    (∀ runs rest, Retention.eye 3 5 ≠ .scripted runs rest) ∧ Params.standard.coarseSteps ≠ 0 ∧
    (∀ step ∈ shortHistory, step.Operates) ∧
    ∃ bank, Trail Step.Leads { retention := .eye 3 5, cell := secondPattern } shortHistory bank ∧
      bank.upSteps = 1 ∧ bank.nullSteps = 6 ∧
      ∃ outcome final final',
        (calibrate .standard).watch Bank.hardware {} bank = .ok outcome final ∧
        (calibrate .standard).watch Bank.hardware {} { retention := .eye 3 5 } =
          .ok outcome final' ∧
        AlikeRuns bank final { retention := .eye 3 5 } final' := by
  have hunscripted : ∀ runs rest, Retention.eye 3 5 ≠ .scripted runs rest := by
    intro runs rest h
    cases h
  have hsteps : Params.standard.coarseSteps ≠ 0 := by decide
  have hoperates : ∀ step ∈ shortHistory, step.Operates := by
    simp [shortHistory, Step.Operates]
  have hfaultless : ∀ entry ∈ runScript shortHistory
      { retention := .eye 3 5, cell := secondPattern }, entry.1.faulted = false := by
    decide +kernel
  have hreached := trail_of_runScript hfaultless
  have hroom : (bankAfter shortHistory { retention := .eye 3 5, cell := secondPattern }).HasRoomFor
      .standard := by
    constructor <;> decide +kernel
  rcases calibration_forgets_history hunscripted hsteps hoperates hreached {} 0 with
    ⟨hgoes, halike, _, hends⟩
  rcases hends hroom with ⟨verdict, seen, final, hrun⟩
  rcases (hgoes _).mp ⟨final, hrun⟩ with ⟨final', hrun', _⟩
  exact ⟨hunscripted, hsteps, hoperates, _, hreached, by decide +kernel, by decide +kernel, _,
    final, final', hrun, hrun', (halike _ _ _ _ hrun hrun').2⟩

end Phy
end TimingEye
