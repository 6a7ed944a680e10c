import TimingEye.Proofs.Calibration.CallOrder
import TimingEye.Proofs.Calibration.Reporting
import TimingEye.Proofs.Calibration.Survey

/-!
# Limits cut the search

Two calibrations of the same hardware that differ in how far they search, or in how long a window
they ask for, do the same until one of them comes to its end.

* `Transcript.text`, `exists_text_foldl_seen`: progress texts only ever become longer;
* `SurveyOutcome.widened`, `SurveyOutcome.tightened`: outcomes that another limit does not change;
* `limits_only_cut`: two calibrations with different limits.
-/

namespace TimingEye

/-! ## Texts that go on -/

namespace Sink

theorem exists_text_put (sink : Sink) (piece : String) :
    ∃ more, (sink.put piece).1.text = sink.text ++ more := by
  unfold put
  split
  · exact ⟨piece, rfl⟩
  · split
    · exact ⟨piece, rfl⟩
    · exact ⟨_, rfl⟩

theorem exists_text_write (sink : Sink) (pieces : List String) :
    ∃ more, (sink.write pieces).text = sink.text ++ more := by
  induction pieces generalizing sink with
  | nil => exact ⟨"", String.append_empty.symm⟩
  | cons piece rest ih =>
    rcases sink.exists_text_put piece with ⟨more, hput⟩
    rw [write_cons]
    split
    · rcases ih (sink.put piece).1 with ⟨further, hrest⟩
      exact ⟨more ++ further, by rw [hrest, hput, String.append_assoc]⟩
    · exact ⟨more, hput⟩

end Sink

namespace Transcript

/-- The progress text so far; there is none if nobody reads it. -/
def text (transcript : Transcript) : String :=
  (transcript.progress.map Sink.text).getD ""

theorem exists_text_seen (transcript : Transcript) (event : Event) :
    ∃ more, (transcript.seen event).text = transcript.text ++ more := by
  have hprogress := progress_seen transcript event
  rw [text, hprogress, text]
  cases transcript.progress with
  | none => exact ⟨"", rfl⟩
  | some sink =>
    cases hreport : event.report? with
    | none => exact ⟨"", by simp [reports, hreport]⟩
    | some pieces => simpa [reports, hreport] using sink.exists_text_write pieces

/-- Whatever else is seen, the progress text goes on from where it is. -/
theorem exists_text_foldl_seen (events : List Event) (transcript : Transcript) :
    ∃ more, (events.foldl seen transcript).text = transcript.text ++ more := by
  induction events generalizing transcript with
  | nil => exact ⟨"", String.append_empty.symm⟩
  | cons event rest ih =>
    rcases exists_text_seen transcript event with ⟨more, hevent⟩
    rcases ih (transcript.seen event) with ⟨further, hrest⟩
    exact ⟨more ++ further, by rw [List.foldl_cons, hrest, hevent, String.append_assoc]⟩

/-- A record of the log is neither a call nor a report. -/
theorem seen_record (transcript : Transcript) (record : Record) :
    (transcript.seen (.act (.log record))).calls = transcript.calls ∧
      (transcript.seen (.act (.log record))).text = transcript.text := by
  by_cases hadmits : transcript.threshold.admits record.severity = true <;>
    simp [seen, logged, text, hadmits]

end Transcript

/-! ## Outcomes with other limits -/

theorem rejectedEvents_isPrefix (params : Params) {rows rows' : List (List Bool)}
    (h : rows <+: rows') : rejectedEvents params rows <+: rejectedEvents params rows' := by
  rcases h with ⟨rest, rfl⟩
  rw [rejectedEvents, rejectedEvents, List.zipIdx_append, List.flatMap_append]
  exact List.prefix_append _ _

theorem HasPassRunIn.of_isPrefix {rows rows' : List (List Bool)} {n : Nat}
    (h : HasPassRunIn rows n) (hleads : rows <+: rows') : HasPassRunIn rows' n := by
  rcases h with rfl | ⟨row, hmem, hrun⟩
  · exact .inl rfl
  · exact .inr ⟨row, hleads.subset hmem, hrun⟩

section

variable {σ : Type} {hardware : Hardware (StateM σ)} {params : Params} {start : σ}

namespace SurveyOutcome

variable {settings settings' passes passes' : Nat} {events events' : List Event}
  {point point' : Calibrated} {sweep : Exhausted} {verdict : Verdict}

/-- Where a setting has been accepted, more of them are not tried. -/
theorem widened (hle : settings ≤ settings')
    (h : SurveyOutcome hardware params start settings passes events (.calibrated point)) :
    SurveyOutcome hardware params start settings' passes events (.calibrated point) := by
  cases h with
  | accepted rejected row hsurvey hshort hlong hlength =>
    exact .accepted rejected row hsurvey hshort hlong (hlength.trans_le hle)

/-- Where no window was long enough, none is for a higher demand. -/
theorem tightened (hle : passes ≤ passes')
    (h : SurveyOutcome hardware params start settings passes events (.exhausted sweep)) :
    SurveyOutcome hardware params start settings passes' events (.exhausted sweep) := by
  cases h with
  | exhausted rejected _ hsurvey hshort hlength hsteps hlongest =>
    exact .exhausted rejected sweep hsurvey
      (fun earlier hmem => (hshort earlier hmem).trans_le hle) hlength hsteps hlongest

/-- A wider sweep goes through all of an exhausted one before anything else. -/
theorem exists_rejected_of_wider (hle : settings ≤ settings')
    (h : SurveyOutcome hardware params start settings passes events (.exhausted sweep))
    (h' : SurveyOutcome hardware params start settings' passes events' verdict) :
    ∃ rejected, events = exhaustedEvents params rejected sweep ∧
      rejectedEvents params rejected <+: events' ∧
      ∀ other, verdict = .exhausted other → sweep.longestRun ≤ other.longestRun := by
  cases h with
  | exhausted rejected _ hsurvey hshort hlength _ hlongest =>
    refine ⟨rejected, rfl, ?_⟩
    cases h' with
    | accepted rejected' row' hsurvey' hshort' hlong' _ =>
      -- The accepted setting lies behind all that were rejected.
      have hge := hsurvey'.length_le_of_short hsurvey fun earlier hmem =>
        (hshort earlier hmem).trans_le hlong'
      have hleads := hsurvey.isPrefix_of_length_le
        (hsurvey'.of_isPrefix (List.prefix_append _ _)) hge
      refine ⟨?_, nofun⟩
      rw [acceptedEvents, List.append_assoc, List.append_assoc]
      exact (rejectedEvents_isPrefix params hleads).trans (List.prefix_append _ _)
    | exhausted rejected' other hsurvey' _ hlength' _ hlongest' =>
      have hleads := hsurvey.isPrefix_of_length_le hsurvey' (by omega)
      refine ⟨(rejectedEvents_isPrefix params hleads).trans (List.prefix_append _ _), ?_⟩
      intro _ hother
      cases hother
      have hgrown := hlongest'.2 (hlongest.1.of_isPrefix hleads)
      exact UInt32.le_iff_toNat_le.mpr hgrown

/-- Whatever accepts a setting by a higher demand, the lower one has accepted a setting by then. -/
theorem exists_accepted_of_looser (hle : passes ≤ passes')
    (h : SurveyOutcome hardware params start settings passes events verdict)
    (h' : SurveyOutcome hardware params start settings passes' events' (.calibrated point')) :
    ∃ rejected row rejected' row', rejected.length ≤ rejected'.length ∧
      rejected'.length < settings ∧ params.Measures row ∧
      rejected ++ [row] <+: rejected' ++ [row'] ∧
      events = acceptedEvents params rejected row ∧
      verdict = .calibrated (operatingPoint rejected.length (params.window row)) ∧
      events' = acceptedEvents params rejected' row' ∧
      point' = operatingPoint rejected'.length (params.window row') := by
  cases h' with
  | accepted rejected' row' hsurvey' _ hlong' hlength' =>
    cases h with
    | accepted rejected row hsurvey hshort _ _ =>
      have hge := hsurvey'.length_le_of_short (hsurvey.of_isPrefix (List.prefix_append _ _))
        fun earlier hmem => (hshort earlier hmem).trans_le (hle.trans hlong')
      have hlengths : (rejected ++ [row]).length ≤ (rejected' ++ [row']).length := by
        simpa only [List.length_append, List.length_singleton] using Nat.succ_le_succ hge
      exact ⟨rejected, row, rejected', row', hge, hlength', hsurvey.measures row (by simp),
        hsurvey.isPrefix_of_length_le hsurvey' hlengths, rfl, rfl, rfl, rfl⟩
    | exhausted rejected _ hsurvey hshort hlength _ _ =>
      have hge := hsurvey'.length_le_of_short hsurvey fun earlier hmem =>
        (hshort earlier hmem).trans_le (hle.trans hlong')
      omega

end SurveyOutcome

/-! ## Calls before the middle of a window is sought -/

theorem calls_acceptedEvents {rejected : List (List Bool)} {row : List Bool}
    (h : rejected.length < 256) : calls (acceptedEvents params rejected row) =
      rejectedCalls rejected ++ settingCalls rejected.length row ++
        List.replicate (params.window row / 2) (.stepPhase .up) := by
  have hups : calls (List.replicate (params.window row / 2) (.act (.stepPhase .up))) =
      List.replicate (params.window row / 2) (.stepPhase .up) :=
    List.filterMap_replicate_of_some rfl
  have hrecord : ∀ severity message, calls [.act (calibrationRecord severity message)] = [] :=
    fun _ _ => rfl
  rw [acceptedEvents, calls_append, calls_append, calls_append, calls_rejectedEvents h.le,
    calls_settingEvents h, hups, hrecord, List.append_nil]

/-- The calls up to a setting are among those up to a later one, or up to the same one. -/
theorem settingCalls_isPrefix {rejected rejected' : List (List Bool)} {row row' : List Bool}
    (h : rejected ++ [row] <+: rejected' ++ [row']) :
    rejectedCalls rejected ++ settingCalls rejected.length row <+:
      rejectedCalls rejected' ++ settingCalls rejected'.length row' := by
  rcases List.prefix_concat_iff.mp h with heq | hearlier
  · rcases List.append_inj' heq rfl with ⟨rfl, hrow⟩
    cases hrow
    exact List.prefix_rfl
  · have hslip : rejectedCalls rejected ++ settingCalls rejected.length row <+:
        rejectedCalls (rejected ++ [row]) := by
      rw [rejectedCalls_concat, rejectedSettingCalls, ← List.append_assoc]
      exact List.prefix_append _ _
    exact hslip.trans ((rejectedCalls_isPrefix hearlier).trans (List.prefix_append _ _))

/-- By a lower demand, a setting is accepted no later, and what leads there is part of what leads to
the setting that the higher demand accepts. -/
theorem SurveyOutcome.exists_calls_of_looser {settings passes passes' : Nat}
    {events events' : List Event} {verdict : Verdict} {point' : Calibrated}
    (hoctet : settings < 256) (hle : passes ≤ passes')
    (h : SurveyOutcome hardware params start settings passes events verdict)
    (h' : SurveyOutcome hardware params start settings passes' events' (.calibrated point')) :
    ∃ point before, verdict = .calibrated point ∧ point.coarse ≤ point'.coarse ∧
      calls events =
        before ++ List.replicate point.centeringSteps.toNat (.stepPhase .up) ∧
      Call.stepPhase .up ∉ before ∧ before <+: calls events' := by
  rcases h.exists_accepted_of_looser hle h' with
    ⟨rejected, row, rejected', row', hearlier, hlast, hmeasures, hleads, rfl, rfl, rfl, rfl⟩
  refine ⟨_, rejectedCalls rejected ++ settingCalls rejected.length row, rfl, ?_, ?_, ?_, ?_⟩
  case refine_1 =>
    rw [UInt8.le_iff_toNat_le,
      toNat_operatingPoint_coarse (hearlier.trans_lt (hlast.trans hoctet)),
      toNat_operatingPoint_coarse (hlast.trans hoctet)]
    exact hearlier
  case refine_2 =>
    rw [calls_acceptedEvents (by omega),
      toNat_operatingPoint_centeringSteps _ hmeasures.window_lt]
  case refine_3 =>
    rw [List.mem_append, not_or]
    exact ⟨up_not_mem_rejectedCalls rejected, up_not_mem_settingCalls rejected.length row⟩
  case refine_4 =>
    rw [calls_acceptedEvents (by omega)]
    exact (settingCalls_isPrefix hleads).trans (List.prefix_append _ _)

/-! ## Two calibrations -/

variable (hardware params start) (progress : Option Sink) (threshold : Threshold)

/-- A calibration, with the limits it has, comes to the outcome that they leave it. -/
theorem exists_surveyOutcome (coarseSteps : UInt8) (acceptWindow : UInt32) :
    ∃ events verdict final,
      SurveyOutcome hardware params start coarseSteps.toNat acceptWindow.toNat events verdict ∧
      Trail hardware.Performs start (calls events) final ∧
      calibrationRun hardware { params with coarseSteps, acceptWindow } progress threshold start =
        ((.ok verdict, events.foldl Transcript.seen { progress, threshold }), final) := by
  rcases exists_course_watch hardware { params with coarseSteps, acceptWindow }
    { progress, threshold } start with ⟨events, verdict, final, hcourse, htrail, hrun⟩
  exact ⟨events, verdict, final, surveyOutcome_of_course hcourse htrail, htrail, hrun⟩

/-- The limits of a calibration only cut its search.

If more settings may be tried, a calibration that has accepted one stays as it is, calls, text,
verdict and all; one that was exhausted goes on from the calls and the text it had come to, and the
longest run it sees does not become shorter.

If a longer window is asked for, a calibration that was exhausted stays as it is; and where one
still accepts a setting, the original one has accepted a setting no later, by calls that lead into
those of the other. -/
theorem limits_only_cut :
    (∀ coarseSteps, params.coarseSteps ≤ coarseSteps →
      let run := calibrationRun hardware params progress threshold start
      let wider := calibrationRun hardware { params with coarseSteps } progress threshold start
      (∀ point, run.1.1 = .ok (.calibrated point) → wider = run) ∧
      (∀ sweep, run.1.1 = .ok (.exhausted sweep) →
        run.1.2.calls.toList <+: wider.1.2.calls.toList ∧
        (∃ more, wider.1.2.text = run.1.2.text ++ more) ∧
        ∀ other, wider.1.1 = .ok (.exhausted other) → sweep.longestRun ≤ other.longestRun)) ∧
    (∀ acceptWindow, params.acceptWindow ≤ acceptWindow →
      let run := calibrationRun hardware params progress threshold start
      let stricter := calibrationRun hardware { params with acceptWindow } progress threshold start
      (∀ point', stricter.1.1 = .ok (.calibrated point') →
        ∃ point before, run.1.1 = .ok (.calibrated point) ∧ point.coarse ≤ point'.coarse ∧
          run.1.2.calls.toList =
            before ++ List.replicate point.centeringSteps.toNat (.stepPhase .up) ∧
          Call.stepPhase .up ∉ before ∧ before <+: stricter.1.2.calls.toList) ∧
      (∀ sweep, run.1.1 = .ok (.exhausted sweep) → stricter = run)) := by
  rcases exists_surveyOutcome hardware params start progress threshold params.coarseSteps
    params.acceptWindow with ⟨events, verdict, final, houtcome, htrail, hrun⟩
  change calibrationRun hardware params progress threshold start = _ at hrun
  -- Where both calibrations have one outcome, they are the same in every respect.
  have hsame : ∀ {settings passes : Nat} {events' : List Event} {verdict' : Verdict} {final' : σ},
      SurveyOutcome hardware params start settings passes events verdict →
      SurveyOutcome hardware params start settings passes events' verdict' →
      Trail hardware.Performs start (calls events') final' →
      (((.ok verdict', events'.foldl Transcript.seen { progress, threshold }), final') :
        (Except Overflow Verdict × Transcript) × σ) =
        ((.ok verdict, events.foldl Transcript.seen { progress, threshold }), final) := by
    intro settings passes events' verdict' final' h h' htrail'
    rcases h.unique h' with ⟨rfl, rfl⟩
    obtain rfl := htrail.unique htrail' fun _ _ _ _ => performs_unique
    rfl
  constructor
  · intro coarseSteps hle run wider
    rcases exists_surveyOutcome hardware params start progress threshold coarseSteps
      params.acceptWindow with ⟨events', verdict', final', houtcome', htrail', hrun'⟩
    have hle := UInt8.le_iff_toNat_le.mp hle
    change wider = _ at hrun'
    change run = _ at hrun
    rw [hrun, hrun']
    constructor
    · intro point hpoint
      cases hpoint
      exact hsame (houtcome.widened hle) houtcome' htrail'
    · intro sweep hsweep
      cases hsweep
      rcases houtcome.exists_rejected_of_wider hle houtcome' with
        ⟨rejected, rfl, ⟨more, rfl⟩, hlongest⟩
      simp only [exhaustedEvents, List.foldl_append, calibrationRecord, List.foldl_cons,
        List.foldl_nil, Transcript.seen_record]
      refine ⟨?_, Transcript.exists_text_foldl_seen more _, ?_⟩
      · rw [Transcript.calls_foldl_seen more]
        exact List.prefix_append _ _
      · intro other hother
        exact hlongest other (by injection hother)
  · intro acceptWindow hle run stricter
    rcases exists_surveyOutcome hardware params start progress threshold params.coarseSteps
      acceptWindow with ⟨events', verdict', final', houtcome', htrail', hrun'⟩
    have hle := UInt32.le_iff_toNat_le.mp hle
    change stricter = _ at hrun'
    change run = _ at hrun
    rw [hrun, hrun']
    constructor
    · intro point' hpoint'
      cases hpoint'
      have hcalls := Transcript.calls_foldl_seen events { progress, threshold }
      have hcalls' := Transcript.calls_foldl_seen events' { progress, threshold }
      rcases houtcome.exists_calls_of_looser params.coarseSteps.toNat_lt hle houtcome' with
        ⟨point, before, rfl, hcoarse, hcut, hnone, hleads⟩
      refine ⟨point, before, rfl, hcoarse, hcalls.trans hcut, hnone, ?_⟩
      rw [hcalls']
      exact hleads
    · intro sweep hsweep
      cases hsweep
      exact hsame (houtcome.tightened hle) houtcome' htrail'

end

end TimingEye
