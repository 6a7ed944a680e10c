import TimingEye.Proofs.Calibration.Calls

/-!
# Surveys of the hardware

A setting has its answers before anybody decides about it.  Led through the settings one after
another, hardware answers in one way only, and a calibration sees as many of these answers as its
limits let it see.

* `Hardware.Surveys`: the answers of hardware that is led through the first settings;
* `Surveys.isPrefix_of_length_le`: the longer of two surveys goes on from the shorter one;
* `SurveyOutcome`: what a calibration comes to by such answers and by its limits;
* `SurveyOutcome.unique`: that nothing else has a part in it.
-/

namespace TimingEye

open Params

/-! ## One row -/

namespace Params

variable {params : Params}

theorem BreaksAt.append {row : List Bool} {i : Nat} (h : params.BreaksAt row i)
    (rest : List Bool) : params.BreaksAt (row ++ rest) i := by
  have hlt := (List.getElem?_eq_some_iff.mp h.1).1
  refine ⟨?_, ?_⟩
  · rw [List.getElem?_append_left hlt]
    exact h.1
  · rw [List.take_append_of_le_length hlt.le]
    exact h.2

/-- A row that has ended does not go on. -/
theorem Measures.eq_nil_of_append {row rest : List Bool} (h : params.Measures row)
    (h' : params.Measures (row ++ rest)) : rest = [] := by
  have hlonger := h'.length_le
  rw [List.length_append] at hlonger
  apply List.length_eq_zero_iff.mp
  by_cases hshort : row.length < params.probes.toNat
  · rcases h.break_of_short hshort with ⟨i, hbreak⟩
    have hlast := h.last_of_break i hbreak
    have hlast' := h'.last_of_break i (hbreak.append rest)
    rw [List.length_append] at hlast'
    omega
  · omega

end Params

section

variable {σ : Type} {hardware : Hardware (StateM σ)} {params : Params} {start : σ}

theorem performs_unique {call : Call} {before after other : σ}
    (h : hardware.Performs call before after) (h' : hardware.Performs call before other) :
    after = other := by
  cases call <;> exact congrArg Prod.snd (h.symm.trans h')

theorem answer_unique {passed answer : Bool} {before after other : σ}
    (h : hardware.Performs (.probe passed) before after)
    (h' : hardware.Performs (.probe answer) before other) : passed = answer :=
  congrArg Prod.fst (h.symm.trans h')

/-- From one state on, the probes of a setting are answered in one way only. -/
theorem row_unique {earlier row row' : List Bool} {state after after' : σ}
    (h : params.Measures (earlier ++ row)) (h' : params.Measures (earlier ++ row'))
    (htrail : Trail hardware.Performs state (probeCalls row) after)
    (htrail' : Trail hardware.Performs state (probeCalls row') after') : row = row' := by
  induction row generalizing earlier row' state with
  | nil =>
    rw [List.append_nil] at h
    exact (h.eq_nil_of_append h').symm
  | cons passed rest ih =>
    cases row' with
    | nil =>
      rw [List.append_nil] at h'
      exact h'.eq_nil_of_append h
    | cons answer rest' =>
      rcases Trail.cons_iff.mp htrail with ⟨probed, hprobe, hnull⟩
      rcases Trail.cons_iff.mp hnull with ⟨stepped, hstep, hrest⟩
      rcases Trail.cons_iff.mp htrail' with ⟨probed', hprobe', hnull'⟩
      rcases Trail.cons_iff.mp hnull' with ⟨stepped', hstep', hrest'⟩
      obtain rfl := answer_unique hprobe hprobe'
      obtain rfl := performs_unique hprobe hprobe'
      obtain rfl := performs_unique hstep hstep'
      rw [List.append_cons] at h h'
      rw [ih h h' hrest hrest']

/-! ## Surveys -/

theorem rejectedCalls_isPrefix {rows rows' : List (List Bool)} (h : rows <+: rows') :
    rejectedCalls rows <+: rejectedCalls rows' := by
  rcases h with ⟨rest, rfl⟩
  rw [rejectedCalls, rejectedCalls, List.zipIdx_append, List.flatMap_append]
  exact List.prefix_append _ _

/-- Led through the first settings, one after another, the hardware gives these answers. -/
structure Hardware.Surveys (hardware : Hardware (StateM σ)) (params : Params) (start : σ)
    (rows : List (List Bool)) : Prop where
  measures : ∀ row ∈ rows, params.Measures row
  trail : ∃ after, Trail hardware.Performs start (rejectedCalls rows) after

namespace Hardware.Surveys

variable {rows rows' : List (List Bool)} {row next : List Bool}

theorem of_isPrefix (h : hardware.Surveys params start rows') (hleads : rows <+: rows') :
    hardware.Surveys params start rows := by
  rcases h.trail with ⟨after, htrail⟩
  rcases rejectedCalls_isPrefix hleads with ⟨later, hlater⟩
  rw [← hlater] at htrail
  rcases Trail.append_iff.mp htrail with ⟨middle, hmiddle, _⟩
  exact ⟨fun row hmem => h.measures row (hleads.subset hmem), middle, hmiddle⟩

/-- The settings so far decide about the answers at the next one. -/
theorem next_unique (h : hardware.Surveys params start (rows ++ [row]))
    (h' : hardware.Surveys params start (rows ++ [next])) : row = next := by
  rcases h.trail with ⟨_, htrail⟩
  rcases h'.trail with ⟨_, htrail'⟩
  rw [rejectedCalls_concat, rejectedSettingCalls, settingCalls] at htrail htrail'
  rcases Trail.append_iff.mp htrail with ⟨middle, hmiddle, hsetting⟩
  rcases Trail.append_iff.mp htrail' with ⟨middle', hmiddle', hsetting'⟩
  obtain rfl := hmiddle.unique hmiddle' fun _ _ _ _ => performs_unique
  rcases Trail.cons_iff.mp hsetting with ⟨clocked, hclock, hsetting⟩
  rcases Trail.cons_iff.mp hsetting' with ⟨clocked', hclock', hsetting'⟩
  obtain rfl := performs_unique hclock hclock'
  rcases Trail.cons_iff.mp hsetting with ⟨delayed, hio, hprobes⟩
  rcases Trail.cons_iff.mp hsetting' with ⟨delayed', hio', hprobes'⟩
  obtain rfl := performs_unique hio hio'
  rcases Trail.append_iff.mp hprobes with ⟨_, hrow, _⟩
  rcases Trail.append_iff.mp hprobes' with ⟨_, hnext, _⟩
  have hmeasures : params.Measures ([] ++ row) := h.measures row (by simp)
  have hmeasures' : params.Measures ([] ++ next) := h'.measures next (by simp)
  exact row_unique hmeasures hmeasures' hrow hnext

/-- Of two surveys, the longer one goes on from the shorter one. -/
theorem isPrefix_of_length_le (h : hardware.Surveys params start rows)
    (h' : hardware.Surveys params start rows') (hle : rows.length ≤ rows'.length) :
    rows <+: rows' := by
  induction rows using List.reverseRecOn with
  | nil => exact List.nil_prefix
  | append_singleton rows row ih =>
    rw [List.length_append, List.length_singleton] at hle
    rcases ih (h.of_isPrefix (List.prefix_append _ _)) (by omega) with ⟨rest, rfl⟩
    cases rest with
    | nil =>
      rw [List.append_nil] at hle
      omega
    | cons next rest =>
      have hnext : rows ++ [next] <+: rows ++ next :: rest :=
        ⟨rest, (List.append_cons rows next rest).symm⟩
      obtain rfl := h.next_unique (h'.of_isPrefix hnext)
      exact hnext

/-- A survey that has been cut before the slip into the next setting can be completed. -/
theorem of_setting {later : List Call} {final : σ} (hmeasures : ∀ earlier ∈ rows ++ [row],
      params.Measures earlier)
    (htrail : Trail hardware.Performs start
      (rejectedCalls rows ++ settingCalls rows.length row ++ later) final) :
    hardware.Surveys params start (rows ++ [row]) := by
  rcases Trail.append_iff.mp htrail with ⟨settled, hsettled, _⟩
  have hslip : hardware.Performs (.slip (SubPhase.ofCoarse (UInt8.ofNat (rows.length + 1)))) settled
      ((hardware.slip (SubPhase.ofCoarse (UInt8.ofNat (rows.length + 1)))).run settled).2 := rfl
  have hall := hsettled.append (.single hslip)
  rw [List.append_assoc, ← rejectedSettingCalls, ← rejectedCalls_concat] at hall
  exact ⟨hmeasures, _, hall⟩

end Hardware.Surveys

/-! ## Outcomes -/

/-- The events of a calibration that accepts a setting after some others. -/
def acceptedEvents (params : Params) (rejected : List (List Bool)) (row : List Bool) :
    List Event :=
  rejectedEvents params rejected
    ++ settingEvents params (UInt8.ofNat rejected.length) row
    ++ List.replicate (params.window row / 2) (.act (.stepPhase .up))
    ++ [.act (calibrationRecord .info ("HyperRAM calibrated: "
      ++ (operatingPoint rejected.length (params.window row)).text))]

/-- The events of a calibration that accepts none. -/
def exhaustedEvents (params : Params) (rejected : List (List Bool)) (sweep : Exhausted) :
    List Event :=
  rejectedEvents params rejected
    ++ [.act (calibrationRecord .error ("HyperRAM calibration failed: " ++ sweep.text))]

/-- What a calibration comes to that tries so many settings at most, and accepts the first whose
window has so many passes. -/
inductive SurveyOutcome (hardware : Hardware (StateM σ)) (params : Params) (start : σ)
    (settings passes : Nat) : List Event → Verdict → Prop where
  | accepted (rejected : List (List Bool)) (row : List Bool)
      (hsurvey : hardware.Surveys params start (rejected ++ [row]))
      (hshort : ∀ earlier ∈ rejected, params.window earlier < passes)
      (hlong : passes ≤ params.window row) (hlength : rejected.length < settings) :
      SurveyOutcome hardware params start settings passes (acceptedEvents params rejected row)
        (.calibrated (operatingPoint rejected.length (params.window row)))
  | exhausted (rejected : List (List Bool)) (sweep : Exhausted)
      (hsurvey : hardware.Surveys params start rejected)
      (hshort : ∀ earlier ∈ rejected, params.window earlier < passes)
      (hlength : rejected.length = settings) (hsteps : sweep.coarseSteps.toNat = settings)
      (hlongest : IsGreatest {n | HasPassRunIn rejected n} sweep.longestRun.toNat) :
      SurveyOutcome hardware params start settings passes
        (exhaustedEvents params rejected sweep) (.exhausted sweep)

/-- Whatever the limits of a calibration, it comes to the outcome that they let it come to. -/
theorem surveyOutcome_of_course {coarseSteps : UInt8} {acceptWindow : UInt32}
    {events : List Event} {verdict : Verdict} {final : σ}
    (h : Course { params with coarseSteps, acceptWindow } events verdict)
    (htrail : Trail hardware.Performs start (calls events) final) :
    SurveyOutcome hardware params start coarseSteps.toNat acceptWindow.toNat events verdict := by
  -- Neither limit has a part in how the probing of a setting ends, nor in its window.
  have hmeasures : ∀ {row}, Measures { params with coarseSteps, acceptWindow } row →
      params.Measures row := fun h => ⟨h.length_le, h.last_of_break, h.break_of_short⟩
  cases h with
  | accepted rejected row hrejected haccepted hlength =>
    have hall : ∀ earlier ∈ rejected ++ [row], params.Measures earlier := by
      intro earlier hmem
      rcases List.mem_append.mp hmem with hmem | hmem
      · exact hmeasures (hrejected earlier hmem).measures
      · exact List.mem_singleton.mp hmem ▸ hmeasures haccepted.measures
    have hoctet := coarseSteps.toNat_lt
    have hshort : rejected.length < coarseSteps.toNat := hlength
    rw [calls_append, calls_append, calls_append, calls_rejectedEvents (by omega),
      calls_settingEvents (by omega), List.append_assoc] at htrail
    exact .accepted rejected row (.of_setting hall htrail)
      (fun earlier hmem => (hrejected earlier hmem).window_lt) haccepted.le_window hlength
  | exhausted rejected sweep hrejected hlength hsteps hlongest =>
    have hoctet := coarseSteps.toNat_lt
    have hsame : rejected.length = coarseSteps.toNat := hlength
    rw [calls_append, calls_rejectedEvents (by omega)] at htrail
    rcases Trail.append_iff.mp htrail with ⟨middle, hmiddle, _⟩
    exact .exhausted rejected sweep
      ⟨fun earlier hmem => hmeasures (hrejected earlier hmem).measures, middle, hmiddle⟩
      (fun earlier hmem => (hrejected earlier hmem).window_lt) hlength
      (congrArg UInt8.toNat hsteps) hlongest

/-- No survey gets past a setting with a long window if all its windows are shorter. -/
theorem Hardware.Surveys.length_le_of_short {rows rejected : List (List Bool)} {row : List Bool}
    (h : hardware.Surveys params start (rows ++ [row]))
    (h' : hardware.Surveys params start rejected)
    (hshort : ∀ earlier ∈ rejected, params.window earlier < params.window row) :
    rejected.length ≤ rows.length := by
  by_contra hlonger
  have hle : (rows ++ [row]).length ≤ rejected.length := by
    rw [List.length_append, List.length_singleton]
    exact Nat.lt_of_not_le hlonger
  have hleads := h.isPrefix_of_length_le h' hle
  exact lt_irrefl _ (hshort row (hleads.subset (by simp)))

namespace SurveyOutcome

variable {settings passes : Nat} {events events' : List Event} {verdict verdict' : Verdict}

/-- The hardware and the limits leave a calibration one outcome. -/
theorem unique (h : SurveyOutcome hardware params start settings passes events verdict)
    (h' : SurveyOutcome hardware params start settings passes events' verdict') :
    events = events' ∧ verdict = verdict' := by
  cases h with
  | accepted rejected row hsurvey hshort hlong hlength =>
    cases h' with
    | accepted rejected' row' hsurvey' hshort' hlong' hlength' =>
      have hle := hsurvey'.length_le_of_short (hsurvey.of_isPrefix (List.prefix_append _ _))
        fun earlier hmem => (hshort earlier hmem).trans_le hlong'
      have hge := hsurvey.length_le_of_short (hsurvey'.of_isPrefix (List.prefix_append _ _))
        fun earlier hmem => (hshort' earlier hmem).trans_le hlong
      have hlengths : (rejected ++ [row]).length = (rejected' ++ [row']).length := by
        simp only [List.length_append, List.length_singleton]
        omega
      have hrows := (hsurvey.isPrefix_of_length_le hsurvey' hlengths.le).eq_of_length hlengths
      rcases List.append_inj' hrows rfl with ⟨rfl, hrow⟩
      cases hrow
      exact ⟨rfl, rfl⟩
    | exhausted rejected' sweep hsurvey' hshort' hlength' _ _ =>
      have hge := hsurvey.length_le_of_short hsurvey' fun earlier hmem =>
        (hshort' earlier hmem).trans_le hlong
      omega
  | exhausted rejected sweep hsurvey hshort hlength hsteps hlongest =>
    cases h' with
    | accepted rejected' row' hsurvey' hshort' hlong' hlength' =>
      have hge := hsurvey'.length_le_of_short hsurvey fun earlier hmem =>
        (hshort earlier hmem).trans_le hlong'
      omega
    | exhausted rejected' sweep' hsurvey' hshort' hlength' hsteps' hlongest' =>
      have hlengths : rejected.length = rejected'.length := hlength.trans hlength'.symm
      obtain rfl := (hsurvey.isPrefix_of_length_le hsurvey' hlengths.le).eq_of_length hlengths
      have hsweep : sweep = sweep' := by
        rcases sweep with ⟨steps, longest⟩
        rcases sweep' with ⟨steps', longest'⟩
        obtain rfl := UInt8.toNat_inj.mp (hsteps.trans hsteps'.symm)
        obtain rfl := UInt32.toNat_inj.mp (hlongest.unique hlongest')
        rfl
      rw [hsweep]
      exact ⟨rfl, rfl⟩

end SurveyOutcome

end

end TimingEye
