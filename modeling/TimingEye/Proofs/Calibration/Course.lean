import TimingEye.Proofs.Calibration.Answers
import TimingEye.Proofs.Calibration.Path

/-!
# The course of a calibration

Everything that can happen in a calibration is told by the answers at the settings it visits.  A
`Course` is the list of all events of a calibration together with its verdict, laid out setting by
setting; `Course.of_path` says that a calibration takes no other course, whatever the answers.

* `probeEvents`, `settingEvents`, `rejectedEvents`: the events of probes and of settings;
* `operatingPoint`: what is reported about an accepted setting;
* `Course`: the events and the verdict of a whole calibration.
-/

namespace TimingEye

open Procedure

/-! ## Events by setting -/

/-- The events of the probes of a setting; every second one leaves its mark. -/
def probeEvents : (marked : Bool) → List Bool → List Event
  | _, [] => []
  | marked, passed :: rest =>
    .probe passed :: .act (.stepPhase .null) ::
      ((if marked then [.act (.report [probeMark passed])] else []) ++ probeEvents (!marked) rest)

/-- The events of one setting. -/
def settingEvents (params : Params) (coarse : UInt8) (row : List Bool) : List Event :=
  [.act (.setDelay .clock (clockTaps coarse)),
    .act (.setDelay .io ioTaps),
    .act (.report
      ([decimal (clockTaps coarse).toNat, ","] ++ (SubPhase.ofCoarse coarse).pieces ++ [" |"]))]
  ++ probeEvents false row
  ++ [.act (.report ["| ", decimal (params.window row), "    \n"]),
    .act (calibrationRecord .debug
      (measuredMessage coarse (UInt32.ofNat (params.window row))))]

/-- The slip that leads to a setting. -/
def slipInto (coarse : Nat) : Action :=
  .slip (SubPhase.ofCoarse (UInt8.ofNat coarse))

/-- The events of a rejected setting and of the way to the next one. -/
def rejectedSettingEvents (params : Params) (coarse : Nat) (row : List Bool) : List Event :=
  settingEvents params (UInt8.ofNat coarse) row ++ [.act (slipInto (coarse + 1))]

/-- The events of the settings that were rejected, from the first setting on. -/
def rejectedEvents (params : Params) (rows : List (List Bool)) : List Event :=
  rows.zipIdx.flatMap fun (row, coarse) => rejectedSettingEvents params coarse row

theorem rejectedEvents_concat (params : Params) (rows : List (List Bool)) (row : List Bool) :
    rejectedEvents params (rows ++ [row]) =
      rejectedEvents params rows ++ rejectedSettingEvents params rows.length row := by
  simp [rejectedEvents, List.zipIdx_append]

/-- The operating point at a setting that was accepted for its window. -/
def operatingPoint (coarse window : Nat) : Calibrated where
  coarse := UInt8.ofNat coarse
  clkDelay := clockTaps (UInt8.ofNat coarse)
  subPhase := SubPhase.ofCoarse (UInt8.ofNat coarse)
  window := UInt32.ofNat window
  centeringSteps := UInt32.ofNat (window / 2)

theorem toNat_operatingPoint_coarse {coarse : Nat} (h : coarse < 256) (window : Nat) :
    (operatingPoint coarse window).coarse.toNat = coarse :=
  UInt8.toNat_ofNat_of_lt' h

theorem toNat_operatingPoint_window {window : Nat} (coarse : Nat) (h : window < 4294967296) :
    (operatingPoint coarse window).window.toNat = window :=
  UInt32.toNat_ofNat_of_lt' h

theorem toNat_operatingPoint_centeringSteps {window : Nat} (coarse : Nat)
    (h : window < 4294967296) :
    (operatingPoint coarse window).centeringSteps.toNat = window / 2 :=
  UInt32.toNat_ofNat_of_lt' ((Nat.div_le_self window 2).trans_lt h)

/-! ## The course of a whole calibration -/

/-- The row of a setting that is not good enough. -/
structure Params.Rejects (params : Params) (row : List Bool) : Prop where
  measures : params.Measures row
  window_lt : params.window row < params.acceptWindow.toNat

/-- The row of a setting that is good enough. -/
structure Params.Accepts (params : Params) (row : List Bool) : Prop where
  measures : params.Measures row
  le_window : params.acceptWindow.toNat ≤ params.window row

/-- The window of a measured row fits its word. -/
theorem Params.Measures.window_lt {params : Params} {row : List Bool} (h : params.Measures row) :
    params.window row < 4294967296 :=
  calc
    params.window row ≤ row.length := window_le_length row
    _ ≤ params.probes.toNat := h.length_le
    _ < 4294967296 := params.probes.toNat_lt

theorem Params.Accepts.window_lt {params : Params} {row : List Bool} (h : params.Accepts row) :
    params.window row < 4294967296 :=
  h.measures.window_lt

/-- At some setting there are `n` passes in a row; no passes at all are everywhere. -/
def HasPassRunIn (rows : List (List Bool)) (n : Nat) : Prop :=
  n = 0 ∨ ∃ row ∈ rows, HasPassRun row n

/-- The events of a calibration and its verdict. -/
inductive Course (params : Params) : List Event → Verdict → Prop where
  | accepted (rejected : List (List Bool)) (row : List Bool)
      (hrejected : ∀ earlier ∈ rejected, params.Rejects earlier)
      (haccepted : params.Accepts row)
      (hlength : rejected.length < params.coarseSteps.toNat) :
      Course params
        (rejectedEvents params rejected
          ++ settingEvents params (UInt8.ofNat rejected.length) row
          ++ List.replicate (params.window row / 2) (.act (.stepPhase .up))
          ++ [.act (calibrationRecord .info ("HyperRAM calibrated: "
            ++ (operatingPoint rejected.length (params.window row)).text))])
        (.calibrated (operatingPoint rejected.length (params.window row)))
  | exhausted (rejected : List (List Bool)) (sweep : Exhausted)
      (hrejected : ∀ earlier ∈ rejected, params.Rejects earlier)
      (hlength : rejected.length = params.coarseSteps.toNat)
      (hsteps : sweep.coarseSteps = params.coarseSteps)
      (hlongest : IsGreatest {n | HasPassRunIn rejected n} sweep.longestRun.toNat) :
      Course params
        (rejectedEvents params rejected
          ++ [.act (calibrationRecord .error ("HyperRAM calibration failed: " ++ sweep.text))])
        (.exhausted sweep)

/-! ## One setting -/

theorem probing_succ (params : Params) (remaining : Nat) (marked : Bool) (streak : Streak) :
    probing params (remaining + 1) marked streak =
      (ask >>= fun passed => perform (.stepPhase .null) >>= fun _ =>
        (if marked then perform (.report [probeMark passed]) else pure ()) >>= fun _ =>
          if passed then
            checked streak.extended >>= probing params remaining (!marked)
          else if params.breakWindow ≤ streak.window then
            pure streak
          else
            probing params remaining (!marked) streak.restarted) := by
  cases marked <;> rfl

/-- What the probes of a setting come to. -/
structure Streak.Concludes (streak : Streak) (params : Params) (row : List Bool) : Prop where
  measures : params.Measures row
  window : streak.window.toNat = params.window row
  longest : IsGreatest {n | HasPassRun row n} streak.longest.toNat

/-- From any point of a setting on, the counts are kept in step with the answers until the row
ends. -/
theorem of_path_probing {params : Params} {remaining : Nat} {marked : Bool} {streak : Streak}
    {events : List Event} {result : Except Overflow Streak} {earlier : List Bool}
    (h : Path (probing params remaining marked streak) events result)
    (hcounts : streak.Counts earlier) (hunbroken : params.Unbroken earlier)
    (hlength : earlier.length + remaining = params.probes.toNat) :
    ∃ later final, result = .ok final ∧ events = probeEvents marked later ∧
      final.Concludes params (earlier ++ later) := by
  -- What the running counts say about the answers so far is the invariant, and that none of these
  -- answers has ended the row.
  induction remaining generalizing marked streak events earlier with
  | zero =>
    rcases h.of_pure with ⟨rfl, rfl⟩
    refine ⟨[], streak, rfl, rfl, ?_⟩
    rw [List.append_nil]
    exact ⟨hunbroken.measures hlength, by rw [hcounts.window, hunbroken.window_eq],
      hcounts.longest⟩
  | succ remaining ih =>
    have hword : params.probes.toNat < 4294967296 := params.probes.toNat_lt
    rw [probing_succ] at h
    rcases h.of_ask with ⟨passed, _, rfl, hstep⟩
    rcases hstep.of_perform with ⟨_, rfl, hmark⟩
    rcases hmark.of_perform_if with ⟨after, rfl, hrest⟩
    -- Whatever the next probes add, it comes after this answer.
    have hnext : ∀ {next : Streak}, next.Counts (earlier ++ [passed]) →
        params.Unbroken (earlier ++ [passed]) →
        Path (probing params remaining (!marked) next) after result →
        ∃ later final, result = .ok final ∧
          .probe passed :: .act (.stepPhase .null) ::
            ((if marked then [.act (.report [probeMark passed])] else []) ++ after) =
              probeEvents marked later ∧
          final.Concludes params (earlier ++ later) := by
      intro next hnextCounts hnextUnbroken hpath
      have hnextLength : (earlier ++ [passed]).length + remaining = params.probes.toNat := by
        rw [List.length_append, List.length_singleton]
        omega
      rcases ih hpath hnextCounts hnextUnbroken hnextLength with
        ⟨later, final, hresult, rfl, hfinal⟩
      refine ⟨passed :: later, final, hresult, rfl, ?_⟩
      rwa [List.append_cons]
    cases passed with
    | true =>
      rcases hcounts.extended (by omega) with ⟨longer, hlonger, hlongerCounts⟩
      exact hnext hlongerCounts hunbroken.concat_true
        (Path.of_checked hlonger hrest)
    | false =>
      by_cases hlong : params.breakWindow ≤ streak.window
      · -- The failure ends the row, and the window before it is kept.
        have hbreak : params.breakWindow.toNat ≤ endingPasses earlier := by
          rw [← hcounts.window]
          exact UInt32.le_iff_toNat_le.mp hlong
        rw [if_neg Bool.false_ne_true, if_pos hlong] at hrest
        rcases hrest.of_pure with ⟨rfl, rfl⟩
        refine ⟨[false], streak, rfl, rfl, hunbroken.measures_concat (by omega) hbreak, ?_,
          hcounts.longest_concat_false⟩
        rw [Params.window_concat_false hbreak, hcounts.window]
      · have hshort : endingPasses earlier < params.breakWindow.toNat := by
          rw [← hcounts.window]
          exact Nat.lt_of_not_le fun hle => hlong (UInt32.le_iff_toNat_le.mpr hle)
        rw [if_neg Bool.false_ne_true, if_neg hlong] at hrest
        exact hnext hcounts.restarted (hunbroken.concat_false hshort) hrest

theorem of_path_measuring {params : Params} {coarse : UInt8} {events : List Event}
    {result : Except Overflow Streak} (h : Path (measuring params coarse) events result) :
    ∃ row streak, result = .ok streak ∧ events = settingEvents params coarse row ∧
      streak.Concludes params row := by
  rw [measuring] at h
  rcases h.of_perform with ⟨_, rfl, hio⟩
  rcases hio.of_perform with ⟨_, rfl, hhead⟩
  rcases hhead.of_perform with ⟨_, rfl, hprobing⟩
  rcases hprobing.of_bind with ⟨_, _, streak, rfl, hprobes, htail⟩ | ⟨cause, _, hcause⟩
  · rcases of_path_probing hprobes Streak.Counts.nil Params.unbroken_nil (by simp) with
      ⟨row, final, hfinal, rfl, hconcludes⟩
    cases hfinal
    rcases htail.of_perform with ⟨_, rfl, hrecord⟩
    rcases hrecord.of_perform with ⟨_, rfl, hdone⟩
    rcases hdone.of_pure with ⟨rfl, rfl⟩
    refine ⟨row, streak, rfl, ?_, hconcludes⟩
    rw [List.nil_append] at hconcludes
    simp [settingEvents, ← hconcludes.window]
  · rcases of_path_probing hcause Streak.Counts.nil Params.unbroken_nil (by simp) with
      ⟨_, _, hfinal, _, _⟩
    cases hfinal

/-! ## The whole search -/

theorem of_path_stepping {steps : Nat} {events : List Event} {result : Except Overflow Unit}
    (h : Path (stepping steps) events result) :
    result = .ok () ∧ events = List.replicate steps (.act (.stepPhase .up)) := by
  induction steps generalizing events with
  | zero =>
    rcases h.of_pure with ⟨rfl, rfl⟩
    exact ⟨rfl, rfl⟩
  | succ steps ih =>
    rw [stepping] at h
    rcases h.of_perform with ⟨_, rfl, hrest⟩
    rcases ih hrest with ⟨rfl, rfl⟩
    exact ⟨rfl, rfl⟩

theorem of_path_centering {coarse window : Nat} {events : List Event}
    {result : Except Overflow Calibrated} (hwindow : window < 4294967296)
    (h : Path (centering (UInt8.ofNat coarse) (UInt32.ofNat window)) events result) :
    result = .ok (operatingPoint coarse window) ∧
      events = List.replicate (window / 2) (.act (.stepPhase .up)) := by
  have hhalf : (UInt32.ofNat window / 2).toNat = window / 2 :=
    calc
      (UInt32.ofNat window / 2).toNat = (UInt32.ofNat window).toNat / 2 := UInt32.toNat_div _ 2
      _ = window / 2 := by rw [UInt32.toNat_ofNat_of_lt' hwindow]
  have hpoint : UInt32.ofNat window / 2 = UInt32.ofNat (window / 2) := by
    rw [← hhalf, UInt32.ofNat_toNat]
  rw [centering] at h
  rcases h.of_bind with ⟨_, _, _, rfl, hsteps, hdone⟩ | ⟨_, _, hcause⟩
  · rcases of_path_stepping hsteps with ⟨_, rfl⟩
    rcases hdone.of_pure with ⟨rfl, rfl⟩
    rw [hhalf, hpoint, List.append_nil]
    exact ⟨rfl, rfl⟩
  · cases (of_path_stepping hcause).1

theorem isGreatest_hasPassRunIn_nil : IsGreatest {n | HasPassRunIn [] n} 0 := by
  refine ⟨.inl rfl, ?_⟩
  rintro n (rfl | ⟨row, hmem, _⟩)
  · exact le_rfl
  · cases hmem

theorem isGreatest_hasPassRunIn_concat {rows : List (List Bool)} {row : List Bool} {m n : Nat}
    (hrows : IsGreatest {k | HasPassRunIn rows k} m) (hrow : IsGreatest {k | HasPassRun row k} n) :
    IsGreatest {k | HasPassRunIn (rows ++ [row]) k} (max m n) := by
  have hunion : {k | HasPassRunIn (rows ++ [row]) k} =
      {k | HasPassRunIn rows k} ∪ {k | HasPassRun row k} := by
    ext k
    simp [HasPassRunIn, or_and_right, exists_or, or_assoc]
  rw [hunion]
  exact hrows.union hrow

/-- After the settings that were rejected so far, the search goes on with the next one. -/
theorem of_path_sweeping {params : Params} {remaining : Nat} {coarse : UInt8} {longest : UInt32}
    {events : List Event} {result : Except Overflow Verdict} {rejected : List (List Bool)}
    (h : Path (sweeping params remaining coarse longest) events result)
    (hrejected : ∀ earlier ∈ rejected, params.Rejects earlier)
    (hcoarse : coarse = UInt8.ofNat rejected.length)
    (hlength : rejected.length + remaining = params.coarseSteps.toNat)
    (hlongest : IsGreatest {n | HasPassRunIn rejected n} longest.toNat) :
    ∃ verdict, result = .ok verdict ∧
      Course params (rejectedEvents params rejected ++ events) verdict := by
  -- The rows rejected so far are the invariant: their number is the next setting, and the longest
  -- run is the longest one among them.
  induction remaining generalizing coarse longest events rejected with
  | zero =>
    rw [sweeping] at h
    rcases h.of_perform with ⟨_, rfl, hdone⟩
    rcases hdone.of_pure with ⟨rfl, rfl⟩
    exact ⟨_, rfl, .exhausted rejected _ hrejected (by simpa using hlength) rfl hlongest⟩
  | succ remaining ih =>
    have hoctet : params.coarseSteps.toNat < 256 := params.coarseSteps.toNat_lt
    rw [sweeping] at h
    rcases h.of_bind with ⟨_, rest, streak, rfl, hmeasuring, hrest⟩ | ⟨_, _, hcause⟩
    · rcases of_path_measuring hmeasuring with ⟨row, final, hfinal, rfl, hconcludes⟩
      cases hfinal
      have hwindow : streak.window = UInt32.ofNat (params.window row) := by
        rw [← hconcludes.window, UInt32.ofNat_toNat]
      subst hcoarse
      by_cases haccept : params.acceptWindow ≤ streak.window
      · have haccepted : params.Accepts row := by
          refine ⟨hconcludes.measures, ?_⟩
          rw [← hconcludes.window]
          exact UInt32.le_iff_toNat_le.mp haccept
        have hbound : params.window row < 4294967296 := by
          rw [← hconcludes.window]
          exact streak.window.toNat_lt
        rw [if_pos haccept, hwindow] at hrest
        rcases hrest.of_bind with ⟨_, _, point, rfl, hcentering, hlog⟩ | ⟨_, _, hcause⟩
        · rcases of_path_centering hbound hcentering with ⟨hpoint, rfl⟩
          cases hpoint
          rcases hlog.of_perform with ⟨_, rfl, hdone⟩
          rcases hdone.of_pure with ⟨rfl, rfl⟩
          refine ⟨_, rfl, ?_⟩
          have hcourse := Course.accepted rejected row hrejected haccepted (by omega)
          simpa only [List.append_assoc] using hcourse
        · cases (of_path_centering hbound hcause).1
      · have hrejects : params.Rejects row := by
          refine ⟨hconcludes.measures, ?_⟩
          rw [← hconcludes.window]
          exact Nat.lt_of_not_le fun hle => haccept (UInt32.le_iff_toNat_le.mpr hle)
        -- The next setting has a number, because the last one allowed is 254.
        have hnumber : (UInt8.ofNat rejected.length).toNat = rejected.length :=
          UInt8.toNat_ofNat_of_lt' (by omega : rejected.length < 256)
        have hnext : nextOctet (UInt8.ofNat rejected.length) =
            .ok (UInt8.ofNat (rejected.length + 1)) := by
          rw [nextOctet_of_lt (by omega), UInt8.ofNat_add]
          rfl
        rw [if_neg haccept] at hrest
        rcases (Path.of_checked hnext hrest).of_perform with ⟨after, rfl, hsweeping⟩
        have hall : ∀ earlier ∈ rejected ++ [row], params.Rejects earlier := by
          intro earlier hmem
          rcases List.mem_append.mp hmem with hmem | hmem
          · exact hrejected earlier hmem
          · exact List.mem_singleton.mp hmem ▸ hrejects
        have hsum : (rejected ++ [row]).length + remaining = params.coarseSteps.toNat := by
          rw [List.length_append, List.length_singleton]
          omega
        have hmax : IsGreatest {n | HasPassRunIn (rejected ++ [row]) n}
            (max longest streak.longest).toNat := by
          rw [toNat_max_word]
          exact isGreatest_hasPassRunIn_concat hlongest hconcludes.longest
        rcases ih hsweeping hall (by simp) hsum hmax with ⟨verdict, hverdict, hcourse⟩
        refine ⟨verdict, hverdict, ?_⟩
        rw [rejectedEvents_concat, rejectedSettingEvents] at hcourse
        simpa [slipInto] using hcourse
    · rcases of_path_measuring hcause with ⟨_, _, hfinal, _, _⟩
      cases hfinal

/-- Whatever the answers, a calibration comes to a verdict, and its events are laid out setting by
setting. -/
theorem Course.of_path {params : Params} {events : List Event} {result : Except Overflow Verdict}
    (h : Path (calibrate params) events result) :
    ∃ verdict, result = .ok verdict ∧ Course params events verdict := by
  have hnone : ∀ earlier ∈ ([] : List (List Bool)), params.Rejects earlier := by
    intro earlier hmem
    cases hmem
  simpa [rejectedEvents] using
    of_path_sweeping h hnone rfl (by simp) isGreatest_hasPassRunIn_nil

/-- A watched calibration takes a course, and its transcript is what is seen along it. -/
theorem exists_course_watch {σ : Type} (hardware : Hardware (StateM σ)) (params : Params)
    (transcript : Transcript) (start : σ) :
    ∃ events verdict final, Course params events verdict ∧
      Trail hardware.Performs start (calls events) final ∧
      ((calibrate params).watch hardware transcript).run start =
        ((.ok verdict, events.foldl Transcript.seen transcript), final) := by
  rcases exists_path_watch hardware (calibrate params) start with
    ⟨events, result, final, hpath, htrail, hrun⟩
  rcases Course.of_path hpath with ⟨verdict, rfl, hcourse⟩
  exact ⟨events, verdict, final, hcourse, htrail, hrun transcript⟩

end TimingEye
