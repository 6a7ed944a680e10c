import TimingEye.Proofs.Calibration.Effort

/-!
# Settings that answer alike

Where every probe at a setting gets the same answer, the answers of the setting are known in
advance, and with them the course of the whole calibration.

* `AnsweredBy`: calls whose probes are answered by their setting;
* `Params.uniformRow`, `Params.uniformWindow`: the answers of such a setting, and its window;
* `Course.uniform`: the verdict of a calibration all of whose settings are such.
-/

namespace TimingEye

/-! ## Answers by setting -/

/-- Each probe is answered as the setting says that it is made at. -/
def AnsweredBy (answer : Nat → Bool) (calls : List Call) : Prop :=
  ∀ earlier passed later, calls = earlier ++ .probe passed :: later →
    passed = answer (slipsOf earlier).length

namespace AnsweredBy

variable {answer : Nat → Bool}

theorem left {first second : List Call} (h : AnsweredBy answer (first ++ second)) :
    AnsweredBy answer first := by
  intro earlier passed later hcut
  apply h earlier passed (later ++ second)
  simp [hcut]

theorem setting {rejected : List (List Bool)} {row : List Bool}
    (h : AnsweredBy answer (rejectedCalls rejected ++ settingCalls rejected.length row)) :
    ∀ passed ∈ row, passed = answer rejected.length := by
  intro passed hmem
  rcases List.append_of_mem hmem with ⟨before, after, rfl⟩
  have hcut : rejectedCalls rejected ++ settingCalls rejected.length (before ++ passed :: after) =
      (rejectedCalls rejected ++ settingCalls rejected.length before) ++
        .probe passed :: .stepPhase .null :: probeCalls after := by
    simp [settingCalls]
  have hanswer := h _ passed _ hcut
  rwa [(leadsTo_settingCalls rejected before).slips, length_slipsUpTo] at hanswer

theorem rejected {rows : List (List Bool)} (h : AnsweredBy answer (rejectedCalls rows)) :
    ∀ d row, rows[d]? = some row → ∀ passed ∈ row, passed = answer d := by
  induction rows using List.reverseRecOn with
  | nil =>
    intro d row hrow
    simp at hrow
  | append_singleton rows last ih =>
    rw [rejectedCalls_concat] at h
    intro d row hrow
    rcases Nat.lt_or_ge d rows.length with hlt | hge
    · rw [List.getElem?_append_left hlt] at hrow
      exact ih h.left d row hrow
    · -- The last row is all that is left.
      have hlast : d = rows.length ∧ row = last := by
        rw [List.getElem?_append_right hge] at hrow
        have hd : d - rows.length < [last].length := (List.getElem?_eq_some_iff.mp hrow).1
        have hzero : d - rows.length = 0 := by simpa using hd
        rw [hzero] at hrow
        exact ⟨by omega, (Option.some.inj hrow).symm⟩
      rcases hlast with ⟨rfl, rfl⟩
      rw [rejectedSettingCalls, ← List.append_assoc] at h
      exact h.left.setting

/-- Where the settings give the answers, a procedure has one path only. -/
theorem path_unique {α : Type} {procedure : Procedure α} {events others : List Event}
    {result other : Except Overflow α} (before : List Call)
    (hpath : Procedure.Path procedure events result)
    (hother : Procedure.Path procedure others other)
    (h : AnsweredBy answer (before ++ calls events))
    (h' : AnsweredBy answer (before ++ calls others)) : events = others ∧ result = other := by
  -- Both paths have come through the same calls so far, so both get the same answer next.
  induction hpath generalizing others before with
  | done value =>
    cases hother
    exact ⟨rfl, rfl⟩
  | overflow cause =>
    cases hother
    exact ⟨rfl, rfl⟩
  | act _ ih =>
    cases hother with
    | act hrest =>
      rw [calls_cons, ← List.append_assoc] at h h'
      rcases ih _ hrest h h' with ⟨rfl, rfl⟩
      exact ⟨rfl, rfl⟩
  | probe _ ih =>
    cases hother with
    | probe hrest =>
      have hpassed := h before _ _ rfl
      have hpassed' := h' before _ _ rfl
      obtain rfl := hpassed.trans hpassed'.symm
      rw [calls_cons, ← List.append_assoc] at h h'
      rcases ih _ hrest h h' with ⟨rfl, rfl⟩
      exact ⟨rfl, rfl⟩

end AnsweredBy

/-! ## One setting -/

namespace Params

variable {params : Params}

/-- The number of probes at a setting that answers all of them alike: a failure ends the probing
at once if no passes have to come before it. -/
def uniformProbes (params : Params) (passes : Bool) : Nat :=
  if passes = false ∧ params.breakWindow = 0 then min 1 params.probes.toNat
  else params.probes.toNat

/-- The answers of such a setting. -/
def uniformRow (params : Params) (passes : Bool) : List Bool :=
  List.replicate (params.uniformProbes passes) passes

/-- The window of such a setting: all of its probes or none. -/
def uniformWindow (params : Params) (passes : Bool) : Nat :=
  if passes then params.probes.toNat else 0

theorem uniformProbes_true : params.uniformProbes true = params.probes.toNat := by
  simp [uniformProbes]

/-- A setting is accepted that passes, if its probes are enough. -/
theorem le_uniformWindow_iff {passes : Bool} {n : Nat} (hpositive : 0 < n) :
    n ≤ params.uniformWindow passes ↔ passes = true ∧ n ≤ params.probes.toNat := by
  cases passes with
  | true => simp [uniformWindow]
  | false => simpa [uniformWindow] using Nat.ne_of_gt hpositive

theorem not_breaksAt_of_passes (count i : Nat) :
    ¬params.BreaksAt (List.replicate count true) i := by
  rintro ⟨hfalse, _⟩
  have hmem : false ∈ List.replicate count true := List.mem_of_getElem? hfalse
  cases List.eq_of_mem_replicate hmem

theorem endingPasses_replicate_true (count : Nat) :
    endingPasses (List.replicate count true) = count := by
  induction count with
  | zero => rfl
  | succ count ih => rw [List.replicate_succ', endingPasses_concat_true, ih]

theorem endingPasses_replicate_false (count : Nat) :
    endingPasses (List.replicate count false) = 0 := by
  cases count with
  | zero => rfl
  | succ count => rw [List.replicate_succ', endingPasses_concat_false]

theorem breaksAt_of_fails_iff {count i : Nat} :
    params.BreaksAt (List.replicate count false) i ↔ i < count ∧ params.breakWindow = 0 := by
  have htake : endingPasses ((List.replicate count false).take i) = 0 := by
    rw [List.take_replicate, endingPasses_replicate_false]
  have hbreak : params.breakWindow.toNat ≤ 0 ↔ params.breakWindow = 0 := by
    rw [Nat.le_zero, ← UInt32.toNat_inj]
    rfl
  rw [BreaksAt, htake, hbreak]
  simp [List.getElem?_replicate]

/-- How often a setting is probed that answers all probes alike. -/
theorem Measures.length_of_replicate {count : Nat} {passes : Bool}
    (h : params.Measures (List.replicate count passes)) : count = params.uniformProbes passes := by
  have hle : count ≤ params.probes.toNat := by
    simpa using h.length_le
  have hshort : count < params.probes.toNat →
      ∃ i, params.BreaksAt (List.replicate count passes) i := by
    simpa using h.break_of_short
  cases passes with
  | true =>
    have hall : ¬count < params.probes.toNat := by
      intro hlt
      rcases hshort hlt with ⟨i, hbreak⟩
      exact not_breaksAt_of_passes count i hbreak
    have hprobes : params.uniformProbes true = params.probes.toNat := uniformProbes_true
    omega
  | false =>
    by_cases hzero : params.breakWindow = 0
    · have hprobes : params.uniformProbes false = min 1 params.probes.toNat := by
        simp [uniformProbes, hzero]
      cases count with
      | zero =>
        have hnone : ¬0 < params.probes.toNat := by
          intro hlt
          rcases hshort hlt with ⟨i, hbreak⟩
          cases (breaksAt_of_fails_iff.mp hbreak).1
        omega
      | succ count =>
        -- The first failure already ends the row.
        have hfirst : params.BreaksAt (List.replicate (count + 1) false) 0 :=
          breaksAt_of_fails_iff.mpr ⟨Nat.succ_pos count, hzero⟩
        have hone := h.last_of_break 0 hfirst
        rw [List.length_replicate] at hone
        omega
    · have hprobes : params.uniformProbes false = params.probes.toNat := by
        simp [uniformProbes, hzero]
      have hall : ¬count < params.probes.toNat := by
        intro hlt
        rcases hshort hlt with ⟨i, hbreak⟩
        exact hzero (breaksAt_of_fails_iff.mp hbreak).2
      omega

theorem Measures.eq_uniformRow {row : List Bool} {passes : Bool} (h : params.Measures row)
    (hall : ∀ passed ∈ row, passed = passes) : row = params.uniformRow passes := by
  have hrow : row = List.replicate row.length passes := List.eq_replicate_iff.mpr ⟨rfl, hall⟩
  rw [hrow] at h
  have hlength := h.length_of_replicate
  rw [uniformRow, ← hlength]
  exact hrow

theorem window_uniformRow (passes : Bool) :
    params.window (params.uniformRow passes) = params.uniformWindow passes := by
  cases passes with
  | true =>
    rw [uniformRow, window, if_neg (not_breaksAt_of_passes _ _), endingPasses_replicate_true,
      uniformProbes_true]
    rfl
  | false =>
    rw [uniformRow, window, List.take_replicate, endingPasses_replicate_false,
      endingPasses_replicate_false]
    exact ite_self 0

theorem hasPassRun_uniformRow_iff {passes : Bool} {n : Nat} :
    HasPassRun (params.uniformRow passes) n ↔ n ≤ params.uniformWindow passes := by
  constructor
  · intro hrun
    cases passes with
    | true =>
      have hprobes : params.uniformProbes true = params.uniformWindow true := uniformProbes_true
      simpa [uniformRow, hprobes] using hrun.le_length
    | false =>
      have hmem : ∀ passed ∈ List.replicate n true, passed = false := by
        intro passed hpassed
        exact List.eq_of_mem_replicate (hrun.subset hpassed)
      cases n with
      | zero => exact Nat.zero_le _
      | succ n => cases hmem true (by simp)
  · intro hle
    cases passes with
    | true =>
      have hprobes : params.uniformProbes true = params.uniformWindow true := uniformProbes_true
      rw [uniformRow, hprobes]
      have hsuffix : List.replicate n true <:+ List.replicate (params.uniformWindow true) true := by
        rw [replicate_suffix_iff, endingPasses_replicate_true]
        exact hle
      exact hsuffix.isInfix
    | false =>
      obtain rfl : n = 0 := Nat.le_zero.mp hle
      exact hasPassRun_zero _

end Params

/-! ## The whole calibration -/

/-- A list whose entries are known by their places. -/
theorem eq_map_range {α : Type} {entries : List α} {f : Nat → α}
    (h : ∀ d entry, entries[d]? = some entry → entry = f d) :
    entries = (List.range entries.length).map f := by
  apply List.ext_getElem
  · simp
  · intro d hd _
    have hentry := h d entries[d] (List.getElem?_eq_getElem hd)
    simpa using hentry

/-- What a calibration comes to that visits some settings each of which answers alike. -/
inductive UniformOutcome (params : Params) (answer : Nat → Bool) : (visited : Nat) → Verdict → Prop
  where
  | accepted (coarse : Nat) (hlt : coarse < params.coarseSteps.toNat)
      (hbefore : ∀ d < coarse, params.uniformWindow (answer d) < params.acceptWindow.toNat)
      (haccepted : params.acceptWindow.toNat ≤ params.uniformWindow (answer coarse)) :
      UniformOutcome params answer (coarse + 1)
        (.calibrated (operatingPoint coarse (params.uniformWindow (answer coarse))))
  | exhausted (sweep : Exhausted)
      (hbefore : ∀ d < params.coarseSteps.toNat,
        params.uniformWindow (answer d) < params.acceptWindow.toNat)
      (hsteps : sweep.coarseSteps = params.coarseSteps)
      (hlongest : sweep.longestRun.toNat =
        if ∃ d < params.coarseSteps.toNat, answer d = true then params.probes.toNat else 0) :
      UniformOutcome params answer params.coarseSteps.toNat (.exhausted sweep)

/-- The longest run of passes is found at a setting that passes, if there is one. -/
theorem isGreatest_hasPassRunIn_uniform (params : Params) (answer : Nat → Bool) (visited : Nat) :
    IsGreatest
      {n | HasPassRunIn ((List.range visited).map fun d => params.uniformRow (answer d)) n}
      (if ∃ d < visited, answer d = true then params.probes.toNat else 0) := by
  have hrun : ∀ n, HasPassRunIn ((List.range visited).map fun d => params.uniformRow (answer d)) n ↔
      n = 0 ∨ ∃ d < visited, n ≤ params.uniformWindow (answer d) := by
    intro n
    simp [HasPassRunIn, Params.hasPassRun_uniformRow_iff]
  simp only [hrun]
  split
  case isTrue hpasses =>
    rcases hpasses with ⟨d, hd, hanswer⟩
    constructor
    · exact .inr ⟨d, hd, by simp [hanswer, Params.uniformWindow]⟩
    · rintro n (rfl | ⟨e, _, hn⟩)
      · exact Nat.zero_le _
      · have hwindow : params.uniformWindow (answer e) ≤ params.probes.toNat := by
          cases answer e <;> simp [Params.uniformWindow]
        exact hn.trans hwindow
  case isFalse hfails =>
    constructor
    · exact .inl rfl
    · rintro n (rfl | ⟨e, he, hn⟩)
      · exact le_rfl
      · have hanswer : answer e = false := by
          by_contra hpass
          exact hfails ⟨e, he, by simpa using hpass⟩
        simpa [hanswer, Params.uniformWindow] using hn

/-- If each setting answers all its probes alike, the answers alone tell the verdict. -/
theorem Course.uniform {params : Params} {events : List Event} {verdict : Verdict}
    {answer : Nat → Bool} (h : Course params events verdict)
    (hanswers : AnsweredBy answer (calls events)) :
    ∃ visited, UniformOutcome params answer visited verdict ∧
      answerRows (calls events) =
        (List.range visited).map fun d => params.uniformRow (answer d) := by
  rcases h.exists_rows with
    ⟨rejected, row, hrejected, haccepted, hlength, rfl, heq⟩ |
    ⟨rejected, sweep, hrejected, hlength, rfl, hsteps, hlongest, heq⟩
  all_goals
    rw [heq] at hanswers
    have hearlier : ∀ {d earlier}, AnsweredBy answer (rejectedCalls rejected) →
        rejected[d]? = some earlier → earlier = params.uniformRow (answer d) := by
      intro d earlier hall hd
      have hmeasures := (hrejected earlier (List.mem_of_getElem? hd)).measures
      exact hmeasures.eq_uniformRow (hall.rejected d earlier hd)
    have hbefore : AnsweredBy answer (rejectedCalls rejected) → ∀ d < rejected.length,
        params.uniformWindow (answer d) < params.acceptWindow.toNat := by
      intro hall d hd
      have hmem := List.getElem?_eq_getElem hd
      have hlt := (hrejected _ (List.mem_of_getElem? hmem)).window_lt
      rwa [hearlier hall hmem, Params.window_uniformRow] at hlt
  · -- The last setting has been accepted, all others have been rejected.
    have hall := hanswers.left.left
    have hrow : row = params.uniformRow (answer rejected.length) :=
      haccepted.measures.eq_uniformRow hanswers.left.setting
    have hwindow : params.window row = params.uniformWindow (answer rejected.length) := by
      rw [hrow, Params.window_uniformRow]
    have haccept := haccepted.le_window
    rw [hwindow] at haccept ⊢
    refine ⟨rejected.length + 1, .accepted _ hlength (hbefore hall) haccept, ?_⟩
    have hrejectedRows := eq_map_range fun d earlier hd => hearlier hall (d := d) hd
    rw [heq, answerRows_accepted, List.range_succ, List.map_append, ← hrejectedRows, hrow]
    rfl
  · have hrows := eq_map_range fun d earlier hd => hearlier hanswers (d := d) hd
    rw [hlength] at hrows hbefore
    have hgreatest := isGreatest_hasPassRunIn_uniform params answer params.coarseSteps.toNat
    rw [← hrows] at hgreatest
    refine ⟨_, .exhausted sweep (hbefore hanswers) hsteps (hlongest.unique hgreatest), ?_⟩
    rw [heq, answerRows_rejectedCalls]
    exact hrows

/-- Where each setting answers alike, the answers alone tell the number of probes. -/
theorem WithinLimits.probeCount_of_uniform {params : Params} {answer : Nat → Bool}
    {calls : List Call} {visited : Nat} (hlimits : WithinLimits params calls)
    (hrows : answerRows calls =
      (List.range visited).map fun d => params.uniformRow (answer d)) :
    probeCount calls = ((List.range visited).map fun d => params.uniformProbes (answer d)).sum := by
  have hlengths : List.length ∘ (fun d => params.uniformRow (answer d)) =
      fun d => params.uniformProbes (answer d) := by
    funext d
    exact List.length_replicate
  rw [hlimits.probes, hrows, List.map_map, hlengths]

end TimingEye
