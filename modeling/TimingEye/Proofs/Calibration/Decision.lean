import TimingEye.Proofs.Calibration.Calls

/-!
# The decision of a calibration

The verdict of a calibration depends on nothing but the answers at the settings it visits.  The
probing of each setting ends as `Params.Measures` says; the first setting whose window is long
enough is accepted, and a sweep in which there is none is exhausted.

* `Calibrated.Fits`, `Exhausted.Fits`: what a verdict says about the answers;
* `calibration_decided`: every calibration comes to a verdict that fits its answers.
-/

namespace TimingEye

/-- The settings, of those visited, whose window is long enough. -/
def acceptableSettings (params : Params) (rows : List (List Bool)) : Set Nat :=
  {d | ∃ row, rows[d]? = some row ∧ params.acceptWindow.toNat ≤ params.window row}

/-- An operating point fits the answers: it is the first acceptable setting, it was visited last,
and its fields are worked out from its number and its window. -/
structure Calibrated.Fits (point : Calibrated) (params : Params) (rows : List (List Bool)) :
    Prop where
  coarse : IsLeast (acceptableSettings params rows) point.coarse.toNat
  visited : rows.length = point.coarse.toNat + 1
  window : (rows[point.coarse.toNat]?).map params.window = some point.window.toNat
  clkDelay : point.clkDelay.toNat = point.coarse.toNat / 4
  subPhase : point.subPhase = ⟨point.coarse.toNat.testBit 0, point.coarse.toNat.testBit 1⟩
  centeringSteps : point.centeringSteps.toNat = point.window.toNat / 2

/-- An exhausted sweep fits the answers: all settings were visited, and the longest run is the
longest one anywhere among them. -/
structure Exhausted.Fits (sweep : Exhausted) (params : Params) (rows : List (List Bool)) :
    Prop where
  coarseSteps : sweep.coarseSteps = params.coarseSteps
  visited : rows.length = params.coarseSteps.toNat
  longestRun : IsGreatest {n | HasPassRunIn rows n} sweep.longestRun.toNat

theorem lt_length_of_mem_acceptableSettings {params : Params} {rows : List (List Bool)} {d : Nat}
    (h : d ∈ acceptableSettings params rows) : d < rows.length := by
  rcases h with ⟨row, hrow, _⟩
  exact (List.getElem?_eq_some_iff.mp hrow).1

theorem not_mem_acceptableSettings {params : Params} {rejected rest : List (List Bool)} {d : Nat}
    (hrejected : ∀ earlier ∈ rejected, params.Rejects earlier) (hd : d < rejected.length) :
    d ∉ acceptableSettings params (rejected ++ rest) := by
  rintro ⟨row, hrow, hwindow⟩
  rw [List.getElem?_append_left hd] at hrow
  have hlt := (hrejected row (List.mem_of_getElem? hrow)).window_lt
  omega

theorem operatingPoint_fits {params : Params} {rejected : List (List Bool)} {row : List Bool}
    (hrejected : ∀ earlier ∈ rejected, params.Rejects earlier) (haccepted : params.Accepts row)
    (hlength : rejected.length < 256) :
    (operatingPoint rejected.length (params.window row)).Fits params (rejected ++ [row]) := by
  have hcoarse : (UInt8.ofNat rejected.length).toNat = rejected.length :=
    UInt8.toNat_ofNat_of_lt' hlength
  have hbound := haccepted.window_lt
  have hhalf : params.window row / 2 < 4294967296 := (Nat.div_le_self _ 2).trans_lt hbound
  have hlast : (rejected ++ [row])[rejected.length]? = some row := by simp
  constructor
  case coarse =>
    simp only [operatingPoint, hcoarse]
    -- Every setting before this one has been rejected.
    refine ⟨⟨row, hlast, haccepted.le_window⟩, ?_⟩
    intro d hd
    by_contra hlt
    exact not_mem_acceptableSettings hrejected (Nat.lt_of_not_le hlt) hd
  case visited => simp [operatingPoint, hcoarse]
  case window =>
    simp only [operatingPoint, hcoarse, hlast, Option.map_some]
    rw [UInt32.toNat_ofNat_of_lt' hbound]
  case clkDelay => exact toNat_clockTaps _
  case subPhase => exact SubPhase.ofCoarse_eq _
  case centeringSteps =>
    simp only [operatingPoint]
    rw [UInt32.toNat_ofNat_of_lt' hbound, UInt32.toNat_ofNat_of_lt' hhalf]

section

variable {σ : Type} (hardware : Hardware (StateM σ)) (params : Params)
  (progress : Option Sink) (threshold : Threshold) (start : σ)

/-- Whatever the hardware does, a calibration comes to a verdict.  At each setting the probing
stops where `Params.Measures` says; the verdict is an operating point if and only if some setting
visited has a window that is long enough, the verdict then fits the answers, and it fits them as an
exhausted sweep otherwise. -/
theorem calibration_decided :
    let run := (calibrationRun hardware params progress threshold start).1
    let rows := answerRows run.2.calls.toList
    (∀ row ∈ rows, params.Measures row) ∧
    ((∃ point, run.1 = .ok (.calibrated point)) ↔
      ∃ d < params.coarseSteps.toNat, d ∈ acceptableSettings params rows) ∧
    (∀ point, run.1 = .ok (.calibrated point) → point.Fits params rows) ∧
    ((¬ ∃ point, run.1 = .ok (.calibrated point)) →
      ∃ sweep, run.1 = .ok (.exhausted sweep) ∧ sweep.Fits params rows) := by
  intro run rows
  have hoctet : params.coarseSteps.toNat < 256 := params.coarseSteps.toNat_lt
  rcases exists_course_calibrationRun hardware params progress threshold start with
    ⟨events, verdict, hcourse, _, hverdict, hcalls⟩
  change run.1 = .ok verdict at hverdict
  rcases hcourse.exists_rows with
    ⟨rejected, row, hrejected, haccepted, hlength, rfl, heq⟩ |
    ⟨rejected, sweep, hrejected, hlength, rfl, hsteps, hlongest, heq⟩
  · have hrows : rows = rejected ++ [row] := by
      change answerRows run.2.calls.toList = _
      rw [hcalls, heq, answerRows_accepted]
    have hfits := operatingPoint_fits hrejected haccepted (by omega)
    rw [hverdict, hrows]
    refine ⟨?_, ⟨fun _ => ?_, fun _ => ⟨_, rfl⟩⟩, ?_, fun hnone => absurd ⟨_, rfl⟩ hnone⟩
    · intro earlier hmem
      rcases List.mem_append.mp hmem with hmem | hmem
      · exact (hrejected earlier hmem).measures
      · exact List.mem_singleton.mp hmem ▸ haccepted.measures
    · exact ⟨rejected.length, hlength, row, by simp, haccepted.le_window⟩
    · intro point hpoint
      cases hpoint
      exact hfits
  · have hrows : rows = rejected := by
      change answerRows run.2.calls.toList = _
      rw [hcalls, heq, answerRows_rejectedCalls]
    have hnone : ∀ d, d ∉ acceptableSettings params rejected := by
      intro d hd
      have hlt := lt_length_of_mem_acceptableSettings hd
      rw [← List.append_nil rejected] at hd
      exact not_mem_acceptableSettings hrejected hlt hd
    rw [hverdict, hrows]
    refine ⟨fun earlier hmem => (hrejected earlier hmem).measures, ⟨?_, ?_⟩, ?_, fun _ => ?_⟩
    · rintro ⟨point, hpoint⟩
      cases hpoint
    · rintro ⟨d, _, hd⟩
      exact absurd hd (hnone d)
    · intro point hpoint
      cases hpoint
    · exact ⟨sweep, rfl, hsteps, hlength, hlongest⟩

end

end TimingEye
