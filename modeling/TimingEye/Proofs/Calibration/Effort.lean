import Mathlib.Algebra.Order.BigOperators.Group.List
import Mathlib.Algebra.Order.Group.Nat
import TimingEye.Proofs.Calibration.CallOrder

/-!
# How much a calibration asks of the hardware

The limits of a calibration bound the number of its calls, whatever the answers: its probes and
the null steps that go with them, its slips, and its steps towards the middle of a window.

* `probeCount`: the number of probes among some calls;
* `WithinLimits`: calls that stay within the limits of a calibration, as those of a course do;
* `Verdict.visited`: the number of settings that a calibration tries.
-/

namespace TimingEye

/-- Whether a call is a probe. -/
def Call.isProbe : Call → Bool
  | .probe _ => true
  | .setDelay _ _ | .stepPhase _ | .slip _ => false

/-- The number of probes among some calls. -/
def probeCount (calls : List Call) : Nat :=
  calls.countP Call.isProbe

@[simp] theorem probeCount_nil : probeCount [] = 0 := rfl

@[simp] theorem probeCount_cons (call : Call) (rest : List Call) :
    probeCount (call :: rest) = probeCount rest + if call.isProbe then 1 else 0 :=
  List.countP_cons

@[simp] theorem probeCount_append (first second : List Call) :
    probeCount (first ++ second) = probeCount first + probeCount second :=
  List.countP_append

/-! ## Calls of a setting -/

/-- Each probe comes with a null step. -/
theorem counts_probeCalls (row : List Bool) :
    probeCount (probeCalls row) = row.length ∧
      (probeCalls row).count (.stepPhase .null) = row.length := by
  induction row with
  | nil => exact ⟨rfl, rfl⟩
  | cons passed rest ih => simp [Call.isProbe, ih]

theorem counts_settingCalls (coarse : Nat) (row : List Bool) :
    probeCount (settingCalls coarse row) = row.length ∧
      (settingCalls coarse row).count (.stepPhase .null) = row.length := by
  have hcounts := counts_probeCalls row
  simpa [settingCalls, Call.isProbe] using hcounts

theorem counts_rejectedCalls (rows : List (List Bool)) :
    probeCount (rejectedCalls rows) = (rows.map List.length).sum ∧
      (rejectedCalls rows).count (.stepPhase .null) = (rows.map List.length).sum := by
  induction rows using List.reverseRecOn with
  | nil => exact ⟨rfl, rfl⟩
  | append_singleton rows row ih =>
    have hsetting := counts_settingCalls rows.length row
    simp [rejectedCalls_concat, rejectedSettingCalls, Call.isProbe, hsetting, ih]

/-! ## Calls of a whole calibration -/

/-- Calls that stay within the limits of a calibration. -/
structure WithinLimits (params : Params) (calls : List Call) : Prop where
  measures : ∀ row ∈ answerRows calls, params.Measures row
  settings : (answerRows calls).length ≤ params.coarseSteps.toNat
  probes : probeCount calls = ((answerRows calls).map List.length).sum
  nullSteps : calls.count (.stepPhase .null) = probeCount calls
  upSteps : calls.count (.stepPhase .up) ≤ params.probes.toNat / 2
  slips : (slipsOf calls).length ≤ params.coarseSteps.toNat

theorem Course.withinLimits {params : Params} {events : List Event} {verdict : Verdict}
    (h : Course params events verdict) : WithinLimits params (calls events) := by
  rcases h.exists_rows with
    ⟨rejected, row, hrejected, haccepted, hlength, _, heq⟩ |
    ⟨rejected, _, hrejected, hlength, _, _, _, heq⟩
  · have hrows : answerRows (calls events) = rejected ++ [row] := by
      rw [heq, answerRows_accepted]
    have hearlier := counts_rejectedCalls rejected
    have hlast := counts_settingCalls rejected.length row
    have hups : ∀ count, probeCount (List.replicate count (.stepPhase .up)) = 0 := by
      intro count
      simp [probeCount, List.countP_replicate, Call.isProbe]
    constructor
    case measures =>
      intro earlier hmem
      rw [hrows] at hmem
      rcases List.mem_append.mp hmem with hmem | hmem
      · exact (hrejected earlier hmem).measures
      · exact List.mem_singleton.mp hmem ▸ haccepted.measures
    case settings => simpa [hrows] using Nat.succ_le_of_lt hlength
    case probes =>
      rw [hrows, heq]
      simp [hearlier, hlast, hups]
    case nullSteps => simp [heq, hearlier, hlast, hups, List.count_replicate]
    case upSteps =>
      have hwindow : params.window row ≤ params.probes.toNat :=
        (Params.window_le_length row).trans haccepted.measures.length_le
      have hnone := List.count_eq_zero.mpr (up_not_mem_rejectedCalls rejected)
      have hnone' := List.count_eq_zero.mpr (up_not_mem_settingCalls rejected.length row)
      simpa [heq, hnone, hnone'] using Nat.div_le_div_right hwindow
    case slips =>
      have hnone : slipsOf (List.replicate (params.window row / 2) (.stepPhase .up)) = [] :=
        List.filterMap_replicate_of_none rfl
      simpa [heq, slipsOf_rejectedCalls, slipsOf_settingCalls, hnone] using hlength.le
  · have hrows : answerRows (calls events) = rejected := by
      rw [heq, answerRows_rejectedCalls]
    have hearlier := counts_rejectedCalls rejected
    constructor
    case measures =>
      intro earlier hmem
      rw [hrows] at hmem
      exact (hrejected earlier hmem).measures
    case settings => simpa [hrows] using hlength.le
    case probes =>
      rw [hrows, heq]
      exact hearlier.1
    case nullSteps => simp [heq, hearlier]
    case upSteps => simp [heq, List.count_eq_zero.mpr (up_not_mem_rejectedCalls rejected)]
    case slips => simpa [heq, slipsOf_rejectedCalls] using hlength.le

/-- There are at most as many probes as all settings together are allowed. -/
theorem WithinLimits.probeCount_le {params : Params} {calls : List Call}
    (h : WithinLimits params calls) :
    probeCount calls ≤ params.coarseSteps.toNat * params.probes.toNat := by
  have hrow : ∀ length ∈ (answerRows calls).map List.length, length ≤ params.probes.toNat := by
    intro length hmem
    rcases List.mem_map.mp hmem with ⟨row, hrow, rfl⟩
    exact (h.measures row hrow).length_le
  have hsum := List.sum_le_card_nsmul _ _ hrow
  have hsettings := Nat.mul_le_mul_right params.probes.toNat h.settings
  calc
    probeCount calls = ((answerRows calls).map List.length).sum := h.probes
    _ ≤ (answerRows calls).length * params.probes.toNat := by simpa using hsum
    _ ≤ params.coarseSteps.toNat * params.probes.toNat := hsettings

/-! ## Settings visited -/

/-- The number of settings that were visited. -/
def Verdict.visited : Verdict → Nat
  | .calibrated point => point.coarse.toNat + 1
  | .exhausted sweep => sweep.coarseSteps.toNat

/-- There is a row of answers for each setting that was visited. -/
theorem Course.length_answerRows {params : Params} {events : List Event} {verdict : Verdict}
    (h : Course params events verdict) :
    (answerRows (calls events)).length = verdict.visited := by
  have hoctet := params.coarseSteps.toNat_lt
  rcases h.exists_rows with
    ⟨rejected, row, _, _, hlength, rfl, heq⟩ | ⟨rejected, sweep, _, hlength, rfl, hsteps, _, heq⟩
  · rw [heq, answerRows_accepted, List.length_append, List.length_singleton, Verdict.visited,
      toNat_operatingPoint_coarse (hlength.trans hoctet)]
  · rw [heq, answerRows_rejectedCalls, Verdict.visited, hsteps, hlength]

/-- A calibration asks for no more taps on the clock than the last setting needs. -/
theorem Course.clockDelay_le {params : Params} {events : List Event} {verdict : Verdict}
    (h : Course params events verdict) :
    ∀ taps ∈ delaysOf .clock (calls events), taps.toNat ≤ 63 := by
  have hoctet := params.coarseSteps.toNat_lt
  have hsettings := h.withinLimits.settings
  rw [h.delaysOf_calls.1]
  intro taps hmem
  rcases List.mem_map.mp hmem with ⟨coarse, hcoarse, rfl⟩
  have hlt := List.mem_range.mp hcoarse
  have hquarter : coarse / 4 ≤ 63 := by omega
  rwa [UInt8.toNat_ofNat_of_lt' (Nat.lt_of_le_of_lt hquarter (by decide))]

end TimingEye
