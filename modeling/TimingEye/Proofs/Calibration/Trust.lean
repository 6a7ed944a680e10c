import TimingEye.Proofs.Calibration.Calls

/-!
# Windows that are never passed over

A run of passes that is long enough to be trusted cannot be left behind: the setting it occurs at
ends with it, and is accepted for it.  So at a setting that was rejected every run is shorter.

* `Params.trustedPasses`: the passes in a row that settle a setting;
* `Measures.le_window`: a run that may break a row lies in the window of the row;
* `EndsWithWindow`: how the row of an accepted setting ends;
* `no_window_passed_over`: the runs of passes in every calibration.
-/

namespace TimingEye

/-! ## Runs in a row -/

/-- The passes that end a sequence of answers come after a failure, or make up all of it. -/
theorem exists_endingPasses_split (answers : List Bool) :
    ∃ earlier, answers = earlier ++ List.replicate (endingPasses answers) true ∧
      earlier.getLast? ≠ some true := by
  -- A failure at the end leaves no ending passes, and a pass there is one of them.
  induction answers using List.reverseRecOn with
  | nil => exact ⟨[], rfl, nofun⟩
  | append_singleton answers passed ih =>
    cases passed with
    | false =>
      refine ⟨answers ++ [false], ?_, ?_⟩
      · rw [endingPasses_concat_false, List.replicate_zero, List.append_nil]
      · rw [List.getLast?_concat]
        nofun
    | true =>
      rcases ih with ⟨earlier, hsplit, hlast⟩
      refine ⟨earlier, ?_, hlast⟩
      rw [endingPasses_concat_true, List.replicate_succ', ← List.append_assoc, ← hsplit]

namespace Params

variable {params : Params} {row : List Bool} {n : Nat}

/-- Before a row breaks, only the passes that end it can be as many as are needed to break it. -/
theorem Unbroken.le_endingPasses (h : params.Unbroken row) (hrun : HasPassRun row n)
    (hlong : params.breakWindow.toNat ≤ n) : n ≤ endingPasses row := by
  induction row using List.reverseRecOn with
  | nil => exact hrun.le_length
  | append_singleton row passed ih =>
    have hearlier : params.Unbroken row := fun i hbreak =>
      h i (breaksAt_concat.mpr (.inl hbreak))
    cases passed with
    | true =>
      rw [endingPasses_concat_true]
      rcases hasPassRun_concat_true.mp hrun with hends | hwithin
      · exact hends
      · exact (ih hearlier hwithin).trans (Nat.le_succ _)
    | false =>
      -- This failure has not broken the row, so the run before it was too short.
      have hwithin := ih hearlier (hasPassRun_concat_false.mp hrun)
      have hbreak : params.BreaksAt (row ++ [false]) row.length :=
        breaksAt_concat.mpr (.inr ⟨rfl, rfl, hlong.trans hwithin⟩)
      exact absurd hbreak (h _)

/-- A row that has ended is unbroken, or its last answer is the failure that broke it. -/
theorem Measures.unbroken_or_broken (h : params.Measures row) :
    params.Unbroken row ∨ ∃ before, row = before ++ [false] ∧ params.Unbroken before ∧
      params.breakWindow.toNat ≤ endingPasses before := by
  by_cases hbroken : ∃ i, params.BreaksAt row i
  · rcases hbroken with ⟨i, hbreak⟩
    have hlast := h.last_of_break i hbreak
    rcases List.eq_nil_or_concat' row with rfl | ⟨before, passed, rfl⟩
    · cases hlast
    rw [List.length_append, List.length_singleton] at hlast
    have hi : i = before.length := Nat.succ_injective hlast
    have hwithin : params.Unbroken before := by
      intro j hearlier
      have hj := h.last_of_break j (breaksAt_concat.mpr (.inl hearlier))
      have hlt := (List.getElem?_eq_some_iff.mp hearlier.1).1
      rw [List.length_append, List.length_singleton] at hj
      omega
    rcases breaksAt_concat.mp hbreak with hearlier | ⟨_, rfl, hlong⟩
    · exact absurd hearlier (hwithin i)
    · exact .inr ⟨before, rfl, hwithin, hlong⟩
  · exact .inl fun i hbreak => hbroken ⟨i, hbreak⟩

/-- A run that is long enough to break a row lies in the window of the row. -/
theorem Measures.le_window (h : params.Measures row) (hrun : HasPassRun row n)
    (hlong : params.breakWindow.toNat ≤ n) : n ≤ params.window row := by
  rcases h.unbroken_or_broken with hunbroken | ⟨before, rfl, hunbroken, hbreak⟩
  · rw [hunbroken.window_eq]
    exact hunbroken.le_endingPasses hrun hlong
  · rw [window_concat_false hbreak]
    exact hunbroken.le_endingPasses (hasPassRun_concat_false.mp hrun) hlong

/-! ## Settings -/

/-- The passes in a row that settle a setting: they are not given up at a failure, and they are
enough to be accepted. -/
def trustedPasses (params : Params) : Nat :=
  max (max params.acceptWindow.toNat params.breakWindow.toNat) 1

/-- At a setting that is rejected, every run of passes is too short to be trusted. -/
theorem Rejects.lt_trustedPasses (h : params.Rejects row) (hrun : HasPassRun row n) :
    n < params.trustedPasses := by
  by_contra hlong
  have hwindow := h.measures.le_window hrun (by rw [trustedPasses] at hlong; omega)
  have hshort := h.window_lt
  rw [trustedPasses] at hlong
  omega

/-- A row ends with its window: with passes that come after a failure or make up the whole row,
followed at most by the failure that broke it, after which there are no more probes. -/
structure EndsWithWindow (params : Params) (row : List Bool) (window : Nat) : Prop where
  le_probes : window ≤ params.probes.toNat
  split : ∃ earlier tail, row = earlier ++ List.replicate window true ++ tail ∧
    earlier.getLast? ≠ some true ∧
    (tail = [] ∨ tail = [false] ∧ params.BreaksAt row (row.length - 1))
  stops : ∀ i, params.BreaksAt row i → i + 1 = row.length

theorem Measures.endsWithWindow (h : params.Measures row) :
    params.EndsWithWindow row (params.window row) := by
  constructor
  case le_probes => exact (window_le_length row).trans h.length_le
  case stops => exact h.last_of_break
  case split =>
    rcases h.unbroken_or_broken with hunbroken | ⟨before, rfl, _, hbreak⟩
    · rcases exists_endingPasses_split row with ⟨earlier, hsplit, hlast⟩
      refine ⟨earlier, [], ?_, hlast, .inl rfl⟩
      rw [hunbroken.window_eq, List.append_nil]
      exact hsplit
    · rcases exists_endingPasses_split before with ⟨earlier, hsplit, hlast⟩
      refine ⟨earlier, [false], ?_, hlast, .inr ⟨rfl, ?_⟩⟩
      · rw [window_concat_false hbreak, ← hsplit]
      · exact breaksAt_concat.mpr (.inr ⟨by simp, rfl, hbreak⟩)

end Params

/-! ## Whole calibrations -/

/-- The longest run among rejected settings is too short to be trusted, and is a run of probes. -/
theorem longest_le_of_rejects {params : Params} {rejected : List (List Bool)} {longest : Nat}
    (h : ∀ row ∈ rejected, params.Rejects row) (hlongest : HasPassRunIn rejected longest) :
    longest ≤ min params.probes.toNat (params.trustedPasses - 1) := by
  rcases hlongest with rfl | ⟨row, hmem, hrun⟩
  · exact Nat.zero_le _
  · have hprobes := hrun.le_length.trans (h row hmem).measures.length_le
    have htrusted := (h row hmem).lt_trustedPasses hrun
    exact Nat.le_min.mpr ⟨hprobes, Nat.le_sub_one_of_lt htrusted⟩

section

variable {σ : Type} (hardware : Hardware (StateM σ)) (params : Params)
  (progress : Option Sink) (threshold : Threshold) (start : σ)

/-- No calibration passes over a run of passes that can be trusted.  At each setting of an
exhausted sweep, and at each setting before the accepted one, all runs are shorter.  The row of the
accepted setting ends with the window it was accepted for. -/
theorem no_window_passed_over :
    let run := (calibrationRun hardware params progress threshold start).1
    let rows := answerRows run.2.calls.toList
    (∀ sweep, run.1 = .ok (.exhausted sweep) →
      rows.length = params.coarseSteps.toNat ∧
      (∀ row ∈ rows, ∀ n, HasPassRun row n → n < params.trustedPasses) ∧
      sweep.longestRun.toNat ≤ min params.probes.toNat (params.trustedPasses - 1) ∧
      (params = .standard → sweep.longestRun.toNat ≤ 5) ∧
      (0 < params.acceptWindow ∨ params.coarseSteps = 0)) ∧
    (∀ point, run.1 = .ok (.calibrated point) →
      ∃ rejected row, rows = rejected ++ [row] ∧ rejected.length = point.coarse.toNat ∧
        (∀ earlier ∈ rejected, ∀ n, HasPassRun earlier n → n < params.trustedPasses) ∧
        params.EndsWithWindow row point.window.toNat) := by
  intro run rows
  have hoctet : params.coarseSteps.toNat < 256 := params.coarseSteps.toNat_lt
  rcases exists_course_calibrationRun hardware params progress threshold start with
    ⟨events, verdict, hcourse, _, hverdict, hcalls⟩
  change run.1 = .ok verdict at hverdict
  have hrows : rows = answerRows (calls events) := congrArg answerRows hcalls
  rw [hverdict, hrows]
  rcases hcourse.exists_rows with
    ⟨rejected, row, hrejected, haccepted, hlength, rfl, heq⟩ |
    ⟨rejected, sweep, hrejected, hlength, rfl, _, hlongest, heq⟩
  · rw [heq, answerRows_accepted]
    refine ⟨nofun, ?_⟩
    intro point hpoint
    cases hpoint
    rw [toNat_operatingPoint_coarse (hlength.trans hoctet),
      toNat_operatingPoint_window _ haccepted.window_lt]
    refine ⟨rejected, row, rfl, rfl, ?_, haccepted.measures.endsWithWindow⟩
    intro earlier hmem n
    exact (hrejected earlier hmem).lt_trustedPasses
  · rw [heq, answerRows_rejectedCalls]
    refine ⟨?_, nofun⟩
    intro _ hsweep
    cases hsweep
    have hlongest := longest_le_of_rejects hrejected hlongest.1
    refine ⟨hlength, ?_, hlongest, ?_, ?_⟩
    · intro row hmem n
      exact (hrejected row hmem).lt_trustedPasses
    · rintro rfl
      exact hlongest.trans (by decide)
    · cases rejected with
      | nil => exact .inr (UInt8.toNat_inj.mp hlength.symm)
      | cons row rest =>
        -- A window can only be too short where one is asked for.
        have hshort := (hrejected row List.mem_cons_self).window_lt
        exact .inl (UInt32.lt_iff_toNat_lt.mpr (Nat.zero_lt_of_lt hshort))

end

end TimingEye
