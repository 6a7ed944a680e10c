import Mathlib.Data.List.DropRight
import Mathlib.Order.Bounds.Basic
import TimingEye.Calibration.Sweep

/-!
# The answers of a setting

The probes of one setting are answered in a row, and what becomes of the setting depends on the
runs of passes among these answers.

* `endingPasses`, `HasPassRun`: the passes that end a row, and the passes in a row anywhere in it;
* `Params.BreaksAt`, `Params.Measures`: the failures that end a row, and the rows that have ended;
* `Params.window`: the window of a row that has ended;
* `Streak.Counts`: what the running counts of a setting say about the answers so far.
-/

namespace TimingEye

/-! ## Runs of passes -/

/-- The number of passes in a row that end a sequence of answers. -/
def endingPasses (answers : List Bool) : Nat :=
  (answers.rtakeWhile id).length

/-- Somewhere in a sequence of answers there are `n` passes in a row. -/
def HasPassRun (answers : List Bool) (n : Nat) : Prop :=
  List.replicate n true <:+: answers

@[simp] theorem endingPasses_nil : endingPasses [] = 0 := rfl

@[simp] theorem endingPasses_concat_true (answers : List Bool) :
    endingPasses (answers ++ [true]) = endingPasses answers + 1 := by
  simp [endingPasses]

@[simp] theorem endingPasses_concat_false (answers : List Bool) :
    endingPasses (answers ++ [false]) = 0 := by
  simp [endingPasses]

theorem endingPasses_le_length (answers : List Bool) : endingPasses answers ≤ answers.length :=
  List.rtakeWhile_suffix id answers |>.length_le

theorem replicate_endingPasses_suffix (answers : List Bool) :
    List.replicate (endingPasses answers) true <:+ answers := by
  have hall : answers.rtakeWhile id = List.replicate (endingPasses answers) true := by
    rw [List.eq_replicate_iff]
    exact ⟨rfl, fun passed hmem => List.mem_rtakeWhile_imp hmem⟩
  rw [← hall]
  exact List.rtakeWhile_suffix id answers

theorem replicate_suffix_iff {answers : List Bool} {n : Nat} :
    List.replicate n true <:+ answers ↔ n ≤ endingPasses answers := by
  -- A pass at the end lengthens the run by one, a failure there leaves nothing of it.
  induction answers using List.reverseRecOn generalizing n with
  | nil => simp
  | append_singleton answers passed ih =>
    cases n with
    | zero => simp
    | succ n =>
      rw [List.replicate_succ', List.suffix_concat_iff]
      cases passed with
      | false => simp
      | true => simp [← ih]

theorem hasPassRun_zero (answers : List Bool) : HasPassRun answers 0 :=
  List.nil_infix

theorem HasPassRun.le_length {answers : List Bool} {n : Nat} (h : HasPassRun answers n) :
    n ≤ answers.length := by
  simpa using List.IsInfix.length_le h

theorem hasPassRun_concat_true {answers : List Bool} {n : Nat} :
    HasPassRun (answers ++ [true]) n ↔ n ≤ endingPasses answers + 1 ∨ HasPassRun answers n := by
  rw [HasPassRun, List.infix_concat_iff, replicate_suffix_iff, endingPasses_concat_true]
  rfl

theorem hasPassRun_concat_false {answers : List Bool} {n : Nat} :
    HasPassRun (answers ++ [false]) n ↔ HasPassRun answers n := by
  rw [HasPassRun, List.infix_concat_iff, replicate_suffix_iff, endingPasses_concat_false]
  constructor
  · rintro (hzero | hrun)
    · obtain rfl : n = 0 := Nat.le_zero.mp hzero
      exact hasPassRun_zero answers
    · exact hrun
  · exact Or.inr

/-! ## Rows -/

namespace Params

variable {params : Params}

/-- The answer at place `i` is a failure that ends the probing: it comes directly after enough
passes in a row. -/
def BreaksAt (params : Params) (row : List Bool) (i : Nat) : Prop :=
  row[i]? = some false ∧ params.breakWindow.toNat ≤ endingPasses (row.take i)

instance (row : List Bool) (i : Nat) : Decidable (params.BreaksAt row i) :=
  inferInstanceAs (Decidable (_ ∧ _))

/-- The row of a setting whose probing has come to its end: with the first failure that breaks it,
or else with the last probe allowed. -/
structure Measures (params : Params) (row : List Bool) : Prop where
  length_le : row.length ≤ params.probes.toNat
  last_of_break : ∀ i, params.BreaksAt row i → i + 1 = row.length
  break_of_short : row.length < params.probes.toNat → ∃ i, params.BreaksAt row i

/-- The window of a row that has ended: the passes directly before the failure that broke it or,
where there is none, the passes that end it. -/
def window (params : Params) (row : List Bool) : Nat :=
  if params.BreaksAt row (row.length - 1) then
    endingPasses (row.take (row.length - 1))
  else
    endingPasses row

theorem breaksAt_concat {row : List Bool} {passed : Bool} {i : Nat} :
    params.BreaksAt (row ++ [passed]) i ↔
      params.BreaksAt row i ∨
        (i = row.length ∧ passed = false ∧ params.breakWindow.toNat ≤ endingPasses row) := by
  -- Whether an answer breaks a row depends on nothing after it.
  rcases Nat.lt_trichotomy i row.length with hlt | heq | hgt
  · have htake : (row ++ [passed]).take i = row.take i :=
      List.take_append_of_le_length hlt.le
    have hne : i ≠ row.length := hlt.ne
    simp [BreaksAt, htake, List.getElem?_append_left hlt, hne]
  · subst heq
    simp [BreaksAt]
  · have hout : (row ++ [passed])[i]? = none := by
      rw [List.getElem?_eq_none_iff]
      simp only [List.length_append, List.length_singleton]
      omega
    have hrow : row[i]? = none := List.getElem?_eq_none_iff.mpr hgt.le
    have hne : i ≠ row.length := hgt.ne'
    simp [BreaksAt, hout, hrow, hne]

/-- No answer of a row ends the probing. -/
def Unbroken (params : Params) (row : List Bool) : Prop :=
  ∀ i, ¬ params.BreaksAt row i

theorem unbroken_nil : params.Unbroken [] := by
  intro i hbreak
  simp [BreaksAt] at hbreak

theorem Unbroken.concat_true {row : List Bool} (h : params.Unbroken row) :
    params.Unbroken (row ++ [true]) := by
  intro i hbreak
  rcases breaksAt_concat.mp hbreak with hrow | ⟨_, hfalse, _⟩
  · exact h i hrow
  · cases hfalse

theorem Unbroken.concat_false {row : List Bool} (h : params.Unbroken row)
    (hshort : endingPasses row < params.breakWindow.toNat) :
    params.Unbroken (row ++ [false]) := by
  intro i hbreak
  rcases breaksAt_concat.mp hbreak with hrow | ⟨_, _, hlong⟩
  · exact h i hrow
  · omega

/-- The probing ends with the last probe allowed. -/
theorem Unbroken.measures {row : List Bool} (h : params.Unbroken row)
    (hlength : row.length = params.probes.toNat) : params.Measures row where
  length_le := hlength.le
  last_of_break i hbreak := absurd hbreak (h i)
  break_of_short hshort := by omega

theorem Unbroken.window_eq {row : List Bool} (h : params.Unbroken row) :
    params.window row = endingPasses row :=
  if_neg (h _)

/-- The probing ends with the first failure that breaks it. -/
theorem Unbroken.measures_concat {row : List Bool} (h : params.Unbroken row)
    (hlength : row.length < params.probes.toNat)
    (hlong : params.breakWindow.toNat ≤ endingPasses row) :
    params.Measures (row ++ [false]) where
  length_le := by
    rw [List.length_append, List.length_singleton]
    exact hlength
  last_of_break i hbreak := by
    rcases breaksAt_concat.mp hbreak with hrow | ⟨hlast, _, _⟩
    · exact absurd hrow (h i)
    · simp [hlast]
  break_of_short _ := ⟨row.length, breaksAt_concat.mpr (.inr ⟨rfl, rfl, hlong⟩)⟩

theorem window_concat_false {row : List Bool}
    (hlong : params.breakWindow.toNat ≤ endingPasses row) :
    params.window (row ++ [false]) = endingPasses row := by
  have hbreak : params.BreaksAt (row ++ [false]) row.length :=
    breaksAt_concat.mpr (.inr ⟨rfl, rfl, hlong⟩)
  simp [window, hbreak]

theorem window_le_length (row : List Bool) : params.window row ≤ row.length := by
  unfold window
  split
  · exact (endingPasses_le_length _).trans (List.length_take_le' _ _)
  · exact endingPasses_le_length row

/-- A row ends with its window, followed at most by the failure that broke it. -/
theorem exists_window_split (params : Params) (row : List Bool) :
    ∃ earlier tail, row = earlier ++ List.replicate (params.window row) true ++ tail ∧
      (tail = [] ∨ tail = [false]) := by
  unfold window
  split
  -- The window lies before the last answer, or it ends the row.
  case isTrue hbreak =>
    rcases replicate_endingPasses_suffix (row.take (row.length - 1)) with ⟨earlier, hsplit⟩
    refine ⟨earlier, [false], ?_, .inr rfl⟩
    have hlast : row.drop (row.length - 1) = [false] := by
      rcases List.getElem?_eq_some_iff.mp hbreak.1 with ⟨hlt, hfalse⟩
      rw [List.drop_eq_getElem_cons hlt, hfalse, List.drop_eq_nil_of_le (by omega)]
    rw [hsplit, ← hlast, List.take_append_drop]
  case isFalse =>
    rcases replicate_endingPasses_suffix row with ⟨earlier, hsplit⟩
    exact ⟨earlier, [], by rw [hsplit, List.append_nil], .inl rfl⟩

end Params

/-! ## The running counts -/

/-- The counts of a setting agree with the answers so far. -/
structure Streak.Counts (streak : Streak) (answers : List Bool) : Prop where
  window : streak.window.toNat = endingPasses answers
  longest : IsGreatest {n | HasPassRun answers n} streak.longest.toNat

namespace Streak.Counts

variable {streak : Streak} {answers : List Bool}

theorem nil : Streak.Counts {} [] where
  window := rfl
  longest := ⟨hasPassRun_zero [], fun _ h => h.le_length⟩

/-- A pass is counted, and the count stays in its word. -/
theorem extended (h : streak.Counts answers) (hlength : answers.length < 4294967295) :
    ∃ longer, streak.extended = .ok longer ∧ longer.Counts (answers ++ [true]) := by
  have hwindow := h.window
  have hle := endingPasses_le_length answers
  have hnext : nextWord streak.window = .ok (streak.window + 1) := nextWord_of_lt (by omega)
  have hvalue : (streak.window + 1).toNat = endingPasses answers + 1 :=
    calc
      (streak.window + 1).toNat = streak.window.toNat + 1 := toNat_of_nextWord_eq_ok hnext
      _ = endingPasses answers + 1 := by rw [hwindow]
  refine ⟨{ window := streak.window + 1, longest := max streak.longest (streak.window + 1) },
    by simp [Streak.extended, hnext, bind, Except.bind, pure, Except.pure], ?_, ?_⟩
  · rw [hvalue, endingPasses_concat_true]
  · have hmax : (max streak.longest (streak.window + 1)).toNat =
        max streak.longest.toNat (endingPasses answers + 1) := by
      rw [toNat_max_word, hvalue]
    have hunion : {n | HasPassRun (answers ++ [true]) n} =
        {n | HasPassRun answers n} ∪ Set.Iic (endingPasses answers + 1) := by
      ext n
      exact hasPassRun_concat_true.trans or_comm
    rw [hmax, hunion]
    exact h.longest.union isGreatest_Iic

theorem longest_concat_false (h : streak.Counts answers) :
    IsGreatest {n | HasPassRun (answers ++ [false]) n} streak.longest.toNat := by
  simpa only [hasPassRun_concat_false] using h.longest

theorem restarted (h : streak.Counts answers) :
    streak.restarted.Counts (answers ++ [false]) where
  window := by simp [Streak.restarted]
  longest := h.longest_concat_false

end Streak.Counts

end TimingEye
