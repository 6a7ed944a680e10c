import Mathlib.Data.List.DropRight
import TimingEye.Text.Blank

/-!
# Trimmed texts

Trimming takes the blank characters at both ends of a text away, and leaves what is between them as
it is.

* `trimEnd_eq_rdropWhile`: trimming at the end is dropping from the right;
* `TrimsTo`: a text with blank characters around what is left of it;
* `trimsTo_iff`: trimming leaves just that, and nothing else could be left;
* `trimChars_append_left`, `trimChars_append_right`: blank characters at either end do not matter.
-/

namespace TimingEye

/-! ## The end of a text -/

/-- Characters all of which are blank. -/
def AllBlank (chars : List Char) : Prop :=
  ∀ c ∈ chars, isBlank c = true

theorem trimEnd_append {after : List Char} (h : AllBlank after) (chars : List Char) :
    trimEnd (chars ++ after) = trimEnd chars := by
  induction chars with
  | nil => exact (trimEnd_eq_nil_iff after).mpr h
  | cons c rest ih => rw [List.cons_append, trimEnd, trimEnd, ih]

theorem trimEnd_concat_of_not_blank {c : Char} (h : ¬isBlank c = true) (chars : List Char) :
    trimEnd (chars ++ [c]) = chars ++ [c] := by
  induction chars with
  | nil => exact if_neg h
  | cons d rest ih =>
    rw [List.cons_append, trimEnd, ih]
    cases hrest : rest ++ [c] with
    | nil => exact absurd hrest (List.append_ne_nil_of_right_ne_nil rest (List.cons_ne_nil c []))
    | cons e kept => rfl

theorem trimEnd_eq_rdropWhile (chars : List Char) : trimEnd chars = chars.rdropWhile isBlank := by
  induction chars using List.reverseRecOn with
  | nil => rfl
  | append_singleton chars c ih =>
    by_cases hc : isBlank c = true
    · rw [List.rdropWhile_concat_pos _ _ _ hc, ← ih]
      exact trimEnd_append (List.forall_mem_singleton.mpr hc) chars
    · rw [List.rdropWhile_concat_neg _ _ _ hc, trimEnd_concat_of_not_blank hc]

/-! ## Both ends -/

/-- What is left of some characters when the blank ones at both ends are taken away. -/
structure TrimsTo (chars kept : List Char) : Prop where
  surrounded : ∃ before after,
    chars = before ++ (kept ++ after) ∧ AllBlank before ∧ AllBlank after
  head : ∀ c ∈ kept.head?, isBlank c = false
  last : ∀ c ∈ kept.getLast?, isBlank c = false

theorem trimsTo_trimChars (chars : List Char) : TrimsTo chars (trimChars chars) := by
  have hkept : trimChars chars = (chars.dropWhile isBlank).rdropWhile isBlank :=
    trimEnd_eq_rdropWhile _
  have hrest : chars.dropWhile isBlank =
      trimChars chars ++ (chars.dropWhile isBlank).rtakeWhile isBlank := by
    rw [hkept, List.rdropWhile_append_rtakeWhile]
  constructor
  case surrounded =>
    refine ⟨chars.takeWhile isBlank, (chars.dropWhile isBlank).rtakeWhile isBlank, ?_, ?_, ?_⟩
    · rw [← hrest, List.takeWhile_append_dropWhile]
    · exact fun c hmem => List.mem_takeWhile_imp hmem
    · exact fun c hmem => List.mem_rtakeWhile_imp hmem
  case head =>
    -- What is left begins where the first characters have been dropped.
    intro c hhead
    have hdropped := List.head?_dropWhile_not isBlank chars
    rw [hrest, List.head?_append, Option.mem_def.mp hhead] at hdropped
    exact hdropped
  case last =>
    intro c hlast
    have hne : (chars.dropWhile isBlank).rdropWhile isBlank ≠ [] := by
      intro hnone
      rw [hkept, hnone] at hlast
      cases hlast
    have hnot := List.rdropWhile_last_not isBlank _ hne
    rw [hkept, List.getLast?_eq_some_getLast hne] at hlast
    cases hlast
    exact Bool.eq_false_iff.mpr hnot

theorem trimsTo_iff {chars kept : List Char} : TrimsTo chars kept ↔ trimChars chars = kept := by
  constructor
  · intro h
    rcases h.surrounded with ⟨before, after, rfl, hbefore, hafter⟩
    rw [trimChars, List.dropWhile_append_of_pos hbefore]
    rcases List.eq_nil_or_concat kept with rfl | ⟨init, last, rfl⟩
    · rw [List.nil_append, List.dropWhile_eq_nil_iff.mpr hafter]
      rfl
    · have hlast : ¬isBlank last = true := by
        refine Bool.eq_false_iff.mp (h.last last ?_)
        rw [List.concat_eq_append, List.getLast?_concat]
        rfl
      have hhead : ((init.concat last) ++ after).dropWhile isBlank = init.concat last ++ after := by
        cases init with
        | nil => exact List.dropWhile_cons_of_neg hlast
        | cons first rest =>
          exact List.dropWhile_cons_of_neg (Bool.eq_false_iff.mp (h.head first rfl))
      rw [hhead, trimEnd_append hafter, List.concat_eq_append, trimEnd_concat_of_not_blank hlast]
  · rintro rfl
    exact trimsTo_trimChars chars

theorem trimChars_append_left {before : List Char} (h : AllBlank before) (chars : List Char) :
    trimChars (before ++ chars) = trimChars chars := by
  rw [trimChars, List.dropWhile_append_of_pos h, trimChars]

theorem trimChars_append_right {after : List Char} (h : AllBlank after) (chars : List Char) :
    trimChars (chars ++ after) = trimChars chars := by
  rcases trimsTo_trimChars chars with ⟨⟨before, rest, hchars, hbefore, hrest⟩, hhead, hlast⟩
  apply trimsTo_iff.mp
  refine ⟨⟨before, rest ++ after, ?_, hbefore, List.forall_mem_append.mpr ⟨hrest, h⟩⟩, hhead, hlast⟩
  rw [← List.append_assoc (trimChars chars), ← List.append_assoc before, ← hchars]

/-- A text is trimmed once and for all. -/
theorem trimChars_trimChars (chars : List Char) :
    trimChars (trimChars chars) = trimChars chars := by
  rcases trimsTo_trimChars chars with ⟨_, hhead, hlast⟩
  have hnone : AllBlank [] := List.forall_mem_nil _
  exact trimsTo_iff.mp ⟨⟨[], [], (List.append_nil _).symm, hnone, hnone⟩, hhead, hlast⟩

theorem trimChars_eq_nil_iff (chars : List Char) : trimChars chars = [] ↔ AllBlank chars := by
  constructor
  · intro h
    rcases (trimsTo_iff.mpr h).surrounded with ⟨before, after, rfl, hbefore, hafter⟩
    exact List.forall_mem_append.mpr ⟨hbefore, hafter⟩
  · intro h
    rw [trimChars, List.dropWhile_eq_nil_iff.mpr h]
    rfl

theorem mem_of_mem_trimChars {c : Char} {chars : List Char} (h : c ∈ trimChars chars) :
    c ∈ chars := by
  rcases (trimsTo_trimChars chars).surrounded with ⟨before, after, hchars, _, _⟩
  rw [hchars]
  exact List.mem_append_right _ (List.mem_append_left _ h)

end TimingEye
