import Mathlib.Data.List.Basic

/-!
# Texts and their octets

A text is encoded in octets, character by character, and found again in them.

* `fromUTF8?_eq_some_iff`: octets are taken for the text that they encode, and for no other;
* `toList_toByteArray`: the octets of a text are those of its characters;
* `lineFeed_mem_utf8EncodeChar_iff`: the octet of a line feed stands for nothing else;
* `splitOn_lines`: lines that are put together are found again;
* `separator_induction`: induction on a text, line by line;
* `lineFeed_notMem_of_mem_splitOn`: what is found has no line feed in it.
-/

namespace TimingEye

theorem fromUTF8?_eq_some_iff {octets : ByteArray} {text : String} :
    String.fromUTF8? octets = some text ↔ text.toByteArray = octets := by
  rw [String.fromUTF8?]
  constructor
  · intro h
    split at h
    case isTrue =>
      cases h
      rfl
    case isFalse => cases h
  · rintro rfl
    rw [dif_pos text.isValidUTF8]
    rfl

theorem toList_toByteArray (text : String) :
    text.toByteArray.data.toList = text.toList.flatMap String.utf8EncodeChar := by
  rw [← String.utf8Encode_toList, List.utf8Encode, List.data_toByteArray]

/-- All octets of longer encodings are large, so a line feed stands for nothing but itself. -/
theorem lineFeed_mem_utf8EncodeChar_iff {char : Char} :
    (10 : UInt8) ∈ String.utf8EncodeChar char ↔ char = '\n' := by
  constructor
  · intro h
    -- Each octet is a number below 256, and the cases tell which one it is.
    have hcode : ∃ code, (10 : UInt8) = UInt8.ofNat code ∧ code < 256 ∧
        (code = 10 → char.val.toNat = 10) := by
      simp only [String.utf8EncodeChar] at h
      split at h
      · exact ⟨_, List.mem_singleton.mp h, by omega, id⟩
      · split at h
        · simp only [List.mem_cons, List.not_mem_nil, or_false] at h
          rcases h with h | h <;> exact ⟨_, h, by omega, by omega⟩
        · split at h
          · simp only [List.mem_cons, List.not_mem_nil, or_false] at h
            rcases h with h | h | h <;> exact ⟨_, h, by omega, by omega⟩
          · simp only [List.mem_cons, List.not_mem_nil, or_false] at h
            rcases h with h | h | h | h <;> exact ⟨_, h, by omega, by omega⟩
    rcases hcode with ⟨code, hoctet, hbound, hchar⟩
    have hnat : (10 : UInt8).toNat = (UInt8.ofNat code).toNat := congrArg UInt8.toNat hoctet
    rw [UInt8.toNat_ofNat_of_lt' hbound] at hnat
    exact Char.ext (UInt32.toNat_inj.mp (hchar hnat.symm))
  · rintro rfl
    decide

/-- Lines that end with a line feed and hold no other are found again. -/
theorem splitOn_lines {lines : List (List Char)} (h : ∀ line ∈ lines, '\n' ∉ line) :
    (lines.flatMap (· ++ ['\n'])).splitOn '\n' = lines ++ [[]] := by
  induction lines with
  | nil => rfl
  | cons line rest ih =>
    rcases List.forall_mem_cons.mp h with ⟨hline, hrest⟩
    rw [List.flatMap_cons, List.append_assoc, List.singleton_append,
      List.splitOn_append_cons_self_of_not_mem hline, ih hrest]
    rfl

/-- A list has no separator in it, or something holds of what comes behind the first one. -/
@[elab_as_elim]
theorem separator_induction {α : Type} [DecidableEq α] {motive : List α → Prop} (separator : α)
    (last : ∀ line, separator ∉ line → motive line)
    (cut : ∀ line rest, separator ∉ line → motive rest → motive (line ++ separator :: rest))
    (list : List α) : motive list := by
  by_cases hmore : separator ∈ list
  · obtain ⟨line, rest, hlist, hline⟩ := List.eq_append_cons_of_mem hmore
    rw [hlist]
    exact cut line rest hline (separator_induction separator last cut rest)
  · exact last list hmore
termination_by list.length
decreasing_by
  rw [hlist, List.length_append, List.length_cons]
  omega

/-- A part between line feeds holds none. -/
theorem lineFeed_notMem_of_mem_splitOn {chars part : List Char} (h : part ∈ chars.splitOn '\n') :
    '\n' ∉ part := by
  induction chars using separator_induction '\n' with
  | last line hline =>
    rw [List.splitOn_eq_singleton hline] at h
    rwa [List.mem_singleton.mp h]
  | cut line rest hline ih =>
    rw [List.splitOn_append_cons_self_of_not_mem hline] at h
    rcases List.mem_cons.mp h with rfl | h
    · exact hline
    · exact ih h

end TimingEye
