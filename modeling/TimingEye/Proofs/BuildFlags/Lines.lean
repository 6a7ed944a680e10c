import TimingEye.BuildFlags.Configuration
import TimingEye.Proofs.Text.Encoding

/-!
# Lines of a file

A file is cut into lines at its line feeds, and the octets behind the last one are a line as well,
if there are any.  Since no other character has the octet of a line feed in it, a text is cut in the
same places.

* `SplitsInto`, `splitsInto_lines`: the lines of a file;
* `splitOn_ofList`: the octets of a text are cut where its characters are;
* `exists_texts`: lines up to the first one that is not text;
* `SplitsInto.exists_text`: a file all of whose lines are text is text.
-/

namespace TimingEye
namespace BuildFlags

namespace Octets

/-! ## Texts -/

theorem text?_eq_some_iff {octets : Octets} {text : String} :
    octets.text? = some text ↔ ofString text = octets := by
  rw [text?, fromUTF8?_eq_some_iff]
  constructor
  · intro h
    rw [ofString, h]
  · rintro rfl
    rfl

theorem text?_eq_none_iff {octets : Octets} :
    octets.text? = none ↔ ∀ text, ofString text ≠ octets := by
  rw [Option.eq_none_iff_forall_not_mem]
  exact forall_congr' fun text => not_congr text?_eq_some_iff

theorem ofString_append (first second : String) :
    ofString (first ++ second) = ofString first ++ ofString second := by
  simp [ofString]

theorem ofString_cons (c : Char) (chars : List Char) :
    ofString (String.ofList (c :: chars)) =
      String.utf8EncodeChar c ++ ofString (String.ofList chars) := by
  rw [ofString, ofString, toList_toByteArray, toList_toByteArray, String.toList_ofList,
    String.toList_ofList, List.flatMap_cons]

theorem ofString_lineFeed : ofString "\n" = [10] := by
  rw [ofString, toList_toByteArray]
  rfl

theorem lineFeed_mem_ofString_iff {text : String} : 10 ∈ ofString text ↔ '\n' ∈ text.toList := by
  rw [ofString, toList_toByteArray, List.mem_flatMap]
  constructor
  · rintro ⟨c, hmem, hfeed⟩
    rwa [lineFeed_mem_utf8EncodeChar_iff.mp hfeed] at hmem
  · exact fun hmem => ⟨'\n', hmem, lineFeed_mem_utf8EncodeChar_iff.mpr rfl⟩

/-! ## Parts -/

theorem splitOn_eq (separator : UInt8) (octets : Octets) :
    splitOn separator octets = List.splitOn separator octets := by
  induction octets with
  | nil => rfl
  | cons octet rest ih =>
    rw [splitOn, List.splitOn_cons_eq_if_modifyHead, ih]
    by_cases hseparator : octet = separator
    · rw [if_pos hseparator, if_pos (beq_iff_eq.mpr hseparator)]
    · rw [if_neg hseparator, if_neg (fun h => hseparator (beq_iff_eq.mp h))]
      cases hparts : List.splitOn separator rest with
      | nil => exact absurd hparts (List.splitOn_ne_nil separator rest)
      | cons part parts => rfl

/-- What comes before the first separator belongs to the first part. -/
theorem splitOn_append_of_notMem {separator : UInt8} {octets : Octets} (h : separator ∉ octets)
    (rest : Octets) :
    List.splitOn separator (octets ++ rest) =
      (List.splitOn separator rest).modifyHead (octets ++ ·) := by
  induction octets with
  | nil => exact (congrFun List.modifyHead_id (List.splitOn separator rest)).symm
  | cons octet octets ih =>
    rcases not_or.mp (mt List.mem_cons.mpr h) with ⟨hoctet, hrest⟩
    rw [List.cons_append, List.splitOn_cons_eq_if_modifyHead, ih hrest,
      if_neg (fun hsame => hoctet (beq_iff_eq.mp hsame).symm), List.modifyHead_modifyHead]
    rfl

/-- The octets of a text are cut where its characters are. -/
theorem splitOn_ofList (chars : List Char) :
    splitOn 10 (ofString (String.ofList chars)) =
      (chars.splitOn '\n').map fun part => ofString (String.ofList part) := by
  rw [splitOn_eq]
  induction chars with
  | nil => rfl
  | cons c rest ih =>
    rw [ofString_cons, List.splitOn_cons_eq_if_modifyHead]
    by_cases hfeed : c = '\n'
    · subst hfeed
      have hfirst : String.utf8EncodeChar '\n' = [10] := by decide
      rw [hfirst, List.singleton_append, List.splitOn_cons_eq_if_modifyHead, ih,
        if_pos (beq_self_eq_true _), if_pos (beq_self_eq_true _)]
      rfl
    · have hnone : (10 : UInt8) ∉ String.utf8EncodeChar c :=
        fun hmem => hfeed (lineFeed_mem_utf8EncodeChar_iff.mp hmem)
      rw [splitOn_append_of_notMem hnone, ih, if_neg (fun h => hfeed (beq_iff_eq.mp h))]
      cases List.splitOn '\n' rest with
      | nil => rfl
      | cons part parts =>
        rw [List.map_cons, List.modifyHead_cons, List.modifyHead_cons, List.map_cons, ofString_cons]

end Octets

/-! ## Lines -/

/-- The lines of a file: each of them ends at a line feed, but the last one need not. -/
inductive SplitsInto : Octets → List Octets → Prop where
  | nil : SplitsInto [] []
  | last {line : Octets} (hfeed : 10 ∉ line) (hsome : line ≠ []) : SplitsInto line [line]
  | cons {line rest : Octets} {lines : List Octets} (hfeed : 10 ∉ line)
      (hrest : SplitsInto rest lines) : SplitsInto (line ++ 10 :: rest) (line :: lines)

theorem lines_of_notMem {line : Octets} (hfeed : 10 ∉ line) :
    lines line = if line = [] then [] else [line] := by
  rw [lines, Octets.splitOn_eq, List.splitOn_eq_singleton hfeed]
  cases line with
  | nil => rfl
  | cons octet rest => exact if_neg (by simp)

theorem lines_append_cons {line : Octets} (hfeed : 10 ∉ line) (rest : Octets) :
    lines (line ++ 10 :: rest) = line :: lines rest := by
  rw [lines, lines, Octets.splitOn_eq, Octets.splitOn_eq,
    List.splitOn_append_cons_self_of_not_mem hfeed]
  cases hparts : List.splitOn 10 rest with
  | nil => exact absurd hparts (List.splitOn_ne_nil 10 rest)
  | cons part parts =>
    -- Whether the last part counts as a line does not depend on the lines before it.
    rw [List.getLast?_cons_cons, List.dropLast_cons_cons]
    split <;> rfl

theorem splitsInto_lines (content : Octets) : SplitsInto content (lines content) := by
  induction content using separator_induction (10 : UInt8) with
  | last line hline =>
    rw [lines_of_notMem hline]
    by_cases hsome : line = []
    · rw [if_pos hsome, hsome]
      exact .nil
    · rw [if_neg hsome]
      exact .last hline hsome
  | cut line rest hline ih =>
    rw [lines_append_cons hline]
    exact .cons hline ih

/-- A file has its lines and no others. -/
theorem SplitsInto.eq_lines {content : Octets} {found : List Octets}
    (h : SplitsInto content found) : found = lines content := by
  induction h with
  | nil => rfl
  | last hfeed hsome => rw [lines_of_notMem hfeed, if_neg hsome]
  | cons hfeed _ ih => rw [lines_append_cons hfeed, ih]

theorem SplitsInto.notMem {content line : Octets} {found : List Octets}
    (h : SplitsInto content found) (hline : line ∈ found) : 10 ∉ line := by
  induction h with
  | nil => cases hline
  | last hfeed _ => rwa [List.mem_singleton.mp hline]
  | cons hfeed _ ih =>
    rcases List.mem_cons.mp hline with rfl | hline
    · exact hfeed
    · exact ih hline

/-! ## Lines that are text -/

/-- All lines are text, or some are up to the first one that is not. -/
theorem exists_texts (found : List Octets) :
    (∃ texts : List String, found = texts.map Octets.ofString) ∨
    ∃ (texts : List String) (bad : Octets) (rest : List Octets),
      found = texts.map Octets.ofString ++ bad :: rest ∧ ∀ text, Octets.ofString text ≠ bad := by
  induction found with
  | nil => exact .inl ⟨[], rfl⟩
  | cons line rest ih =>
    by_cases htext : ∃ text, Octets.ofString text = line
    · rcases htext with ⟨text, rfl⟩
      rcases ih with ⟨texts, rfl⟩ | ⟨texts, bad, rest, rfl, hbad⟩
      · exact .inl ⟨text :: texts, rfl⟩
      · exact .inr ⟨text :: texts, bad, rest, rfl, hbad⟩
    · exact .inr ⟨[], line, rest, rfl, not_exists.mp htext⟩

/-- A file is text if all of its lines are. -/
theorem SplitsInto.exists_text {content : Octets} {texts : List String}
    (h : SplitsInto content (texts.map Octets.ofString)) :
    ∃ text, content = Octets.ofString text := by
  generalize hfound : texts.map Octets.ofString = found at h
  induction h generalizing texts with
  | nil => exact ⟨"", rfl⟩
  | last _ _ =>
    rcases List.map_eq_singleton_iff.mp hfound with ⟨text, _, rfl⟩
    exact ⟨text, rfl⟩
  | cons _ _ ih =>
    rcases List.map_eq_cons_iff.mp hfound with ⟨text, rest, _, rfl, hrest⟩
    rcases ih hrest with ⟨later, rfl⟩
    refine ⟨text ++ "\n" ++ later, ?_⟩
    rw [Octets.ofString_append, Octets.ofString_append, Octets.ofString_lineFeed,
      List.append_assoc, List.singleton_append]

end BuildFlags
end TimingEye
