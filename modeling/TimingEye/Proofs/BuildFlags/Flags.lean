import Mathlib.Logic.Relation
import TimingEye.Proofs.BuildFlags.Lines
import TimingEye.Proofs.Text.Trimming

/-!
# Flags of a list

Each line of the list that is not blank is a flag, and there are no other flags.  A line that is not
text ends the step, after the flags of the lines before it.

* `FlagsOf`: the flags of some lines, one for each line that is not blank;
* `flagsIn`, `textFlags`: the flags of some lines and of a whole text, worked out;
* `ListsFlags`: the flags of a file, and how reading it ends;
* `Pads`, `Respaced.textFlags_eq`: white space that makes no difference to the flags of a text.
-/

namespace TimingEye
namespace BuildFlags

/-! ## Flags of lines -/

/-- The flags of some lines.  A blank line has none, and any other is a flag when it is trimmed. -/
inductive FlagsOf : List String → List String → Prop where
  | nil : FlagsOf [] []
  | blank {line : String} {rest found : List String} (hblank : AllBlank line.toList)
      (hrest : FlagsOf rest found) : FlagsOf (line :: rest) found
  | flag {line name : String} {rest found : List String} (hname : TrimsTo line.toList name.toList)
      (hsome : name ≠ "") (hrest : FlagsOf rest found) : FlagsOf (line :: rest) (name :: found)

/-- What trimming leaves of some lines, if it leaves anything. -/
def flagsIn (lines : List String) : List String :=
  (lines.map trim).filter (· ≠ "")

theorem flagsIn_cons (line : String) (rest : List String) :
    flagsIn (line :: rest) =
      if trim line = "" then flagsIn rest else trim line :: flagsIn rest := by
  rw [flagsIn, List.map_cons, List.filter_cons]
  by_cases hline : trim line = ""
  · rw [if_pos hline, if_neg (by simpa using hline)]
    rfl
  · rw [if_neg hline, if_pos (by simpa using hline)]
    rfl

theorem flagsIn_append (first second : List String) :
    flagsIn (first ++ second) = flagsIn first ++ flagsIn second := by
  rw [flagsIn, List.map_append, List.filter_append, flagsIn, flagsIn]

theorem toList_trim (text : String) : (trim text).toList = trimChars text.toList :=
  String.toList_ofList

theorem trim_eq_empty_iff {text : String} : trim text = "" ↔ AllBlank text.toList := by
  rw [← String.toList_eq_nil_iff, toList_trim, trimChars_eq_nil_iff]

theorem flagsOf_flagsIn (lines : List String) : FlagsOf lines (flagsIn lines) := by
  induction lines with
  | nil => exact .nil
  | cons line rest ih =>
    rw [flagsIn_cons]
    by_cases hline : trim line = ""
    · rw [if_pos hline]
      exact .blank (trim_eq_empty_iff.mp hline) ih
    · rw [if_neg hline]
      exact .flag (trimsTo_iff.mpr (toList_trim line).symm) hline ih

theorem FlagsOf.eq_flagsIn {lines found : List String} (h : FlagsOf lines found) :
    found = flagsIn lines := by
  induction h with
  | nil => rfl
  | blank hblank _ ih => rw [flagsIn_cons, if_pos (trim_eq_empty_iff.mpr hblank), ih]
  | @flag line name _ _ hname hsome _ ih =>
    have htrim : trim line = name :=
      String.toList_inj.mp ((toList_trim line).trans (trimsTo_iff.mp hname))
    rw [flagsIn_cons, htrim, if_neg hsome, ih]

/-- A flag has been trimmed, and is a part of its line. -/
theorem trimmed_of_mem_flagsIn {lines : List String} {name : String} (h : name ∈ flagsIn lines) :
    trim name = name ∧ name ≠ "" ∧ ∃ line ∈ lines, ∀ c ∈ name.toList, c ∈ line.toList := by
  rcases List.mem_filter.mp h with ⟨hname, hsome⟩
  rcases List.mem_map.mp hname with ⟨line, hline, rfl⟩
  refine ⟨?_, by simpa using hsome, line, hline, ?_⟩
  · rw [← String.toList_inj, toList_trim, toList_trim, trimChars_trimChars]
  · intro c hc
    rw [toList_trim] at hc
    exact mem_of_mem_trimChars hc

/-- What a flag looks like, wherever it was found. -/
structure IsFlag (name : String) : Prop where
  trimmed : trim name = name
  nonempty : name ≠ ""
  unbroken : '\n' ∉ name.toList

/-- Flags that are put on lines of their own are found again. -/
theorem flagsIn_eq_self {names : List String} (h : ∀ name ∈ names, IsFlag name) :
    flagsIn names = names := by
  have htrim : names.map trim = names := by
    conv_rhs => rw [← List.map_id names]
    exact List.map_congr_left fun name hmem => (h name hmem).trimmed
  rw [flagsIn, htrim]
  exact List.filter_eq_self.mpr fun name hmem => by simpa using (h name hmem).nonempty

/-! ## Flags of a file -/

/-- Lines that are text give their flags, and the lines after them give theirs. -/
theorem flags_append (texts : List String) (rest : List Octets) :
    flags (texts.map Octets.ofString ++ rest) =
      (flagsIn texts ++ (flags rest).1, (flags rest).2) := by
  induction texts with
  | nil => rfl
  | cons text texts ih =>
    have htext : (Octets.ofString text).text? = some text := Octets.text?_eq_some_iff.mpr rfl
    rw [List.map_cons, List.cons_append, flags, htext, ih, flagsIn_cons]
    by_cases hline : trim text = ""
    · simp only [hline, if_true]
    · simp only [hline, if_false, List.cons_append]

theorem flags_of_texts (texts : List String) :
    flags (texts.map Octets.ofString) = (flagsIn texts, none) := by
  have h := flags_append texts []
  rwa [List.append_nil, flags, List.append_nil] at h

/-- The first line that is not text ends the list. -/
theorem flags_of_bad (texts : List String) {bad : Octets}
    (hbad : ∀ text, Octets.ofString text ≠ bad) (rest : List Octets) :
    flags (texts.map Octets.ofString ++ bad :: rest) = (flagsIn texts, some .lineNotText) := by
  have hnone : bad.text? = none := Octets.text?_eq_none_iff.mpr hbad
  rw [flags_append, flags, hnone, List.append_nil]

/-- The flags that a file lists.  Reading it fails at the first line that is not text. -/
inductive ListsFlags (content : Octets) : List String → Option Failure → Prop where
  | complete {texts names : List String} (hlines : SplitsInto content (texts.map Octets.ofString))
      (hflags : FlagsOf texts names) : ListsFlags content names none
  | broken {texts names : List String} {bad : Octets} {rest : List Octets}
      (hlines : SplitsInto content (texts.map Octets.ofString ++ bad :: rest))
      (hbad : ∀ text, Octets.ofString text ≠ bad) (hflags : FlagsOf texts names) :
      ListsFlags content names (some .lineNotText)

theorem exists_listsFlags (content : Octets) :
    ∃ names failure, ListsFlags content names failure := by
  have hlines := splitsInto_lines content
  rcases exists_texts (lines content) with ⟨texts, hfound⟩ | ⟨texts, bad, rest, hfound, hbad⟩
  · rw [hfound] at hlines
    exact ⟨flagsIn texts, none, .complete hlines (flagsOf_flagsIn texts)⟩
  · rw [hfound] at hlines
    exact ⟨flagsIn texts, some .lineNotText, .broken hlines hbad (flagsOf_flagsIn texts)⟩

theorem ListsFlags.eq_flags {content : Octets} {names : List String} {failure : Option Failure}
    (h : ListsFlags content names failure) : flags (lines content) = (names, failure) := by
  cases h with
  | complete hlines hflags => rw [← hlines.eq_lines, flags_of_texts, hflags.eq_flagsIn]
  | broken hlines hbad hflags => rw [← hlines.eq_lines, flags_of_bad _ hbad, hflags.eq_flagsIn]

/-- A file lists the flags that the step finds, and no others. -/
theorem listsFlags_iff {content : Octets} {names : List String} {failure : Option Failure} :
    ListsFlags content names failure ↔ flags (lines content) = (names, failure) := by
  constructor
  · exact ListsFlags.eq_flags
  · intro h
    obtain ⟨_, _, hflags⟩ := exists_listsFlags content
    cases hflags.eq_flags.symm.trans h
    exact hflags

theorem ListsFlags.isFlag {content : Octets} {names : List String} {failure : Option Failure}
    (h : ListsFlags content names failure) {name : String} (hmem : name ∈ names) :
    IsFlag name := by
  obtain ⟨texts, rest, hlines, hflags⟩ : ∃ (texts : List String) (rest : List Octets),
      SplitsInto content (texts.map Octets.ofString ++ rest) ∧ FlagsOf texts names := by
    cases h with
    | complete hlines hflags => exact ⟨_, [], by rwa [List.append_nil], hflags⟩
    | broken hlines _ hflags => exact ⟨_, _, hlines, hflags⟩
  rw [hflags.eq_flagsIn] at hmem
  rcases trimmed_of_mem_flagsIn hmem with ⟨htrim, hsome, line, hline, hpart⟩
  refine ⟨htrim, hsome, fun hfeed => ?_⟩
  exact hlines.notMem (List.mem_append_left _ (List.mem_map_of_mem hline))
    (Octets.lineFeed_mem_ofString_iff.mpr (hpart '\n' hfeed))

/-! ## Flags of a text -/

/-- The flags of a text. -/
def textFlags (chars : List Char) : List String :=
  flagsIn ((chars.splitOn '\n').map String.ofList)

/-- That there is an empty part behind the last line feed makes no difference. -/
theorem flags_concat_nil (found : List Octets) : flags (found ++ [[]]) = flags found := by
  induction found with
  | nil => exact flags_of_texts [""]
  | cons line rest ih => rw [List.cons_append, flags, flags, ih]

theorem flags_lines_eq (content : Octets) :
    flags (lines content) = flags (Octets.splitOn 10 content) := by
  rw [lines]
  split
  case isTrue hlast =>
    rw [← flags_concat_nil, List.dropLast_append_getLast? [] hlast]
  case isFalse => rfl

theorem flags_lines_ofString (text : String) :
    flags (lines (Octets.ofString text)) = (textFlags text.toList, none) := by
  have hsplit := Octets.splitOn_ofList text.toList
  rw [String.ofList_toList] at hsplit
  rw [flags_lines_eq, hsplit, textFlags, ← flags_of_texts, List.map_map]
  rfl

theorem textFlags_append_cons (first second : List Char) :
    textFlags (first ++ '\n' :: second) = textFlags first ++ textFlags second := by
  rw [textFlags, List.splitOn_append_cons_self, List.map_append, flagsIn_append, textFlags,
    textFlags]

/-- A text without a line feed is one line, and the same line when blank characters are added. -/
theorem textFlags_congr {first second : List Char} (hfirst : '\n' ∉ first) (hsecond : '\n' ∉ second)
    (h : trimChars first = trimChars second) : textFlags first = textFlags second := by
  have htrim : trim (String.ofList first) = trim (String.ofList second) := by
    rw [trim, trim, String.toList_ofList, String.toList_ofList, h]
  rw [textFlags, textFlags, List.splitOn_eq_singleton hfirst, List.splitOn_eq_singleton hsecond,
    List.map_singleton, List.map_singleton, flagsIn_cons, flagsIn_cons, htrim]

/-- A list is read to its end if it is text, and only then. -/
theorem ListsFlags.failure_eq_none_iff {content : Octets} {names : List String}
    {failure : Option Failure} (h : ListsFlags content names failure) :
    failure = none ↔ ∃ text, content = Octets.ofString text := by
  constructor
  · rintro rfl
    cases h with
    | complete hlines _ => exact hlines.exists_text
  · rintro ⟨text, rfl⟩
    exact congrArg Prod.snd (h.eq_flags.symm.trans (flags_lines_ofString text))

/-! ## White space -/

theorem textFlags_cons_of_blank {c : Char} (hc : isBlank c = true) (chars : List Char) :
    textFlags (c :: chars) = textFlags chars := by
  by_cases hfeed : c = '\n'
  · subst hfeed
    exact textFlags_append_cons [] chars
  · -- The character belongs to the first line, whether another one follows or not.
    have hfirst : ∀ {line : List Char}, '\n' ∉ line → textFlags (c :: line) = textFlags line :=
      fun hline => textFlags_congr (List.not_mem_cons_of_ne_of_not_mem (Ne.symm hfeed) hline) hline
        (trimChars_append_left (List.forall_mem_singleton.mpr hc) _)
    cases chars using separator_induction '\n' with
    | last line hline => exact hfirst hline
    | cut line rest hline _ =>
      rw [← List.cons_append, textFlags_append_cons, hfirst hline, textFlags_append_cons]

theorem textFlags_concat_of_blank {c : Char} (hc : isBlank c = true) (chars : List Char) :
    textFlags (chars ++ [c]) = textFlags chars := by
  by_cases hfeed : c = '\n'
  · subst hfeed
    exact (textFlags_append_cons chars []).trans (List.append_nil _)
  · -- The character belongs to the last line, which the induction gets to.
    induction chars using separator_induction '\n' with
    | last line hline =>
      have hsame : '\n' ∉ line ++ [c] :=
        List.not_mem_append hline (mt List.mem_singleton.mp (Ne.symm hfeed))
      exact textFlags_congr hsame hline
        (trimChars_append_right (List.forall_mem_singleton.mpr hc) line)
    | cut line rest _ ih =>
      rw [List.append_assoc, List.cons_append, textFlags_append_cons, textFlags_append_cons, ih]

theorem textFlags_append_left {blank : List Char} (h : AllBlank blank) (chars : List Char) :
    textFlags (blank ++ chars) = textFlags chars := by
  induction blank with
  | nil => rfl
  | cons c rest ih =>
    rcases List.forall_mem_cons.mp h with ⟨hc, hrest⟩
    rw [List.cons_append, textFlags_cons_of_blank hc, ih hrest]

theorem textFlags_append_right {blank : List Char} (h : AllBlank blank) (chars : List Char) :
    textFlags (chars ++ blank) = textFlags chars := by
  induction blank generalizing chars with
  | nil => rw [List.append_nil]
  | cons c rest ih =>
    rcases List.forall_mem_cons.mp h with ⟨hc, hrest⟩
    rw [← List.singleton_append, ← List.append_assoc, ih hrest, textFlags_concat_of_blank hc]

/-- The second text is the first one with white space added at the start or at the end of a line.
White space with line feeds in it makes blank lines, or ends the last line; a carriage return before
a line feed is white space at the end of a line. -/
inductive Pads : List Char → List Char → Prop where
  | front {blank : List Char} (hblank : AllBlank blank) (text : List Char) :
      Pads text (blank ++ text)
  | back {blank : List Char} (hblank : AllBlank blank) (text : List Char) :
      Pads text (text ++ blank)
  | afterLines {text padded : List Char} (earlier : List Char) (h : Pads text padded) :
      Pads (earlier ++ '\n' :: text) (earlier ++ '\n' :: padded)
  | beforeLines {text padded : List Char} (later : List Char) (h : Pads text padded) :
      Pads (text ++ '\n' :: later) (padded ++ '\n' :: later)

theorem Pads.textFlags_eq {text padded : List Char} (h : Pads text padded) :
    textFlags text = textFlags padded := by
  induction h with
  | front hblank text => exact (textFlags_append_left hblank text).symm
  | back hblank text => exact (textFlags_append_right hblank text).symm
  | afterLines earlier _ ih => rw [textFlags_append_cons, textFlags_append_cons, ih]
  | beforeLines later _ ih => rw [textFlags_append_cons, textFlags_append_cons, ih]

/-- White space is added or taken away any number of times. -/
def Respaced : List Char → List Char → Prop :=
  Relation.EqvGen Pads

theorem Respaced.textFlags_eq {text other : List Char} (h : Respaced text other) :
    textFlags text = textFlags other := by
  induction h with
  | rel _ _ hpads => exact hpads.textFlags_eq
  | refl _ => rfl
  | symm _ _ _ ih => exact ih.symm
  | trans _ _ _ _ _ first second => exact first.trans second

theorem ListsFlags.respaced {text respaced : String} {names : List String}
    {failure : Option Failure} (h : ListsFlags (Octets.ofString text) names failure)
    (hspace : Respaced text.toList respaced.toList) :
    ListsFlags (Octets.ofString respaced) names failure := by
  apply listsFlags_iff.mpr
  rw [flags_lines_ofString, ← hspace.textFlags_eq, ← flags_lines_ofString, h.eq_flags]

end BuildFlags
end TimingEye
