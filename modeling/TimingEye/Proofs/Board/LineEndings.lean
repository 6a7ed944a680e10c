import TimingEye.Proofs.Board.Outcome
import TimingEye.Proofs.Board.Telling
import TimingEye.Proofs.Board.WaitLength
import TimingEye.Proofs.Text.Encoding

/-!
# Line endings

A terminal expects each line to end with a carriage return and a line feed, in this order.  The
console sends both of them, but the line feed first.

* `Console.withLineEnding`: a text with its lines ended in some other way;
* `Console.EndsLines`: how the lines end of what is sent of a text;
* `console_ends_lines`: what the console of any board sends.
-/

namespace TimingEye
namespace Board
namespace Console

/-! ## Octets -/

theorem octets_eq_flatMap (text : String) :
    octets text = text.toList.flatMap String.utf8EncodeChar :=
  toList_toByteArray text

theorem ne_lineFeed_of_mem {char : Char} (hchar : char ≠ '\n') {octet : UInt8}
    (h : octet ∈ String.utf8EncodeChar char) : octet ≠ lineFeed := by
  rintro rfl
  exact hchar (lineFeed_mem_utf8EncodeChar_iff.mp h)

/-! ## Lines -/

/-- A text, each of its lines ended in a given way instead of by a line feed. -/
def withLineEnding (ending : List Char) (text : String) : String :=
  String.ofList (text.toList.flatMap fun char => if char = '\n' then ending else [char])

theorem octets_withLineEnding (ending : List Char) (text : String) :
    octets (withLineEnding ending text) = text.toList.flatMap fun char =>
      if char = '\n' then ending.flatMap String.utf8EncodeChar else String.utf8EncodeChar char := by
  rw [octets_eq_flatMap, withLineEnding, String.toList_ofList, List.flatMap_assoc]
  congr 1
  funext char
  split
  · rfl
  · exact List.flatMap_singleton _ _

/-- What is sent for the octets of a character. -/
theorem flatMap_wireOctet (char : Char) :
    (String.utf8EncodeChar char).flatMap wireOctet =
      if char = '\n' then ['\n', '\r'].flatMap String.utf8EncodeChar
      else String.utf8EncodeChar char := by
  by_cases hchar : char = '\n'
  · subst hchar
    rfl
  · have hsingle : ∀ octet ∈ String.utf8EncodeChar char, wireOctet octet = [octet] :=
      fun octet hmem => if_neg (ne_lineFeed_of_mem hchar hmem)
    rw [if_neg hchar, List.flatMap_congr hsingle, List.flatMap_singleton']

/-- Each line of a text is sent with a line feed and a carriage return at its end. -/
theorem wire_eq_octets (text : String) :
    wire text = octets (withLineEnding ['\n', '\r'] text) := by
  rw [wire, octets_eq_flatMap, octets_withLineEnding, List.flatMap_assoc]
  congr 1
  funext char
  exact flatMap_wireOctet char

/-- Whatever is sent, a carriage return comes next to a line feed. -/
theorem followed_of_flatMap {octets earlier later : List UInt8}
    (h : octets.flatMap wireOctet = earlier ++ lineFeed :: later) :
    ∃ rest, later = carriageReturn :: rest := by
  induction octets generalizing earlier with
  | nil => simp at h
  | cons octet rest ih =>
    rw [List.flatMap_cons, wireOctet] at h
    split at h
    · -- The line feed in question is the first octet, or it is one of the rest.
      rcases earlier with _ | ⟨first, _ | ⟨second, earlier⟩⟩
      · exact ⟨_, (List.tail_eq_of_cons_eq h).symm⟩
      · have hsecond := List.head_eq_of_cons_eq (List.tail_eq_of_cons_eq h)
        exact absurd hsecond (by decide)
      · exact ih (List.tail_eq_of_cons_eq (List.tail_eq_of_cons_eq h))
    · rename_i hoctet
      rcases earlier with _ | ⟨first, earlier⟩
      · exact absurd (List.head_eq_of_cons_eq h) hoctet
      · exact ih (List.tail_eq_of_cons_eq h)

/-- A text without line feeds is the same however its lines are to end. -/
theorem withLineEnding_of_notMem {text : String} (h : '\n' ∉ text.toList) (ending : List Char) :
    withLineEnding ending text = text := by
  have hsame : ∀ char ∈ text.toList, (if char = '\n' then ending else [char]) = [char] := by
    rintro char hmem
    apply if_neg
    rintro rfl
    exact h hmem
  rw [withLineEnding, List.flatMap_congr hsame, List.flatMap_singleton', String.ofList_toList]

/-- Whether a line feed comes before a carriage return or after it can be told from the first one
on. -/
theorem octets_withLineEnding_ne {text : String} (h : '\n' ∈ text.toList) :
    octets (withLineEnding ['\n', '\r'] text) ≠ octets (withLineEnding ['\r', '\n'] text) := by
  rcases List.eq_append_cons_of_mem h with ⟨before, after, htext, hbefore⟩
  have hline : ∀ ending, octets (withLineEnding ending text) =
      before.flatMap String.utf8EncodeChar ++ (ending.flatMap String.utf8EncodeChar ++
        octets (withLineEnding ending (String.ofList after))) := by
    intro ending
    have hsame : ∀ char ∈ before, (if char = '\n' then ending.flatMap String.utf8EncodeChar
        else String.utf8EncodeChar char) = String.utf8EncodeChar char := by
      rintro char hmem
      apply if_neg
      rintro rfl
      exact hbefore hmem
    rw [octets_withLineEnding, octets_withLineEnding, htext, String.toList_ofList,
      List.flatMap_append, List.flatMap_cons, if_pos rfl, List.flatMap_congr hsame]
  rw [hline, hline]
  intro hsame
  have hhead := List.head_eq_of_cons_eq (List.append_cancel_left hsame)
  exact absurd hhead (by decide)

/-- How the lines end of what is sent of a text. -/
structure EndsLines (text : String) : Prop where
  /-- What is sent is the text, with a carriage return right after each line feed. -/
  sent : wire text = octets (withLineEnding ['\n', '\r'] text)
  followed : ∀ earlier later, wire text = earlier ++ lineFeed :: later →
    ∃ rest, later = carriageReturn :: rest
  /-- A terminal expects it right before each line feed, and so gets what it expects only if there
  is none. -/
  expected : wire text = octets (withLineEnding ['\r', '\n'] text) ↔ '\n' ∉ text.toList

theorem endsLines (text : String) : EndsLines text := by
  constructor
  case sent => exact wire_eq_octets text
  case followed =>
    intro earlier later hwire
    exact followed_of_flatMap hwire
  case expected =>
    rw [wire_eq_octets]
    constructor
    · intro hsame hfeed
      exact octets_withLineEnding_ne hfeed hsame
    · intro hnone
      rw [withLineEnding_of_notMem hnone, withLineEnding_of_notMem hnone]

end Console

/-! ## Consoles -/

theorem sent_of_printAll {variant : Variant} {pieces : List String} {before after : Soc}
    (h : Console.printAll variant pieces before = .ok () after) :
    after.sent.toList = before.sent.toList ++
      if variant.uart then Console.wire (String.join pieces) else [] := by
  have hsent := ((ends_printAll variant pieces before).of_ok h).sent
  by_cases huart : variant.uart = true
  · rw [hsent, if_pos huart, Variant.sends_of_uart huart]
  · rw [hsent, if_neg huart, Variant.sends, if_neg huart]

/-- A text is printed as long as the line clears again and again. -/
theorem exists_printAll {soc : Soc} (hline : soc.LineClears) :
    ∃ bound, ∀ patience ≥ bound, ∀ (variant : Variant) (pieces : List String), ∃ after,
      Console.printAll variant pieces (soc.watchedFor patience) = .ok () after := by
  rcases Soc.exists_clearsWithin hline with ⟨gap, hgap⟩
  refine ⟨gap, ?_⟩
  intro patience hpatience variant pieces
  have hready : (soc.watchedFor patience).Ready ⟨True, gap, soc.tick, patience⟩ :=
    ⟨fun _ => hgap, rfl, rfl, le_rfl⟩
  have htalks : variant.uart = true → (⟨True, gap, soc.tick, patience⟩ : Conditions).talks :=
    fun _ => trivial
  rcases goes_printAll htalks pieces _ hready hpatience with ⟨_, _, after, hrun, _⟩
  exact ⟨after, hrun⟩

/-- However a text is cut into pieces, all of it is sent, its lines ended by a line feed and a
carriage return, in this order.  A terminal expects the opposite order, so it gets what it expects
only of a text without line feeds.  A line that clears again and again does not keep any text from
being sent. -/
theorem console_ends_lines (variant : Variant) (soc : Soc) :
    (∀ pieces after, Console.printAll variant pieces soc = .ok () after →
      Console.EndsLines (String.join pieces) ∧ after.sent.toList = soc.sent.toList ++
        if variant.uart then Console.wire (String.join pieces) else []) ∧
    (soc.LineClears → ∃ bound, ∀ patience ≥ bound, ∀ pieces, ∃ after,
      Console.printAll variant pieces (soc.watchedFor patience) = .ok () after) := by
  constructor
  · intro pieces after hrun
    exact ⟨Console.endsLines _, sent_of_printAll hrun⟩
  · intro hline
    rcases exists_printAll hline with ⟨bound, hbound⟩
    exact ⟨bound, fun patience hpatience => hbound patience hpatience variant⟩

/-- A fresh board sends a line feed before a carriage return. -/
theorem line_feed_comes_first :
    ¬∀ (pieces : List String) (soc after : Soc), soc.LineClears →
      Console.printAll .full pieces soc = .ok () after → after.sent.toList =
        soc.sent.toList ++
          Console.octets (Console.withLineEnding ['\r', '\n'] (String.join pieces)) := by
  intro h
  obtain ⟨after, hrun, hsent⟩ : ∃ after,
      Console.printAll .full ["\n"] ({ patience := 20000 } : Soc) = .ok () after ∧
        after.sent.toList = [10, 13] := ⟨_, rfl, rfl⟩
  have hexpected := h ["\n"] { patience := 20000 } after (lineClears_of_fresh 0 20000) hrun
  rw [hsent] at hexpected
  exact absurd hexpected (by decide)

end Board
end TimingEye
