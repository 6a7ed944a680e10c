import Mathlib.Data.Set.Finite.Lattice
import Mathlib.Data.Set.Finite.List
import TimingEye.Board.Console

/-!
# Waiting for the serial line

A script of the busy flag has finitely many places to be in.  So if the line becomes free again
and again, there is one bound for all the polls that this can take.

* `BusyScript.word`: the words that polls read, one after another;
* `Soc.LineClears`: a line that becomes free again and again;
* `Soc.ClearsWithin`: a line that does so within a number of polls;
* `exists_clearsWithin`: every line of the first kind is of the second.
-/

namespace TimingEye
namespace Board

namespace BusyScript

/-! ## Polls -/

/-- What a poll reads.  When the script is over, that is the word of the register. -/
def head (idle : UInt32) (script : BusyScript) : UInt32 :=
  (script.next.map Prod.fst).getD idle

/-- The script after a poll. -/
def tail (script : BusyScript) : BusyScript :=
  (script.next.map Prod.snd).getD script

/-- What a poll reads after so many others. -/
def word (idle : UInt32) (script : BusyScript) (polls : Nat) : UInt32 :=
  (tail^[polls] script).head idle

theorem word_tail (idle : UInt32) (script : BusyScript) (polls : Nat) :
    script.tail.word idle polls = script.word idle (polls + 1) := by
  rw [word, word, Function.iterate_succ_apply]

/-! ## Places of a script -/

/-- The places that a script can get to: it goes through what is pending, and then through what
comes again. -/
def places (script : BusyScript) : Set BusyScript :=
  {place | place.again = script.again ∧
    (place.pending <:+ script.pending ∨ place.pending <:+ script.again)}

theorem finite_places (script : BusyScript) : script.places.Finite := by
  have hsuffixes : {pending | pending <:+ script.pending ∨ pending <:+ script.again}.Finite := by
    have hlist := List.finite_toSet (script.pending.tails ++ script.again.tails)
    apply hlist.subset
    intro pending hpending
    simpa using hpending
  apply (hsuffixes.image fun pending => { script with pending }).subset
  rintro ⟨pending, again⟩ ⟨rfl, hpending⟩
  exact ⟨pending, hpending, rfl⟩

theorem tail_mem_places {script place : BusyScript} (h : place ∈ script.places) :
    place.tail ∈ script.places := by
  rcases place with ⟨pending, again⟩
  rcases h with ⟨rfl, hpending⟩
  cases pending with
  | cons word rest =>
    -- What is left of a suffix is a suffix.
    have hrest : rest <:+ word :: rest := List.suffix_cons word rest
    exact ⟨rfl, hpending.imp hrest.trans hrest.trans⟩
  | nil =>
    rcases script with ⟨pending, again⟩
    cases again with
    | nil => exact ⟨rfl, .inl List.nil_suffix⟩
    | cons word rest => exact ⟨rfl, .inr (List.suffix_cons word rest)⟩

theorem iterate_tail_mem_places (script : BusyScript) (polls : Nat) :
    tail^[polls] script ∈ script.places := by
  induction polls with
  | zero => exact ⟨rfl, .inl List.suffix_rfl⟩
  | succ polls ih =>
    rw [Function.iterate_succ_apply']
    exact tail_mem_places ih

end BusyScript

namespace Soc

/-! ## Free lines -/

/-- What polls of a board read, one after another. -/
def polled (soc : Soc) (polls : Nat) : UInt32 :=
  soc.busy.word (soc.csrs.word .uartTxfull) polls

/-- However often the line has been polled, some later poll finds it free. -/
def LineClears (soc : Soc) : Prop :=
  ∀ polls, ∃ more, (soc.polled (polls + more)).toUInt8 = 0

/-- However often the line has been polled, one of so many polls after that finds it free. -/
def ClearsWithin (soc : Soc) (gap : Nat) : Prop :=
  ∀ polls, ∃ more < gap, (soc.polled (polls + more)).toUInt8 = 0

/-- There is one bound for all the polls that it takes the line to become free. -/
theorem exists_clearsWithin {soc : Soc} (h : soc.LineClears) : ∃ gap, soc.ClearsWithin gap := by
  -- From each place that the script gets to, the line becomes free in so many polls.
  have hplace : ∀ place ∈ Set.range (BusyScript.tail^[·] soc.busy), ∃ more,
      (place.word (soc.csrs.word .uartTxfull) more).toUInt8 = 0 := by
    rintro _ ⟨polls, rfl⟩
    rcases h polls with ⟨more, hmore⟩
    refine ⟨more, ?_⟩
    rw [polled, BusyScript.word, Nat.add_comm, Function.iterate_add_apply] at hmore
    exact hmore
  choose! more hmore using hplace
  have hfinite : (Set.range (BusyScript.tail^[·] soc.busy)).Finite := by
    apply soc.busy.finite_places.subset
    rintro _ ⟨polls, rfl⟩
    exact soc.busy.iterate_tail_mem_places polls
  rcases (hfinite.image more).bddAbove with ⟨bound, hbound⟩
  refine ⟨bound + 1, ?_⟩
  intro polls
  have hreached : BusyScript.tail^[polls] soc.busy ∈ Set.range (BusyScript.tail^[·] soc.busy) :=
    ⟨polls, rfl⟩
  have hle := hbound (Set.mem_image_of_mem more hreached)
  refine ⟨_, Nat.lt_succ_of_le hle, ?_⟩
  have hclear := hmore _ hreached
  rw [polled, BusyScript.word, Nat.add_comm, Function.iterate_add_apply]
  exact hclear

end Soc

end Board
end TimingEye
