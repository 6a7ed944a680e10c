/-!
# Blank text

A character is blank if it has the Unicode property of white space; there are twenty-five of
them.  `trim` removes blank characters at both ends of a text and none within.
-/

namespace TimingEye

def isBlank (c : Char) : Bool :=
  let code := c.toNat
  (0x09 ≤ code && code ≤ 0x0D) || code == 0x20 || code == 0x85 || code == 0xA0
    || code == 0x1680 || (0x2000 ≤ code && code ≤ 0x200A) || code == 0x2028 || code == 0x2029
    || code == 0x202F || code == 0x205F || code == 0x3000

/-- Characters without the blank ones at the end. -/
def trimEnd : List Char → List Char
  | [] => []
  | c :: rest =>
    match trimEnd rest with
    | [] => if isBlank c then [] else [c]
    | kept => c :: kept

/-- Characters without the blank ones at either end. -/
def trimChars (chars : List Char) : List Char :=
  trimEnd (chars.dropWhile isBlank)

def trim (text : String) : String :=
  String.ofList (trimChars text.toList)

/-- Nothing is left of a text exactly when all of it is blank. -/
theorem trimEnd_eq_nil_iff (chars : List Char) :
    trimEnd chars = [] ↔ ∀ c ∈ chars, isBlank c := by
  induction chars with
  | nil => simp [trimEnd]
  | cons c rest ih =>
    simp only [trimEnd, List.forall_mem_cons]
    cases hrest : trimEnd rest with
    | nil =>
      have hall : ∀ x ∈ rest, isBlank x := ih.mp hrest
      by_cases hc : isBlank c = true <;> simp [hc]
      exact hall
    | cons d kept =>
      have hsome : ¬ ∀ x ∈ rest, isBlank x := fun hall => by
        rw [ih.mpr hall] at hrest
        cases hrest
      constructor
      · intro h
        cases h
      · intro h
        exact absurd h.2 hsome

end TimingEye
