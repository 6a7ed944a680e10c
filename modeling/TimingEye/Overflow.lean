/-!
# Arithmetic that refuses to leave its word

The counters of a calibration live in machine words, and a count that leaves its word is a
fault, never a wrap-around.  Here are the increments and the product that report it:

* `nextOctet`, `nextWord`: one more, or the fault `Overflow.addition`;
* `scaledLong`: a product, or the fault `Overflow.multiplication`.
-/

namespace TimingEye

/-- The operation whose exact result does not fit into its word. -/
inductive Overflow where
  | addition
  | multiplication
  deriving DecidableEq, Repr

namespace Overflow

def message : Overflow → String
  | addition => "attempt to add with overflow"
  | multiplication => "attempt to multiply with overflow"

end Overflow

/-! ## Checked increments -/

/-- One more than an octet, unless it is the largest one. -/
def nextOctet (x : UInt8) : Except Overflow UInt8 :=
  if x.toNat + 1 < UInt8.size then .ok (x + 1) else .error .addition

/-- One more than a 32-bit word, unless it is the largest one. -/
def nextWord (x : UInt32) : Except Overflow UInt32 :=
  if x.toNat + 1 < UInt32.size then .ok (x + 1) else .error .addition

/-- The product of two 64-bit words, unless it needs more bits. -/
def scaledLong (x y : UInt64) : Except Overflow UInt64 :=
  if x.toNat * y.toNat < UInt64.size then .ok (x * y) else .error .multiplication

theorem toNat_max_word (x y : UInt32) : (max x y).toNat = max x.toNat y.toNat := by
  change (if x ≤ y then y else x).toNat = _
  split <;> rename_i h <;> rw [UInt32.le_iff_toNat_le] at h <;> omega

/-! ## When the fault arises -/

theorem nextOctet_of_lt {x : UInt8} (h : x.toNat < 255) : nextOctet x = .ok (x + 1) := by
  have h' : x.toNat + 1 < UInt8.size := by
    change x.toNat + 1 < 256
    omega
  simp [nextOctet, h']

theorem nextWord_of_lt {x : UInt32} (h : x.toNat < 4294967295) :
    nextWord x = .ok (x + 1) := by
  have h' : x.toNat + 1 < UInt32.size := by
    change x.toNat + 1 < 4294967296
    omega
  simp [nextWord, h']

theorem toNat_of_nextOctet_eq_ok {x y : UInt8} (h : nextOctet x = .ok y) :
    y.toNat = x.toNat + 1 := by
  unfold nextOctet at h
  split at h
  · cases h
    rw [UInt8.toNat_add]
    exact Nat.mod_eq_of_lt (by assumption)
  · cases h

theorem toNat_of_nextWord_eq_ok {x y : UInt32} (h : nextWord x = .ok y) :
    y.toNat = x.toNat + 1 := by
  unfold nextWord at h
  split at h
  · cases h
    rw [UInt32.toNat_add]
    exact Nat.mod_eq_of_lt (by assumption)
  · cases h

theorem scaledLong_of_lt {x y : UInt64} (h : x.toNat * y.toNat < 18446744073709551616) :
    scaledLong x y = .ok (x * y) := by
  have h' : x.toNat * y.toNat < UInt64.size := h
  simp [scaledLong, h']

end TimingEye
