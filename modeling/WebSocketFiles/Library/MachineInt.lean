import Mathlib

/-!
# Fixed-width integer conversions

The conversions a C program performs silently when a value moves between
`int`, `uint32_t`, `int64_t`, `uint64_t` and `size_t`.  Values are kept as
`Int` or `Nat`; each conversion reduces modulo the width and, for the signed
types, picks the two's complement representative.  The lemmas below say that a
value already in range is unchanged, which is how every bounded computation
gets rid of the conversions.

The large summand stands on the left, so that a conversion of an open term is
stuck and is never evaluated by counting.
-/

namespace MachineInt

/-- Conversion to `int32_t` (and `int`). -/
def toInt32 (z : Int) : Int :=
  (2147483648 + z) % 4294967296 - 2147483648

/-- Conversion to `uint32_t`. -/
def toUInt32 (z : Int) : Nat :=
  (z % 4294967296).toNat

/-- Conversion to `int64_t`. -/
def toInt64 (z : Int) : Int :=
  (9223372036854775808 + z) % 18446744073709551616 - 9223372036854775808

/-- Conversion to `uint64_t` (and `size_t`). -/
def toUInt64 (z : Int) : Nat :=
  (z % 18446744073709551616).toNat

theorem toInt32_of_lt {z : Int} (hNonneg : 0 ≤ z) (hLt : z < 2147483648) :
    toInt32 z = z := by
  unfold toInt32
  omega

/-- Between `2^31` and `2^32` the conversion to `int` turns negative. -/
theorem toInt32_neg {z : Int} (hLow : 2147483648 ≤ z) (hHigh : z < 4294967296) :
    toInt32 z = z - 4294967296 := by
  unfold toInt32
  omega

/-- The conversion to `int` never makes a natural number larger. -/
theorem toInt32_le (n : Nat) : toInt32 n ≤ n := by
  unfold toInt32
  omega

theorem toInt32_lt (z : Int) : toInt32 z < 2147483648 := by
  unfold toInt32
  omega

/-- Which numbers `int` holds. -/
theorem toInt32_eq_self_iff (n : Nat) : toInt32 n = n ↔ n < 2147483648 := by
  unfold toInt32
  omega

theorem toInt32_eq_neg_one_iff (n : Nat) : toInt32 n = -1 ↔ n % 4294967296 = 4294967295 := by
  unfold toInt32
  omega

/-- The conversion to `int` looks at the number modulo `2^32`. -/
theorem toInt32_mod (n : Nat) : toInt32 (n % 4294967296 : Nat) = toInt32 n := by
  unfold toInt32
  omega

theorem toUInt32_of_lt {z : Int} (hNonneg : 0 ≤ z) (hLt : z < 4294967296) :
    toUInt32 z = z.toNat := by
  unfold toUInt32
  omega

/-- A small negative number converts to a huge unsigned one. -/
theorem toUInt32_neg {z : Int} (hNeg : z < 0) (hLow : -4294967296 ≤ z) :
    toUInt32 z = (z + 4294967296).toNat := by
  unfold toUInt32
  omega

theorem toInt64_of_lt {z : Int} (hNonneg : 0 ≤ z) (hLt : z < 9223372036854775808) :
    toInt64 z = z := by
  unfold toInt64
  omega

theorem toUInt64_of_lt {z : Int} (hNonneg : 0 ≤ z) (hLt : z < 18446744073709551616) :
    toUInt64 z = z.toNat := by
  unfold toUInt64
  omega

theorem toUInt64_neg {z : Int} (hNeg : z < 0) (hLow : -18446744073709551616 ≤ z) :
    toUInt64 z = (z + 18446744073709551616).toNat := by
  unfold toUInt64
  omega

/-- A `ssize_t` that is not negative survives the way through `int` to `size_t`
when it is an `int`. -/
theorem toUInt64_toInt32_eq_iff {n : Nat} (hLt : n < 9223372036854775808) :
    toUInt64 (toInt32 n) = n ↔ n < 2147483648 := by
  unfold toUInt64 toInt32
  omega

@[simp] theorem toInt32_zero : toInt32 0 = 0 := rfl

@[simp] theorem toUInt32_zero : toUInt32 0 = 0 := rfl

/-- The subtraction `len - oft` of a signed length and an unsigned cursor, done in
`uint32_t`, is the true difference modulo `2^32` as long as the cursor is not
beyond the end, even when the length itself no longer fits `int`. -/
theorem toUInt32_toInt32_sub {n k : Nat} (hLe : k ≤ n % 4294967296) :
    toUInt32 (toInt32 n - k) = n % 4294967296 - k := by
  unfold toUInt32 toInt32
  omega

/-- What holds of the 256 byte values holds of every byte. -/
theorem forall_byte {P : UInt8 → Prop} (hAll : ∀ n < 256, P (UInt8.ofNat n)) (c : UInt8) :
    P c := by
  have hByte := hAll c.toNat c.toNat_lt
  rwa [UInt8.ofNat_toNat] at hByte

/-! ## Bits of a byte -/

section Byte

variable (x : UInt8) {k : Nat}

/-- A count below 8 is the count that a shift uses. -/
theorem shift_count (hShift : k < 8) : (UInt8.ofNat k).toNat % 8 = k := by
  rw [UInt8.toNat_ofNat_of_lt' (lt_trans hShift (by decide)), Nat.mod_eq_of_lt hShift]

theorem toNat_shiftRight_byte (hShift : k < 8) :
    (x >>> UInt8.ofNat k).toNat = x.toNat / 2 ^ k := by
  rw [UInt8.toNat_shiftRight, shift_count hShift, Nat.shiftRight_eq_div_pow]

/-- A shift to the left drops the bits that the byte has no room for. -/
theorem toNat_shiftLeft_byte (hShift : k < 8) :
    (x <<< UInt8.ofNat k).toNat = x.toNat % 2 ^ (8 - k) * 2 ^ k := by
  have hSplit : 2 ^ 8 = 2 ^ (8 - k) * 2 ^ k := by
    rw [← pow_add, Nat.sub_add_cancel hShift.le]
  rw [UInt8.toNat_shiftLeft, shift_count hShift, Nat.shiftLeft_eq, hSplit, Nat.mul_mod_mul_right]

/-- A number beside a shift to the left that makes room for it. -/
theorem toNat_shiftLeft_or {y : UInt8} (hShift : k < 8) (hLow : y.toNat < 2 ^ k) :
    ((x <<< UInt8.ofNat k) ||| y).toNat = x.toNat % 2 ^ (8 - k) * 2 ^ k + y.toNat := by
  rw [UInt8.toNat_or, toNat_shiftLeft_byte x hShift, Nat.mul_comm,
    ← Nat.two_pow_add_eq_or_of_lt hLow]

/-- The mask of the low bits. -/
theorem toNat_and_low (hLe : k ≤ 8) : (x &&& UInt8.ofNat (2 ^ k - 1)).toNat = x.toNat % 2 ^ k := by
  have hMask : 2 ^ k - 1 < UInt8.size :=
    lt_of_lt_of_le (Nat.sub_lt (Nat.two_pow_pos k) Nat.one_pos)
      (Nat.pow_le_pow_right Nat.two_pos hLe)
  rw [UInt8.toNat_and, UInt8.toNat_ofNat_of_lt' hMask, Nat.and_two_pow_sub_one_eq_mod]

/-- The mask of the high bits, in front of a shift that drops the others. -/
theorem toNat_and_high {m : UInt8} (hShift : k < 8)
    (hMask : m >>> UInt8.ofNat k = UInt8.ofNat (2 ^ (8 - k) - 1)) :
    ((x &&& m) >>> UInt8.ofNat k).toNat = x.toNat / 2 ^ k := by
  have hLt : x.toNat / 2 ^ k < 2 ^ (8 - k) := by
    rw [Nat.div_lt_iff_lt_mul (Nat.two_pow_pos k), ← pow_add, Nat.sub_add_cancel hShift.le]
    exact x.toNat_lt
  rw [UInt8.shiftRight_and, hMask, toNat_and_low _ (Nat.sub_le 8 k),
    toNat_shiftRight_byte x hShift, Nat.mod_eq_of_lt hLt]

end Byte

attribute [irreducible] toInt32 toUInt32 toInt64 toUInt64

end MachineInt
