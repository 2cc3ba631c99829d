import WebSocketFiles.Library.MachineInt

/-!
# `ByteBuffer`

The buffer class of `ws_packet.cpp`: a byte vector with a read cursor.  Every
method keeps the integer types of the source: `length()` is an `int`, the
cursor is a `uint32_t`, and `require` compares the two in unsigned arithmetic.

A pointer into a byte array is the list of bytes from the pointee to the end
of its array, or `none` for `NULL`; reading past that end is undefined
behaviour and is reported as such.
-/

namespace WebSocketFiles

open MachineInt

/-- A byte string (`char` data, read as octets). -/
abbrev Bytes := List UInt8

/-- The ways a call can end other than by returning. -/
inductive Abort where
  /-- `std::out_of_range`, thrown by `vector::at` -/
  | outOfRange
  /-- `std::length_error`, thrown by `std::string` -/
  | lengthError
  /-- undefined behaviour of the C++ program -/
  | undefined
  /-- the process exit of `fail` in `main.cpp` -/
  | exitFailure
  /-- a loop of the model was given too few steps -/
  | outOfFuel
  deriving DecidableEq, Repr

/-- `class ByteBuffer`. -/
structure ByteBuffer where
  data : Bytes
  oft : Nat
  deriving DecidableEq, Repr

namespace ByteBuffer

/-- `ByteBuffer::ByteBuffer`. -/
def empty : ByteBuffer := ⟨[], 0⟩

/-- `ByteBuffer::length`: `(int)data.size()`. -/
def length (b : ByteBuffer) : Int :=
  toInt32 b.data.length

/-- `&data.at(i)`. -/
def dataAt (b : ByteBuffer) (i : Nat) : Except Abort Bytes :=
  if i < b.data.length then .ok (b.data.drop i) else .error .outOfRange

/-- `ByteBuffer::bytes`. -/
def bytes (b : ByteBuffer) : Except Abort (Option Bytes) := do
  if b.length = 0 then
    return none
  else
    return some (← b.dataAt 0)

/-- `ByteBuffer::curat`. -/
def curat (b : ByteBuffer) : Except Abort (Option Bytes) := do
  if b.length = 0 then
    return none
  else
    return some (← b.dataAt b.oft)

/-- `ByteBuffer::getoft`. -/
def getoft (b : ByteBuffer) : Int :=
  toInt32 b.oft

/-- `ByteBuffer::require`: `require <= len - oft`, an unsigned comparison
because `oft` is a `uint32_t`. -/
def require (b : ByteBuffer) (require : Int) : Bool :=
  let len := b.length
  decide (toUInt32 require ≤ toUInt32 (len - b.oft))

/-- `ByteBuffer::skip_x`. -/
def skipX (b : ByteBuffer) (size : Int) : Bool × ByteBuffer :=
  if b.require size then
    (true, { b with oft := toUInt32 (b.oft + size) })
  else
    (false, b)

/-- `ByteBuffer::read_bytes_x`: copy `size` bytes into the array `cb` and move
the cursor, or leave both alone. -/
def readBytesX (b : ByteBuffer) (cb : Bytes) (size : Int) :
    Except Abort (Bool × Bytes × ByteBuffer) := do
  if b.require size then
    let src ← b.dataAt b.oft
    if size < 0 ∨ (src.length : Int) < size then
      -- memcpy past the end of the vector
      throw .undefined
    else
      return (true, src.take size.toNat ++ cb.drop size.toNat,
        { b with oft := toUInt32 (b.oft + size) })
  else
    return (false, cb, b)

/-- `ByteBuffer::resetoft`. -/
def resetoft (b : ByteBuffer) : ByteBuffer :=
  { b with oft := 0 }

/-- `ByteBuffer::erase`; the cursor is not touched. -/
def erase (b : ByteBuffer) (size : Int) : ByteBuffer :=
  if size ≤ 0 then b
  else if b.length ≤ size then { b with data := [] }
  else { b with data := b.data.drop size.toNat }

/-- `ByteBuffer::append`: insert the range `[bytes, bytes + size)`. -/
def append (b : ByteBuffer) (bytes : Option Bytes) (size : Int) : Except Abort ByteBuffer :=
  if size = 0 then .ok b
  else
    match bytes with
    | none => .error .undefined
    | some src =>
        if size < 0 ∨ (src.length : Int) < size then .error .undefined
        else .ok { b with data := b.data ++ src.take size.toNat }

/-! ## What the methods do on buffers in range

The conversions disappear once the data is shorter than `2^31` bytes (for the
reads, `2^32` is enough) and the cursor is not beyond the end.  In general the
reads see the data up to its length modulo `2^32`. -/

theorem length_eq {b : ByteBuffer} (hSize : b.data.length < 2147483648) :
    b.length = b.data.length :=
  toInt32_of_lt (by omega) (by omega)

theorem length_neg {b : ByteBuffer} (hLow : 2147483648 ≤ b.data.length)
    (hHigh : b.data.length < 4294967296) : b.length < 0 := by
  rw [length, toInt32_neg (by omega) (by omega)]
  omega

/-- Below `2^32` bytes only the empty buffer has length zero. -/
theorem length_eq_zero_iff {b : ByteBuffer} (hSize : b.data.length < 4294967296) :
    b.length = 0 ↔ b.data = [] := by
  rw [← List.length_eq_zero_iff]
  by_cases hSmall : b.data.length < 2147483648
  · rw [length_eq hSmall]
    omega
  · have hNeg := length_neg (Nat.le_of_not_lt hSmall) hSize
    omega

theorem getoft_eq {b : ByteBuffer} (hOft : b.oft < 2147483648) : b.getoft = b.oft :=
  toInt32_of_lt (by omega) (by omega)

@[simp] theorem length_nil (k : Nat) : (⟨[], k⟩ : ByteBuffer).length = 0 := by
  simp [length]

/-- `bytes` never raises: a length other than zero means that there is data. -/
theorem bytes_eq (b : ByteBuffer) :
    b.bytes = .ok (if b.length = 0 then none else some b.data) := by
  by_cases hZero : b.length = 0
  · rw [bytes, if_pos hZero, if_pos hZero]
    rfl
  · have hData : 0 < b.data.length := by
      cases hNil : b.data with
      | nil => exact absurd (by simp [length, hNil]) hZero
      | cons x xs => simp
    rw [bytes, if_neg hZero, if_neg hZero, dataAt, if_pos hData]
    rfl

/-- With the cursor in range, `require` compares with the length modulo `2^32`. -/
theorem require_mod {b : ByteBuffer} {n : Nat} (hOft : b.oft ≤ b.data.length % 4294967296)
    (hn : n < 4294967296) :
    b.require n = decide (b.oft + n ≤ b.data.length % 4294967296) := by
  have hLeft : toUInt32 n = n := by
    rw [toUInt32_of_lt (by omega) (by omega)]
    omega
  rw [require, length, toUInt32_toInt32_sub hOft, hLeft]
  congr 1
  rw [eq_iff_iff]
  omega

/-- In range, that is the integer comparison. -/
theorem require_eq {b : ByteBuffer} {n : Nat} (hSize : b.data.length < 4294967296)
    (hOft : b.oft ≤ b.data.length) (hn : n < 4294967296) :
    b.require n = decide (b.oft + n ≤ b.data.length) := by
  have hMod := Nat.mod_eq_of_lt hSize
  rw [require_mod (by omega) hn, hMod]

theorem skipX_eq {b : ByteBuffer} {n : Nat} (hSize : b.data.length < 4294967296)
    (hFits : b.oft + n ≤ b.data.length) :
    b.skipX n = (true, { b with oft := b.oft + n }) := by
  have hMove : toUInt32 (b.oft + n) = b.oft + n := by
    rw [toUInt32_of_lt (by omega) (by omega)]
    omega
  rw [skipX, require_eq hSize (by omega) (by omega), decide_eq_true hFits, if_pos rfl, hMove]

/-- A read that fits copies the bytes at the cursor. -/
theorem readBytesX_fits {b : ByteBuffer} {cb : Bytes} {n : Nat} (hn : 0 < n)
    (hFits : b.oft + n ≤ b.data.length % 4294967296) :
    b.readBytesX cb n =
      .ok (true, (b.data.drop b.oft).take n ++ cb.drop n, { b with oft := b.oft + n }) := by
  have hLe := Nat.mod_le b.data.length 4294967296
  have hMove : toUInt32 (b.oft + n) = b.oft + n := by
    rw [toUInt32_of_lt (by omega) (by omega)]
    omega
  have hCopy : ¬ ((n : Int) < 0 ∨ ((b.data.drop b.oft).length : Int) < n) := by
    rw [List.length_drop]
    omega
  rw [readBytesX, require_mod (by omega) (by omega), decide_eq_true hFits, if_pos rfl,
    dataAt, if_pos (by omega), hMove]
  simp only [bind, Except.bind]
  rw [if_neg hCopy]
  rfl

/-- A read that does not fit changes nothing. -/
theorem readBytesX_short {b : ByteBuffer} {cb : Bytes} {n : Nat}
    (hOft : b.oft ≤ b.data.length % 4294967296) (hn : n < 4294967296)
    (hShort : b.data.length % 4294967296 < b.oft + n) :
    b.readBytesX cb n = .ok (false, cb, b) := by
  have hNot : ¬ b.oft + n ≤ b.data.length % 4294967296 := by omega
  rw [readBytesX, require_mod hOft hn, decide_eq_false hNot, if_neg (by decide)]
  rfl

/-- Appending a whole array. -/
theorem append_all (b : ByteBuffer) (src : Bytes) :
    b.append (some src) src.length = .ok { b with data := b.data ++ src } := by
  cases src with
  | nil => simp [append]
  | cons x xs =>
      have hZero : ¬ ((x :: xs).length : Int) = 0 := by
        simp only [List.length_cons]
        omega
      have hBad : ¬ (((x :: xs).length : Int) < 0 ∨
          ((x :: xs).length : Int) < (x :: xs).length) := by
        omega
      rw [append, if_neg hZero]
      simp only [if_neg hBad, Int.toNat_natCast, List.take_length]

/-- Appending one byte, as the packing code does with `onebyte`. -/
@[simp] theorem append_one (b : ByteBuffer) (x : UInt8) :
    b.append (some [x]) 1 = .ok { b with data := b.data ++ [x] } :=
  append_all b [x]

/-- Appending another buffer's bytes. -/
theorem append_bytes (b : ByteBuffer) (src : Bytes) (hSize : src.length < 2147483648) :
    b.append (if (⟨src, 0⟩ : ByteBuffer).length = 0 then none else some src)
      (⟨src, 0⟩ : ByteBuffer).length = .ok { b with data := b.data ++ src } := by
  rw [length_eq hSize]
  cases src with
  | nil => simp [append]
  | cons x xs =>
      rw [if_neg (by simp only [List.length_cons]; omega)]
      exact append_all b (x :: xs)

theorem erase_all {b : ByteBuffer} (hSize : b.data.length < 2147483648) :
    b.erase b.length = { b with data := [] } := by
  rw [erase]
  split
  · rename_i hZero
    rw [length_eq hSize] at hZero
    have hNil : b.data = [] := List.length_eq_zero_iff.mp (by omega)
    rw [← hNil]
  · simp

/-- Erasing a positive number of bytes drops them from the front. -/
theorem erase_eq {b : ByteBuffer} {n : Nat} (hSize : b.data.length < 2147483648)
    (hn : 0 < n) : b.erase n = { b with data := b.data.drop n } := by
  rw [erase, if_neg (by omega), length_eq hSize]
  split
  · rename_i hAll
    rw [List.drop_eq_nil_of_le (by omega)]
  · rw [Int.toNat_natCast]

/-- Beyond `2^31` bytes the length is negative and every erase clears. -/
theorem erase_neg {b : ByteBuffer} {z : Int} (hNeg : b.length < 0) (hz : 0 < z) :
    b.erase z = { b with data := [] } := by
  rw [erase, if_neg (by omega), if_pos (by omega)]

end ByteBuffer

end WebSocketFiles
