import WebSocketFiles.Library.Blocks

/-!
# Digits of one width as digits of another

Digits below `2 ^ w` as a stream of bits, `w` bits a digit, most significant first,
and the digits of any width read off such a stream.  Writing digits of `a` bits as
digits of `b ≤ a` bits, the last filled up with zeros, loses nothing: the digits of
`a` bits read off the result are the ones written (`digits_stream_digitsPadded`).
-/

namespace BitStream

open Blocks

/-! ## One digit -/

/-- The `w` low bits of a number, most significant first. -/
def bitsOf : Nat → Nat → List Bool
  | 0, _ => []
  | w + 1, n => n.testBit w :: bitsOf w n

/-- The number a bit string spells. -/
def ofBits (bits : List Bool) : Nat :=
  bits.foldl (fun acc b => acc * 2 + b.toNat) 0

@[simp] theorem bitsOf_length (w n : Nat) : (bitsOf w n).length = w := by
  induction w with
  | zero => rfl
  | succ w ih => rw [bitsOf, List.length_cons, ih]

/-- The high bits and the low bits. -/
theorem bitsOf_add (u v n : Nat) : bitsOf (u + v) n = bitsOf u (n / 2 ^ v) ++ bitsOf v n := by
  induction u with
  | zero => rw [Nat.zero_add, bitsOf, List.nil_append]
  | succ u ih =>
      rw [Nat.succ_add, bitsOf, bitsOf, ih, Nat.testBit_div_two_pow, List.cons_append]

/-- Only the low bits of a number count. -/
theorem bitsOf_mod (w n : Nat) {v : Nat} (hLe : w ≤ v) : bitsOf w (n % 2 ^ v) = bitsOf w n := by
  induction w with
  | zero => rfl
  | succ w ih =>
      have hBit : (n % 2 ^ v).testBit w = n.testBit w := by
        rw [Nat.testBit_mod_two_pow, decide_eq_true (show w < v by omega), Bool.true_and]
      rw [bitsOf, bitsOf, hBit, ih (by omega)]

/-- A number put together from its high and its low part. -/
theorem bitsOf_mul_add (u v x : Nat) {y : Nat} (hLt : y < 2 ^ v) :
    bitsOf (u + v) (x * 2 ^ v + y) = bitsOf u x ++ bitsOf v y := by
  have hHigh : (x * 2 ^ v + y) / 2 ^ v = x := by
    rw [Nat.mul_comm, Nat.mul_add_div (Nat.two_pow_pos v), Nat.div_eq_of_lt hLt, Nat.add_zero]
  have hLow : (x * 2 ^ v + y) % 2 ^ v = y := by
    rw [Nat.mul_comm, Nat.mul_add_mod, Nat.mod_eq_of_lt hLt]
  rw [bitsOf_add, hHigh, ← bitsOf_mod v (x * 2 ^ v + y) (le_refl v), hLow]

theorem bitsOf_zero (w : Nat) : bitsOf w 0 = List.replicate w false := by
  induction w with
  | zero => rfl
  | succ w ih => rw [bitsOf, ih, Nat.zero_testBit, List.replicate_succ]

private theorem foldl_bits (bits : List Bool) :
    ∀ acc : Nat, bits.foldl (fun acc b => acc * 2 + b.toNat) acc =
      acc * 2 ^ bits.length + ofBits bits := by
  induction bits with
  | nil =>
      intro acc
      simp [ofBits]
  | cons b bits ih =>
      intro acc
      rw [ofBits, List.foldl_cons, List.foldl_cons, ih, ih (0 * 2 + b.toNat), List.length_cons,
        Nat.pow_succ]
      ring

theorem ofBits_cons (b : Bool) (bits : List Bool) :
    ofBits (b :: bits) = b.toNat * 2 ^ bits.length + ofBits bits := by
  rw [ofBits, List.foldl_cons, foldl_bits, Nat.zero_mul, Nat.zero_add]

theorem ofBits_lt (bits : List Bool) : ofBits bits < 2 ^ bits.length := by
  induction bits with
  | nil => decide
  | cons b bits ih =>
      rw [ofBits_cons, List.length_cons, Nat.pow_succ]
      cases b with
      | false =>
          rw [Bool.toNat_false]
          omega
      | true =>
          rw [Bool.toNat_true]
          omega

/-- The bits of the number that a bit string spells. -/
theorem bitsOf_ofBits (bits : List Bool) : bitsOf bits.length (ofBits bits) = bits := by
  induction bits with
  | nil => rfl
  | cons b bits ih =>
      have hBit : bitsOf 1 b.toNat = [b] := by
        cases b with
        | false => rfl
        | true => rfl
      rw [List.length_cons, ofBits_cons, Nat.add_comm,
        bitsOf_mul_add 1 bits.length b.toNat (ofBits_lt bits), hBit, ih]
      rfl

theorem ofBits_bitsOf {w n : Nat} (hLt : n < 2 ^ w) : ofBits (bitsOf w n) = n := by
  induction w generalizing n with
  | zero =>
      rw [Nat.pow_zero] at hLt
      rw [bitsOf, Nat.lt_one_iff.mp hLt]
      rfl
  | succ w ih =>
      have hLow := ih (Nat.mod_lt n (Nat.two_pow_pos w))
      rw [bitsOf_mod w n (le_refl w)] at hLow
      have hHigh : (n.testBit w).toNat = n / 2 ^ w := by
        have hDiv : n / 2 ^ w < 2 := Nat.div_lt_of_lt_mul (by rwa [Nat.pow_succ] at hLt)
        rw [Nat.toNat_testBit, Nat.mod_eq_of_lt hDiv]
      rw [bitsOf, ofBits_cons, bitsOf_length, hLow, hHigh, Nat.mul_comm, Nat.div_add_mod]

/-! ## Streams -/

/-- Digits of `w` bits as one bit string. -/
def stream (w : Nat) (ds : List Nat) : List Bool :=
  ds.flatMap (bitsOf w)

/-- The whole digits of `w` bits of a bit string. -/
def digits (w : Nat) (bits : List Bool) : List Nat :=
  (blocks w bits).map ofBits

/-- A bit string with as many zeros as a last digit of `w` bits needs. -/
def padded (w : Nat) (bits : List Bool) : List Bool :=
  bits ++ List.replicate ((w - bits.length % w) % w) false

/-- The digits of `w` bits of a bit string, the last filled up with zeros. -/
def digitsPadded (w : Nat) (bits : List Bool) : List Nat :=
  digits w (padded w bits)

@[simp] theorem stream_nil (w : Nat) : stream w [] = [] := rfl

@[simp] theorem stream_cons (w d : Nat) (ds : List Nat) :
    stream w (d :: ds) = bitsOf w d ++ stream w ds := rfl

@[simp] theorem stream_append (w : Nat) (ds es : List Nat) :
    stream w (ds ++ es) = stream w ds ++ stream w es :=
  List.flatMap_append

@[simp] theorem stream_length (w : Nat) (ds : List Nat) :
    (stream w ds).length = w * ds.length := by
  induction ds with
  | nil => rfl
  | cons d ds ih => rw [stream_cons, List.length_append, bitsOf_length, ih, List.length_cons,
      Nat.mul_succ, Nat.add_comm]

variable {w : Nat}

theorem digits_length (bits : List Bool) :
    (digits w bits).length = bits.length / w := by
  rw [digits, List.length_map, blocks, List.length_map, List.length_range]

theorem digits_lt (hPos : 0 < w) (bits : List Bool) : ∀ d ∈ digits w bits, d < 2 ^ w := by
  intro d hMem
  obtain ⟨b, hBlock, rfl⟩ := List.mem_map.mp hMem
  have hLt := ofBits_lt b
  rwa [length_of_mem_blocks hPos bits b hBlock] at hLt

/-- The digits of a stream with an incomplete digit behind it. -/
theorem digits_stream (hPos : 0 < w) {ds : List Nat} (hDigits : ∀ d ∈ ds, d < 2 ^ w)
    {tail : List Bool} (hLt : tail.length < w) : digits w (stream w ds ++ tail) = ds := by
  have hLength : ∀ b ∈ ds.map (bitsOf w), b.length = w := by
    intro b hMem
    obtain ⟨d, -, rfl⟩ := List.mem_map.mp hMem
    exact bitsOf_length w d
  rw [digits, stream, List.flatMap_def, (blocks_flatten_append hPos hLength hLt).1, List.map_map]
  refine (List.map_congr_left fun d hMem => ?_).trans (List.map_id ds)
  exact ofBits_bitsOf (hDigits d hMem)

/-- The stream of the whole digits of a bit string is the bit string without its
last, incomplete digit. -/
theorem stream_digits (hPos : 0 < w) (bits : List Bool) :
    stream w (digits w bits) ++ rest w bits = bits := by
  have hBlocks : stream w (digits w bits) = (blocks w bits).flatten := by
    rw [stream, digits, List.flatMap_def, List.map_map]
    refine congrArg List.flatten ((List.map_congr_left fun b hMem => ?_).trans
      (List.map_id (blocks w bits)))
    show bitsOf w (ofBits b) = b
    rw [← length_of_mem_blocks hPos bits b hMem, bitsOf_ofBits]
  rw [hBlocks, flatten_blocks hPos]

theorem dvd_padded_length (hPos : 0 < w) (bits : List Bool) : w ∣ (padded w bits).length := by
  have hLt := Nat.mod_lt bits.length hPos
  rw [padded, List.length_append, List.length_replicate]
  by_cases hZero : bits.length % w = 0
  · rw [hZero, Nat.sub_zero, Nat.mod_self, Nat.add_zero]
    exact Nat.dvd_of_mod_eq_zero hZero
  · rw [Nat.mod_eq_of_lt (show w - bits.length % w < w by omega)]
    refine ⟨bits.length / w + 1, ?_⟩
    have hDiv := Nat.div_add_mod bits.length w
    rw [Nat.mul_succ]
    omega

theorem stream_digitsPadded (hPos : 0 < w) (bits : List Bool) :
    stream w (digitsPadded w bits) = padded w bits := by
  have hRest : rest w (padded w bits) = [] := by
    rw [← List.length_eq_zero_iff, rest_length]
    exact Nat.mod_eq_zero_of_dvd (dvd_padded_length hPos bits)
  have hStream := stream_digits hPos (padded w bits)
  rwa [hRest, List.append_nil] at hStream

/-- Digits written as narrower digits, and read back. -/
theorem digits_stream_digitsPadded {a b : Nat} (hPos : 0 < b) (hLe : b ≤ a) {ds : List Nat}
    (hDigits : ∀ d ∈ ds, d < 2 ^ a) :
    digits a (stream b (digitsPadded b (stream a ds))) = ds := by
  rw [stream_digitsPadded hPos, padded]
  refine digits_stream (by omega) hDigits ?_
  rw [List.length_replicate]
  exact lt_of_lt_of_le (Nat.mod_lt _ hPos) hLe

/-- Digits of a bit string that ends with a digit boundary, and of what follows. -/
theorem digits_append (hPos : 0 < w) {bits : List Bool} (hDvd : w ∣ bits.length)
    (more : List Bool) : digits w (bits ++ more) = digits w bits ++ digits w more := by
  rw [digits, (blocks_append_of_dvd hPos bits more hDvd).1, List.map_append]
  rfl

theorem digitsPadded_append (hPos : 0 < w) {bits : List Bool} (hDvd : w ∣ bits.length)
    (more : List Bool) :
    digitsPadded w (bits ++ more) = digits w bits ++ digitsPadded w more := by
  have hMod : (bits ++ more).length % w = more.length % w := by
    obtain ⟨k, hLength⟩ := hDvd
    rw [List.length_append, hLength, Nat.mul_add_mod]
  rw [digitsPadded, padded, hMod, List.append_assoc, digits_append hPos hDvd]
  rfl

end BitStream
