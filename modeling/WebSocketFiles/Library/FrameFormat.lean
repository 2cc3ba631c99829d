import Mathlib

/-!
# The frame format of RFC 6455

A reference encoder and decoder for WebSocket frames, written from the frame
layout: two header bytes, a length of seven bits, two bytes or eight bytes, an
optional masking key, and the payload, masked when there is a key.  Nothing
here depends on any implementation.

The main result is `decode_encode`: decoding reads back exactly what was
encoded, whatever bytes follow.
-/

namespace FrameFormat

/-! ## Big-endian numbers -/

/-- The `k` low bytes of `n`, most significant first. -/
def bigEndian : Nat → Nat → List UInt8
  | 0, _ => []
  | k + 1, n => UInt8.ofNat (n / 256 ^ k) :: bigEndian k n

/-- The number a byte list spells, most significant first. -/
def ofBigEndian (bytes : List UInt8) : Nat :=
  bytes.foldl (fun acc b => acc * 256 + b.toNat) 0

@[simp] theorem bigEndian_length (k n : Nat) : (bigEndian k n).length = k := by
  induction k with
  | zero => rfl
  | succ k ih => simp [bigEndian, ih]

private theorem foldl_bigEndian (k n acc : Nat) :
    (bigEndian k n).foldl (fun acc b => acc * 256 + b.toNat) acc =
      acc * 256 ^ k + n % 256 ^ k := by
  induction k generalizing acc with
  | zero => simp [bigEndian, Nat.mod_one]
  | succ k ih =>
      have hByte : (UInt8.ofNat (n / 256 ^ k)).toNat = n / 256 ^ k % 256 :=
        UInt8.toNat_ofNat'
      rw [bigEndian, List.foldl_cons, ih, hByte, Nat.mod_pow_succ, Nat.pow_succ]
      ring

theorem ofBigEndian_bigEndian {k n : Nat} (hLt : n < 256 ^ k) :
    ofBigEndian (bigEndian k n) = n := by
  rw [ofBigEndian, foldl_bigEndian, Nat.zero_mul, Nat.zero_add, Nat.mod_eq_of_lt hLt]

private theorem foldl_ofBigEndian (bytes : List UInt8) :
    ∀ acc : Nat, bytes.foldl (fun acc b => acc * 256 + b.toNat) acc =
      acc * 256 ^ bytes.length + ofBigEndian bytes := by
  induction bytes with
  | nil =>
      intro acc
      simp [ofBigEndian]
  | cons b bytes ih =>
      intro acc
      rw [ofBigEndian, List.foldl_cons, List.foldl_cons, ih, ih (0 * 256 + b.toNat),
        List.length_cons, Nat.pow_succ]
      ring

theorem ofBigEndian_cons (b : UInt8) (bytes : List UInt8) :
    ofBigEndian (b :: bytes) = b.toNat * 256 ^ bytes.length + ofBigEndian bytes := by
  rw [ofBigEndian, List.foldl_cons, foldl_ofBigEndian, Nat.zero_mul, Nat.zero_add]

theorem ofBigEndian_lt (bytes : List UInt8) : ofBigEndian bytes < 256 ^ bytes.length := by
  induction bytes with
  | nil => decide
  | cons b bytes ih =>
      have hByte := b.toNat_lt
      have hScaled : b.toNat * 256 ^ bytes.length ≤ 255 * 256 ^ bytes.length :=
        Nat.mul_le_mul_right _ (by omega)
      rw [ofBigEndian_cons, List.length_cons, Nat.pow_succ]
      omega

/-- Multiples of `256 ^ k` do not show in the `k` low bytes. -/
private theorem bigEndian_add_mul (k m n : Nat) {j : Nat} (hLe : k ≤ j) :
    bigEndian k (m * 256 ^ j + n) = bigEndian k n := by
  induction k with
  | zero => rfl
  | succ k ih =>
      have hPow : 256 ^ j = 256 * 256 ^ (j - k - 1) * 256 ^ k := by
        rw [← Nat.pow_succ', ← Nat.pow_add]
        congr 1
        omega
      have hByte : UInt8.ofNat ((m * 256 ^ j + n) / 256 ^ k) = UInt8.ofNat (n / 256 ^ k) := by
        rw [hPow, ← Nat.mul_assoc, Nat.add_comm, Nat.add_mul_div_right _ _ (Nat.pow_pos (by decide)),
          Nat.mul_left_comm, UInt8.ofNat_add]
        have hZero : UInt8.ofNat (256 * (m * 256 ^ (j - k - 1))) = 0 := by
          apply UInt8.toNat_inj.mp
          rw [UInt8.toNat_ofNat']
          exact Nat.mul_mod_right 256 _
        rw [hZero, UInt8.add_zero]
      rw [bigEndian, bigEndian, hByte, ih (by omega)]

/-- The bytes of the number that a byte list spells. -/
theorem bigEndian_ofBigEndian (bytes : List UInt8) :
    bigEndian bytes.length (ofBigEndian bytes) = bytes := by
  induction bytes with
  | nil => rfl
  | cons b bytes ih =>
      have hHigh : (b.toNat * 256 ^ bytes.length + ofBigEndian bytes) / 256 ^ bytes.length =
          b.toNat := by
        rw [Nat.add_comm, Nat.add_mul_div_right _ _ (Nat.pow_pos (by decide)),
          Nat.div_eq_of_lt (ofBigEndian_lt bytes), Nat.zero_add]
      rw [List.length_cons, ofBigEndian_cons, bigEndian, hHigh, UInt8.ofNat_toNat,
        bigEndian_add_mul bytes.length b.toNat _ (le_refl _), ih]

/-! ## Masking -/

-- The sizes of the finite types below.
instance neZero_four : NeZero 4 :=
  ⟨by decide⟩

instance neZero_sixteen : NeZero 16 :=
  ⟨by decide⟩

abbrev MaskingKey := Fin 4 → UInt8

/-- Mask (or unmask) bytes, starting at payload index `i`. -/
def maskFrom (key : MaskingKey) : Nat → List UInt8 → List UInt8
  | _, [] => []
  | i, b :: bs => (b ^^^ key (Fin.ofNat 4 i)) :: maskFrom key (i + 1) bs

@[simp] theorem maskFrom_length (key : MaskingKey) (i : Nat) (bs : List UInt8) :
    (maskFrom key i bs).length = bs.length := by
  induction bs generalizing i with
  | nil => rfl
  | cons b bs ih => simp [maskFrom, ih]

/-- Masking twice with one key gives the bytes back. -/
@[simp] theorem maskFrom_maskFrom (key : MaskingKey) (i : Nat) (bs : List UInt8) :
    maskFrom key i (maskFrom key i bs) = bs := by
  induction bs generalizing i with
  | nil => rfl
  | cons b bs ih => simp [maskFrom, ih]

/-- The key as it stands on the wire. -/
def keyBytes (key : MaskingKey) : List UInt8 :=
  List.ofFn key

/-- The key read from the wire. -/
def keyOfBytes (bytes : List UInt8) : MaskingKey :=
  fun i => bytes.getD i 0

@[simp] theorem keyBytes_length (key : MaskingKey) : (keyBytes key).length = 4 := by
  simp [keyBytes]

@[simp] theorem keyOfBytes_keyBytes (key : MaskingKey) : keyOfBytes (keyBytes key) = key := by
  funext i
  rw [keyOfBytes, keyBytes, List.getD_eq_getElem _ _ (by simp), List.getElem_ofFn]

/-! ## Frames -/

/-- One frame; `key = none` means that it is not masked.  The payload is the
unmasked application data. -/
structure Frame where
  fin : Bool
  rsv1 : Bool
  rsv2 : Bool
  rsv3 : Bool
  opcode : Fin 16
  key : Option MaskingKey
  payload : List UInt8

/-- The three ways of writing the payload length. -/
inductive LengthForm where
  | seven
  | sixteen
  | sixtyFour
  deriving DecidableEq, Repr

namespace LengthForm

/-- The lengths a form can write are those below its limit. -/
def limit : LengthForm → Nat
  | seven => 126
  | sixteen => 65536
  | sixtyFour => 18446744073709551616

/-- The seven-bit length code. -/
def code (form : LengthForm) (n : Nat) : Nat :=
  match form with
  | seven => n
  | sixteen => 126
  | sixtyFour => 127

/-- The extended length bytes. -/
def extended (form : LengthForm) (n : Nat) : List UInt8 :=
  match form with
  | seven => []
  | sixteen => bigEndian 2 n
  | sixtyFour => bigEndian 8 n

/-- Number of extended length bytes. -/
def extra : LengthForm → Nat
  | seven => 0
  | sixteen => 2
  | sixtyFour => 8

@[simp] theorem extended_length (form : LengthForm) (n : Nat) :
    (form.extended n).length = form.extra := by
  cases form <;> simp [extended, extra]

/-- The shortest form that can write `n`. -/
def shortest (n : Nat) : LengthForm :=
  if n < 126 then seven else if n < 65536 then sixteen else sixtyFour

theorem lt_limit_shortest {n : Nat} (hLt : n < 18446744073709551616) :
    n < (shortest n).limit := by
  unfold shortest
  split
  · simpa [limit]
  · split
    · simpa [limit]
    · simpa [limit]

theorem shortest_ne_sixtyFour {n : Nat} (hLt : n < 65536) : shortest n ≠ sixtyFour := by
  unfold shortest
  split
  · decide
  · decide

theorem code_lt {form : LengthForm} {n : Nat} (hFits : n < form.limit) :
    form.code n < 128 := by
  cases form with
  | seven =>
      simp only [limit] at hFits
      simp only [code]
      omega
  | sixteen => simp [code]
  | sixtyFour => simp [code]

end LengthForm

namespace Frame

/-- First header byte: FIN, RSV bits and opcode. -/
def firstByte (f : Frame) : UInt8 :=
  UInt8.ofNat (128 * f.fin.toNat + 64 * f.rsv1.toNat + 32 * f.rsv2.toNat +
    16 * f.rsv3.toNat + f.opcode.val)

/-- Second header byte: MASK bit and length code. -/
def secondByte (form : LengthForm) (f : Frame) : UInt8 :=
  UInt8.ofNat (128 * f.key.isSome.toNat + form.code f.payload.length)

/-- The masking key field. -/
def keyField (f : Frame) : List UInt8 :=
  match f.key with
  | none => []
  | some key => keyBytes key

/-- The payload as it stands on the wire. -/
def wirePayload (f : Frame) : List UInt8 :=
  match f.key with
  | none => f.payload
  | some key => maskFrom key 0 f.payload

/-- Everything in front of the payload. -/
def header (form : LengthForm) (f : Frame) : List UInt8 :=
  f.firstByte :: f.secondByte form :: (form.extended f.payload.length ++ f.keyField)

/-- The frame on the wire. -/
def encode (form : LengthForm) (f : Frame) : List UInt8 :=
  f.header form ++ f.wirePayload

theorem firstByte_toNat (f : Frame) :
    f.firstByte.toNat = 128 * f.fin.toNat + 64 * f.rsv1.toNat + 32 * f.rsv2.toNat +
      16 * f.rsv3.toNat + f.opcode.val := by
  have hFin := Bool.toNat_le f.fin
  have hRsv1 := Bool.toNat_le f.rsv1
  have hRsv2 := Bool.toNat_le f.rsv2
  have hRsv3 := Bool.toNat_le f.rsv3
  have hOpcode := f.opcode.isLt
  rw [firstByte, UInt8.toNat_ofNat']
  omega

theorem secondByte_toNat {form : LengthForm} {f : Frame}
    (hFits : f.payload.length < form.limit) :
    (f.secondByte form).toNat = 128 * f.key.isSome.toNat + form.code f.payload.length := by
  have hMask := Bool.toNat_le f.key.isSome
  have hCode := LengthForm.code_lt hFits
  rw [secondByte, UInt8.toNat_ofNat']
  omega

@[simp] theorem wirePayload_length (f : Frame) : f.wirePayload.length = f.payload.length := by
  unfold wirePayload
  split <;> simp

theorem keyField_length (f : Frame) : f.keyField.length = 4 * f.key.isSome.toNat := by
  cases hKey : f.key with
  | none => simp [keyField, hKey]
  | some key => simp [keyField, hKey]

/-- Header size: two bytes, the extended length, the key. -/
theorem header_length (form : LengthForm) (f : Frame) :
    (f.header form).length = 2 + form.extra + 4 * f.key.isSome.toNat := by
  simp only [header, List.length_cons, List.length_append, LengthForm.extended_length,
    keyField_length]
  omega

theorem encode_length (form : LengthForm) (f : Frame) :
    (f.encode form).length =
      2 + form.extra + 4 * f.key.isSome.toNat + f.payload.length := by
  rw [encode, List.length_append, header_length, wirePayload_length]

end Frame

/-! ## The reference decoder -/

/-- Read the payload length and drop its bytes. -/
def decodeLength (code : Nat) (rest : List UInt8) : Option (Nat × List UInt8) :=
  if code < 126 then some (code, rest)
  else if code = 126 then
    if 2 ≤ rest.length then some (ofBigEndian (rest.take 2), rest.drop 2) else none
  else
    if 8 ≤ rest.length then some (ofBigEndian (rest.take 8), rest.drop 8) else none

/-- Read the masking key, if the MASK bit says there is one. -/
def decodeKey (masked : Bool) (rest : List UInt8) : Option (Option MaskingKey × List UInt8) :=
  if masked then
    if 4 ≤ rest.length then some (some (keyOfBytes (rest.take 4)), rest.drop 4) else none
  else some (none, rest)

/-- Read one frame; the second component is what follows it. -/
def decode : List UInt8 → Option (Frame × List UInt8)
  | b₀ :: b₁ :: rest => do
      let (len, rest) ← decodeLength (b₁.toNat % 128) rest
      let (key, rest) ← decodeKey (decide (128 ≤ b₁.toNat)) rest
      if len ≤ rest.length then
        some
          ({ fin := decide (128 ≤ b₀.toNat)
             rsv1 := decide (b₀.toNat / 64 % 2 = 1)
             rsv2 := decide (b₀.toNat / 32 % 2 = 1)
             rsv3 := decide (b₀.toNat / 16 % 2 = 1)
             opcode := Fin.ofNat 16 b₀.toNat
             key := key
             payload :=
               match key with
               | none => rest.take len
               | some key => maskFrom key 0 (rest.take len) },
            rest.drop len)
      else none
  | _ => none

theorem decodeLength_extended {form : LengthForm} {n : Nat} (hFits : n < form.limit)
    (t : List UInt8) :
    decodeLength (form.code n) (form.extended n ++ t) = some (n, t) := by
  cases form with
  | seven =>
      have hSeven : n < 126 := hFits
      simp [decodeLength, LengthForm.code, LengthForm.extended, hSeven]
  | sixteen =>
      have hRead : ofBigEndian (bigEndian 2 n) = n := ofBigEndian_bigEndian hFits
      have hTake : (bigEndian 2 n ++ t).take 2 = bigEndian 2 n := by simp
      have hDrop : (bigEndian 2 n ++ t).drop 2 = t := by simp
      simp [decodeLength, LengthForm.code, LengthForm.extended, hTake, hDrop, hRead]
  | sixtyFour =>
      have hRead : ofBigEndian (bigEndian 8 n) = n := ofBigEndian_bigEndian hFits
      have hTake : (bigEndian 8 n ++ t).take 8 = bigEndian 8 n := by simp
      have hDrop : (bigEndian 8 n ++ t).drop 8 = t := by simp
      simp [decodeLength, LengthForm.code, LengthForm.extended, hTake, hDrop, hRead]

theorem decodeKey_keyField (f : Frame) (t : List UInt8) :
    decodeKey f.key.isSome (f.keyField ++ t) = some (f.key, t) := by
  cases hKey : f.key with
  | none => simp [decodeKey, Frame.keyField, hKey]
  | some key =>
      have hTake : (keyBytes key ++ t).take 4 = keyBytes key := by simp
      have hDrop : (keyBytes key ++ t).drop 4 = t := by simp
      simp [decodeKey, Frame.keyField, hKey, hTake, hDrop]

/-- Decoding reads back exactly the frame that was encoded, in any form that
can write its length, and leaves what follows. -/
theorem decode_encode {form : LengthForm} {f : Frame}
    (hFits : f.payload.length < form.limit) (t : List UInt8) :
    decode (f.encode form ++ t) = some (f, t) := by
  have hCode := LengthForm.code_lt hFits
  have hSecond := Frame.secondByte_toNat hFits
  have hFirst := f.firstByte_toNat
  have hLengthCode : (f.secondByte form).toNat % 128 = form.code f.payload.length := by
    have hMask := Bool.toNat_le f.key.isSome
    omega
  have hMaskBit : decide (128 ≤ (f.secondByte form).toNat) = f.key.isSome := by
    rw [hSecond]
    cases f.key.isSome with
    | false => simpa using hCode
    | true => simp
  have hEncode : f.encode form ++ t = f.firstByte :: f.secondByte form ::
      (form.extended f.payload.length ++ (f.keyField ++ (f.wirePayload ++ t))) := by
    simp [Frame.encode, Frame.header]
  have hTake : (f.wirePayload ++ t).take f.payload.length = f.wirePayload := by
    rw [← f.wirePayload_length, List.take_left]
  have hDrop : (f.wirePayload ++ t).drop f.payload.length = t := by
    rw [← f.wirePayload_length, List.drop_left]
  rw [hEncode]
  simp only [decode, hLengthCode, hMaskBit, decodeLength_extended hFits, decodeKey_keyField,
    Option.bind_eq_bind, Option.bind_some, hTake, hDrop, List.length_append,
    Frame.wirePayload_length, Nat.le_add_right, if_true]
  obtain ⟨fin, rsv1, rsv2, rsv3, opcode, key, payload⟩ := f
  have hOpcode := opcode.isLt
  simp only at hFirst
  simp only [Option.some.injEq, Prod.mk.injEq, and_true, hFirst, Frame.mk.injEq, true_and]
  refine ⟨?_, ?_, ?_, ?_, ?_, ?_⟩
  · cases fin <;> cases rsv1 <;> cases rsv2 <;> cases rsv3 <;> simp <;> omega
  · cases fin <;> cases rsv1 <;> cases rsv2 <;> cases rsv3 <;> simp <;> omega
  · cases fin <;> cases rsv1 <;> cases rsv2 <;> cases rsv3 <;> simp <;> omega
  · cases fin <;> cases rsv1 <;> cases rsv2 <;> cases rsv3 <;> simp <;> omega
  · apply Fin.ext
    simp only [Fin.ofNat, Fin.val_mk]
    omega
  · cases key with
    | none => rfl
    | some key => simp [Frame.wirePayload]

end FrameFormat
