import WebSocketFiles.Codec.FrameHeader

/-!
# Frames of the reference format, written and read by the code

`pack_dataframe` writes the reference encoding of its packet in the shortest
length form (`packDataframe_eq`).  In the other direction `scanHeader_encode`
says what the header reader makes of an encoded frame: everything comes back,
except that a 64-bit length is read and dropped.  The round trip of the two
methods therefore holds up to 65535 payload bytes and fails beyond.
-/

namespace WebSocketFiles

open MachineInt FrameFormat Fallible

/-! ## The header reader on encoded frames -/

/-- The low seven bits of the first header byte: the RSV bits and the opcode. -/
def lowFirst (f : Frame) : Nat :=
  64 * f.rsv1.toNat + 32 * f.rsv2.toNat + 16 * f.rsv3.toNat + f.opcode.val

theorem lowFirst_lt (f : Frame) : lowFirst f < 128 := by
  have hRsv1 := Bool.toNat_le f.rsv1
  have hRsv2 := Bool.toNat_le f.rsv2
  have hRsv3 := Bool.toNat_le f.rsv3
  have hOpcode := f.opcode.isLt
  unfold lowFirst
  omega

theorem firstByte_top (f : Frame) : f.firstByte >>> 7 = UInt8.ofNat f.fin.toNat := by
  have hFin := Bool.toNat_le f.fin
  have hLow := lowFirst_lt f
  have hByte := f.firstByte_toNat
  unfold lowFirst at hLow
  rw [← UInt8.toNat_inj, shiftRight_seven_toNat, UInt8.toNat_ofNat', hByte]
  omega

theorem firstByte_low (f : Frame) : f.firstByte &&& 0x7F = UInt8.ofNat (lowFirst f) := by
  have hLow := lowFirst_lt f
  have hByte := f.firstByte_toNat
  rw [← UInt8.toNat_inj, lowBits_toNat, UInt8.toNat_ofNat', hByte]
  unfold lowFirst at *
  omega

theorem secondByte_top {form : LengthForm} {f : Frame}
    (hFits : f.payload.length < form.limit) :
    (f.secondByte form >>> 7) &&& 0x01 = UInt8.ofNat f.key.isSome.toNat := by
  have hMask := Bool.toNat_le f.key.isSome
  have hCode := LengthForm.code_lt hFits
  rw [← UInt8.toNat_inj, topBit_toNat, UInt8.toNat_ofNat', Frame.secondByte_toNat hFits]
  omega

theorem secondByte_low {form : LengthForm} {f : Frame}
    (hFits : f.payload.length < form.limit) :
    f.secondByte form &&& 0x7F = UInt8.ofNat (form.code f.payload.length) := by
  have hMask := Bool.toNat_le f.key.isSome
  have hCode := LengthForm.code_lt hFits
  rw [← UInt8.toNat_inj, lowBits_toNat, UInt8.toNat_ofNat', Frame.secondByte_toNat hFits]
  omega

/-- What the code makes of a length written in a given form. -/
def lengthRead (form : LengthForm) (n : Nat) : Nat :=
  match form with
  | .sixtyFour => 0
  | _ => n

/-- Only the 64-bit form loses the length. -/
theorem lengthRead_eq {form : LengthForm} (hForm : form ≠ .sixtyFour) (n : Nat) :
    lengthRead form n = n := by
  cases form with
  | seven => rfl
  | sixteen => rfl
  | sixtyFour => exact absurd rfl hForm

theorem lengthField_extended {form : LengthForm} {n : Nat} (hFits : n < form.limit)
    (pre rest : Bytes) :
    lengthField (UInt8.ofNat (form.code n)) (pre ++ form.extended n ++ rest) pre.length =
      (lengthRead form n, pre.length + form.extra) := by
  have hCode := LengthForm.code_lt hFits
  have hDrop : (pre ++ form.extended n ++ rest).drop pre.length = form.extended n ++ rest := by
    rw [List.append_assoc, List.drop_left]
  have hTake : (form.extended n ++ rest).take form.extra = form.extended n := by
    rw [← form.extended_length n, List.take_left]
  have hLen : pre.length + form.extra ≤ (pre ++ form.extended n ++ rest).length := by
    simp only [List.length_append, LengthForm.extended_length]
    omega
  unfold lengthField
  cases form with
  | seven =>
      have hSeven : n < 126 := hFits
      have hLt : UInt8.ofNat (LengthForm.seven.code n) < 126 := by
        rw [UInt8.lt_iff_toNat_lt, UInt8.toNat_ofNat']
        show n % 256 < 126
        omega
      rw [if_pos hLt, UInt8.toNat_ofNat']
      simp only [lengthRead, LengthForm.code, LengthForm.extra, Prod.mk.injEq]
      omega
  | sixteen =>
      have hNot : ¬ UInt8.ofNat (LengthForm.sixteen.code n) < 126 := by
        simp [LengthForm.code]
      have hEq : UInt8.ofNat (LengthForm.sixteen.code n) = 126 := rfl
      have hRead : ofBigEndian (bigEndian 2 n) = n := ofBigEndian_bigEndian hFits
      simp only [LengthForm.extra] at hLen hTake
      rw [if_neg hNot, if_pos hEq, if_pos hLen, hDrop, hTake]
      simp only [LengthForm.extended, hRead, lengthRead, LengthForm.extra]
  | sixtyFour =>
      have hNot : ¬ UInt8.ofNat (LengthForm.sixtyFour.code n) < 126 := by
        simp [LengthForm.code]
      have hNe : ¬ UInt8.ofNat (LengthForm.sixtyFour.code n) = 126 := by
        simp [LengthForm.code]
      simp only [LengthForm.extra] at hLen
      rw [if_neg hNot, if_neg hNe, if_pos hLen]
      rfl

theorem keyFieldAt_keyField (key : MaskingKey) (f : Frame) (pre rest : Bytes) :
    keyFieldAt key (UInt8.ofNat f.key.isSome.toNat) (pre ++ f.keyField ++ rest) pre.length =
      (f.key.getD key, pre.length + 4 * f.key.isSome.toNat) := by
  cases hKey : f.key with
  | none => simp [keyFieldAt]
  | some k =>
      have hField : f.keyField = keyBytes k := by
        rw [Frame.keyField, hKey]
      have hLen : pre.length + 4 ≤ (pre ++ keyBytes k ++ rest).length := by
        simp only [List.length_append, keyBytes_length]
        omega
      have hTake : ((pre ++ keyBytes k ++ rest).drop pre.length).take 4 = keyBytes k := by
        rw [List.append_assoc, List.drop_left, ← keyBytes_length k, List.take_left]
      rw [hField, keyFieldAt, if_pos ⟨rfl, hLen⟩, hTake, keyOfBytes_keyBytes]
      rfl

/-- The header the code reads from an encoded frame. -/
def readHeader (key : MaskingKey) (form : LengthForm) (f : Frame) : Header where
  fin := UInt8.ofNat f.fin.toNat
  opcode := UInt8.ofNat (lowFirst f)
  mask := UInt8.ofNat f.key.isSome.toNat
  lengthType := UInt8.ofNat (form.code f.payload.length)
  length := lengthRead form f.payload.length
  size := (f.header form).length
  key := f.key.getD key

theorem scanHeader_encode (key : MaskingKey) {form : LengthForm} {f : Frame}
    (hFits : f.payload.length < form.limit) (t : Bytes) :
    scanHeader key (f.encode form ++ t) = readHeader key form f := by
  have hShape : f.encode form ++ t =
      [f.firstByte, f.secondByte form] ++ form.extended f.payload.length ++
        (f.keyField ++ f.wirePayload ++ t) := by
    simp [Frame.encode, Frame.header]
  have hShape' : f.encode form ++ t =
      ([f.firstByte, f.secondByte form] ++ form.extended f.payload.length) ++ f.keyField ++
        (f.wirePayload ++ t) := by
    simp [Frame.encode, Frame.header]
  have hHead : (f.encode form ++ t).headD 0 = f.firstByte := by
    rw [hShape]
    rfl
  have hSecond : (f.encode form ++ t).getD 1 f.firstByte = f.secondByte form := by
    rw [hShape]
    rfl
  have hMin : min 2 (f.encode form ++ t).length = 2 := by
    rw [List.length_append, Frame.encode_length]
    omega
  have hLength := lengthField_extended hFits [f.firstByte, f.secondByte form]
    (f.keyField ++ f.wirePayload ++ t)
  rw [← hShape] at hLength
  have hKeyed := keyFieldAt_keyField key f
    ([f.firstByte, f.secondByte form] ++ form.extended f.payload.length) (f.wirePayload ++ t)
  rw [← hShape', List.length_append, LengthForm.extended_length] at hKeyed
  simp only [List.length_cons, List.length_nil, Nat.reduceAdd] at hLength hKeyed
  simp only [scanHeader, hHead, hSecond, hMin, firstByte_top, firstByte_low,
    secondByte_top hFits, secondByte_low hFits, hLength, hKeyed, readHeader,
    Frame.header_length]

/-- An encoded frame announces its own size, unless its length is 64-bit. -/
theorem readHeader_total {form : LengthForm} (hForm : form ≠ .sixtyFour) (key : MaskingKey)
    (f : Frame) : (readHeader key form f).total = (f.encode form).length := by
  have hRead := lengthRead_eq hForm f.payload.length
  simp only [Header.total, readHeader, hRead, Frame.encode, List.length_append,
    Frame.wirePayload_length]

theorem readHeader_payload {form : LengthForm} (hForm : form ≠ .sixtyFour) (key : MaskingKey)
    (f : Frame) (t : Bytes) :
    (readHeader key form f).payload (f.encode form ++ t) = f.payload := by
  have hRead := lengthRead_eq hForm f.payload.length
  have hDrop : (f.encode form ++ t).drop (f.header form).length = f.wirePayload ++ t := by
    rw [Frame.encode, List.append_assoc, List.drop_left]
  have hTake : (f.wirePayload ++ t).take f.payload.length = f.wirePayload := by
    rw [← f.wirePayload_length, List.take_left]
  simp only [Header.payload, readHeader, hRead, hDrop, hTake]
  cases hKey : f.key with
  | none => simp [Frame.wirePayload, hKey]
  | some k => simp [Frame.wirePayload, hKey]

/-! ## What `pack_dataframe` writes -/

/-- The frame a packet stands for. -/
def frameOf (p : WebSocketPacket) : Frame where
  fin := decide (p.fin = 1)
  rsv1 := decide (p.rsv1 = 1)
  rsv2 := decide (p.rsv2 = 1)
  rsv3 := decide (p.rsv3 = 1)
  opcode := Fin.ofNat 16 p.opcode.toNat
  key := if p.mask = 1 then some p.maskingKey else none
  payload := p.payload.data

/-- A packet whose header fields fit their bits and whose payload was set by
`set_payload`, with the payload cursor at its start. -/
structure Sendable (p : WebSocketPacket) : Prop where
  fin_bit : p.fin = 0 ∨ p.fin = 1
  rsv1_bit : p.rsv1 = 0 ∨ p.rsv1 = 1
  rsv2_bit : p.rsv2 = 0 ∨ p.rsv2 = 1
  rsv3_bit : p.rsv3 = 0 ∨ p.rsv3 = 1
  opcode_lt : p.opcode < 16
  mask_bit : p.mask = 0 ∨ p.mask = 1
  cursor : p.payload.oft = 0
  length_eq : p.payloadLength = p.payload.data.length
  length_lt : p.payload.data.length < 2147483648

private theorem firstByte_bits :
    ∀ (fin rsv1 rsv2 rsv3 : Bool) (opcode : Fin 16),
      ((((0 : UInt8) ||| (UInt8.ofNat fin.toNat <<< 7) ||| (UInt8.ofNat rsv1.toNat <<< 6)) |||
        (UInt8.ofNat rsv2.toNat <<< 5)) ||| (UInt8.ofNat rsv3.toNat <<< 4)) |||
        (UInt8.ofNat opcode.val &&& 0x0F) =
      UInt8.ofNat (128 * fin.toNat + 64 * rsv1.toNat + 32 * rsv2.toNat + 16 * rsv3.toNat +
        opcode.val) := by
  decide +kernel

private theorem secondByte_bits :
    ∀ (mask : Bool) (code : Fin 128),
      ((0 : UInt8) ||| (UInt8.ofNat mask.toNat <<< 7)) ||| UInt8.ofNat code.val =
      UInt8.ofNat (128 * mask.toNat + code.val) := by
  decide +kernel

theorem bit_eq {b : UInt8} (hBit : b = 0 ∨ b = 1) :
    b = UInt8.ofNat (decide (b = 1)).toNat := by
  rcases hBit with rfl | rfl <;> rfl

/-- The first byte written is the reference first byte. -/
theorem packFirstByte_eq {p : WebSocketPacket} (hp : Sendable p) :
    ((((0 : UInt8) ||| (p.fin <<< 7) ||| (p.rsv1 <<< 6)) ||| (p.rsv2 <<< 5)) |||
      (p.rsv3 <<< 4)) ||| (p.opcode &&& 0x0F) = (frameOf p).firstByte := by
  have hLt : p.opcode.toNat < 16 := UInt8.lt_iff_toNat_lt.mp hp.opcode_lt
  have hOpcode : UInt8.ofNat (Fin.ofNat 16 p.opcode.toNat).val = p.opcode := by
    rw [Fin.val_ofNat, Nat.mod_eq_of_lt hLt, UInt8.ofNat_toNat]
  have hBits := firstByte_bits (decide (p.fin = 1)) (decide (p.rsv1 = 1))
    (decide (p.rsv2 = 1)) (decide (p.rsv3 = 1)) (Fin.ofNat 16 p.opcode.toNat)
  rw [← bit_eq hp.fin_bit, ← bit_eq hp.rsv1_bit, ← bit_eq hp.rsv2_bit, ← bit_eq hp.rsv3_bit,
    hOpcode] at hBits
  exact hBits

theorem frameOf_isSome {p : WebSocketPacket} :
    (frameOf p).key.isSome = decide (p.mask = 1) := by
  by_cases hMask : p.mask = 1
  · simp [frameOf, hMask]
  · simp [frameOf, hMask]

/-- A second byte written with length code `code` is the reference second byte. -/
theorem packSecondByte_eq {p : WebSocketPacket} (hp : Sendable p) {form : LengthForm}
    (hFits : p.payload.data.length < form.limit) :
    ((0 : UInt8) ||| (p.mask <<< 7)) ||| UInt8.ofNat (form.code p.payload.data.length) =
      (frameOf p).secondByte form := by
  have hCode := LengthForm.code_lt hFits
  have hBits := secondByte_bits (decide (p.mask = 1)) ⟨form.code p.payload.data.length, hCode⟩
  rw [← bit_eq hp.mask_bit] at hBits
  rw [Frame.secondByte, frameOf_isSome]
  exact hBits

/-- The byte `pack_dataframe` shifts out of the length. -/
theorem lengthByte_eq (p : WebSocketPacket) (k : Nat) :
    p.lengthByte (8 * k) = UInt8.ofNat (p.payloadLength / 256 ^ k) := by
  have hMask : ∀ n : Nat, n &&& 0xFF = n % 256 := fun n => Nat.and_two_pow_sub_one_eq_mod n 8
  have hPow : 2 ^ (8 * k) = 256 ^ k := by
    rw [Nat.pow_mul]
  rw [WebSocketPacket.lengthByte, hMask, Nat.shiftRight_eq_div_pow, hPow, ← UInt8.toNat_inj,
    UInt8.toNat_ofNat', UInt8.toNat_ofNat', Nat.mod_mod]

/-- `get_length_type` chooses the shortest form. -/
theorem getLengthType_eq (p : WebSocketPacket) :
    p.getLengthType =
      UInt8.ofNat ((LengthForm.shortest p.payloadLength).code p.payloadLength) := by
  unfold WebSocketPacket.getLengthType LengthForm.shortest
  by_cases hSeven : p.payloadLength < 126
  · rw [if_pos hSeven, if_pos hSeven]
    rfl
  · rw [if_neg hSeven, if_neg hSeven]
    by_cases hSixteen : p.payloadLength < 65536
    · rw [if_pos (by omega), if_pos hSixteen]
      rfl
    · rw [if_neg (by omega), if_neg hSixteen]
      rfl

/-- The second header byte and the length bytes, in the shortest form. -/
theorem packLength_eq {p : WebSocketPacket} (hp : Sendable p) (output : ByteBuffer) :
    p.packLength output =
      .ok (some { output with
        data := output.data ++
          (frameOf p).secondByte (.shortest p.payload.data.length) ::
            (LengthForm.shortest p.payload.data.length).extended p.payload.data.length }) := by
  have hLength := hp.length_eq
  have hLt := hp.length_lt
  have hByte : ∀ k, p.lengthByte (8 * k) = UInt8.ofNat (p.payload.data.length / 256 ^ k) := by
    intro k
    rw [lengthByte_eq, hLength]
  have hSecond := packSecondByte_eq hp
    (LengthForm.lt_limit_shortest (show p.payload.data.length < 18446744073709551616 by omega))
  unfold WebSocketPacket.packLength
  rw [getLengthType_eq, hLength]
  unfold LengthForm.shortest at hSecond ⊢
  by_cases hSeven : p.payload.data.length < 126
  · rw [if_pos hSeven] at hSecond ⊢
    have hType : UInt8.ofNat (LengthForm.seven.code p.payload.data.length) < 126 := by
      rw [UInt8.lt_iff_toNat_lt, UInt8.toNat_ofNat']
      show p.payload.data.length % 256 < 126
      omega
    have hSecond' : ((0 : UInt8) ||| (p.mask <<< 7)) ||| UInt8.ofNat p.payload.data.length =
        (frameOf p).secondByte .seven := hSecond
    simp only [if_pos hType, ByteBuffer.append_one, ok_bind, hSecond', LengthForm.extended]
    rfl
  · rw [if_neg hSeven] at hSecond ⊢
    by_cases hSixteen : p.payload.data.length < 65536
    · rw [if_pos hSixteen] at hSecond ⊢
      have hType : UInt8.ofNat (LengthForm.sixteen.code p.payload.data.length) = 126 := rfl
      have hNot : ¬ (126 : UInt8) < 126 := by decide
      rw [hType] at hSecond ⊢
      simp only [if_neg hNot, if_true, ByteBuffer.append_one, ok_bind, hSecond,
        hByte 1, hByte 0, LengthForm.extended, bigEndian, List.append_assoc,
        List.cons_append, List.nil_append, pure_eq]
    · rw [if_neg hSixteen] at hSecond ⊢
      have hType : UInt8.ofNat (LengthForm.sixtyFour.code p.payload.data.length) = 127 := rfl
      have hNot : ¬ (127 : UInt8) < 126 := by decide
      have hNe : ¬ (127 : UInt8) = 126 := by decide
      rw [hType] at hSecond ⊢
      simp only [if_neg hNot, if_neg hNe, if_true, ByteBuffer.append_one, ok_bind, hSecond,
        hByte 7, hByte 6, hByte 5, hByte 4, hByte 3, hByte 2, hByte 1, hByte 0,
        LengthForm.extended, bigEndian, List.append_assoc, List.cons_append, List.nil_append,
        pure_eq]

/-- What the masking loop writes in `n` rounds, from payload index `i` on, when `d`
is what lies ahead of the payload cursor: a round that finds no byte masks the
value of the round before once more. -/
def maskRounds (key : MaskingKey) : Nat → Nat → UInt8 → Bytes → Bytes
  | 0, _, _, _ => []
  | n + 1, i, value, d =>
      (d.headD value ^^^ key (Fin.ofNat 4 i)) ::
        maskRounds key n (i + 1) (d.headD value ^^^ key (Fin.ofNat 4 i)) (d.drop 1)

/-- As long as there are bytes, this is masking. -/
theorem maskRounds_eq_maskFrom (key : MaskingKey) (n : Nat) :
    ∀ (i : Nat) (value : UInt8) (d : Bytes), n ≤ d.length →
      maskRounds key n i value d = maskFrom key i (d.take n) := by
  induction n with
  | zero =>
      intro i value d _
      simp [maskRounds, maskFrom]
  | succ n ih =>
      intro i value d hLe
      cases d with
      | nil => exact absurd hLe (by simp)
      | cons b d =>
          rw [List.length_cons] at hLe
          rw [maskRounds, List.take_succ_cons, maskFrom, List.headD_cons, List.drop_one,
            List.tail_cons, ih _ _ _ (by omega)]

/-- The masking loop, from any cursor in range. -/
theorem maskLoop_eq (key : MaskingKey) {data : Bytes} (hSize : data.length < 4294967296) :
    ∀ (n i : Nat) (value : UInt8) (output : ByteBuffer) (o : Nat), o ≤ data.length →
      WebSocketPacket.maskLoop key n i value ⟨data, o⟩ output =
        .ok (⟨data, min (o + n) data.length⟩,
          { output with data := output.data ++ maskRounds key n i value (data.drop o) }) := by
  intro n
  induction n with
  | zero =>
      intro i value output o hLe
      simp [WebSocketPacket.maskLoop, maskRounds, hLe]
  | succ n ih =>
      intro i value output o hLe
      have hRead := readBytesX_eq ⟨data, o⟩ [value] 1 hSize hLe (by decide) (by decide) rfl
      rw [Nat.cast_one] at hRead
      by_cases hHere : o < data.length
      · have hDrop : data.drop o = data[o] :: data.drop (o + 1) :=
          List.drop_eq_getElem_cons hHere
        rw [if_pos (by show o + 1 ≤ data.length; omega)] at hRead
        simp only [WebSocketPacket.maskLoop, hRead, ok_bind, hDrop, List.take_succ_cons,
          List.take_zero, List.headD_cons, ByteBuffer.append_one]
        rw [ih (i + 1) _ _ (o + 1) (by omega)]
        simp only [maskRounds, List.headD_cons, List.drop_one, List.tail_cons, List.append_assoc,
          List.singleton_append]
        rw [Nat.add_right_comm, Nat.add_assoc]
      · -- nothing is left to read: the local keeps its value
        have hDrop : data.drop o = [] := List.drop_eq_nil_of_le (by omega)
        rw [if_neg (by show ¬ o + 1 ≤ data.length; omega)] at hRead
        simp only [WebSocketPacket.maskLoop, hRead, ok_bind, List.headD_cons,
          ByteBuffer.append_one]
        rw [ih (i + 1) _ _ o hLe, hDrop]
        simp only [maskRounds, List.headD_nil, List.drop_nil, List.append_assoc,
          List.singleton_append]
        rw [show min (o + n) data.length = min (o + (n + 1)) data.length by omega]

/-- The packet with its payload cursor at `o`. -/
def WebSocketPacket.withCursor (p : WebSocketPacket) (o : Nat) : WebSocketPacket :=
  { p with payload := ⟨p.payload.data, o⟩ }

section Pack

variable {p : WebSocketPacket} (hp : Sendable p)

include hp

/-- A masked packet, with the payload cursor anywhere: the header and what the
masking loop finds ahead of the cursor. -/
theorem packDataframe_masked (hMask : p.mask = 1) {o : Nat} (hOft : o ≤ p.payload.data.length)
    (output : ByteBuffer) :
    (p.withCursor o).packDataframe output =
      .ok (0, p.withCursor p.payload.data.length,
        { output with
          data := output.data ++ (frameOf p).header (.shortest p.payload.data.length) ++
            maskRounds p.maskingKey p.payload.data.length 0 0 (p.payload.data.drop o) }) := by
  have hSize := lt_trans hp.length_lt (show 2147483648 < 4294967296 by decide)
  have hKey : (frameOf p).key = some p.maskingKey := if_pos hMask
  have hPayload : (frameOf p).payload = p.payload.data := rfl
  have hAppend : ∀ out : ByteBuffer, out.append (some (keyBytes p.maskingKey)) 4 =
      .ok { out with data := out.data ++ keyBytes p.maskingKey } := by
    intro out
    have hAll := out.append_all (keyBytes p.maskingKey)
    rwa [keyBytes_length] at hAll
  have hLoop := fun out => maskLoop_eq p.maskingKey hSize p.payload.data.length 0 0 out o hOft
  have hEnd : min (o + p.payload.data.length) p.payload.data.length = p.payload.data.length :=
    Nat.min_eq_right (Nat.le_add_left _ _)
  have hLengthBytes : ∀ out, (p.withCursor o).packLength out = p.packLength out := fun _ => rfl
  unfold WebSocketPacket.packDataframe
  simp only [hLengthBytes, packLength_eq hp]
  simp only [WebSocketPacket.withCursor, ByteBuffer.append_one, ok_bind, packFirstByte_eq hp,
    if_pos hMask, hAppend, hp.length_eq, hLoop, hEnd]
  simp only [Frame.header, Frame.keyField, hKey, hPayload, List.append_assoc, List.cons_append,
    List.nil_append, pure_eq]

/-- A packet without a mask: the header and the payload, wherever its cursor is. -/
theorem packDataframe_unmasked (hMask : p.mask ≠ 1) (o : Nat) (output : ByteBuffer) :
    (p.withCursor o).packDataframe output =
      .ok (0, p.withCursor o,
        { output with
          data := output.data ++ (frameOf p).header (.shortest p.payload.data.length) ++
            p.payload.data }) := by
  have hKey : (frameOf p).key = none := if_neg hMask
  have hPayload : (frameOf p).payload = p.payload.data := rfl
  have hLength : (⟨p.payload.data, o⟩ : ByteBuffer).length =
      (⟨p.payload.data, 0⟩ : ByteBuffer).length := rfl
  have hAppend := fun out : ByteBuffer => out.append_bytes p.payload.data hp.length_lt
  have hLengthBytes : ∀ out, (p.withCursor o).packLength out = p.packLength out := fun _ => rfl
  unfold WebSocketPacket.packDataframe
  simp only [hLengthBytes, packLength_eq hp]
  simp only [WebSocketPacket.withCursor, ByteBuffer.append_one, ok_bind, packFirstByte_eq hp,
    if_neg hMask, ByteBuffer.bytes_eq, hLength, hAppend]
  simp only [Frame.header, Frame.keyField, hKey, hPayload, List.append_assoc, List.cons_append,
    List.nil_append, pure_eq]

/-- `pack_dataframe` writes the reference encoding in the shortest form. -/
theorem packDataframe_eq (output : ByteBuffer) :
    ∃ p', p.packDataframe output =
      .ok (0, p', { output with
        data := output.data ++ (frameOf p).encode (.shortest p.payload.data.length) }) := by
  have hFront : p.withCursor 0 = p := by
    rw [WebSocketPacket.withCursor, ← hp.cursor]
  have hPayload : (frameOf p).payload = p.payload.data := rfl
  by_cases hMask : p.mask = 1
  · have hKey : (frameOf p).key = some p.maskingKey := if_pos hMask
    have hPack := packDataframe_masked hp hMask (Nat.zero_le _) output
    rw [hFront, List.drop_zero, maskRounds_eq_maskFrom _ _ _ _ _ le_rfl, List.take_length,
      List.append_assoc] at hPack
    refine ⟨p.withCursor p.payload.data.length, hPack.trans ?_⟩
    rw [Frame.encode, Frame.wirePayload, hKey, hPayload]
  · have hKey : (frameOf p).key = none := if_neg hMask
    have hPack := packDataframe_unmasked hp hMask 0 output
    rw [hFront, List.append_assoc] at hPack
    refine ⟨p, hPack.trans ?_⟩
    rw [Frame.encode, Frame.wirePayload, hKey, hPayload]

end Pack

/-! ## Round trip -/

/-- Reading back what was packed: the bytes written come back as the same
frame, whatever follows them in the buffer. -/
def RoundTrips (p : WebSocketPacket) : Prop :=
  ∃ p' f, p.packDataframe ByteBuffer.empty = .ok (0, p', ⟨f, 0⟩) ∧
    ∀ (mem : Uninit) (t : Bytes), (f ++ t).length < 2147483648 →
      ∃ q, (WebSocketPacket.new mem).recvDataframe ⟨f ++ t, 0⟩ =
          .ok (f.length, q, ⟨f ++ t, f.length⟩) ∧
        q.fin = p.fin ∧ q.opcode = p.opcode ∧ q.mask = p.mask ∧
        q.payloadLength = p.payloadLength ∧ q.payload.data = p.payload.data

private theorem frameOf_lowFirst {p : WebSocketPacket} (hp : Sendable p)
    (hRsv : p.rsv1 = 0 ∧ p.rsv2 = 0 ∧ p.rsv3 = 0) :
    UInt8.ofNat (lowFirst (frameOf p)) = p.opcode := by
  have hLt : p.opcode.toNat < 16 := UInt8.lt_iff_toNat_lt.mp hp.opcode_lt
  obtain ⟨h1, h2, h3⟩ := hRsv
  have hZero : ¬ (0 : UInt8) = 1 := by decide
  simp only [lowFirst, frameOf, h1, h2, h3, hZero, decide_false, Bool.toNat_false, Nat.mul_zero,
    Nat.zero_add, Fin.val_ofNat, Nat.mod_eq_of_lt hLt, UInt8.ofNat_toNat]

/-- `recv_dataframe` on a frame of the reference format whose length is not
64-bit, followed by anything: the frame is consumed exactly. -/
theorem recvDataframe_encode (mem : Uninit) {form : LengthForm} {f : Frame}
    (hForm : form ≠ .sixtyFour) (hFits : f.payload.length < form.limit) (t : Bytes)
    (hSize : (f.encode form ++ t).length < 4294967296)
    (hEnd : f.key ≠ none ∨ f.payload ≠ [] ∨ t ≠ []) :
    (WebSocketPacket.new mem).recvDataframe ⟨f.encode form ++ t, 0⟩ =
      .ok ((f.encode form).length,
        { (readHeader mem.maskingKey form f).packet mem with payload := ⟨f.payload, 0⟩ },
        ⟨f.encode form ++ t, (f.encode form).length⟩) := by
  have hTotal := readHeader_total hForm mem.maskingKey f
  have hLength : ¬ (f.encode form ++ t).length < (readHeader mem.maskingKey form f).total := by
    rw [hTotal, List.length_append]
    omega
  have hNotEnd : ¬ ((readHeader mem.maskingKey form f).mask ≠ 1 ∧ f.encode form ++ t ≠ [] ∧
      (readHeader mem.maskingKey form f).size = (f.encode form ++ t).length) := by
    rintro ⟨hMask, -, hHere⟩
    have hShort : f.payload.length = 0 ∧ t.length = 0 := by
      simp only [readHeader, Frame.encode, List.length_append, Frame.wirePayload_length] at hHere
      omega
    rcases hEnd with hKey | hPayload | hTail
    · obtain ⟨k, hSome⟩ := Option.ne_none_iff_exists'.mp hKey
      exact hMask (by simp [readHeader, hSome])
    · exact hPayload (List.length_eq_zero_iff.mp hShort.1)
    · exact hTail (List.length_eq_zero_iff.mp hShort.2)
  rw [recvDataframe_eq _ mem hSize]
  simp only [scanHeader_encode mem.maskingKey hFits t]
  rw [if_neg hLength, if_neg hNotEnd, readHeader_payload hForm, hTotal]

/-- Up to 65535 bytes the round trip holds. -/
theorem roundTrips_of_lt {p : WebSocketPacket} (hp : Sendable p)
    (hRsv : p.rsv1 = 0 ∧ p.rsv2 = 0 ∧ p.rsv3 = 0) (hNonempty : p.payload.data ≠ [])
    (hShort : p.payload.data.length < 65536) : RoundTrips p := by
  obtain ⟨p', hPack⟩ := packDataframe_eq hp ByteBuffer.empty
  have hForm := LengthForm.shortest_ne_sixtyFour hShort
  have hFits : (frameOf p).payload.length < (LengthForm.shortest p.payload.data.length).limit :=
    LengthForm.lt_limit_shortest (lt_trans hShort (by decide))
  refine ⟨p', _, hPack, fun mem t hSize => ⟨_, recvDataframe_encode mem hForm hFits t
    (lt_trans hSize (by decide)) (.inr (.inl hNonempty)), ?_, ?_, ?_, ?_, rfl⟩⟩
  · exact (bit_eq hp.fin_bit).symm
  · exact frameOf_lowFirst hp hRsv
  · show UInt8.ofNat (frameOf p).key.isSome.toNat = p.mask
    rw [frameOf_isSome]
    exact (bit_eq hp.mask_bit).symm
  · rw [hp.length_eq]
    exact lengthRead_eq hForm _

/-- From 65536 bytes on the length read is zero. -/
theorem not_roundTrips_of_le {p : WebSocketPacket} (hp : Sendable p)
    (hLong : 65536 ≤ p.payload.data.length) (hLt : p.payload.data.length < 2147483634) :
    ¬ RoundTrips p := by
  rintro ⟨p', f, hPack, hRead⟩
  have hForm : LengthForm.shortest p.payload.data.length = .sixtyFour := by
    rw [LengthForm.shortest, if_neg (by omega), if_neg (by omega)]
  have hFits : (frameOf p).payload.length < LengthForm.sixtyFour.limit := by
    show p.payload.data.length < 18446744073709551616
    omega
  obtain ⟨p'', hPacked⟩ := packDataframe_eq hp ByteBuffer.empty
  rw [hPacked, hForm] at hPack
  simp only [Except.ok.injEq, Prod.mk.injEq, ByteBuffer.mk.injEq, true_and] at hPack
  obtain ⟨-, hBytes, -⟩ := hPack
  have hFrame : (frameOf p).encode .sixtyFour = f := by
    simpa [ByteBuffer.empty] using hBytes
  subst hFrame
  have hKey := Bool.toNat_le (frameOf p).key.isSome
  have hLen := Frame.encode_length .sixtyFour (frameOf p)
  have hSize : ((frameOf p).encode .sixtyFour ++ []).length < 2147483648 := by
    rw [List.append_nil, hLen]
    show 2 + 8 + 4 * _ + p.payload.data.length < 2147483648
    omega
  obtain ⟨q, hRecv, -, -, -, hLength, -⟩ := hRead .zeroed [] hSize
  rw [recvDataframe_eq _ _ (lt_trans hSize (by decide))] at hRecv
  simp only [scanHeader_encode _ hFits []] at hRecv
  split at hRecv
  · simp only [Except.ok.injEq, Prod.mk.injEq] at hRecv
    omega
  · split at hRecv
    · exact absurd hRecv (by simp)
    · simp only [Except.ok.injEq, Prod.mk.injEq] at hRecv
      obtain ⟨-, rfl, -⟩ := hRecv
      have hZero : 0 = p.payloadLength := hLength
      rw [hp.length_eq] at hZero
      omega

/-- A packed frame is read back exactly when its payload is shorter than 65536
bytes: `fetch_frame_info` reads the eight bytes of a 64-bit length, but never
assigns `payload_length_` from them. -/
theorem roundTrips_iff {p : WebSocketPacket} (hp : Sendable p)
    (hRsv : p.rsv1 = 0 ∧ p.rsv2 = 0 ∧ p.rsv3 = 0) (hNonempty : p.payload.data ≠ [])
    (hLt : p.payload.data.length < 2147483634) :
    RoundTrips p ↔ p.payload.data.length < 65536 := by
  constructor
  · intro hRound
    by_contra hLong
    exact not_roundTrips_of_le hp (Nat.le_of_not_lt hLong) hLt hRound
  · exact roundTrips_of_lt hp hRsv hNonempty

/-- A final binary frame with the given payload, as a sender sets it up. -/
def binaryPacket (payload : Bytes) : WebSocketPacket :=
  { WebSocketPacket.new .zeroed with
    fin := 1
    opcode := 2
    payloadLength := payload.length
    payload := ⟨payload, 0⟩ }

theorem binaryPacket_sendable {payload : Bytes} (hLt : payload.length < 2147483648) :
    Sendable (binaryPacket payload) where
  fin_bit := .inr rfl
  rsv1_bit := .inl rfl
  rsv2_bit := .inl rfl
  rsv3_bit := .inl rfl
  opcode_lt := show (2 : UInt8) < 16 by decide
  mask_bit := .inl rfl
  cursor := rfl
  length_eq := rfl
  length_lt := hLt

theorem roundTrips_iff_three :
    RoundTrips (binaryPacket [1, 2, 3]) ↔ ([1, 2, 3] : Bytes).length < 65536 :=
  roundTrips_iff (binaryPacket_sendable (by decide)) ⟨rfl, rfl, rfl⟩ (by decide) (by decide)

/-- A payload of 65536 bytes is packed with a 64-bit length and not read back. -/
theorem binaryPacket_65536_not_roundTrips :
    Sendable (binaryPacket (List.replicate 65536 0)) ∧
      ¬ RoundTrips (binaryPacket (List.replicate 65536 0)) := by
  have hLen : (binaryPacket (List.replicate 65536 0)).payload.data.length = 65536 :=
    List.length_replicate
  have hSendable : Sendable (binaryPacket (List.replicate 65536 0)) :=
    binaryPacket_sendable (by rw [List.length_replicate]; decide)
  exact ⟨hSendable, not_roundTrips_of_le hSendable hLen.ge (by rw [hLen]; decide)⟩

end WebSocketFiles
