import WebSocketFiles.Model.Packet

/-!
# What `recv_dataframe` does on arbitrary bytes

`fetch_frame_info` never checks whether its reads succeed.  A read that fails
leaves its target alone, so a header that is cut off is completed from stale
values: a missing second byte is read as the first one, a missing extended
length as zero, a missing key as whatever the memory holds.  `scanHeader`
states this as one function of the bytes in the buffer, and
`fetchFrameInfo_eq` and `recvDataframe_eq` say that the code computes exactly
that.  Every later result about frames goes through these two equations.
-/

namespace WebSocketFiles

open MachineInt FrameFormat Fallible

/-- What `fetch_frame_info` makes of the bytes at the front of the buffer. -/
structure Header where
  fin : UInt8
  opcode : UInt8
  mask : UInt8
  lengthType : UInt8
  /-- the payload length, zero when the length bytes are missing -/
  length : Nat
  /-- the number of header bytes read -/
  size : Nat
  key : MaskingKey

/-- The payload length announced at offset `o`, and the offset behind it. -/
def lengthField (code : UInt8) (d : Bytes) (o : Nat) : Nat × Nat :=
  if code < 126 then (code.toNat, o)
  else if code = 126 then
    if o + 2 ≤ d.length then (ofBigEndian ((d.drop o).take 2), o + 2) else (0, o)
  else if o + 8 ≤ d.length then (0, o + 8)
  else (0, o)

/-- The masking key at offset `o`, and the offset behind it; `key` is kept when
there is no mask or the key is cut off. -/
def keyFieldAt (key : MaskingKey) (mask : UInt8) (d : Bytes) (o : Nat) : MaskingKey × Nat :=
  if mask = 1 ∧ o + 4 ≤ d.length then (keyOfBytes ((d.drop o).take 4), o + 4) else (key, o)

/-- The header read from the front of `d`; `key` is what the packet's key bytes
hold beforehand. -/
def scanHeader (key : MaskingKey) (d : Bytes) : Header :=
  let b₀ := d.headD 0
  let b₁ := d.getD 1 b₀
  let mask : UInt8 := (b₁ >>> 7) &&& 0x01
  let lengthType : UInt8 := b₁ &&& 0x7F
  let len := lengthField lengthType d (min 2 d.length)
  let keyed := keyFieldAt key mask d len.2
  { fin := b₀ >>> 7
    opcode := b₀ &&& 0x7F
    mask := mask
    lengthType := lengthType
    length := len.1
    size := keyed.2
    key := keyed.1 }

namespace Header

/-- The size of the frame the header announces. -/
def total (h : Header) : Nat :=
  h.size + h.length

/-- The payload bytes behind the header, unmasked when the MASK bit is set. -/
def payload (h : Header) (d : Bytes) : Bytes :=
  if h.mask = 1 then maskFrom h.key 0 ((d.drop h.size).take h.length)
  else (d.drop h.size).take h.length

/-- The packet after the header has been read. -/
def packet (h : Header) (mem : Uninit) : WebSocketPacket :=
  { WebSocketPacket.new mem with
    fin := h.fin
    opcode := h.opcode
    mask := h.mask
    lengthType := h.lengthType
    maskingKey := h.key
    payloadLength := h.length }

end Header

/-! ## The bits of a header byte -/

theorem shiftRight_seven_toNat (b : UInt8) : (b >>> 7).toNat = b.toNat / 128 := by
  rw [UInt8.toNat_shiftRight, Nat.shiftRight_eq_div_pow]
  rfl

theorem lowBits_toNat (b : UInt8) : (b &&& 0x7F).toNat = b.toNat % 128 := by
  rw [UInt8.toNat_and]
  exact Nat.and_two_pow_sub_one_eq_mod b.toNat 7

theorem topBit_toNat (b : UInt8) : ((b >>> 7) &&& 0x01).toNat = b.toNat / 128 := by
  have hLt := b.toNat_lt
  rw [UInt8.toNat_and, shiftRight_seven_toNat]
  show b.toNat / 128 &&& 2 ^ 1 - 1 = b.toNat / 128
  rw [Nat.and_two_pow_sub_one_eq_mod]
  omega

/-! ## Bounds on what is read -/

theorem lengthField_offset (code : UInt8) (d : Bytes) {o : Nat} (ho : o ≤ d.length) :
    o ≤ (lengthField code d o).2 ∧ (lengthField code d o).2 ≤ o + 8 ∧
      (lengthField code d o).2 ≤ d.length := by
  unfold lengthField
  split
  · exact ⟨le_refl _, by omega, ho⟩
  · split
    · split
      · exact ⟨by omega, by omega, by assumption⟩
      · exact ⟨le_refl _, by omega, ho⟩
    · split
      · exact ⟨by omega, le_refl _, by assumption⟩
      · exact ⟨le_refl _, by omega, ho⟩

private theorem ofBigEndian_two_lt (x y : UInt8) : ofBigEndian [x, y] < 65536 := by
  have hx := x.toNat_lt
  have hy := y.toNat_lt
  simp only [ofBigEndian, List.foldl_cons, List.foldl_nil]
  omega

theorem lengthField_lt (code : UInt8) (d : Bytes) (o : Nat) :
    (lengthField code d o).1 < 65536 := by
  unfold lengthField
  split
  · exact lt_trans code.toNat_lt (by decide)
  · split
    · split
      · rename_i hFits
        have hTwo : ((d.drop o).take 2).length = 2 := by
          rw [List.length_take, List.length_drop]
          omega
        obtain ⟨x, y, hxy⟩ := List.length_eq_two.mp hTwo
        rw [hxy]
        exact ofBigEndian_two_lt x y
      · exact Nat.zero_lt_succ _
    · split <;> exact Nat.zero_lt_succ _

theorem keyFieldAt_offset (key : MaskingKey) (mask : UInt8) (d : Bytes) {o : Nat}
    (ho : o ≤ d.length) :
    o ≤ (keyFieldAt key mask d o).2 ∧ (keyFieldAt key mask d o).2 ≤ o + 4 ∧
      (keyFieldAt key mask d o).2 ≤ d.length := by
  unfold keyFieldAt
  split
  · rename_i hFits
    exact ⟨by omega, le_refl _, hFits.2⟩
  · exact ⟨le_refl _, by omega, ho⟩

variable (key : MaskingKey) (d : Bytes)

theorem scanHeader_size_le_fourteen : (scanHeader key d).size ≤ 14 := by
  have hLen := lengthField_offset (d.getD 1 (d.headD 0) &&& 0x7F) d (min_le_right 2 d.length)
  have hKey := (keyFieldAt_offset key ((d.getD 1 (d.headD 0) >>> 7) &&& 0x01) d hLen.2.2).2.1
  have hTwo := min_le_left 2 d.length
  show (keyFieldAt key _ d _).2 ≤ 14
  omega

theorem scanHeader_size_le : (scanHeader key d).size ≤ d.length := by
  have hLen := lengthField_offset (d.getD 1 (d.headD 0) &&& 0x7F) d (min_le_right 2 d.length)
  exact (keyFieldAt_offset key _ d hLen.2.2).2.2

/-- At least the bytes there are, up to two, are read. -/
theorem min_two_le_scanHeader_size : min 2 d.length ≤ (scanHeader key d).size := by
  have hLen := lengthField_offset (d.getD 1 (d.headD 0) &&& 0x7F) d (min_le_right 2 d.length)
  exact hLen.1.trans (keyFieldAt_offset key _ d hLen.2.2).1

theorem scanHeader_length_lt : (scanHeader key d).length < 65536 :=
  lengthField_lt _ d _

/-- Only the key depends on what the packet's memory holds. -/
theorem scanHeader_any_key (key' : MaskingKey) :
    (scanHeader key d).fin = (scanHeader key' d).fin ∧
      (scanHeader key d).opcode = (scanHeader key' d).opcode ∧
      (scanHeader key d).mask = (scanHeader key' d).mask ∧
      (scanHeader key d).length = (scanHeader key' d).length ∧
      (scanHeader key d).size = (scanHeader key' d).size := by
  refine ⟨rfl, rfl, rfl, rfl, ?_⟩
  simp only [scanHeader, keyFieldAt]
  split <;> rfl

theorem scanHeader_total_eq (key' : MaskingKey) :
    (scanHeader key d).total = (scanHeader key' d).total := by
  obtain ⟨-, -, -, hLength, hSize⟩ := scanHeader_any_key key d key'
  rw [Header.total, hSize, hLength, Header.total]

/-! ## The header reads of the code -/

/-- The part `s` of the data `d` that the reads see: up to the length modulo
`2^32`. -/
structure Seen (s d : Bytes) : Prop where
  isPrefix : s <+: d
  length_eq : s.length = d.length % 4294967296

/-- Data in range is seen whole. -/
theorem seen_self {d : Bytes} (hSize : d.length < 4294967296) : Seen d d :=
  ⟨List.prefix_rfl, (Nat.mod_eq_of_lt hSize).symm⟩

theorem seen_take (d : Bytes) : Seen (d.take (d.length % 4294967296)) d where
  isPrefix := List.take_prefix _ _
  length_eq := by
    have hLe := Nat.mod_le d.length 4294967296
    rw [List.length_take]
    omega

/-- Reading `n` bytes into an array of `n` bytes. -/
theorem readBytesX_seen {s : Bytes} (b : ByteBuffer) (hSeen : Seen s b.data) (cb : Bytes) (n : Nat)
    (hOft : b.oft ≤ s.length) (hn : 0 < n) (hnLt : n < 4294967296) (hcb : cb.length = n) :
    b.readBytesX cb n =
      if b.oft + n ≤ s.length then
        .ok (true, (s.drop b.oft).take n, { b with oft := b.oft + n })
      else .ok (false, cb, b) := by
  have hLength := hSeen.length_eq
  split
  · rename_i hFits
    have hDrop : cb.drop n = [] := List.drop_eq_nil_of_le hcb.le
    obtain ⟨t, hData⟩ := hSeen.isPrefix
    have hBytes : (b.data.drop b.oft).take n = (s.drop b.oft).take n := by
      rw [← hData, List.drop_append_of_le_length hOft,
        List.take_append_of_le_length (by rw [List.length_drop]; omega)]
    rw [ByteBuffer.readBytesX_fits hn (by omega), hDrop, List.append_nil, hBytes]
  · rw [ByteBuffer.readBytesX_short (by omega) hnLt (by omega)]

theorem readBytesX_eq (b : ByteBuffer) (cb : Bytes) (n : Nat)
    (hSize : b.data.length < 4294967296) (hOft : b.oft ≤ b.data.length)
    (hn : 0 < n) (hnLt : n < 4294967296) (hcb : cb.length = n) :
    b.readBytesX cb n =
      if b.oft + n ≤ b.data.length then
        .ok (true, (b.data.drop b.oft).take n, { b with oft := b.oft + n })
      else .ok (false, cb, b) :=
  readBytesX_seen b (seen_self hSize) cb n hOft hn hnLt hcb

variable {key d} {s : Bytes}

/-- The two header bytes: the cursor stops at the end of the data, and the
second byte falls back to the first. -/
private theorem readBytesX_first (hSeen : Seen s d) :
    ∃ ok, (⟨d, 0⟩ : ByteBuffer).readBytesX [0] 1 = .ok (ok, [s.headD 0], ⟨d, min 1 s.length⟩) := by
  have hRead := readBytesX_seen ⟨d, 0⟩ hSeen [0] 1 (Nat.zero_le _) (by decide) (by decide) rfl
  rw [Nat.cast_one] at hRead
  rw [hRead]
  clear hRead hSeen
  cases s with
  | nil => exact ⟨false, rfl⟩
  | cons x xs => exact ⟨true, by simp⟩

private theorem readBytesX_second (hSeen : Seen s d) :
    ∃ ok, (⟨d, min 1 s.length⟩ : ByteBuffer).readBytesX [s.headD 0] 1 =
      .ok (ok, [s.getD 1 (s.headD 0)], ⟨d, min 2 s.length⟩) := by
  have hRead := readBytesX_seen ⟨d, min 1 s.length⟩ hSeen [s.headD 0] 1 (min_le_right _ _)
    (by decide) (by decide) rfl
  rw [Nat.cast_one] at hRead
  rw [hRead]
  clear hRead hSeen
  rcases s with _ | ⟨x, _ | ⟨y, xs⟩⟩
  · exact ⟨false, rfl⟩
  · exact ⟨false, rfl⟩
  · exact ⟨true, by simp⟩

theorem fetchLength_eq (p : WebSocketPacket) (hSeen : Seen s d) {o : Nat} (ho : o ≤ s.length)
    (hZero : p.payloadLength = 0) :
    p.fetchLength ⟨d, o⟩ =
      .ok ({ p with payloadLength := (lengthField p.lengthType s o).1 },
        ⟨d, (lengthField p.lengthType s o).2⟩) := by
  unfold WebSocketPacket.fetchLength lengthField
  by_cases hSeven : p.lengthType < 126
  · simp only [if_pos hSeven]
    rfl
  · simp only [if_neg hSeven]
    by_cases hSixteen : p.lengthType = 126
    · simp only [if_pos hSixteen]
      have hRead := readBytesX_seen ⟨d, o⟩ hSeen [0, 0] 2 ho (by decide) (by decide) rfl
      rw [Nat.cast_ofNat] at hRead
      rw [hRead]
      by_cases hFits : o + 2 ≤ s.length
      · simp only [if_pos hFits]
        rfl
      · simp only [if_neg hFits]
        rfl
    · simp only [if_neg hSixteen]
      have hRead := readBytesX_seen ⟨d, o⟩ hSeen [0, 0, 0, 0, 0, 0, 0, 0] 8 ho (by decide)
        (by decide) rfl
      have hKeep : ({ p with payloadLength := 0 } : WebSocketPacket) = p := by
        rw [← hZero]
      rw [Nat.cast_ofNat] at hRead
      rw [hRead]
      by_cases hFits : o + 8 ≤ s.length
      · simp only [if_pos hFits, hKeep]
        rfl
      · simp only [if_neg hFits, hKeep]
        rfl

theorem fetchMaskingKey_eq (p : WebSocketPacket) (hSeen : Seen s d) {o : Nat}
    (ho : o ≤ s.length) :
    p.fetchMaskingKey ⟨d, o⟩ =
      .ok ({ p with maskingKey := (keyFieldAt p.maskingKey p.mask s o).1 },
        ⟨d, (keyFieldAt p.maskingKey p.mask s o).2⟩) := by
  unfold WebSocketPacket.fetchMaskingKey keyFieldAt
  by_cases hMask : p.mask = 1
  · have hRead := readBytesX_seen ⟨d, o⟩ hSeen (keyBytes p.maskingKey) 4 ho (by decide)
      (by decide) (keyBytes_length _)
    rw [Nat.cast_ofNat] at hRead
    simp only [if_pos hMask, hRead]
    by_cases hFits : o + 4 ≤ s.length
    · simp only [if_pos hFits, hMask, true_and]
      rfl
    · simp only [if_neg hFits, hMask, true_and, ok_bind, keyOfBytes_keyBytes]
      rfl
  · simp only [hMask, false_and, if_false]
    rfl

/-- The header the code reads is `scanHeader`. -/
theorem fetchFrameInfo_eq (mem : Uninit) (hSeen : Seen s d) :
    (WebSocketPacket.new mem).fetchFrameInfo ⟨d, 0⟩ =
      .ok (((scanHeader mem.maskingKey s).size : Int),
        (scanHeader mem.maskingKey s).packet mem,
        ⟨d, (scanHeader mem.maskingKey s).size⟩) := by
  obtain ⟨ok₁, hFirst⟩ := readBytesX_first hSeen
  obtain ⟨ok₂, hSecond⟩ := readBytesX_second hSeen
  have hFourteen := scanHeader_size_le_fourteen mem.maskingKey s
  have hGetoft : (⟨d, (scanHeader mem.maskingKey s).size⟩ : ByteBuffer).getoft =
      (scanHeader mem.maskingKey s).size :=
    ByteBuffer.getoft_eq (lt_of_le_of_lt hFourteen (by decide))
  have hOffset := lengthField_offset (s.getD 1 (s.headD 0) &&& 0x7F) s (min_le_right 2 s.length)
  unfold WebSocketPacket.fetchFrameInfo
  simp only [hFirst, ok_bind, List.headD_cons, hSecond]
  rw [fetchLength_eq _ hSeen (min_le_right 2 s.length) rfl, ok_bind]
  simp only
  rw [fetchMaskingKey_eq _ hSeen hOffset.2.2, ok_bind, ← hGetoft]
  rfl

/-! ## The payload and the whole frame -/

/-- The unmasking loop reads `n` bytes and appends them unmasked. -/
theorem unmaskLoop_eq (key : MaskingKey) (hSeen : Seen s d) :
    ∀ (n i : Nat) (real : UInt8) (payload : ByteBuffer) (o : Nat), o + n ≤ s.length →
      WebSocketPacket.unmaskLoop key n i real payload ⟨d, o⟩ =
        .ok ({ payload with data := payload.data ++ maskFrom key i ((s.drop o).take n) },
          ⟨d, o + n⟩) := by
  intro n
  induction n with
  | zero =>
      intro i real payload o _
      simp [WebSocketPacket.unmaskLoop, maskFrom]
  | succ n ih =>
      intro i real payload o hFits
      have hHere : o < s.length := by omega
      have hRead := readBytesX_seen ⟨d, o⟩ hSeen [real] 1
        (by show o ≤ s.length; omega) (by decide) (by decide) rfl
      rw [Nat.cast_one, if_pos (by show o + 1 ≤ s.length; omega)] at hRead
      have hDrop : s.drop o = s[o] :: s.drop (o + 1) := List.drop_eq_getElem_cons hHere
      simp only [WebSocketPacket.unmaskLoop, hRead, ok_bind, hDrop, List.take_succ_cons,
        List.take_zero, List.headD_cons, ByteBuffer.append_one]
      rw [ih (i + 1) _ _ (o + 1) (by omega)]
      simp only [maskFrom, List.append_assoc, List.singleton_append]
      rw [Nat.add_right_comm, Nat.add_assoc]

/-- The payload is read whole when it is there; an unmasked frame that ends
exactly where its header ends makes `curat` index one past the end. -/
theorem fetchPayload_eq (p : WebSocketPacket) {o : Nat} (hSize : d.length < 4294967296)
    (hLt : p.payloadLength < 2147483648) (hFits : o + p.payloadLength ≤ d.length) :
    p.fetchPayload ⟨d, o⟩ =
      if p.mask = 1 then
        .ok ({ p with payload := { p.payload with
          data := p.payload.data ++ maskFrom p.maskingKey 0 ((d.drop o).take p.payloadLength) } },
          ⟨d, o + p.payloadLength⟩)
      else if d ≠ [] ∧ o = d.length then .error .outOfRange
      else
        .ok ({ p with payload := { p.payload with
          data := p.payload.data ++ (d.drop o).take p.payloadLength } },
          ⟨d, o + p.payloadLength⟩) := by
  unfold WebSocketPacket.fetchPayload
  by_cases hMask : p.mask = 1
  · rw [if_pos hMask, if_pos hMask, unmaskLoop_eq _ (seen_self hSize) _ _ _ _ _ hFits]
    rfl
  · rw [if_neg hMask, if_neg hMask]
    have hInt : toInt32 p.payloadLength = p.payloadLength := toInt32_of_lt (by omega) (by omega)
    have hSkip : (⟨d, o⟩ : ByteBuffer).skipX p.payloadLength =
        (true, ⟨d, o + p.payloadLength⟩) :=
      ByteBuffer.skipX_eq hSize hFits
    have hLength : (⟨d, o⟩ : ByteBuffer).length = 0 ↔ d = [] :=
      ByteBuffer.length_eq_zero_iff hSize
    by_cases hNil : d = []
    · subst hNil
      obtain ⟨rfl, hZero⟩ : o = 0 ∧ p.payloadLength = 0 := by
        simp only [List.length_nil] at hFits
        omega
      rw [hZero, Nat.cast_zero] at hSkip
      simp [ByteBuffer.curat, hZero, hSkip, ByteBuffer.append, pure_eq, ok_bind]
    · have hCurat : (⟨d, o⟩ : ByteBuffer).curat =
          if o < d.length then .ok (some (d.drop o)) else .error .outOfRange := by
        rw [ByteBuffer.curat, if_neg (fun hZero => hNil (hLength.mp hZero)), ByteBuffer.dataAt]
        split <;> rfl
      by_cases hEnd : o = d.length
      · rw [if_pos ⟨hNil, hEnd⟩, hCurat, if_neg (by omega)]
        rfl
      · rw [if_neg (fun h => hEnd h.2), hCurat, if_pos (by omega), hInt, ok_bind]
        have hAppend : p.payload.append (some (d.drop o)) p.payloadLength =
            .ok { p.payload with
              data := p.payload.data ++ (d.drop o).take p.payloadLength } := by
          rw [ByteBuffer.append]
          split
          · rename_i hZero
            have hNone : p.payloadLength = 0 := by omega
            rw [hNone, List.take_zero, List.append_nil]
          · rw [List.length_drop, if_neg (by omega), Int.toNat_natCast]
        rw [hAppend, ok_bind, hSkip]
        rfl

/-- The length check compares with the part that is seen.  From `2^31` bytes on
`length()` is negative and converts to a huge number. -/
theorem length_lt_iff (hSeen : Seen s d) (o : Nat) {n : Nat} (hn : n ≤ 2147483648) :
    toUInt64 (⟨d, o⟩ : ByteBuffer).length < n ↔ s.length < n := by
  have hLt : s.length < 4294967296 := by
    rw [hSeen.length_eq]
    exact Nat.mod_lt _ (by decide)
  have hLength : (⟨d, o⟩ : ByteBuffer).length = toInt32 s.length := by
    rw [hSeen.length_eq]
    exact (toInt32_mod d.length).symm
  rw [hLength]
  by_cases hSmall : s.length < 2147483648
  · rw [toInt32_of_lt (by omega) (by omega), toUInt64_of_lt (by omega) (by omega),
      Int.toNat_natCast]
  · rw [toInt32_neg (by omega) (by omega), toUInt64_neg (by omega) (by omega)]
    omega

variable (d) in
/-- `recv_dataframe` on a fresh packet, for any bytes in the buffer: it waits
when the header announces more than there is, raises on an unmasked frame that
ends with its header at the end of the buffer, and consumes the frame
otherwise. -/
theorem recvDataframe_eq (mem : Uninit) (hSize : d.length < 4294967296) :
    let h := scanHeader mem.maskingKey d
    (WebSocketPacket.new mem).recvDataframe ⟨d, 0⟩ =
      if d.length < h.total then .ok (0, h.packet mem, ⟨d, 0⟩)
      else if h.mask ≠ 1 ∧ d ≠ [] ∧ h.size = d.length then .error .outOfRange
      else .ok (h.total, { h.packet mem with payload := ⟨h.payload d, 0⟩ }, ⟨d, h.total⟩) := by
  intro h
  have hSizeLe : h.size ≤ 14 := scanHeader_size_le_fourteen mem.maskingKey d
  have hLenLt : h.length < 65536 := scanHeader_length_lt mem.maskingKey d
  have hInfo : (WebSocketPacket.new mem).fetchFrameInfo ⟨d, 0⟩ =
      .ok ((h.size : Int), h.packet mem, ⟨d, h.size⟩) :=
    fetchFrameInfo_eq mem (seen_self hSize)
  have hAnnounced : toUInt64 (((h.packet mem).payloadLength : Int) + (h.size : Int)) = h.total := by
    show toUInt64 ((h.length : Int) + (h.size : Int)) = h.size + h.length
    rw [toUInt64_of_lt (by omega) (by omega)]
    omega
  have hTotalEq : h.total = h.size + h.length := rfl
  have hThere : toUInt64 (⟨d, h.size⟩ : ByteBuffer).length < h.total ↔ d.length < h.total :=
    length_lt_iff (seen_self hSize) h.size (by omega)
  unfold WebSocketPacket.recvDataframe
  rw [hInfo, ok_bind]
  simp only [hAnnounced, gt_iff_lt, hThere]
  by_cases hMore : d.length < h.total
  · rw [if_pos hMore, if_pos hMore]
    rfl
  · have hFits : h.size + (h.packet mem).payloadLength ≤ d.length := by
      show h.size + h.length ≤ d.length
      omega
    have hGetoft : toUInt64 (⟨d, h.total⟩ : ByteBuffer).getoft = h.total := by
      rw [ByteBuffer.getoft_eq (by show h.total < 2147483648; omega)]
      show toUInt64 (h.total : Int) = h.total
      rw [toUInt64_of_lt (by omega) (by omega), Int.toNat_natCast]
    rw [if_neg hMore, if_neg hMore, fetchPayload_eq _ hSize
      (by show h.length < 2147483648; omega) hFits]
    have hMaskEq : (h.packet mem).mask = h.mask := rfl
    by_cases hMask : h.mask = 1
    · rw [hMaskEq, if_pos hMask, if_neg (fun hBad => hBad.1 hMask), ok_bind]
      simp only [Header.payload, if_pos hMask]
      show (Except.ok (toUInt64 (⟨d, h.total⟩ : ByteBuffer).getoft, _, _) : Except Abort _) = _
      rw [hGetoft]
      rfl
    · rw [hMaskEq, if_neg hMask]
      by_cases hEnd : d ≠ [] ∧ h.size = d.length
      · rw [if_pos hEnd, if_pos ⟨hMask, hEnd⟩]
        rfl
      · rw [if_neg hEnd, if_neg (fun hBad => hEnd hBad.2), ok_bind]
        simp only [Header.payload, if_neg hMask]
        show (Except.ok (toUInt64 (⟨d, h.total⟩ : ByteBuffer).getoft, _, _) : Except Abort _) = _
        rw [hGetoft]
        rfl

/-! ## Buffers of any length -/

/-- A masked frame in the part that is seen is consumed. -/
theorem recvDataframe_seen (mem : Uninit) (hSeen : Seen s d) {h : Header}
    (hScan : scanHeader mem.maskingKey s = h) (hMask : h.mask = 1) (hFits : h.total ≤ s.length) :
    (WebSocketPacket.new mem).recvDataframe ⟨d, 0⟩ =
      .ok (h.total, { h.packet mem with payload := ⟨h.payload s, 0⟩ }, ⟨d, h.total⟩) := by
  have hInfo := fetchFrameInfo_eq mem hSeen
  have hSizeLe := scanHeader_size_le_fourteen mem.maskingKey s
  have hLenLt := scanHeader_length_lt mem.maskingKey s
  rw [hScan] at hInfo hSizeLe hLenLt
  have hTotal : h.total = h.size + h.length := rfl
  have hAnnounced : toUInt64 (((h.packet mem).payloadLength : Int) + (h.size : Int)) = h.total := by
    show toUInt64 ((h.length : Int) + (h.size : Int)) = h.size + h.length
    rw [toUInt64_of_lt (by omega) (by omega)]
    omega
  have hGetoft : toUInt64 (⟨d, h.total⟩ : ByteBuffer).getoft = h.total := by
    rw [ByteBuffer.getoft_eq (by show h.total < 2147483648; omega)]
    show toUInt64 (h.total : Int) = h.total
    rw [toUInt64_of_lt (by omega) (by omega), Int.toNat_natCast]
  have hThere := length_lt_iff hSeen h.size (show h.total ≤ 2147483648 by omega)
  have hMaskEq : (h.packet mem).mask = 1 := hMask
  unfold WebSocketPacket.recvDataframe
  rw [hInfo, ok_bind]
  simp only [hAnnounced, gt_iff_lt, hThere]
  rw [if_neg (by omega), WebSocketPacket.fetchPayload, if_pos hMaskEq,
    unmaskLoop_eq _ hSeen _ _ _ _ _ (by show h.size + h.length ≤ s.length; omega)]
  simp only [ok_bind, Header.payload, if_pos hMask]
  show (Except.ok (toUInt64 (⟨d, h.total⟩ : ByteBuffer).getoft, _, _) : Except Abort _) = _
  rw [hGetoft]
  rfl

/-- The unmasking loop stays in the part that is seen. -/
theorem unmaskLoop_oft_le (key : MaskingKey) (hSeen : Seen s d) :
    ∀ (n i : Nat) (real : UInt8) (payload : ByteBuffer) (o : Nat), o ≤ s.length →
      ∀ {payload' input : ByteBuffer},
        WebSocketPacket.unmaskLoop key n i real payload ⟨d, o⟩ = .ok (payload', input) →
          input.oft ≤ s.length := by
  intro n
  induction n with
  | zero =>
      intro i real payload o ho payload' input hLoop
      simp only [WebSocketPacket.unmaskLoop, Except.ok.injEq, Prod.mk.injEq] at hLoop
      rw [← hLoop.2]
      exact ho
  | succ n ih =>
      intro i real payload o ho payload' input hLoop
      have hRead := readBytesX_seen ⟨d, o⟩ hSeen [real] 1 ho (by decide) (by decide) rfl
      rw [Nat.cast_one] at hRead
      rw [WebSocketPacket.unmaskLoop, hRead] at hLoop
      split at hLoop
      · rename_i hFits
        simp only [ok_bind, ByteBuffer.append_one] at hLoop
        exact ih _ _ _ _ hFits hLoop
      · simp only [ok_bind, ByteBuffer.append_one] at hLoop
        exact ih _ _ _ _ ho hLoop

theorem skipX_oft_le (hSeen : Seen s d) {o n : Nat} (ho : o ≤ s.length)
    (hn : n < 4294967296) : ((⟨d, o⟩ : ByteBuffer).skipX n).2.oft ≤ s.length := by
  have hLength := hSeen.length_eq
  have hRequire : (⟨d, o⟩ : ByteBuffer).require n = decide (o + n ≤ d.length % 4294967296) :=
    ByteBuffer.require_mod (by show o ≤ d.length % 4294967296; omega) hn
  rw [ByteBuffer.skipX, hRequire]
  split
  · rename_i hFits
    rw [decide_eq_true_eq] at hFits
    show toUInt32 ((o : Int) + n) ≤ s.length
    rw [toUInt32_of_lt (by omega) (by omega)]
    omega
  · exact ho

/-- The cursor never leaves the part that is seen. -/
theorem recvDataframe_oft_le (mem : Uninit) (hSeen : Seen s d) {n : Nat} {q : WebSocketPacket}
    {b : ByteBuffer}
    (hRecv : (WebSocketPacket.new mem).recvDataframe ⟨d, 0⟩ = .ok (n, q, b)) :
    b.oft ≤ s.length := by
  have hInfo := fetchFrameInfo_eq mem hSeen
  have hSizeLe := scanHeader_size_le mem.maskingKey s
  have hLenLt := scanHeader_length_lt mem.maskingKey s
  generalize scanHeader mem.maskingKey s = h at hInfo hSizeLe hLenLt
  unfold WebSocketPacket.recvDataframe at hRecv
  rw [hInfo, ok_bind] at hRecv
  simp only at hRecv
  split at hRecv
  · simp only [pure_eq, Except.ok.injEq, Prod.mk.injEq] at hRecv
    rw [← hRecv.2.2]
    exact Nat.zero_le _
  · obtain ⟨⟨p, input⟩, hPayload, hRest⟩ := bind_ok_iff.mp hRecv
    simp only [pure_eq, Except.ok.injEq, Prod.mk.injEq] at hRest
    obtain ⟨-, -, rfl⟩ := hRest
    unfold WebSocketPacket.fetchPayload at hPayload
    split at hPayload
    · obtain ⟨⟨payload, input'⟩, hLoop, hRest⟩ := bind_ok_iff.mp hPayload
      simp only [pure_eq, Except.ok.injEq, Prod.mk.injEq] at hRest
      obtain ⟨-, rfl⟩ := hRest
      exact unmaskLoop_oft_le _ hSeen _ _ _ _ _ hSizeLe hLoop
    · have hInt : toInt32 ((h.packet mem).payloadLength : Int) = (h.length : Int) :=
        toInt32_of_lt (by omega) (by show ((h.length : Nat) : Int) < _; omega)
      obtain ⟨cur, -, hPayload⟩ := bind_ok_iff.mp hPayload
      obtain ⟨payload, -, hRest⟩ := bind_ok_iff.mp hPayload
      simp only [pure_eq, Except.ok.injEq, Prod.mk.injEq, hInt] at hRest
      rw [← hRest.2]
      exact skipX_oft_le hSeen hSizeLe (by omega)

end WebSocketFiles
