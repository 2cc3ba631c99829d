import WebSocketFiles.Codec.FrameCodec

/-!
# The frame encoder, and frames encoded again

`pack_dataframe` on any packet whose fields fit their bits writes one frame that
the reference decoder reads back, in the shortest length form
(`packDataframe_reads_back`).

Packing a frame that was received restores it only when its RSV bits are zero:
`fetch_frame_info` keeps the RSV bits as part of the opcode, and
`pack_dataframe` masks them off (`packDataframe_received`).
-/

namespace WebSocketFiles

open MachineInt FrameFormat Fallible

/-! ## Setting the payload -/

namespace WebSocketPacket

/-- One or more calls of `set_payload`. -/
def setPayloads (p : WebSocketPacket) (bufs : List Bytes) : Except Abort WebSocketPacket :=
  bufs.foldlM (fun p buf => p.setPayload (some buf) buf.length) p

/-- One call adds its bytes to the payload. -/
theorem setPayload_append {p : WebSocketPacket} {d buf : Bytes} (hPayload : p.payload = ⟨d, 0⟩)
    (hLt : (d ++ buf).length < 2147483648) :
    p.setPayload (some buf) buf.length =
      .ok { p with payload := ⟨d ++ buf, 0⟩, payloadLength := (d ++ buf).length } := by
  have hBuf : buf.length < 2147483648 := by
    rw [List.length_append] at hLt
    omega
  have hSize : toInt32 buf.length = buf.length := toInt32_of_lt (by omega) (by omega)
  have hLength : (⟨d ++ buf, 0⟩ : ByteBuffer).length = (d ++ buf).length :=
    ByteBuffer.length_eq hLt
  have hOut : toUInt64 (⟨d ++ buf, 0⟩ : ByteBuffer).length = (d ++ buf).length := by
    rw [hLength, toUInt64_of_lt (by omega) (by omega), Int.toNat_natCast]
  rw [setPayload, hSize, hPayload, ByteBuffer.append_all, ok_bind, hOut]
  rfl

/-- Several calls add all their bytes in order. -/
theorem setPayloads_append (bufs : List Bytes) :
    ∀ {p : WebSocketPacket} {d : Bytes}, bufs ≠ [] → p.payload = ⟨d, 0⟩ →
      (d ++ bufs.flatten).length < 2147483648 →
      p.setPayloads bufs = .ok { p with
        payload := ⟨d ++ bufs.flatten, 0⟩, payloadLength := (d ++ bufs.flatten).length } := by
  induction bufs with
  | nil =>
      intro p d hCalls
      exact absurd rfl hCalls
  | cons buf bufs ih =>
      intro p d _ hPayload hLt
      have hAll : d ++ (buf :: bufs).flatten = (d ++ buf) ++ bufs.flatten := by
        rw [List.flatten_cons, List.append_assoc]
      rw [hAll] at hLt ⊢
      have hFirst : (d ++ buf).length < 2147483648 := by
        rw [List.length_append] at hLt
        omega
      rw [setPayloads, List.foldlM_cons, setPayload_append hPayload hFirst, ok_bind]
      by_cases hLast : bufs = []
      · rw [hLast, List.flatten_nil, List.append_nil]
        rfl
      · exact ih hLast rfl hLt

end WebSocketPacket

/-! ## The encoder -/

/-- The header fields of a packet fit their bits. -/
structure HeaderBits (p : WebSocketPacket) : Prop where
  fin_bit : p.fin = 0 ∨ p.fin = 1
  rsv1_bit : p.rsv1 = 0 ∨ p.rsv1 = 1
  rsv2_bit : p.rsv2 = 0 ∨ p.rsv2 = 1
  rsv3_bit : p.rsv3 = 0 ∨ p.rsv3 = 1
  opcode_lt : p.opcode < 16
  mask_bit : p.mask = 0 ∨ p.mask = 1

theorem HeaderBits.sendable {p : WebSocketPacket} (hBits : HeaderBits p) {d : Bytes}
    (hLt : d.length < 2147483648) :
    Sendable { p with payload := ⟨d, 0⟩, payloadLength := d.length } where
  fin_bit := hBits.fin_bit
  rsv1_bit := hBits.rsv1_bit
  rsv2_bit := hBits.rsv2_bit
  rsv3_bit := hBits.rsv3_bit
  opcode_lt := hBits.opcode_lt
  mask_bit := hBits.mask_bit
  cursor := rfl
  length_eq := rfl
  length_lt := hLt

/-- The header fields of a frame are those of the packet, and its payload is
`payload`. -/
structure Carries (frame : Frame) (p : WebSocketPacket) (payload : Bytes) : Prop where
  fin : UInt8.ofNat frame.fin.toNat = p.fin
  rsv1 : UInt8.ofNat frame.rsv1.toNat = p.rsv1
  rsv2 : UInt8.ofNat frame.rsv2.toNat = p.rsv2
  rsv3 : UInt8.ofNat frame.rsv3.toNat = p.rsv3
  opcode : UInt8.ofNat frame.opcode.val = p.opcode
  mask : UInt8.ofNat frame.key.isSome.toNat = p.mask
  key : p.mask = 1 → frame.key = some p.maskingKey
  payload_eq : frame.payload = payload

theorem carries_frameOf {p : WebSocketPacket} (hp : Sendable p) :
    Carries (frameOf p) p p.payload.data where
  fin := (bit_eq hp.fin_bit).symm
  rsv1 := (bit_eq hp.rsv1_bit).symm
  rsv2 := (bit_eq hp.rsv2_bit).symm
  rsv3 := (bit_eq hp.rsv3_bit).symm
  opcode := by
    have hLt : p.opcode.toNat < 16 := UInt8.lt_iff_toNat_lt.mp hp.opcode_lt
    simp only [frameOf, Fin.val_ofNat, Nat.mod_eq_of_lt hLt, UInt8.ofNat_toNat]
  mask := by
    rw [frameOf_isSome]
    exact (bit_eq hp.mask_bit).symm
  key := fun hMask => if_pos hMask
  payload_eq := rfl

/-- The number of header bytes in front of the masking key, for a payload of `n`
bytes. -/
def headerBytes (n : Nat) : Nat :=
  if n < 126 then 2 else if n ≤ 65535 then 4 else 10

theorem extra_shortest (n : Nat) : 2 + (LengthForm.shortest n).extra = headerBytes n := by
  unfold LengthForm.shortest headerBytes
  by_cases hSeven : n < 126
  · rw [if_pos hSeven, if_pos hSeven]
    rfl
  · rw [if_neg hSeven, if_neg hSeven]
    by_cases hSixteen : n < 65536
    · rw [if_pos hSixteen, if_pos (by omega)]
      rfl
    · rw [if_neg hSixteen, if_neg (by omega)]
      rfl

/-- Whatever fits its bits is packed as exactly one frame, which the reference
decoder reads back; the length takes the shortest form. -/
theorem packDataframe_reads_back {p : WebSocketPacket} (hBits : HeaderBits p)
    (hEmpty : p.payload = ByteBuffer.empty) (bufs : List Bytes) (hCalls : bufs ≠ [])
    (hSize : bufs.flatten.length < 2147483634) :
    ∃ q q' f frame, p.setPayloads bufs = .ok q ∧
      q.packDataframe ByteBuffer.empty = .ok (0, q', ⟨f, 0⟩) ∧
      decode f = some (frame, []) ∧ Carries frame p bufs.flatten ∧
      f = frame.encode (.shortest bufs.flatten.length) ∧
      f.length = headerBytes bufs.flatten.length + (if p.mask = 1 then 4 else 0) +
        bufs.flatten.length := by
  let q : WebSocketPacket :=
    { p with payload := ⟨bufs.flatten, 0⟩, payloadLength := bufs.flatten.length }
  have hSet : p.setPayloads bufs = .ok q :=
    WebSocketPacket.setPayloads_append bufs hCalls hEmpty
      (by rw [List.nil_append]; omega)
  have hSendable : Sendable q := hBits.sendable (by omega)
  obtain ⟨q', hPack⟩ := packDataframe_eq hSendable ByteBuffer.empty
  have hFits : (frameOf q).payload.length < (LengthForm.shortest bufs.flatten.length).limit :=
    LengthForm.lt_limit_shortest (by show bufs.flatten.length < _; omega)
  have hDecode := decode_encode hFits []
  rw [List.append_nil] at hDecode
  have hCarries := carries_frameOf hSendable
  refine ⟨q, q', _, frameOf q, hSet, hPack, hDecode, ⟨hCarries.fin, hCarries.rsv1, hCarries.rsv2,
    hCarries.rsv3, hCarries.opcode, hCarries.mask, hCarries.key, rfl⟩, rfl, ?_⟩
  have hKey : (frameOf q).key.isSome.toNat = if p.mask = 1 then 1 else 0 := by
    rw [frameOf_isSome]
    show (decide (p.mask = 1)).toNat = _
    by_cases hMask : p.mask = 1
    · rw [if_pos hMask, decide_eq_true hMask, Bool.toNat_true]
    · rw [if_neg hMask, decide_eq_false hMask, Bool.toNat_false]
  show ((frameOf q).encode (.shortest bufs.flatten.length)).length = _
  rw [Frame.encode_length, extra_shortest, hKey]
  show headerBytes _ + 4 * _ + bufs.flatten.length = _
  split <;> omega

/-- A masked text packet with all RSV bits set. -/
def rsvTextPacket : WebSocketPacket :=
  { WebSocketPacket.new .zeroed with
    fin := 1, rsv1 := 1, rsv2 := 1, rsv3 := 1, opcode := 1, mask := 1 }

theorem packDataframe_reads_back_text :
    ∃ q q' f frame, rsvTextPacket.setPayloads [[72], [], [105]] = .ok q ∧
      q.packDataframe ByteBuffer.empty = .ok (0, q', ⟨f, 0⟩) ∧
      decode f = some (frame, []) ∧ Carries frame rsvTextPacket [72, 105] ∧
      f = frame.encode (.shortest 2) ∧ f.length = 8 :=
  packDataframe_reads_back ⟨.inr rfl, .inr rfl, .inr rfl, .inr rfl, by decide, .inr rfl⟩ rfl
    [[72], [], [105]] (by decide) (by decide)

/-! ## Frames encoded again -/

/-- Only the low four bits of the opcode member are written. -/
theorem packDataframe_low_opcode (p : WebSocketPacket) (output : ByteBuffer) :
    p.packDataframe output =
      (WebSocketPacket.packDataframe { p with opcode := p.opcode &&& 0x0F } output).map
        fun r => (r.1, { r.2.1 with opcode := p.opcode }, r.2.2) := by
  have hLow : (p.opcode &&& 0x0F) &&& 0x0F = p.opcode &&& 0x0F := by
    rw [UInt8.and_assoc, UInt8.and_self]
  have hLength : ∀ out, WebSocketPacket.packLength { p with opcode := p.opcode &&& 0x0F } out =
      p.packLength out := fun _ => rfl
  unfold WebSocketPacket.packDataframe
  simp only [hLow, hLength, ByteBuffer.append_one, ok_bind]
  cases p.packLength _ with
  | error e => rfl
  | ok written =>
      cases written with
      | none => rfl
      | some out =>
          simp only [ok_bind]
          by_cases hMask : p.mask = 1
          · simp only [if_pos hMask]
            cases out.append (some (keyBytes p.maskingKey)) 4 with
            | error e => rfl
            | ok out =>
                simp only [ok_bind]
                cases WebSocketPacket.maskLoop p.maskingKey p.payloadLength 0 0 p.payload out with
                | error e => rfl
                | ok r => rfl
          · simp only [if_neg hMask, ByteBuffer.bytes_eq, ok_bind]
            cases out.append _ p.payload.length with
            | error e => rfl
            | ok out => rfl

/-- The frame without its RSV bits. -/
def clearRsv (f : Frame) : Frame :=
  { f with rsv1 := false, rsv2 := false, rsv3 := false }

/-- The packet that a masked frame is received into. -/
def receivedPacket (mem : Uninit) (f : Frame) : WebSocketPacket :=
  { (readHeader mem.maskingKey (.shortest f.payload.length) f).packet mem with
    payload := ⟨f.payload, 0⟩ }

theorem lowFirst_and (f : Frame) : UInt8.ofNat (lowFirst f) &&& 0x0F = UInt8.ofNat f.opcode.val := by
  have hLow := lowFirst_lt f
  have hOpcode := f.opcode.isLt
  rw [← UInt8.toNat_inj, UInt8.toNat_and, UInt8.toNat_ofNat', UInt8.toNat_ofNat']
  show lowFirst f % 256 &&& 2 ^ 4 - 1 = _
  rw [Nat.and_two_pow_sub_one_eq_mod]
  unfold lowFirst at *
  omega

/-- A received frame is packed again without its RSV bits. -/
theorem packDataframe_received (mem : Uninit) {f : Frame} (hKey : f.key ≠ none)
    (hShort : f.payload.length < 65536) :
    ∃ q', (receivedPacket mem f).packDataframe ByteBuffer.empty =
      .ok (0, q', ⟨(clearRsv f).encode (.shortest f.payload.length), 0⟩) := by
  obtain ⟨key, hSome⟩ := Option.ne_none_iff_exists'.mp hKey
  have hForm := LengthForm.shortest_ne_sixtyFour hShort
  have hOpcodeLt := f.opcode.isLt
  let q : WebSocketPacket :=
    { receivedPacket mem f with opcode := (receivedPacket mem f).opcode &&& 0x0F }
  have hOpcode : q.opcode = UInt8.ofNat f.opcode.val := lowFirst_and f
  have hSendable : Sendable q :=
    { fin_bit := by
        show UInt8.ofNat f.fin.toNat = 0 ∨ UInt8.ofNat f.fin.toNat = 1
        cases f.fin with
        | false => exact .inl rfl
        | true => exact .inr rfl
      rsv1_bit := .inl rfl
      rsv2_bit := .inl rfl
      rsv3_bit := .inl rfl
      opcode_lt := by
        rw [hOpcode, UInt8.lt_iff_toNat_lt, UInt8.toNat_ofNat']
        show f.opcode.val % 256 < 16
        omega
      mask_bit := .inr (by
        show UInt8.ofNat f.key.isSome.toNat = 1
        rw [hSome]
        rfl)
      cursor := rfl
      length_eq := lengthRead_eq hForm f.payload.length
      length_lt := lt_trans hShort (by decide) }
  have hFrame : frameOf q = clearRsv f := by
    have hFin : decide (UInt8.ofNat f.fin.toNat = 1) = f.fin := by
      cases f.fin with
      | false => rfl
      | true => rfl
    have hCode : Fin.ofNat 16 q.opcode.toNat = f.opcode := by
      apply Fin.ext
      rw [hOpcode, UInt8.toNat_ofNat', Fin.val_ofNat]
      omega
    have hMask : (if UInt8.ofNat f.key.isSome.toNat = 1 then some (f.key.getD mem.maskingKey)
        else none) = f.key := by
      rw [hSome]
      rfl
    unfold frameOf clearRsv
    rw [hCode]
    show Frame.mk (decide (UInt8.ofNat f.fin.toNat = 1)) false false false f.opcode
      (if UInt8.ofNat f.key.isSome.toNat = 1 then some (f.key.getD mem.maskingKey) else none)
      f.payload = _
    rw [hFin, hMask]
  obtain ⟨q', hPack⟩ := packDataframe_eq hSendable ByteBuffer.empty
  rw [hFrame] at hPack
  refine ⟨{ q' with opcode := (receivedPacket mem f).opcode }, ?_⟩
  rw [packDataframe_low_opcode]
  show Except.map _ (q.packDataframe ByteBuffer.empty) = _
  rw [hPack]
  rfl

/-- Receiving the frame and packing the packet again writes the frame. -/
def Reencodes (mem : Uninit) (f : Frame) (t : Bytes) : Prop :=
  ∃ q q', (WebSocketPacket.new mem).recvDataframe
        ⟨f.encode (.shortest f.payload.length) ++ t, 0⟩ =
      .ok ((f.encode (.shortest f.payload.length)).length, q,
        ⟨f.encode (.shortest f.payload.length) ++ t,
          (f.encode (.shortest f.payload.length)).length⟩) ∧
    q.packDataframe ByteBuffer.empty =
      .ok (0, q', ⟨f.encode (.shortest f.payload.length), 0⟩)

/-- The frame lies in the part of the buffer that its 32-bit length covers: always
so in a buffer below `2^32` bytes. -/
def InReach (f : Frame) (t : Bytes) : Prop :=
  (f.encode (.shortest f.payload.length)).length ≤
    (f.encode (.shortest f.payload.length) ++ t).length % 4294967296

instance (f : Frame) (t : Bytes) : Decidable (InReach f t) :=
  inferInstanceAs (Decidable (_ ≤ _))

theorem inReach_of_lt {f : Frame} {t : Bytes}
    (hSize : (f.encode (.shortest f.payload.length) ++ t).length < 4294967296) : InReach f t := by
  unfold InReach
  rw [Nat.mod_eq_of_lt hSize, List.length_append]
  exact Nat.le_add_right _ _

/-- A frame out of reach is not received whole. -/
theorem inReach_of_reencodes {mem : Uninit} {f : Frame} {t : Bytes} (hSame : Reencodes mem f t) :
    InReach f t := by
  obtain ⟨q, q', hReceived, -⟩ := hSame
  have hSeen := seen_take (f.encode (.shortest f.payload.length) ++ t)
  have hLe := recvDataframe_oft_le mem hSeen hReceived
  rw [hSeen.length_eq] at hLe
  exact hLe

section Reencodes

variable {mem : Uninit} {f : Frame} {t : Bytes} (hKey : f.key ≠ none)
  (hShort : f.payload.length < 65536)

include hKey hShort

/-- What a masked frame is received into. -/
theorem recvDataframe_masked (hReach : InReach f t) :
    (WebSocketPacket.new mem).recvDataframe ⟨f.encode (.shortest f.payload.length) ++ t, 0⟩ =
      .ok ((f.encode (.shortest f.payload.length)).length, receivedPacket mem f,
        ⟨f.encode (.shortest f.payload.length) ++ t,
          (f.encode (.shortest f.payload.length)).length⟩) := by
  have hForm := LengthForm.shortest_ne_sixtyFour hShort
  have hFits : f.payload.length < (LengthForm.shortest f.payload.length).limit :=
    LengthForm.lt_limit_shortest (lt_trans hShort (by decide))
  have hTotal := readHeader_total hForm mem.maskingKey f
  have hMask : (readHeader mem.maskingKey (.shortest f.payload.length) f).mask = 1 := by
    obtain ⟨k, hSome⟩ := Option.ne_none_iff_exists'.mp hKey
    simp [readHeader, hSome]
  -- the part that is seen begins with the whole frame
  have hSeen := seen_take (f.encode (.shortest f.payload.length) ++ t)
  rw [List.take_append, List.take_of_length_le hReach] at hSeen
  have hRecv := recvDataframe_seen mem hSeen (scanHeader_encode mem.maskingKey hFits _) hMask
    (by rw [hTotal, List.length_append]; exact Nat.le_add_right _ _)
  rw [readHeader_payload hForm, hTotal] at hRecv
  exact hRecv

/-- A frame that is restored is equal to what is packed, bit by bit. -/
theorem encode_clearRsv_of_reencodes (hSame : Reencodes mem f t) :
    (clearRsv f).encode (.shortest f.payload.length) =
      f.encode (.shortest f.payload.length) := by
  have hReach := inReach_of_reencodes hSame
  obtain ⟨q, q'', hReceived, hPacked⟩ := hSame
  obtain ⟨q', hPack⟩ := packDataframe_received mem hKey hShort
  rw [recvDataframe_masked hKey hShort hReach, Except.ok.injEq, Prod.mk.injEq,
    Prod.mk.injEq] at hReceived
  obtain ⟨-, rfl, -⟩ := hReceived
  have hBoth := hPack.symm.trans hPacked
  simp only [Except.ok.injEq, Prod.mk.injEq, ByteBuffer.mk.injEq, true_and] at hBoth
  exact hBoth.2.1

/-- A masked frame is restored exactly when its RSV bits are zero and it is in
reach. -/
theorem reencodes_iff :
    Reencodes mem f t ↔
      (f.rsv1 = false ∧ f.rsv2 = false ∧ f.rsv3 = false) ∧ InReach f t := by
  have hFits : f.payload.length < (LengthForm.shortest f.payload.length).limit :=
    LengthForm.lt_limit_shortest (lt_trans hShort (by decide))
  constructor
  · intro hSame
    -- equal encodings decode to equal frames
    have hBytes := encode_clearRsv_of_reencodes hKey hShort hSame
    have hClear := decode_encode (show (clearRsv f).payload.length < _ from hFits) []
    rw [hBytes, decode_encode hFits [], Option.some.injEq, Prod.mk.injEq] at hClear
    refine ⟨?_, inReach_of_reencodes hSame⟩
    rw [hClear.1]
    exact ⟨rfl, rfl, rfl⟩
  · rintro ⟨⟨h1, h2, h3⟩, hReach⟩
    have hSame : clearRsv f = f := by
      obtain ⟨fin, rsv1, rsv2, rsv3, opcode, key, payload⟩ := f
      subst h1 h2 h3
      rfl
    obtain ⟨q', hPack⟩ := packDataframe_received mem hKey hShort
    rw [hSame] at hPack
    exact ⟨_, q', recvDataframe_masked hKey hShort hReach, hPack⟩

end Reencodes

/-- A masked ping with the payload `"hi"` and the given first RSV bit. -/
def rsvPing (rsv1 : Bool) : Frame where
  fin := true
  rsv1 := rsv1
  rsv2 := false
  rsv3 := false
  opcode := 9
  key := some (keyOfBytes [1, 2, 3, 4])
  payload := [104, 105]

theorem reencodes_iff_ping : Reencodes .zeroed (rsvPing false) [7] :=
  (reencodes_iff (by simp [rsvPing]) (by decide)).mpr
    ⟨⟨rfl, rfl, rfl⟩, inReach_of_lt (by decide +kernel)⟩

/-- With RSV1 set the first byte comes back as `0x89` instead of `0xC9`. -/
theorem rsvPing_not_reencodes : ¬ Reencodes .zeroed (rsvPing true) [] := by
  intro hSame
  have hBytes := encode_clearRsv_of_reencodes (by simp [rsvPing]) (by decide) hSame
  exact absurd (congrArg List.head? hBytes) (by decide +kernel)

end WebSocketFiles
