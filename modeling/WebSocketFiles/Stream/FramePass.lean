import WebSocketFiles.Codec.FrameCodec
import WebSocketFiles.Model.Endpoint

/-!
# One frame through the receive loop

What one pass of the `from_wire` loop does once the handshake is completed, for
any bytes in the buffer.  `parsePacket_completed` reduces the pass to
`scanHeader`; the lemmas after it give the three cases a stream of frames can
meet: the buffer waits, a frame is consumed and the buffer is empty, a frame is
consumed and more bytes follow.

The reply to a message is `dispatched`: a pure function of the opcode and the
message, so that no later proof opens `user_defined_process` again.
-/

namespace WebSocketFiles

open MachineInt FrameFormat Fallible

/-! ## The reply to a message -/

/-- What of a message its `int` length covers: all of it below `2^31` bytes. -/
def covered (M : Bytes) : Bytes :=
  M.take (toInt32 M.length).toNat

theorem covered_eq {M : Bytes} (hLt : M.length < 2147483648) : covered M = M := by
  rw [covered, toInt32_of_lt (by omega) (by omega), Int.toNat_natCast, List.take_length]

theorem covered_length_lt (M : Bytes) : (covered M).length < 2147483648 := by
  have hLt := toInt32_lt M.length
  rw [covered, List.length_take]
  omega

section Covered

variable {M : Bytes} (hNonneg : 0 ≤ toInt32 M.length)

include hNonneg

theorem length_covered : (⟨M, 0⟩ : ByteBuffer).length = (covered M).length := by
  have hLe := toInt32_le M.length
  show toInt32 M.length = _
  rw [covered, List.length_take]
  omega

theorem stdString_covered :
    stdString (if (⟨M, 0⟩ : ByteBuffer).length = 0 then none else some M)
      (⟨M, 0⟩ : ByteBuffer).length = .ok (covered M) := by
  have hLe := toInt32_le M.length
  show stdString (if toInt32 M.length = 0 then none else some M) (toInt32 M.length) = _
  unfold stdString
  rw [if_neg (by omega)]
  by_cases hZero : toInt32 M.length = 0
  · rw [if_pos hZero, covered, hZero]
    rfl
  · rw [if_neg hZero, if_neg hZero]
    simp only
    rw [if_neg (by omega), covered]

theorem append_covered (b : ByteBuffer) :
    b.append (if (⟨M, 0⟩ : ByteBuffer).length = 0 then none else some M)
      (⟨M, 0⟩ : ByteBuffer).length = .ok { b with data := b.data ++ covered M } := by
  have hLe := toInt32_le M.length
  show b.append (if toInt32 M.length = 0 then none else some M) (toInt32 M.length) = _
  unfold ByteBuffer.append
  by_cases hZero : toInt32 M.length = 0
  · rw [if_pos hZero, covered, hZero, Int.toNat_zero, List.take_zero, List.append_nil]
  · rw [if_neg hZero, if_neg hZero]
    simp only
    rw [if_neg (by omega), covered]

/-- A packet with an empty payload to which `set_payload` gives its data. -/
theorem setPayload_eq {p : WebSocketPacket} (hEmpty : p.payload = ByteBuffer.empty) :
    p.setPayload (if (⟨M, 0⟩ : ByteBuffer).length = 0 then none else some M)
        (toUInt64 (⟨M, 0⟩ : ByteBuffer).length) =
      .ok { p with payload := ⟨covered M, 0⟩, payloadLength := (covered M).length } := by
  have hLt := covered_length_lt M
  have hLength := length_covered hNonneg
  have hSize : toInt32 (toUInt64 (⟨M, 0⟩ : ByteBuffer).length) = (⟨M, 0⟩ : ByteBuffer).length := by
    rw [hLength, toUInt64_of_lt (by omega) (by omega), Int.toNat_natCast,
      toInt32_of_lt (by omega) (by omega)]
  have hAll : ({ ByteBuffer.empty with data := ByteBuffer.empty.data ++ covered M } :
      ByteBuffer) = ⟨covered M, 0⟩ := rfl
  have hOut : toUInt64 (⟨covered M, 0⟩ : ByteBuffer).length = (covered M).length := by
    have hEq : (⟨covered M, 0⟩ : ByteBuffer).length = (covered M).length :=
      ByteBuffer.length_eq hLt
    rw [hEq, toUInt64_of_lt (by omega) (by omega), Int.toNat_natCast]
  rw [WebSocketPacket.setPayload, hSize, hEmpty, append_covered hNonneg, ok_bind, hAll, hOut]
  rfl

end Covered

/-- The frame sent back for a message. -/
def replyFrame (opcode : UInt8) (M : Bytes) : Frame where
  fin := true
  rsv1 := false
  rsv2 := false
  rsv3 := false
  opcode := Fin.ofNat 16 opcode.toNat
  key := none
  payload := M

/-- The bytes sent back for a message. -/
def reply (opcode : UInt8) (M : Bytes) : Bytes :=
  (replyFrame opcode M).encode (.shortest M.length)

theorem reply_length_le (opcode : UInt8) (M : Bytes) :
    M.length + 2 ≤ (reply opcode M).length ∧ (reply opcode M).length ≤ M.length + 10 := by
  have hExtra : (LengthForm.shortest M.length).extra ≤ 8 := by
    unfold LengthForm.shortest
    split
    · decide
    · split <;> decide
  rw [reply, Frame.encode_length]
  show _ ≤ 2 + (LengthForm.shortest M.length).extra + 4 * 0 + M.length ∧
    2 + (LengthForm.shortest M.length).extra + 4 * 0 + M.length ≤ _
  omega

/-- The output buffer that holds a reply is not taken for an empty one. -/
theorem bytes_reply (opcode : UInt8) {M : Bytes} (hLt : M.length < 2147483648) :
    (⟨reply opcode M, 0⟩ : ByteBuffer).bytes = .ok (some (reply opcode M)) := by
  have hReply := reply_length_le opcode M
  rw [ByteBuffer.bytes_eq, if_neg]
  by_cases hSmall : (reply opcode M).length < 2147483648
  · have hOut : (⟨reply opcode M, 0⟩ : ByteBuffer).length = (reply opcode M).length :=
      ByteBuffer.length_eq hSmall
    omega
  · have hNeg : (⟨reply opcode M, 0⟩ : ByteBuffer).length < 0 :=
      ByteBuffer.length_neg (Nat.le_of_not_lt hSmall)
        (by show (reply opcode M).length < _; omega)
    omega

/-- A reference decoder reads the reply as the reply frame, and nothing is left
over. -/
theorem decode_reply (opcode : UInt8) {M : Bytes} (hLt : M.length < 2147483648) :
    decode (reply opcode M) = some (replyFrame opcode M, []) := by
  have hFits : (replyFrame opcode M).payload.length < (LengthForm.shortest M.length).limit :=
    LengthForm.lt_limit_shortest (lt_trans hLt (by decide))
  have hDecode := decode_encode hFits []
  rwa [List.append_nil] at hDecode

namespace WebSocketEndpoint

/-- What one call of `to_wire` emits. -/
def wireEvents (ep : WebSocketEndpoint) (writebuf : Option Bytes) (size : Int) : List Event :=
  .toWire ((writebuf.getD []).take size.toNat) ::
    match ep.ntWriteCb, ep.ntWorkData, writebuf with
    | some cb, some workData, some buf =>
        if size ≤ 0 then [] else [.ntWriteCb cb (buf.take size.toNat) workData]
    | _, _, _ => []

theorem toWire_eq (ep : WebSocketEndpoint) (writebuf : Option Bytes) (size : Int) :
    ep.toWire writebuf size = ⟨ep.wireEvents writebuf size, .ok ()⟩ := by
  unfold toWire wireEvents
  cases ep.ntWriteCb with
  | none => rfl
  | some cb =>
      cases ep.ntWorkData with
      | none => rfl
      | some workData =>
          cases writebuf with
          | none => rfl
          | some buf =>
              by_cases hSize : size ≤ 0
              · simp [hSize]
              · simp [hSize]

@[simp] theorem users_wireEvents (ep : WebSocketEndpoint) (writebuf : Option Bytes)
    (size : Int) : Event.users (ep.wireEvents writebuf size) = [] := by
  unfold wireEvents
  split
  · split <;> rfl
  · rfl

@[simp] theorem wires_wireEvents (ep : WebSocketEndpoint) (writebuf : Option Bytes)
    (size : Int) :
    Event.wires (ep.wireEvents writebuf size) = [(writebuf.getD []).take size.toNat] := by
  unfold wireEvents
  split
  · split <;> rfl
  · rfl

theorem opcode_lt_of_known {opcode : UInt8} (hKnown : opcode ∈ knownOpcodes) : opcode < 16 := by
  have hAll : ∀ op ∈ knownOpcodes, op < 16 := by decide +kernel
  exact hAll opcode hKnown

/-- What the endpoint emits for a finished message. -/
def dispatched (ep : WebSocketEndpoint) (opcode : UInt8) (M : Bytes) : List Event :=
  if opcode ∈ knownOpcodes then
    .userDefinedProcess opcode M ::
      ep.wireEvents (some (reply opcode (covered M))) (toInt32 (reply opcode (covered M)).length)
  else []

/-- The message of a frame is handed on with a length that turned negative. -/
def Overlong (opcode : UInt8) (M : Bytes) : Prop :=
  opcode ∈ knownOpcodes ∧ toInt32 M.length < 0

instance (opcode : UInt8) (M : Bytes) : Decidable (Overlong opcode M) :=
  inferInstanceAs (Decidable (_ ∧ _))

theorem not_overlong {M : Bytes} (opcode : UInt8) (hLt : M.length < 2147483648) :
    ¬ Overlong opcode M := by
  rintro ⟨-, hNeg⟩
  rw [toInt32_of_lt (by omega) (by omega)] at hNeg
  omega

/-- The string constructor raises on an overlong message, before anything is
sent. -/
theorem processMessageData_overlong (ep : WebSocketEndpoint) (mem : Uninit)
    (packet : WebSocketPacket) {M : Bytes} (hOver : Overlong packet.opcode M) :
    ep.processMessageData mem packet ⟨M, 0⟩ =
      ⟨[.userDefinedProcess packet.opcode M], .error .lengthError⟩ := by
  have hString : ∀ ptr, stdString ptr (⟨M, 0⟩ : ByteBuffer).length = .error .lengthError := by
    intro ptr
    unfold stdString
    exact if_pos hOver.2
  unfold processMessageData userDefinedProcess
  rw [if_pos hOver.1]
  simp only [Traced.emit_eq, Traced.mk_ok_bind, ByteBuffer.bytes_eq (⟨M, 0⟩ : ByteBuffer),
    Traced.liftM_ok, hString, Traced.prepend_nil]
  rfl

/-- Every other message is answered, up to the length that `int` covers. -/
theorem processMessageData_eq (ep : WebSocketEndpoint) (mem : Uninit)
    (packet : WebSocketPacket) {M : Bytes} (hFits : ¬ Overlong packet.opcode M) :
    ep.processMessageData mem packet ⟨M, 0⟩ = ⟨ep.dispatched packet.opcode M, .ok ()⟩ := by
  unfold processMessageData dispatched
  by_cases hKnown : packet.opcode ∈ knownOpcodes
  · rw [if_pos hKnown, if_pos hKnown]
    have hNonneg : 0 ≤ toInt32 M.length := by
      by_contra hNeg
      exact hFits ⟨hKnown, by omega⟩
    let p : WebSocketPacket := { WebSocketPacket.new mem with fin := 1, opcode := packet.opcode,
                                                              payload := ⟨covered M, 0⟩,
                                                              payloadLength := (covered M).length }
    have hSendable : Sendable p :=
      { fin_bit := .inr rfl
        rsv1_bit := .inl rfl
        rsv2_bit := .inl rfl
        rsv3_bit := .inl rfl
        opcode_lt := opcode_lt_of_known hKnown
        mask_bit := .inl rfl
        cursor := rfl
        length_eq := rfl
        length_lt := covered_length_lt M }
    obtain ⟨p', hPack⟩ := packDataframe_eq hSendable ByteBuffer.empty
    have hPack' : p.packDataframe ByteBuffer.empty =
        .ok (0, p', ⟨reply packet.opcode (covered M), 0⟩) := hPack
    unfold userDefinedProcess
    simp only [Traced.emit_eq, Traced.mk_ok_bind, ByteBuffer.bytes_eq (⟨M, 0⟩ : ByteBuffer),
      Traced.liftM_ok, stdString_covered hNonneg, Traced.prepend_nil]
    rw [setPayload_eq hNonneg rfl]
    simp only [Traced.liftM_ok, Traced.mk_ok_bind, Traced.prepend_nil]
    rw [hPack']
    simp only [Traced.liftM_ok, Traced.mk_ok_bind,
      bytes_reply packet.opcode (covered_length_lt M), toWire_eq, Traced.prepend_mk]
    rfl
  · rw [if_neg hKnown, if_neg hKnown]
    rfl

/-! ## One pass over the buffer -/

/-- The endpoint with `buf` not used up yet and `M` received of an unfinished
message, both cursors at the start. -/
def holding (ep : WebSocketEndpoint) (M buf : Bytes) : WebSocketEndpoint :=
  { ep with fromwireBuf := ⟨buf, 0⟩, messageData := ⟨M, 0⟩ }

/-- An endpoint whose cursors are at the start. -/
theorem eq_holding {ep : WebSocketEndpoint} (hFrom : ep.fromwireBuf.oft = 0)
    (hMessage : ep.messageData.oft = 0) :
    ep = ep.holding ep.messageData.data ep.fromwireBuf.data := by
  obtain ⟨done, ⟨buf, o⟩, ⟨M, o'⟩, cb, wd⟩ := ep
  obtain rfl : o = 0 := hFrom
  obtain rfl : o' = 0 := hMessage
  rfl

/-- An endpoint whose buffers are as the constructors leave them. -/
theorem eq_holding_nil {ep : WebSocketEndpoint} (hFrom : ep.fromwireBuf = ByteBuffer.empty)
    (hMessage : ep.messageData = ByteBuffer.empty) : ep = ep.holding [] [] := by
  have hHold := eq_holding (by rw [hFrom]; rfl : ep.fromwireBuf.oft = 0) (by rw [hMessage]; rfl)
  rwa [hFrom, hMessage] at hHold

variable {ep : WebSocketEndpoint} {M d : Bytes}

/-- The bytes in the buffer are not a whole frame yet, as far as the header
reader can tell. -/
def Waits (key : MaskingKey) (d : Bytes) : Prop :=
  d = [] ∨ d.length < (scanHeader key d).total

instance (key : MaskingKey) (d : Bytes) : Decidable (Waits key d) :=
  inferInstanceAs (Decidable (_ ∨ _))

/-- The frame at the front of the buffer is unmasked and ends with its header
at the end of the buffer: `curat` raises. -/
def Raises (key : MaskingKey) (d : Bytes) : Prop :=
  (scanHeader key d).mask ≠ 1 ∧ (scanHeader key d).size = d.length

instance (key : MaskingKey) (d : Bytes) : Decidable (Raises key d) :=
  inferInstanceAs (Decidable (_ ∧ _))

theorem scanHeader_total_nil (key : MaskingKey) : (scanHeader key []).total = 0 := by
  rfl

theorem scanHeader_total_pos (key : MaskingKey) (hNe : d ≠ []) :
    0 < (scanHeader key d).total := by
  have hPos : 0 < d.length := List.length_pos_iff.mpr hNe
  have hTwo := min_two_le_scanHeader_size key d
  show 0 < (scanHeader key d).size + (scanHeader key d).length
  omega

/-- Whether bytes wait or raise does not depend on the memory of the key. -/
theorem waits_any_key (key key' : MaskingKey) (d : Bytes) : Waits key d ↔ Waits key' d := by
  unfold Waits
  rw [scanHeader_total_eq key d key']

theorem raises_any_key (key key' : MaskingKey) (d : Bytes) : Raises key d ↔ Raises key' d := by
  obtain ⟨-, -, hMask, -, hSize⟩ := scanHeader_any_key key d key'
  rw [Raises, hMask, hSize, Raises]

theorem payload_length (h : Header) (d : Bytes) :
    (h.payload d).length = min h.length (d.length - h.size) := by
  unfold Header.payload
  split <;> simp

theorem payload_length_le (h : Header) (d : Bytes) :
    (h.payload d).length ≤ d.length ∧ (h.payload d).length ≤ h.length := by
  rw [payload_length]
  omega

/-- After `n` bytes were used, the loop drops them and stops on an empty
buffer. -/
theorem settle_consumed (ep : WebSocketEndpoint) {n o : Nat} (hBuf : ep.fromwireBuf = ⟨d, o⟩)
    (hPos : 0 < n) (hLe : n ≤ d.length) (hSize : d.length < 2147483648) :
    settle n ep =
      if d.drop n = [] then .done n { ep with fromwireBuf := ⟨[], 0⟩ }
      else .again { ep with fromwireBuf := ⟨d.drop n, 0⟩ } := by
  have hErase : (⟨d, o⟩ : ByteBuffer).erase n = ⟨d.drop n, o⟩ := ByteBuffer.erase_eq hSize hPos
  have hInt : toInt32 (n : Int) = n := toInt32_of_lt (by omega) (by omega)
  have hDrop : (⟨d.drop n, 0⟩ : ByteBuffer).length = (d.drop n).length :=
    ByteBuffer.length_eq (by rw [List.length_drop]; omega)
  unfold settle
  simp only [if_pos (Int.natCast_pos.mpr hPos), hBuf, hInt, hErase, ByteBuffer.resetoft, hDrop]
  by_cases hRest : d.drop n = []
  · simp only [hRest, List.length_nil, Nat.cast_zero, if_true]
  · have hRestPos : 0 < (d.drop n).length := List.length_pos_iff.mpr hRest
    have hNe : ¬ ((d.drop n).length : Int) = 0 := by omega
    simp only [if_neg hRest, if_neg hNe]

/-- What `erase` leaves of a buffer of which `n` bytes were used: from `2^31`
bytes on everything is cleared. -/
def remaining (n : Nat) (d : Bytes) : Bytes :=
  if d.length < 2147483648 then d.drop n else []

theorem remaining_length (n : Nat) (d : Bytes) :
    (remaining n d).length ≤ d.length - n ∧ (remaining n d).length < 2147483648 := by
  unfold remaining
  split
  · rw [List.length_drop]
    omega
  · simp

theorem settle_remaining (ep : WebSocketEndpoint) {n o : Nat} (hBuf : ep.fromwireBuf = ⟨d, o⟩)
    (hPos : 0 < n) (hLe : n ≤ d.length) (hInt : n < 2147483648) (hSize : d.length < 4294967296) :
    settle n ep =
      if remaining n d = [] then .done n { ep with fromwireBuf := ⟨[], 0⟩ }
      else .again { ep with fromwireBuf := ⟨remaining n d, 0⟩ } := by
  unfold remaining
  by_cases hSmall : d.length < 2147483648
  · simp only [if_pos hSmall]
    exact settle_consumed ep hBuf hPos hLe hSmall
  · have hNeg : (⟨d, o⟩ : ByteBuffer).length < 0 :=
      ByteBuffer.length_neg (Nat.le_of_not_lt hSmall) hSize
    have hErase : (⟨d, o⟩ : ByteBuffer).erase n = ⟨[], o⟩ :=
      ByteBuffer.erase_neg hNeg (by omega)
    have hN : toInt32 (n : Int) = n := toInt32_of_lt (by omega) (by omega)
    unfold settle
    simp only [if_pos (Int.natCast_pos.mpr hPos), hBuf, hN, hErase, ByteBuffer.resetoft,
      ByteBuffer.length_nil, if_true, if_neg hSmall]

/-- The pass that consumed a frame goes round again unless the buffer is used
up. -/
def consumedPass (ep : WebSocketEndpoint) (result : Int) (M rest : Bytes) : Pass :=
  if rest = [] then .done result (ep.holding M []) else .again (ep.holding M rest)

/-- What `erase` leaves of the message data after a message was handed on. -/
def flushed (M : Bytes) : Bytes :=
  ((⟨M, 0⟩ : ByteBuffer).erase (⟨M, 0⟩ : ByteBuffer).length).data

theorem flushed_eq {M : Bytes} (hLt : M.length < 2147483648) : flushed M = [] := by
  rw [flushed, ByteBuffer.erase_all (b := ⟨M, 0⟩) hLt]

/-- What is left of `m` bytes of message data after the message was handed on. -/
def flushedLength (m : Nat) : Nat :=
  if toInt32 m ≤ 0 then m else 0

theorem flushed_length (M : Bytes) : (flushed M).length = flushedLength M.length := by
  show (ByteBuffer.erase ⟨M, 0⟩ (toInt32 M.length)).data.length = _
  unfold ByteBuffer.erase flushedLength
  split
  · rfl
  · rw [if_pos (show ByteBuffer.length ⟨M, 0⟩ ≤ toInt32 M.length from le_refl _)]
    rfl

/-- The message data after a frame that has brought it to `M`. -/
def kept (h : Header) (M : Bytes) : Bytes :=
  if h.fin = 1 then flushed M else M

section Pass

variable (hDone : ep.wsHandshakeCompleted = true) (mem : PassMem) {h : Header}
  (hScan : scanHeader mem.wspacket.maskingKey d = h) (hSize : d.length < 4294967296)

include hDone

private theorem not_handshaking :
    ¬ (!(ep.holding M d).wsHandshakeCompleted) = true := by
  show ¬ (!ep.wsHandshakeCompleted) = true
  simp [hDone]

include hSize

/-- Bytes that wait are left alone. -/
theorem parsePacket_waits (hWaits : Waits mem.wspacket.maskingKey d) :
    (ep.holding M d).parsePacket mem = ⟨[], .ok (0, ep.holding M d)⟩ := by
  have hBuf : (ep.holding M d).fromwireBuf = ⟨d, 0⟩ := rfl
  have hRecv := recvDataframe_eq d mem.wspacket hSize
  unfold parsePacket
  rw [if_neg (not_handshaking hDone), hBuf, hRecv]
  rcases hWaits with rfl | hMore
  · simp only [ne_eq, not_true_eq_false, false_and, and_false, if_false, scanHeader_total_nil]
    rfl
  · simp only [if_pos hMore, Traced.liftM_ok, Traced.mk_ok_bind, Traced.prepend_nil]
    rfl

/-- An unmasked frame that ends with its header at the end of the buffer makes
`curat` raise. -/
theorem parsePacket_raises (hWaits : ¬ Waits mem.wspacket.maskingKey d)
    (hRaises : Raises mem.wspacket.maskingKey d) :
    (ep.holding M d).parsePacket mem = ⟨[], .error .outOfRange⟩ := by
  have hBuf : (ep.holding M d).fromwireBuf = ⟨d, 0⟩ := rfl
  have hRecv := recvDataframe_eq d mem.wspacket hSize
  obtain ⟨hNil, hMore⟩ := not_or.mp hWaits
  unfold parsePacket
  rw [if_neg (not_handshaking hDone), hBuf, hRecv]
  simp only [if_neg hMore]
  rw [if_pos ⟨hRaises.1, hNil, hRaises.2⟩]
  rfl

include hScan

/-- A whole frame is removed from the buffer and its payload added to the
message; the last frame of a message hands the message on. -/
theorem parsePacket_consumes (hWaits : ¬ Waits mem.wspacket.maskingKey d)
    (hRaises : ¬ Raises mem.wspacket.maskingKey d) :
    (ep.holding M d).parsePacket mem =
      if h.fin = 1 then
        ep.processMessageData mem.reply
            { h.packet mem.wspacket with payload := ⟨h.payload d, 0⟩ }
            ⟨M ++ h.payload d, 0⟩ >>= fun _ =>
          pure ((h.total : Int), { ep with
            fromwireBuf := ⟨d, h.total⟩
            messageData := ((⟨M ++ h.payload d, 0⟩ : ByteBuffer).erase
              (⟨M ++ h.payload d, 0⟩ : ByteBuffer).length).resetoft })
      else ⟨[], .ok ((h.total : Int), { ep with
        fromwireBuf := ⟨d, h.total⟩, messageData := ⟨M ++ h.payload d, 0⟩ })⟩ := by
  have hBuf : (ep.holding M d).fromwireBuf = ⟨d, 0⟩ := rfl
  have hMessage : (ep.holding M d).messageData = ⟨M, 0⟩ := rfl
  have hRecv := recvDataframe_eq d mem.wspacket hSize
  obtain ⟨hNil, hMore⟩ := not_or.mp hWaits
  have hPos := scanHeader_total_pos mem.wspacket.maskingKey hNil
  have hNotRaise : ¬ ((scanHeader mem.wspacket.maskingKey d).mask ≠ 1 ∧ d ≠ [] ∧
      (scanHeader mem.wspacket.maskingKey d).size = d.length) :=
    fun hBad => hRaises ⟨hBad.1, hBad.2.2⟩
  have hLength := scanHeader_length_lt mem.wspacket.maskingKey d
  simp only [hScan] at hRecv hMore hPos hNotRaise hLength
  have hResult : toInt64 (h.total : Int) = h.total :=
    toInt64_of_lt (by omega) (by omega)
  have hPayload : (h.payload d).length < 2147483648 := by
    have hLe := payload_length_le h d
    omega
  rw [if_neg hMore, if_neg hNotRaise] at hRecv
  unfold parsePacket
  rw [if_neg (not_handshaking hDone), hBuf, hRecv]
  simp only [Traced.liftM_ok, Traced.mk_ok_bind, Traced.prepend_nil]
  rw [if_neg (Nat.ne_of_gt hPos)]
  simp only [hMessage, ByteBuffer.bytes_eq, Traced.liftM_ok, Traced.mk_ok_bind,
    Traced.prepend_nil, ByteBuffer.append_bytes _ _ hPayload, hResult]
  rfl

/-- A whole frame that ends no overlong message. -/
theorem parsePacket_frame (hWaits : ¬ Waits mem.wspacket.maskingKey d)
    (hRaises : ¬ Raises mem.wspacket.maskingKey d)
    (hFits : h.fin = 1 → ¬ Overlong h.opcode (M ++ h.payload d)) :
    (ep.holding M d).parsePacket mem =
      ⟨if h.fin = 1 then ep.dispatched h.opcode (M ++ h.payload d) else [],
        .ok ((h.total : Int), { ep with
          fromwireBuf := ⟨d, h.total⟩, messageData := ⟨kept h (M ++ h.payload d), 0⟩ })⟩ := by
  rw [parsePacket_consumes hDone mem hScan hSize hWaits hRaises, kept]
  by_cases hFin : h.fin = 1
  · have hMessage := processMessageData_eq ep mem.reply
      { h.packet mem.wspacket with payload := ⟨h.payload d, 0⟩ } (hFits hFin)
    simp only [if_pos hFin, hMessage, Traced.mk_ok_bind, Traced.pure_eq, Traced.prepend_mk,
      List.append_nil]
    rfl
  · simp only [if_neg hFin]

end Pass

section PassOfLoop

variable (hDone : ep.wsHandshakeCompleted = true) (mem : PassMem)
  (hSize : d.length < 4294967296)

include hDone hSize

theorem wirePass_waits (M : Bytes) (hWaits : Waits mem.wspacket.maskingKey d) :
    (ep.holding M d).wirePass mem = ⟨[], .ok (.done 0 (ep.holding M d))⟩ := by
  unfold wirePass
  rw [parsePacket_waits hDone mem hSize hWaits]
  rfl

theorem wirePass_raises (M : Bytes) (hWaits : ¬ Waits mem.wspacket.maskingKey d)
    (hRaises : Raises mem.wspacket.maskingKey d) :
    (ep.holding M d).wirePass mem = ⟨[], .error .outOfRange⟩ := by
  unfold wirePass
  rw [parsePacket_raises hDone mem hSize hWaits hRaises]
  rfl

variable {h : Header} (hScan : scanHeader mem.wspacket.maskingKey d = h)

include hScan

/-- The last frame of an overlong message stops the process. -/
theorem wirePass_overlong (hWaits : ¬ Waits mem.wspacket.maskingKey d)
    (hRaises : ¬ Raises mem.wspacket.maskingKey d) (hFin : h.fin = 1)
    (hOver : Overlong h.opcode (M ++ h.payload d)) :
    (ep.holding M d).wirePass mem =
      ⟨[.userDefinedProcess h.opcode (M ++ h.payload d)], .error .lengthError⟩ := by
  have hMessage := processMessageData_overlong ep mem.reply
    { h.packet mem.wspacket with payload := ⟨h.payload d, 0⟩ } hOver
  unfold wirePass
  rw [parsePacket_consumes hDone mem hScan hSize hWaits hRaises, if_pos hFin, hMessage]
  rfl

/-- Any other whole frame is used up, and the loop goes on with what remains. -/
theorem wirePass_consumes (hWaits : ¬ Waits mem.wspacket.maskingKey d)
    (hRaises : ¬ Raises mem.wspacket.maskingKey d)
    (hFits : h.fin = 1 → ¬ Overlong h.opcode (M ++ h.payload d)) :
    (ep.holding M d).wirePass mem =
      ⟨if h.fin = 1 then ep.dispatched h.opcode (M ++ h.payload d) else [],
        .ok (ep.consumedPass h.total (kept h (M ++ h.payload d)) (remaining h.total d))⟩ := by
  obtain ⟨hNil, hMore⟩ := not_or.mp hWaits
  have hPos := scanHeader_total_pos mem.wspacket.maskingKey hNil
  have hSizeLe := scanHeader_size_le_fourteen mem.wspacket.maskingKey d
  have hLength := scanHeader_length_lt mem.wspacket.maskingKey d
  rw [hScan] at hPos hMore hSizeLe hLength
  have hTotal : h.total < 2147483648 := by
    unfold Header.total
    omega
  unfold wirePass
  rw [parsePacket_frame hDone mem hScan hSize hWaits hRaises hFits]
  simp only [Traced.mk_ok_bind, Traced.pure_eq, Traced.prepend_mk, List.append_nil]
  rw [settle_remaining _ rfl hPos (Nat.le_of_not_lt hMore) hTotal hSize]
  rfl

end PassOfLoop

/-! ## The loop -/

section Loop

variable (hDone : ep.wsHandshakeCompleted = true) (mem : Nat → PassMem) {fuel : Nat}

include hDone

theorem fromWireLoop_waits (hSize : d.length < 4294967296)
    (hWaits : Waits (mem 0).wspacket.maskingKey d) :
    fromWireLoop (fuel + 1) (ep.holding M d) mem = ⟨[], .ok (0, ep.holding M d)⟩ := by
  unfold fromWireLoop
  rw [wirePass_waits hDone (mem 0) hSize M hWaits]
  rfl

/-- The loop on a buffer with a whole frame at its front: the frame's events,
then the loop on what follows. -/
theorem fromWireLoop_frame {h : Header} (hScan : scanHeader (mem 0).wspacket.maskingKey d = h)
    (hWaits : ¬ Waits (mem 0).wspacket.maskingKey d)
    (hRaises : ¬ Raises (mem 0).wspacket.maskingKey d) (hSize : d.length < 2147483648)
    (hHeld : h.fin = 1 → M.length + d.length < 2147483648) :
    fromWireLoop (fuel + 1) (ep.holding M d) mem =
      Traced.prepend (if h.fin = 1 then ep.dispatched h.opcode (M ++ h.payload d) else [])
        (if d.drop h.total = [] then
          ⟨[], .ok ((h.total : Int), ep.holding (if h.fin = 1 then [] else M ++ h.payload d) [])⟩
        else
          fromWireLoop fuel
            (ep.holding (if h.fin = 1 then [] else M ++ h.payload d) (d.drop h.total))
            fun i => mem (i + 1)) := by
  have hShort : h.fin = 1 → (M ++ h.payload d).length < 2147483648 := by
    intro hFin
    have hPayload := (payload_length_le h d).1
    have hTotal := hHeld hFin
    rw [List.length_append]
    omega
  have hKept : kept h (M ++ h.payload d) = if h.fin = 1 then [] else M ++ h.payload d := by
    unfold kept
    split
    · rename_i hFin
      exact flushed_eq (hShort hFin)
    · rfl
  rw [fromWireLoop, wirePass_consumes hDone (mem 0) (lt_trans hSize (by decide)) hScan hWaits
    hRaises fun hFin => not_overlong _ (hShort hFin), Traced.mk_ok_bind, consumedPass, remaining,
    if_pos hSize, hKept]
  by_cases hRest : d.drop h.total = []
  · simp only [if_pos hRest, Traced.pure_eq]
  · simp only [if_neg hRest]

end Loop

/-- `from_wire` appends the bytes read and enters the loop. -/
theorem fromWire_eq (M buf readbuf : Bytes) (mem : Nat → PassMem) :
    (ep.holding M buf).fromWire readbuf mem =
      fromWireLoop ((buf ++ readbuf).length + 2) (ep.holding M (buf ++ readbuf)) mem := by
  have hAppend := ByteBuffer.append_all ⟨buf, 0⟩ readbuf
  unfold fromWire
  show (liftM ((⟨buf, 0⟩ : ByteBuffer).append (some readbuf) readbuf.length) >>= _) = _
  rw [hAppend, Traced.liftM_ok, Traced.mk_ok_bind, Traced.prepend_nil]
  rfl

end WebSocketEndpoint

end WebSocketFiles
