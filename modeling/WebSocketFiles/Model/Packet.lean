import WebSocketFiles.Library.FrameFormat
import WebSocketFiles.Library.Traced
import WebSocketFiles.Model.Digest

/-!
# `WebSocketPacket`

The packet class of `ws_packet.cpp`: reading and answering the opening
handshake, and reading and writing data frames.

The constructor does not assign the four bytes of `masking_key_` nor
`hs_length_`, so a fresh packet is built from an `Uninit`: what the memory of
the two members happens to hold.  Methods that change the packet or a buffer
return the changed values; a method that may raise returns in `Except Abort`.
-/

namespace WebSocketFiles

open MachineInt ListSearch FrameFormat StrHelper

/-- `EOL`. -/
def EOL : Bytes := [13, 10]

/-- `SP`. -/
def SP : Bytes := [32]

/-- `WS_ERROR_INVALID_HANDSHAKE_PARAMS`. -/
def wsErrorInvalidHandshakeParams : Int := 10070

/-- `WS_MAX_HANDSHAKE_FRAME_SIZE`. -/
def wsMaxHandshakeFrameSize : Int := 1024 * 1000

/-- What the two members that the constructor leaves alone hold. -/
structure Uninit where
  maskingKey : MaskingKey
  hsLength : UInt32

/-- Memory that holds zeros. -/
def Uninit.zeroed : Uninit where
  maskingKey := fun _ => 0
  hsLength := 0

/-- `class WebSocketPacket`.  `params_` is kept as a list whose first entry for
a name is the current one. -/
structure WebSocketPacket where
  mothod : Bytes
  uri : Bytes
  version : Bytes
  params : List (Bytes × Bytes)
  fin : UInt8
  rsv1 : UInt8
  rsv2 : UInt8
  rsv3 : UInt8
  opcode : UInt8
  mask : UInt8
  lengthType : UInt8
  maskingKey : MaskingKey
  payloadLength : Nat
  hsLength : UInt32
  payload : ByteBuffer

/-- `std::string(ptr, len)`: a negative length converts to a huge `size_t`. -/
def stdString (ptr : Option Bytes) (len : Int) : Except Abort Bytes :=
  if len < 0 then .error .lengthError
  else if len = 0 then .ok []
  else
    match ptr with
    | none => .error .undefined
    | some src => if (src.length : Int) < len then .error .undefined else .ok (src.take len.toNat)

/-- The string of a whole buffer. -/
theorem stdString_bytes {b : ByteBuffer} (hLt : b.data.length < 2147483648) :
    stdString (if b.length = 0 then none else some b.data) b.length = .ok b.data := by
  have hLength := ByteBuffer.length_eq hLt
  unfold stdString
  rw [hLength, if_neg (by omega)]
  by_cases hNil : b.data = []
  · rw [hNil]
    rfl
  · have hPos : 0 < b.data.length := List.length_pos_iff.mpr hNil
    rw [if_neg (by omega), if_neg (by omega)]
    simp only
    rw [if_neg (by omega), Int.toNat_natCast, List.take_length]

namespace WebSocketPacket

/-- `WebSocketPacket::WebSocketPacket`. -/
def new (mem : Uninit) : WebSocketPacket where
  mothod := []
  uri := []
  version := []
  params := []
  fin := 0
  rsv1 := 0
  rsv2 := 0
  rsv3 := 0
  opcode := 0
  mask := 0
  lengthType := 0
  maskingKey := mem.maskingKey
  payloadLength := 0
  hsLength := mem.hsLength
  payload := ByteBuffer.empty

/-- `WebSocketPacket::get_param`. -/
def getParam (p : WebSocketPacket) (name : Bytes) : Bytes :=
  (p.params.lookup name).getD []

/-- `params_[k] = v`. -/
def setParam (p : WebSocketPacket) (k v : Bytes) : WebSocketPacket :=
  { p with params := (k, v) :: p.params }

/-! ## The opening handshake -/

/-- The `while` loop that skips blank lines, trimming each line it looks at. -/
def skipBlank : List Bytes → List Bytes
  | [] => []
  | it :: lines => if trim it = [] then skipBlank lines else trim it :: lines

/-- The loop over the header fields. -/
def headerFields (p : WebSocketPacket) : List Bytes → Except Abort WebSocketPacket
  | [] => .ok p
  | it :: lines =>
      match it.findIdx? (· == 58) with
      | none => headerFields p lines   -- invalid line
      | some pos => do
          let k := trim (← substr it 0 (some pos))
          let v := trim (← substr it (pos + 1))
          if k = [] then headerFields p lines
          else if v = [] then headerFields p lines
          else headerFields (p.setParam k v) lines

/-- `WebSocketPacket::fetch_hs_element`. -/
def fetchHsElement (p : WebSocketPacket) (msg : Bytes) : Except Abort (Int × WebSocketPacket) :=
  -- two EOLs mean a completed http1.1 request line
  match indexOfSub (EOL ++ EOL) msg with
  | none => return (-1, p)
  | some endpos => do
      let (lines, nlines) ← splitStr [] (← substr msg 0 (some endpos)) (some EOL)
      if nlines < 2 then
        return (-1, p)
      match skipBlank lines with
      | [] => throw .undefined   -- `*it` at `lines.end()`
      | it :: rest =>
          let (reqLineParams, nparams) ← splitStr [] it (some SP)
          if nparams < 3 then
            return (-1, p)
          match reqLineParams with
          | m :: u :: v :: _ =>
              let p : WebSocketPacket := { p with mothod := trim m, uri := trim u, version := trim v }
              let p ← headerFields p rest
              return (toInt32 (endpos + 4), p)
          | _ => throw .undefined

/-- The parameter checks of `recv_handshake`. -/
def handshakeParamsOk (p : WebSocketPacket) : Bool :=
  !(p.getParam (lit "Upgrade") != lit "websocket" ||
    p.getParam (lit "Connection") != lit "Upgrade" ||
    p.getParam (lit "Sec-WebSocket-Version") != lit "13" ||
    p.getParam (lit "Sec-WebSocket-Key") == [])

/-- `WebSocketPacket::recv_handshake`. -/
def recvHandshake (p : WebSocketPacket) (input : ByteBuffer) :
    Except Abort (Int × WebSocketPacket × ByteBuffer) := do
  if wsMaxHandshakeFrameSize < input.length then
    return (wsMaxHandshakeFrameSize, p, input)
  let inputstr ← stdString (← input.bytes) input.length
  let (frameSize, p) ← p.fetchHsElement inputstr
  if frameSize ≤ 0 then
    -- continue recving data
    return (0, p, input.resetoft)
  if !p.handshakeParamsOk then
    return (wsErrorInvalidHandshakeParams, p, input.resetoft)
  let p : WebSocketPacket := { p with hsLength := UInt32.ofNat (toUInt32 frameSize) }
  return (0, p, (input.skipX (toInt32 p.hsLength.toNat)).2)

/-- `WebSocketPacket::pack_handshake_rsp`. -/
def packHandshakeRsp (p : WebSocketPacket) : Bytes :=
  let magicKey := lit "258EAFA5-E914-47DA-95CA-C5AB0DC85B11"
  let rawKey := p.getParam (lit "Sec-WebSocket-Key") ++ magicKey
  let acceptKey := base64encode (SHA1.SHA1HashString rawKey)
  lit "HTTP/1.1 101 Switching Protocols" ++ EOL ++
  lit "Connection: upgrade" ++ EOL ++
  lit "Upgrade: websocket" ++ EOL ++
  lit "Sec-WebSocket-Accept: " ++ acceptKey ++ EOL ++
  (if p.getParam (lit "Sec-WebSocket-Protocol") ≠ [] then
    lit "Sec-WebSocket-Protocol: chat" ++ EOL
  else []) ++
  EOL

/-- The response is never empty, and short. -/
theorem packHandshakeRsp_length (p : WebSocketPacket) :
    0 < p.packHandshakeRsp.length ∧ p.packHandshakeRsp.length < 1000 := by
  have hDigest := SHA1.SHA1HashString_length_le
    (p.getParam (lit "Sec-WebSocket-Key") ++ lit "258EAFA5-E914-47DA-95CA-C5AB0DC85B11")
  have hKey := base64encode_length_le (SHA1.SHA1HashString
    (p.getParam (lit "Sec-WebSocket-Key") ++ lit "258EAFA5-E914-47DA-95CA-C5AB0DC85B11"))
  have hStatus : (lit "HTTP/1.1 101 Switching Protocols").length = 32 := by rfl
  have hConnection : (lit "Connection: upgrade").length = 19 := by rfl
  have hUpgrade : (lit "Upgrade: websocket").length = 18 := by rfl
  have hAccept : (lit "Sec-WebSocket-Accept: ").length = 22 := by rfl
  have hProtocol : (lit "Sec-WebSocket-Protocol: chat").length = 28 := by rfl
  have hEol : EOL.length = 2 := rfl
  unfold packHandshakeRsp
  simp only [List.length_append, hStatus, hConnection, hUpgrade, hAccept, hEol]
  split
  · simp only [List.length_append, hProtocol, hEol]
    omega
  · simp only [List.length_nil]
    omega

/-! ## Receiving data frames -/

/-- The payload length part of `fetch_frame_info`, by length type. -/
def fetchLength (p : WebSocketPacket) (input : ByteBuffer) :
    Except Abort (WebSocketPacket × ByteBuffer) := do
  if p.lengthType < 126 then
    return ({ p with payloadLength := p.lengthType.toNat }, input)
  else if p.lengthType = 126 then
    let (_, array, input) ← input.readBytesX [0, 0] 2
    return ({ p with payloadLength := ofBigEndian array }, input)
  else
    -- the eight bytes are read into the local `len` only (by shifts that are wider than
    -- an `int`): `payload_length_` is not assigned in this branch
    let (_, _, input) ← input.readBytesX [0, 0, 0, 0, 0, 0, 0, 0] 8
    return (p, input)

/-- The masking key part of `fetch_frame_info`. -/
def fetchMaskingKey (p : WebSocketPacket) (input : ByteBuffer) :
    Except Abort (WebSocketPacket × ByteBuffer) := do
  if p.mask = 1 then
    let (_, key, input) ← input.readBytesX (keyBytes p.maskingKey) 4
    return ({ p with maskingKey := keyOfBytes key }, input)
  else
    return (p, input)

/-- `WebSocketPacket::fetch_frame_info`; returns the header size.  A read that
fails leaves its target as it was. -/
def fetchFrameInfo (p : WebSocketPacket) (input : ByteBuffer) :
    Except Abort (Int × WebSocketPacket × ByteBuffer) := do
  -- FIN, opcode
  let (_, onebyte, input) ← input.readBytesX [0] 1
  let p : WebSocketPacket := { p with
    fin := onebyte.headD 0 >>> 7, opcode := onebyte.headD 0 &&& 0x7F }
  -- payload length
  let (_, onebyte, input) ← input.readBytesX onebyte 1
  let p : WebSocketPacket := { p with
    mask := (onebyte.headD 0 >>> 7) &&& 0x01, lengthType := onebyte.headD 0 &&& 0x7F }
  let (p, input) ← p.fetchLength input
  let (p, input) ← p.fetchMaskingKey input
  -- return header size
  return (input.getoft, p, input)

/-- The unmasking loop of `fetch_payload`, from payload index `i` on with `n`
bytes to go; `real` is the local of the loop. -/
def unmaskLoop (key : MaskingKey) :
    Nat → Nat → UInt8 → ByteBuffer → ByteBuffer → Except Abort (ByteBuffer × ByteBuffer)
  | 0, _, _, payload, input => .ok (payload, input)
  | n + 1, i, real, payload, input => do
      let (_, cb, input) ← input.readBytesX [real] 1
      let real := cb.headD 0 ^^^ key (Fin.ofNat 4 i)
      let payload ← payload.append (some [real]) 1
      unmaskLoop key n (i + 1) real payload input

/-- `WebSocketPacket::fetch_payload`. -/
def fetchPayload (p : WebSocketPacket) (input : ByteBuffer) :
    Except Abort (WebSocketPacket × ByteBuffer) := do
  if p.mask = 1 then
    let (payload, input) ← unmaskLoop p.maskingKey p.payloadLength 0 0 p.payload input
    return ({ p with payload := payload }, input)
  else
    let payload ← p.payload.append (← input.curat) (toInt32 p.payloadLength)
    let (_, input) := input.skipX (toInt32 p.payloadLength)
    return ({ p with payload := payload }, input)

/-- `WebSocketPacket::recv_dataframe`; the result is a `uint64_t`. -/
def recvDataframe (p : WebSocketPacket) (input : ByteBuffer) :
    Except Abort (Nat × WebSocketPacket × ByteBuffer) := do
  let (headerSize, p, input) ← p.fetchFrameInfo input
  if toUInt64 (p.payloadLength + headerSize) > toUInt64 input.length then
    -- buffer size is not enough, so we continue recving data
    return (0, p, input.resetoft)
  let (p, input) ← p.fetchPayload input
  return (toUInt64 input.getoft, p, input)

/-! ## Sending data frames -/

/-- `WebSocketPacket::set_payload`; the `uint64_t` size is passed to `append`
as an `int`. -/
def setPayload (p : WebSocketPacket) (buf : Option Bytes) (size : Nat) :
    Except Abort WebSocketPacket := do
  let payload ← p.payload.append buf (toInt32 size)
  return { p with payload := payload, payloadLength := toUInt64 payload.length }

/-- `WebSocketPacket::get_length_type`. -/
def getLengthType (p : WebSocketPacket) : UInt8 :=
  if p.payloadLength < 126 then UInt8.ofNat p.payloadLength
  else if p.payloadLength ≥ 126 ∧ p.payloadLength ≤ 0xFFFF then 126
  else 127

/-- The masking loop of `pack_dataframe`, from payload index `i` on with `n`
bytes to go; `value` is the local of the loop. -/
def maskLoop (key : MaskingKey) :
    Nat → Nat → UInt8 → ByteBuffer → ByteBuffer → Except Abort (ByteBuffer × ByteBuffer)
  | 0, _, _, payload, output => .ok (payload, output)
  | n + 1, i, value, payload, output => do
      let (_, cb, payload) ← payload.readBytesX [value] 1
      let value := cb.headD 0 ^^^ key (Fin.ofNat 4 i)
      let output ← output.append (some [value]) 1
      maskLoop key n (i + 1) value payload output

/-- `(payload_length_ >> shift) & 0xFF` as a `uint8_t`. -/
def lengthByte (p : WebSocketPacket) (shift : Nat) : UInt8 :=
  UInt8.ofNat ((p.payloadLength >>> shift) &&& 0xFF)

/-- The second header byte and the extended length of `pack_dataframe`;
`none` is its `return -1`. -/
def packLength (p : WebSocketPacket) (output : ByteBuffer) :
    Except Abort (Option ByteBuffer) := do
  -- set mask flag
  let onebyte : UInt8 := (0 : UInt8) ||| (p.mask <<< 7)
  let lengthType : UInt8 := p.getLengthType
  if lengthType < 126 then
    let output ← output.append (some [onebyte ||| UInt8.ofNat p.payloadLength]) 1
    return some output
  else if lengthType = 126 then
    let output ← output.append (some [onebyte ||| lengthType]) 1
    let output ← output.append (some [p.lengthByte 8]) 1
    let output ← output.append (some [p.lengthByte 0]) 1
    return some output
  else if lengthType = 127 then
    let output ← output.append (some [onebyte ||| lengthType]) 1
    let output ← output.append (some [p.lengthByte 56]) 1
    let output ← output.append (some [p.lengthByte 48]) 1
    let output ← output.append (some [p.lengthByte 40]) 1
    let output ← output.append (some [p.lengthByte 32]) 1
    let output ← output.append (some [p.lengthByte 24]) 1
    let output ← output.append (some [p.lengthByte 16]) 1
    let output ← output.append (some [p.lengthByte 8]) 1
    let output ← output.append (some [p.lengthByte 0]) 1
    return some output
  else
    return none

/-- `WebSocketPacket::pack_dataframe`: the result code, the packet (its payload
cursor may have moved) and the output buffer. -/
def packDataframe (p : WebSocketPacket) (output : ByteBuffer) :
    Except Abort (Int × WebSocketPacket × ByteBuffer) := do
  let onebyte : UInt8 := 0
  let onebyte : UInt8 := onebyte ||| (p.fin <<< 7)
  let onebyte : UInt8 := onebyte ||| (p.rsv1 <<< 6)
  let onebyte : UInt8 := onebyte ||| (p.rsv2 <<< 5)
  let onebyte : UInt8 := onebyte ||| (p.rsv3 <<< 4)
  let onebyte : UInt8 := onebyte ||| (p.opcode &&& 0x0F)
  let output ← output.append (some [onebyte]) 1
  match ← p.packLength output with
  | none => return (-1, p, output)
  | some output =>
      if p.mask = 1 then
        -- save masking key
        let output ← output.append (some (keyBytes p.maskingKey)) 4
        let (payload, output) ← maskLoop p.maskingKey p.payloadLength 0 0 p.payload output
        return (0, { p with payload := payload }, output)
      else
        let output ← output.append (← p.payload.bytes) p.payload.length
        return (0, p, output)

end WebSocketPacket

end WebSocketFiles
