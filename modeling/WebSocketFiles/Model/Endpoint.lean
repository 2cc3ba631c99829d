import WebSocketFiles.Library.Traced
import WebSocketFiles.Model.Packet

/-!
# `WebSocketEndpoint`

The endpoint class of `ws_endpoint.cpp`: it accumulates what the transport
reads, answers the handshake, and echoes every finished message.

What a method shows to the outside is an `Event`: a message handed to
`user_defined_process`, a buffer handed to `to_wire`, a call of the write
callback.  A method is a computation that emits such events and returns the
changed endpoint, or stops with an `Abort` (nothing in the program catches an
exception, so a stop is the end of the process).

Every pass of the receive loop constructs fresh packets, whose uninitialised
members are supplied by a `PassMem`.
-/

namespace WebSocketFiles

open MachineInt

/-- An address: of a callback, of a work item. -/
abbrev Addr := Nat

/-- What the outside sees of an endpoint. -/
inductive Event where
  /-- `user_defined_process` is entered for a message -/
  | userDefinedProcess (opcode : UInt8) (payload : Bytes)
  /-- `to_wire` is called -/
  | toWire (writebuf : Bytes)
  /-- the write callback is called -/
  | ntWriteCb (cb : Addr) (buf : Bytes) (workData : Addr)
  deriving DecidableEq, Repr

namespace Event

/-- The (opcode, payload) pairs handed to `user_defined_process`. -/
def users (es : List Event) : List (UInt8 × Bytes) :=
  es.filterMap fun
    | userDefinedProcess opcode payload => some (opcode, payload)
    | _ => none

/-- The buffers handed to `to_wire`. -/
def wires (es : List Event) : List Bytes :=
  es.filterMap fun
    | toWire writebuf => some writebuf
    | _ => none

/-- The buffers handed to the write callback. -/
def callbacks (es : List Event) : List Bytes :=
  es.filterMap fun
    | ntWriteCb _ buf _ => some buf
    | _ => none

/-- The calls of the write callback: whom, with which buffer, and for which item. -/
def called (es : List Event) : List (Addr × Bytes × Addr) :=
  es.filterMap fun
    | ntWriteCb cb buf workData => some (cb, buf, workData)
    | _ => none

@[simp] theorem users_nil : users [] = [] := rfl

@[simp] theorem wires_nil : wires [] = [] := rfl

@[simp] theorem callbacks_nil : callbacks [] = [] := rfl

@[simp] theorem users_append (es fs : List Event) : users (es ++ fs) = users es ++ users fs :=
  List.filterMap_append

@[simp] theorem wires_append (es fs : List Event) : wires (es ++ fs) = wires es ++ wires fs :=
  List.filterMap_append

@[simp] theorem callbacks_append (es fs : List Event) :
    callbacks (es ++ fs) = callbacks es ++ callbacks fs :=
  List.filterMap_append

end Event

/-- A method call on an endpoint. -/
abbrev Call := Traced Abort Event

/-- The memory behind the packets that one pass of the receive loop constructs:
`wspacket` of `parse_packet` and `wspacket` of `user_defined_process`. -/
structure PassMem where
  wspacket : Uninit
  reply : Uninit

/-- `class WebSocketEndpoint`. -/
structure WebSocketEndpoint where
  wsHandshakeCompleted : Bool
  fromwireBuf : ByteBuffer
  messageData : ByteBuffer
  ntWriteCb : Option Addr
  ntWorkData : Option Addr
  deriving DecidableEq, Repr

/-- `WSOpcode_Continue`. -/
def wsOpcodeContinue : UInt8 := 0x0

/-- `WSOpcode_Text`. -/
def wsOpcodeText : UInt8 := 0x1

/-- `WSOpcode_Binary`. -/
def wsOpcodeBinary : UInt8 := 0x2

/-- `WSOpcode_Close`. -/
def wsOpcodeClose : UInt8 := 0x8

/-- `WSOpcode_Ping`. -/
def wsOpcodePing : UInt8 := 0x9

/-- `WSOpcode_Pong`. -/
def wsOpcodePong : UInt8 := 0xA

namespace WebSocketEndpoint

/-- `WebSocketEndpoint::WebSocketEndpoint`; `nt_work_data_` is not assigned. -/
def new (ntWorkData : Option Addr) : WebSocketEndpoint where
  wsHandshakeCompleted := false
  fromwireBuf := ByteBuffer.empty
  messageData := ByteBuffer.empty
  ntWriteCb := none
  ntWorkData := ntWorkData

/-- `WebSocketEndpoint::to_wire`. -/
def toWire (ep : WebSocketEndpoint) (writebuf : Option Bytes) (size : Int) : Call Unit := do
  Traced.emit (.toWire ((writebuf.getD []).take size.toNat))
  match ep.ntWriteCb, ep.ntWorkData, writebuf with
  | some cb, some workData, some buf =>
      if size ≤ 0 then pure ()
      else Traced.emit (.ntWriteCb cb (buf.take size.toNat) workData)
  | _, _, _ => pure ()

/-- `WebSocketEndpoint::user_defined_process`: send back what was received. -/
def userDefinedProcess (ep : WebSocketEndpoint) (mem : Uninit) (packet : WebSocketPacket)
    (framePayload : ByteBuffer) : Call Unit := do
  Traced.emit (.userDefinedProcess packet.opcode framePayload.data)
  -- the trace output builds a string from the payload
  let _strRecv ← stdString (← framePayload.bytes) framePayload.length
  let wspacket : WebSocketPacket := { WebSocketPacket.new mem with
    fin := 1, opcode := packet.opcode }
  let wspacket ← wspacket.setPayload (← framePayload.bytes) (toUInt64 framePayload.length)
  let (_, _, output) ← wspacket.packDataframe ByteBuffer.empty
  ep.toWire (← output.bytes) output.length

/-- The opcodes `process_message_data` has a case for. -/
def knownOpcodes : List UInt8 :=
  [wsOpcodeContinue, wsOpcodeText, wsOpcodeBinary, wsOpcodeClose, wsOpcodePing, wsOpcodePong]

/-- `WebSocketEndpoint::process_message_data`: the six cases of the switch all
call `user_defined_process`; any other opcode is only reported. -/
def processMessageData (ep : WebSocketEndpoint) (mem : Uninit) (packet : WebSocketPacket)
    (framePayload : ByteBuffer) : Call Unit :=
  if packet.opcode ∈ knownOpcodes then ep.userDefinedProcess mem packet framePayload
  else pure ()

/-- `WebSocketEndpoint::parse_packet`, called on `fromwire_buf_`. -/
def parsePacket (ep : WebSocketEndpoint) (mem : PassMem) : Call (Int × WebSocketEndpoint) := do
  let wspacket := WebSocketPacket.new mem.wspacket
  if !ep.wsHandshakeCompleted then
    let (nstatus, wspacket, input) ← wspacket.recvHandshake ep.fromwireBuf
    let ep : WebSocketEndpoint := { ep with fromwireBuf := input }
    if toUInt32 nstatus ≠ 0 then
      return (-1, ep)
    if wspacket.hsLength = 0 then
      -- not enough data for a handshake message
      return (0, ep)
    let hsRsp := wspacket.packHandshakeRsp
    ep.toWire (some hsRsp) hsRsp.length
    let ep : WebSocketEndpoint := { ep with wsHandshakeCompleted := true }
    return (wspacket.hsLength.toNat, ep)
  else
    let (ndf, wspacket, input) ← wspacket.recvDataframe ep.fromwireBuf
    let ep : WebSocketEndpoint := { ep with fromwireBuf := input }
    -- continue recving data until get an entire frame
    if ndf = 0 then
      return (0, ep)
    let payload := wspacket.payload
    let messageData ← ep.messageData.append (← payload.bytes) payload.length
    let ep : WebSocketEndpoint := { ep with messageData := messageData }
    -- now, we have a entire frame
    if wspacket.fin = 1 then
      ep.processMessageData mem.reply wspacket messageData
      let ep : WebSocketEndpoint := { ep with
        messageData := (messageData.erase messageData.length).resetoft }
      return (toInt64 ndf, ep)
    return (toInt64 ndf, ep)

/-- How one pass of the receive loop ends: go round again, or return. -/
inductive Pass where
  | again (ep : WebSocketEndpoint)
  | done (result : Int) (ep : WebSocketEndpoint)

/-- What the loop of `from_wire` does with the result of `parse_packet`. -/
def settle (nrcv : Int) (ep : WebSocketEndpoint) : Pass :=
  if nrcv > 0 then
    -- clear used data
    let ep : WebSocketEndpoint := { ep with
      fromwireBuf := (ep.fromwireBuf.erase (toInt32 nrcv)).resetoft }
    if ep.fromwireBuf.length = 0 then .done (toInt32 nrcv) ep else .again ep
  else if nrcv = 0 then
    -- continue recving
    .done 0 { ep with fromwireBuf := ep.fromwireBuf.resetoft }
  else
    .done (-1) ep

/-- One pass of the `while (true)` loop of `from_wire`. -/
def wirePass (ep : WebSocketEndpoint) (mem : PassMem) : Call Pass := do
  let (nrcv, ep) ← ep.parsePacket mem
  return settle nrcv ep

/-- The `while (true)` loop of `from_wire`; `mem i` is the memory of pass `i`. -/
def fromWireLoop : Nat → WebSocketEndpoint → (Nat → PassMem) → Call (Int × WebSocketEndpoint)
  | 0, _, _ => ⟨[], .error .outOfFuel⟩
  | fuel + 1, ep, mem => do
      match ← ep.wirePass (mem 0) with
      | .done result ep => return (result, ep)
      | .again ep => fromWireLoop fuel ep fun i => mem (i + 1)

/-- `WebSocketEndpoint::from_wire`.  The handshake passes at most once and every
other pass that goes round again removes a byte, so the buffer length bounds
the number of passes. -/
def fromWire (ep : WebSocketEndpoint) (readbuf : Bytes) (mem : Nat → PassMem) :
    Call (Int × WebSocketEndpoint) := do
  let buf ← ep.fromwireBuf.append (some readbuf) readbuf.length
  fromWireLoop (buf.data.length + 2) { ep with fromwireBuf := buf } mem

/-- `WebSocketEndpoint::process` with a write callback. -/
def process (ep : WebSocketEndpoint) (readbuf : Bytes) (writeCb workData : Option Addr)
    (mem : Nat → PassMem) : Call (Int × WebSocketEndpoint) :=
  if writeCb = none ∨ workData = none then
    pure (0, ep)
  else
    fromWire { ep with ntWriteCb := writeCb, ntWorkData := workData } readbuf mem

end WebSocketEndpoint

/-- One call of `from_wire`: the bytes read, whose number fits the `int32_t`
size argument, and the memory of the passes it makes. -/
structure Delivery where
  readbuf : Bytes
  sizeLt : readbuf.length < 2147483648
  mem : Nat → PassMem

/-- A call whose packets are all constructed in zeroed memory. -/
def Delivery.zeroed (readbuf : Bytes) (sizeLt : readbuf.length < 2147483648) : Delivery where
  readbuf := readbuf
  sizeLt := sizeLt
  mem := fun _ => ⟨.zeroed, .zeroed⟩

namespace WebSocketEndpoint

/-- One call of `from_wire`. -/
def deliver (ep : WebSocketEndpoint) (d : Delivery) : Call (Int × WebSocketEndpoint) :=
  ep.fromWire d.readbuf d.mem

/-- Calls of `from_wire` one after another, with the results they return. -/
def deliverAll (ep : WebSocketEndpoint) (ds : List Delivery) :
    Call (List Int × WebSocketEndpoint) :=
  Traced.runAll deliver ep ds

end WebSocketEndpoint

/-- A call of one of the two overloads of `process`. -/
inductive ProcessCall where
  /-- `process(readbuf, size)` -/
  | plain (d : Delivery)
  /-- `process(readbuf, size, write_cb, work_data)` -/
  | withCallback (d : Delivery) (writeCb workData : Option Addr)

namespace WebSocketEndpoint

/-- One call of `process`. -/
def processCall (ep : WebSocketEndpoint) : ProcessCall → Call (Int × WebSocketEndpoint)
  | .plain d => ep.deliver d
  | .withCallback d writeCb workData => ep.process d.readbuf writeCb workData d.mem

/-- Calls of `process` one after another, with the results they return. -/
def processAll (ep : WebSocketEndpoint) (calls : List ProcessCall) :
    Call (List Int × WebSocketEndpoint) :=
  Traced.runAll processCall ep calls

/-- `WebSocketEndpoint::WebSocketEndpoint(nt_write_cb)`; `nt_work_data_` is not
assigned. -/
def newWithCallback (writeCb ntWorkData : Option Addr) : WebSocketEndpoint :=
  { new ntWorkData with ntWriteCb := writeCb }

end WebSocketEndpoint

end WebSocketFiles
