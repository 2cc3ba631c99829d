import WebSocketFiles.Library.HeapLogic
import WebSocketFiles.Library.Transition
import WebSocketFiles.Model.Server

/-!
# The demo server on the heap

`main.cpp` once more, down to its pointers.  `Server` keeps what belongs to a client
or to a work item in place; here it lies in blocks of a heap, and the callbacks reach
it as the program does, through `client->data`, `req->data` and the pointers of
`peer_work_data_t`.  A callback that touches a block after its release, releases one
twice, or passes an object of `new` to `free`, faults.

A `Process` is the heap together with what libuv holds for the program: the handles it
reads from or is closing, and the requests in its queues.  Of what libuv itself does
with the blocks behind them only two things are modelled: `uv_write` uses the stream it
is given, and `uv_queue_work` the request.  A step ends with its callback, and a use that
libuv makes of a block afterwards is no part of it.  Allocation succeeds, and a pointer
that was not assigned is `garbage`.
-/

namespace WebSocketFiles

open MachineInt HeapLogic

/-- `uv_buf_t`, with its pointer. -/
structure PtrBuf where
  base : Option Addr
  len : Nat
  deriving DecidableEq, Repr

/-- `uv_buf_init(NULL, 0)`. -/
def PtrBuf.null : PtrBuf := ⟨none, 0⟩

/-- `peer_state_t`. -/
structure PeerState where
  uvclient : Option Addr
  endpoint : Option Addr
  deriving DecidableEq, Repr

/-- `peer_work_data_t`, with its pointers. -/
structure WorkBlock where
  uvclient : Option Addr
  endpoint : Option Addr
  request : PtrBuf
  response : PtrBuf
  type : Int
  deriving DecidableEq, Repr

/-- What a block holds. -/
inductive Obj where
  /-- `uv_tcp_t`, with its member `data` -/
  | uvTcp (data : Option Addr)
  | peerState (state : PeerState)
  /-- an object of `new WebSocketEndpoint()` -/
  | endpoint (ep : WebSocketEndpoint)
  | workData (w : WorkBlock)
  /-- `uv_work_t`, with its member `data` -/
  | workReq (data : Option Addr)
  /-- `uv_write_t`, with its member `data` -/
  | writeReq (data : Option Addr)
  /-- the bytes behind a `uv_buf_t` -/
  | chars (bytes : Bytes)
  deriving DecidableEq, Repr

namespace Obj

def uvTcp? : Obj → Option (Option Addr)
  | uvTcp data => some data
  | _ => none

def peerState? : Obj → Option PeerState
  | peerState state => some state
  | _ => none

def endpoint? : Obj → Option WebSocketEndpoint
  | endpoint ep => some ep
  | _ => none

def workData? : Obj → Option WorkBlock
  | workData w => some w
  | _ => none

def workReq? : Obj → Option (Option Addr)
  | workReq data => some data
  | _ => none

def writeReq? : Obj → Option (Option Addr)
  | writeReq data => some data
  | _ => none

def chars? : Obj → Option Bytes
  | chars bytes => some bytes
  | _ => none

/-- The block was made by `new`. -/
def isNew : Obj → Bool
  | endpoint _ => true
  | _ => false

end Obj

/-- A callback, or a function it calls. -/
abbrev HeapProg := HeapM Obj Abort

namespace HeapProg

/-! ## The heap -/

/-- `xmalloc`. -/
def xmalloc (o : Obj) : HeapProg Addr :=
  HeapM.alloc o

/-- `free`. -/
def free (ptr : Option Addr) : HeapProg Unit :=
  HeapM.release (fun o => !o.isNew) ptr

/-- `delete`. -/
def delete (ptr : Option Addr) : HeapProg Unit :=
  HeapM.release Obj.isNew ptr

/-- `fail`. -/
def fail {α : Type} : HeapProg α :=
  HeapM.stop .exitFailure

/-- Write to members of a `peer_work_data_t`. -/
def setWorkData (f : WorkBlock → WorkBlock) (ptr : Option Addr) : HeapProg Unit :=
  HeapM.modify (fun o => o.workData?.map fun w => .workData (f w)) ptr

/-- Write to members of a `peer_state_t`. -/
def setPeerState (f : PeerState → PeerState) (ptr : Option Addr) : HeapProg Unit :=
  HeapM.modify (fun o => o.peerState?.map fun state => .peerState (f state)) ptr

/-- The bytes behind a pointer; nothing is read through NULL. -/
def readChars : Option Addr → HeapProg Bytes
  | none => pure []
  | some a => HeapM.read Obj.chars? (some a)

/-! ## The functions of `main.cpp` -/

/-- `uv_buf_alloc_cpy` on non-NULL pointers, from the bytes of `src`; a copy that
fails leaves `dst` as it is. -/
def uvBufAllocCpy (dst : PtrBuf) (src : UvBuf) (size ret : Int) : HeapProg (Int × PtrBuf) :=
  if src.len < toUInt64 size then pure (-2, dst)
  else if (src.base.getD []).length < toUInt64 size then HeapM.stop .undefined
  else do
    let base ← xmalloc (.chars ((src.base.getD []).take (toUInt64 size)))
    pure (ret, ⟨some base, toUInt64 size⟩)

/-- `free_work_data`. -/
def freeWorkData (workdata : Option Addr) : HeapProg Unit := do
  -- not free endpoint
  setWorkData (fun w => { w with uvclient := none }) workdata
  setWorkData (fun w => { w with endpoint := none }) workdata
  let w ← HeapM.read Obj.workData? workdata
  free w.request.base
  setWorkData (fun w => { w with request := { w.request with base := none } }) workdata
  let w ← HeapM.read Obj.workData? workdata
  free w.response.base
  setWorkData (fun w => { w with response := { w.response with base := none } }) workdata
  free workdata

/-- `on_write_response`; the result of the copy is not looked at. -/
def onWriteResponse (buf : Bytes) (wd : Option Addr) : HeapProg Unit := do
  let w ← HeapM.read Obj.workData? wd
  if w.response.base ≠ none then fail
  else do
    let src : UvBuf := ⟨some buf, toUInt32 buf.length⟩
    setWorkData (fun w => { w with response := .null }) wd
    let (_, response) ← uvBufAllocCpy .null src (toInt32 src.len) 0
    setWorkData (fun w => { w with response := response }) wd
    pure ()

/-- `on_client_closed`. -/
def onClientClosed (handle : Option Addr) : HeapProg Unit := do
  let data ← HeapM.read Obj.uvTcp? handle
  if data ≠ none then do
    -- we free client data here
    let peerstate ← HeapM.read Obj.peerState? data
    delete peerstate.endpoint
    setPeerState (fun state => { state with endpoint := none }) data
    free data
    free handle
  else free handle

/-- `on_work_client_closed`. -/
def onWorkClientClosed (req : Option Addr) : HeapProg Unit :=
  if req = none then pure ()
  else do
    let workData ← HeapM.read Obj.workReq? req
    let w ← HeapM.read Obj.workData? workData
    let _peerstate ← HeapM.read Obj.uvTcp? w.uvclient
    delete w.endpoint
    setWorkData (fun w => { w with endpoint := none }) workData
    let data ← HeapM.read Obj.uvTcp? w.uvclient
    free data
    free w.uvclient
    free w.request.base
    free w.response.base
    free workData
    free req

/-- `on_sent_response`. -/
def onSentResponse (req : Option Addr) (status : Int) : HeapProg Unit :=
  if status ≠ 0 then fail
  else do
    let workData ← HeapM.read Obj.writeReq? req
    freeWorkData workData
    free req

/-- The calls of the write callback that `process` makes, one after another. -/
def writeResponses : List (Addr × Bytes × Addr) → HeapProg Unit
  | [] => pure ()
  | (_, buf, workData) :: calls => do
      onWriteResponse buf (some workData)
      writeResponses calls

/-- `on_work_submitted`. -/
def onWorkSubmitted (req : Option Addr) (mem : Nat → PassMem) : HeapProg Unit := do
  let workData ← HeapM.read Obj.workReq? req
  let w ← HeapM.read Obj.workData? workData
  let ep ← HeapM.read Obj.endpoint? w.endpoint
  let bytes ← readChars w.request.base
  let call := ep.process (bytes.take w.request.len) (some onWriteResponseAddr) workData mem
  writeResponses (Event.called call.events)
  let (_, ep) ← HeapM.lift call.value
  HeapM.modify (fun o => o.endpoint?.map fun _ => .endpoint ep) w.endpoint
  pure ()

/-- `uv_write`, with its result. -/
def uvWrite (stream : Option Addr) (rc : Int) : HeapProg Int := do
  let _handle ← HeapM.read Obj.uvTcp? stream
  pure rc

/-- `on_work_completed`, with the result of `uv_write`; it returns the request that
is handed to `uv_write`. -/
def onWorkCompleted (req : Option Addr) (status rc : Int) : HeapProg (Option Addr) :=
  if status ≠ 0 then fail
  else do
    let workData ← HeapM.read Obj.workReq? req
    let w ← HeapM.read Obj.workData? workData
    if w.response.base = none then do
      setWorkData (fun w => { w with endpoint := none }) workData
      setWorkData (fun w => { w with uvclient := none }) workData
      freeWorkData workData
      free req
      pure none
    else do
      let writereq ← xmalloc (.writeReq workData)
      HeapM.modify (fun o => o.workReq?.map fun _ => .workReq none) req
      let rc ← uvWrite w.uvclient rc
      if rc < 0 then fail
      else do
        free req
        pure (some writereq)

/-- `alloc_work_req`; NULL when the copy reports a failure. -/
def allocWorkReq (peerstate : Option Addr) (nread : Int) (buf : PtrBuf) (type ret : Int)
    (garbage : Option Addr) : HeapProg (Option Addr) := do
  let workReq ← xmalloc (.workReq garbage)
  let workData ← xmalloc (.workData ⟨garbage, garbage, ⟨garbage, 0⟩, ⟨garbage, 0⟩, 0⟩)
  let state ← HeapM.read Obj.peerState? peerstate
  setWorkData (fun w => { w with
    uvclient := state.uvclient, endpoint := state.endpoint, request := .null, type := type })
    (some workData)
  if type = 1 then do
    let bytes ← readChars buf.base
    let (rc, request) ← uvBufAllocCpy .null ⟨some bytes, buf.len⟩ (toInt32 nread) ret
    setWorkData (fun w => { w with request := request }) (some workData)
    if rc < 0 then do
      freeWorkData (some workData)
      free buf.base
      pure none
    else do
      setWorkData (fun w => { w with response := .null }) (some workData)
      HeapM.modify (fun o => o.workReq?.map fun _ => .workReq (some workData)) (some workReq)
      pure (some workReq)
  else do
    setWorkData (fun w => { w with response := .null }) (some workData)
    HeapM.modify (fun o => o.workReq?.map fun _ => .workReq (some workData)) (some workReq)
    pure (some workReq)

/-- `on_alloc_buffer`; libuv has read the bytes into the buffer when it calls back. -/
def onAllocBuffer (bytes : Bytes) : HeapProg PtrBuf := do
  let base ← xmalloc (.chars bytes)
  pure ⟨some base, bytes.length⟩

/-- `uv_queue_work`, with its result; a request that is NULL is dereferenced. -/
def uvQueueWork (workReq : Option Addr) (rc : Int) : HeapProg Addr :=
  match workReq with
  | none => HeapM.stop .undefined
  | some req => if rc < 0 then fail else pure req

/-- `on_peer_read`; `rc` is the result of `uv_queue_work`, and the request that is
queued is returned. -/
def onPeerRead (client : Option Addr) (nread : Int) (buf : PtrBuf) (ret rc : Int)
    (garbage : Option Addr) : HeapProg (Option Addr) :=
  if nread = 0 then do
    free buf.base
    pure none
  else do
    let peerstate ← HeapM.read Obj.uvTcp? client
    setPeerState (fun state => { state with uvclient := client }) peerstate
    let workReq ← allocWorkReq peerstate nread buf (if nread < 0 then 0 else 1) ret garbage
    let req ← uvQueueWork workReq rc
    free buf.base
    pure (some req)

end HeapProg

/-- What the calls of libuv in `on_peer_connected` return. -/
structure AcceptResults where
  uvTcpInit : Int
  uvAccept : Int
  uvTcpGetpeername : Int
  uvReadStart : Int

/-- What becomes of a connection. -/
inductive Connected where
  | refused
  | accepted (client : Addr)
  | closing (client : Addr)

namespace HeapProg

/-- `on_peer_connected`; `ntWorkData` is the unassigned member of the endpoint. -/
def onPeerConnected (status : Int) (results : AcceptResults) (ntWorkData garbage : Option Addr) :
    HeapProg Connected :=
  if status < 0 then pure .refused
  else do
    let client ← xmalloc (.uvTcp garbage)
    if results.uvTcpInit < 0 then fail
    else do
      HeapM.modify (fun o => o.uvTcp?.map fun _ => .uvTcp none) (some client)
      if results.uvAccept = 0 then
        if results.uvTcpGetpeername < 0 then fail
        else do
          let peerstate ← xmalloc (.peerState ⟨garbage, garbage⟩)
          let endpoint ← HeapM.alloc (.endpoint (.new ntWorkData))
          setPeerState (fun state => { state with endpoint := some endpoint }) (some peerstate)
          setPeerState (fun state => { state with uvclient := some client }) (some peerstate)
          HeapM.modify (fun o => o.uvTcp?.map fun _ => .uvTcp (some peerstate)) (some client)
          if results.uvReadStart < 0 then fail
          else pure (.accepted client)
      else pure (.closing client)

end HeapProg

/-! ## The process -/

/-- The callback of a queued request. -/
inductive WorkCb where
  | onWorkSubmitted
  | onWorkClientClosed
  deriving DecidableEq, Repr

/-- The heap, what libuv holds, and how the process ended. -/
structure Process where
  heap : Heap Obj
  /-- the handle of each connection, and whether it is read from -/
  clients : List (Addr × Bool)
  /-- the handles given to `uv_close` -/
  closing : List Addr
  /-- the requests given to `uv_queue_work` -/
  queue : List (Addr × WorkCb)
  /-- those whose completion callback has not run -/
  finished : List Addr
  /-- the requests given to `uv_write` -/
  writing : List Addr
  outcome : Option (Fault Abort)

/-- What can happen next. -/
inductive Callback where
  | onPeerConnected (status : Int) (results : AcceptResults) (ntWorkData garbage : Option Addr)
  /-- for connection `c`; `ret` is what `uv_buf_alloc_cpy` happens to return, `rc` the
  result of `uv_queue_work` -/
  | onPeerRead (c : Nat) (nread : Int) (bytes : Bytes) (ret rc : Int) (garbage : Option Addr)
  /-- the worker runs the next request -/
  | worker (mem : Nat → PassMem)
  /-- for the next finished request; `rc` is the result of `uv_write` -/
  | onWorkCompleted (status rc : Int)
  /-- for the `i`-th write in flight -/
  | onSentResponse (i : Nat) (status : Int)
  /-- for the `i`-th handle that is closing -/
  | onClientClosed (i : Nat)

namespace Process

/-- Before the first connection. -/
def init : Process where
  heap := .empty
  clients := []
  closing := []
  queue := []
  finished := []
  writing := []
  outcome := none

/-- Run a callback; a fault or an exit is the end of the process. -/
def run {α : Type} (p : Process) (prog : HeapProg α) (next : α → Process → Process) : Process :=
  match prog p.heap with
  | .ok (a, heap) => next a { p with heap := heap }
  | .error e => { p with outcome := some e }

/-- `on_peer_connected`. -/
def onPeerConnected (p : Process) (status : Int) (results : AcceptResults)
    (ntWorkData garbage : Option Addr) : Process :=
  p.run (HeapProg.onPeerConnected status results ntWorkData garbage) fun connected p =>
    match connected with
    | .refused => p
    | .accepted client => { p with clients := p.clients ++ [(client, true)] }
    | .closing client => { p with closing := p.closing ++ [client] }

/-- `on_alloc_buffer` and `on_peer_read`.  After a negative `nread` libuv does not read
from the client any more. -/
def onPeerRead (p : Process) (c : Nat) (nread : Int) (bytes : Bytes) (ret rc : Int)
    (garbage : Option Addr) : Option Process :=
  match p.clients[c]? with
  | some (client, true) =>
      -- libuv reports no more bytes than the buffer has, and no buffer is of 2 GiB
      if (bytes.length : Int) < nread ∨ 2147483648 ≤ bytes.length then none
      else some <| p.run (do
          let buf ← HeapProg.onAllocBuffer bytes
          HeapProg.onPeerRead (some client) nread buf ret rc garbage) fun req p => { p with
        clients := if nread < 0 then p.clients.set c (client, false) else p.clients
        queue := p.queue ++ req.toList.map fun req =>
          (req, if nread < 0 then .onWorkClientClosed else .onWorkSubmitted) }
  | _ => none

/-- The worker takes the first request; `on_work_client_closed` has no completion
callback.  libuv takes the request up once more when its callback has returned, also after
`on_work_client_closed`, which has released it; this is not part of the step. -/
def worker (p : Process) (mem : Nat → PassMem) : Option Process :=
  match p.queue with
  | [] => none
  | (req, .onWorkSubmitted) :: rest =>
      some <| p.run (HeapProg.onWorkSubmitted (some req) mem) fun _ p => { p with
        queue := rest, finished := p.finished ++ [req] }
  | (req, .onWorkClientClosed) :: rest =>
      some <| p.run (HeapProg.onWorkClientClosed (some req)) fun _ p => { p with queue := rest }

/-- `on_work_completed`, on the first finished request. -/
def onWorkCompleted (p : Process) (status rc : Int) : Option Process :=
  match p.finished with
  | [] => none
  | req :: rest =>
      some <| p.run (HeapProg.onWorkCompleted (some req) status rc) fun write p => { p with
        finished := rest, writing := p.writing ++ write.toList }

/-- `on_sent_response`, on the `i`-th write in flight. -/
def onSentResponse (p : Process) (i : Nat) (status : Int) : Option Process :=
  match p.writing[i]? with
  | none => none
  | some req =>
      some <| p.run (HeapProg.onSentResponse (some req) status) fun _ p => { p with
        writing := p.writing.eraseIdx i }

/-- `on_client_closed`, on the `i`-th handle that is closing. -/
def onClientClosed (p : Process) (i : Nat) : Option Process :=
  match p.closing[i]? with
  | none => none
  | some handle =>
      some <| p.run (HeapProg.onClientClosed (some handle)) fun _ p => { p with
        closing := p.closing.eraseIdx i }

/-- One step of the loop thread or of the worker. -/
def step (p : Process) (cb : Callback) : Option Process :=
  if p.outcome ≠ none then none
  else
    match cb with
    | .onPeerConnected status results ntWorkData garbage =>
        some (p.onPeerConnected status results ntWorkData garbage)
    | .onPeerRead c nread bytes ret rc garbage => p.onPeerRead c nread bytes ret rc garbage
    | .worker mem => p.worker mem
    | .onWorkCompleted status rc => p.onWorkCompleted status rc
    | .onSentResponse i status => p.onSentResponse i status
    | .onClientClosed i => p.onClientClosed i

end Process

end WebSocketFiles
