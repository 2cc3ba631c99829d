import WebSocketFiles.Library.Transition
import WebSocketFiles.Model.Endpoint

/-!
# The demo server

`main.cpp`: one loop thread that reads chunks, one worker thread that processes
them in the order they were queued, and the callbacks by which the loop thread
sends the responses.

`Server.step` is the transition relation of the two threads.  libuv appears as
the three queues between them: the work queue, the finished items whose
completion callback has not run, and the writes in flight.  A client is named by
the number of its connection, so that an address is never used twice; freeing it
leaves `Peer.freed` behind.

A step that ends the process (an exit by `fail`, an uncaught exception,
undefined behaviour) sets `exited`, and nothing happens after it.  Allocation
succeeds.
-/

namespace WebSocketFiles

open MachineInt

/-- `uv_buf_t`. -/
structure UvBuf where
  base : Option Bytes
  len : Nat
  deriving DecidableEq, Repr

/-- `uv_buf_init(NULL, 0)`. -/
def UvBuf.null : UvBuf := ⟨none, 0⟩

/-- `uv_buf_alloc_cpy` on non-NULL pointers.  On success it runs off its end, so
the result is whatever `ret` is. -/
def uvBufAllocCpy (dst src : UvBuf) (size ret : Int) : Except Abort (Int × UvBuf) :=
  if src.len < toUInt64 size then .ok (-2, dst)
  else if (src.base.getD []).length < toUInt64 size then .error .undefined
  else .ok (ret, ⟨some ((src.base.getD []).take (toUInt64 size)), toUInt64 size⟩)

/-- `peer_work_data_t`; the endpoint is the one of the client. -/
structure PeerWorkData where
  uvclient : Nat
  request : UvBuf
  response : UvBuf
  type : Int
  deriving DecidableEq, Repr

/-- `alloc_work_req`.  When the copy reports a failure, `free_work_data` frees
`response.base` before anything was assigned to it. -/
def allocWorkReq (uvclient : Nat) (nread : Int) (buf : UvBuf) (type ret : Int) :
    Except Abort PeerWorkData := do
  let workData : PeerWorkData := ⟨uvclient, .null, .null, type⟩
  if workData.type = 1 then
    let (rc, request) ← uvBufAllocCpy workData.request buf (toInt32 nread) ret
    if rc < 0 then
      throw .undefined
    return { workData with request := request }
  return workData

/-- `on_write_response`; the result of the copy is not looked at. -/
def onWriteResponse (workData : PeerWorkData) (buf : Bytes) : Except Abort PeerWorkData :=
  if workData.response.base ≠ none then .error .exitFailure
  else do
    -- `uv_buf_init` takes an `unsigned int`
    let src : UvBuf := ⟨some buf, toUInt32 buf.length⟩
    let (_, response) ← uvBufAllocCpy .null src (toInt32 src.len) 0
    return { workData with response := response }

/-- The address of `on_write_response`. -/
def onWriteResponseAddr : Addr := 1

/-- The address of the work data; only that it is not NULL matters. -/
def workDataAddr : Addr := 2

/-- `on_work_submitted`: process the chunk; every call of the write callback
happens on the way. -/
def onWorkSubmitted (ep : WebSocketEndpoint) (workData : PeerWorkData) (mem : Nat → PassMem) :
    Except Abort (Int × WebSocketEndpoint × PeerWorkData) := do
  let readbuf := (workData.request.base.getD []).take workData.request.len
  let call := ep.process readbuf (some onWriteResponseAddr) (some workDataAddr) mem
  let workData ← (Event.callbacks call.events).foldlM onWriteResponse workData
  let (nrc, ep) ← call.value
  return (nrc, ep, workData)

/-! ## The two threads -/

/-- What is behind a client: its handle, peer state and endpoint. -/
inductive Peer where
  /-- `reading` until libuv has reported the end of the connection -/
  | connected (endpoint : WebSocketEndpoint) (reading : Bool)
  | freed
  deriving DecidableEq, Repr

/-- The clients, the queues between the threads, and whether the process has
ended. -/
structure Server where
  peers : List Peer
  queue : List PeerWorkData
  finished : List PeerWorkData
  writing : List PeerWorkData
  exited : Bool
  deriving DecidableEq, Repr

/-- What can happen next. -/
inductive Action where
  /-- a client connects; `ntWorkData` is the unassigned member of its endpoint -/
  | onPeerConnected (ntWorkData : Option Addr)
  /-- the read callback of client `c`; `ret` is the value that
  `uv_buf_alloc_cpy` happens to return -/
  | onPeerRead (c : Nat) (nread : Int) (buf : Bytes) (ret : Int)
  /-- the worker runs the next work item -/
  | worker (mem : Nat → PassMem)
  /-- the completion callback of the next finished item; `rc` is what
  `uv_write` returns -/
  | onWorkCompleted (status rc : Int)
  /-- the callback of the `i`-th write in flight -/
  | onSentResponse (i : Nat) (status : Int)

namespace Server

/-- The server before the first client. -/
def init : Server where
  peers := []
  queue := []
  finished := []
  writing := []
  exited := false

/-- The process has ended. -/
def exit (s : Server) : Server :=
  { s with exited := true }

/-- `on_peer_connected`. -/
def onPeerConnected (s : Server) (ntWorkData : Option Addr) : Server :=
  { s with peers := s.peers ++ [.connected (.new ntWorkData) true] }

/-- `on_peer_read`.  After a negative `nread` libuv does not read from the client
any more. -/
def onPeerRead (s : Server) (c : Nat) (nread : Int) (buf : Bytes) (ret : Int) : Option Server :=
  match s.peers[c]? with
  | some (.connected ep true) =>
      -- libuv reports no more bytes than the buffer has, and no buffer is of 2 GiB
      if (buf.length : Int) < nread ∨ 2147483648 ≤ buf.length then none
      else if nread < 0 then
        match allocWorkReq c nread ⟨some buf, buf.length⟩ 0 ret with
        | .error _ => some s.exit
        | .ok workData => some { s with
            peers := s.peers.set c (.connected ep false), queue := s.queue ++ [workData] }
      else if nread = 0 then some s
      else
        match allocWorkReq c nread ⟨some buf, buf.length⟩ 1 ret with
        | .error _ => some s.exit
        | .ok workData => some { s with queue := s.queue ++ [workData] }
  | _ => none

/-- The worker takes the first work item: `on_work_submitted` for a chunk,
`on_work_client_closed` for the end of a connection, which has no completion
callback. -/
def worker (s : Server) (mem : Nat → PassMem) : Option Server :=
  match s.queue with
  | [] => none
  | workData :: rest =>
      match s.peers[workData.uvclient]? with
      | some (.connected ep reading) =>
          if workData.type = 1 then
            match onWorkSubmitted ep workData mem with
            | .error _ => some s.exit
            | .ok (_, ep, workData) => some { s with
                peers := s.peers.set workData.uvclient (.connected ep reading)
                queue := rest
                finished := s.finished ++ [workData] }
          else
            some { s with peers := s.peers.set workData.uvclient .freed, queue := rest }
      -- `delete work_data->endpoint` or `process` on an endpoint that is gone
      | _ => some s.exit

/-- `on_work_completed`, on the first finished item. -/
def onWorkCompleted (s : Server) (status rc : Int) : Option Server :=
  match s.finished with
  | [] => none
  | workData :: rest =>
      if status ≠ 0 then some s.exit
      else if workData.response.base = none then some { s with finished := rest }
      else if rc < 0 then some s.exit
      else some { s with finished := rest, writing := s.writing ++ [workData] }

/-- `on_sent_response`, on the `i`-th write in flight. -/
def onSentResponse (s : Server) (i : Nat) (status : Int) : Option Server :=
  if s.writing.length ≤ i then none
  else if status ≠ 0 then some s.exit
  else some { s with writing := s.writing.eraseIdx i }

/-- One step of the loop thread or of the worker. -/
def step (s : Server) (a : Action) : Option Server :=
  if s.exited then none
  else
    match a with
    | .onPeerConnected ntWorkData => some (s.onPeerConnected ntWorkData)
    | .onPeerRead c nread buf ret => s.onPeerRead c nread buf ret
    | .worker mem => s.worker mem
    | .onWorkCompleted status rc => s.onWorkCompleted status rc
    | .onSentResponse i status => s.onSentResponse i status

end Server

end WebSocketFiles
