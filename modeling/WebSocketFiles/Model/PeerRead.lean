import WebSocketFiles.Model.Server

/-!
# The read callback and the heap

`on_peer_read` once more, with the blocks it releases.  `Server.onPeerRead` says
what becomes of the queues; here the callback is a computation that emits its
calls of `free` and `uv_queue_work`, in order.

The addresses are whatever the heap makes them.  A member that was not assigned
holds an arbitrary value, and so does the result of `uv_buf_alloc_cpy`, which runs
off its end.  Allocation succeeds.
-/

namespace WebSocketFiles

open MachineInt

/-- What a call does to the heap and to the work queue. -/
inductive HeapEvent where
  /-- `free(ptr)` -/
  | free (ptr : Option Addr)
  /-- `uv_queue_work` with the request of this work data, or with NULL -/
  | uvQueueWork (workData : Option PeerWorkData)
  deriving DecidableEq, Repr

namespace HeapEvent

/-- The pointers that are freed. -/
def frees (es : List HeapEvent) : List (Option Addr) :=
  es.filterMap fun
    | free ptr => some ptr
    | _ => none

/-- What is queued. -/
def queued (es : List HeapEvent) : List (Option PeerWorkData) :=
  es.filterMap fun
    | uvQueueWork workData => some workData
    | _ => none

end HeapEvent

/-- The addresses that a call finds: `buf->base`, the blocks that `xmalloc` gives
out for the copy and for the work data, and what the unassigned `response.base` of
the work data holds. -/
structure ReadHeap where
  base : Option Addr
  request : Addr
  workData : Addr
  response : Option Addr

namespace ReadHeap

/-- A call that works on the heap. -/
abbrev HeapCall := Traced Abort HeapEvent

/-- `fail`. -/
def fail : HeapCall Unit :=
  Traced.ofExcept (.error .exitFailure)

/-- `free_work_data`, on work data whose response was not assigned. -/
def freeWorkData (heap : ReadHeap) (workData : PeerWorkData) : HeapCall Unit := do
  Traced.emit (.free (workData.request.base.map fun _ => heap.request))
  Traced.emit (.free heap.response)
  Traced.emit (.free (some heap.workData))

/-- `alloc_work_req`; `none` is its `return NULL`. -/
def allocWorkReq (heap : ReadHeap) (uvclient : Nat) (nread : Int) (buf : UvBuf) (type ret : Int) :
    HeapCall (Option PeerWorkData) := do
  let workData : PeerWorkData := ⟨uvclient, .null, .null, type⟩
  if workData.type = 1 then
    let (rc, request) ← uvBufAllocCpy workData.request buf (toInt32 nread) ret
    let workData : PeerWorkData := { workData with request := request }
    if rc < 0 then
      heap.freeWorkData workData
      Traced.emit (.free heap.base)
      return none
    return some workData
  return some workData

/-- `on_peer_read`; `rc` is what `uv_queue_work` returns, if it does: what it makes of NULL
is left open here. -/
def onPeerRead (heap : ReadHeap) (c : Nat) (nread : Int) (buf : Bytes) (ret rc : Int) :
    HeapCall Unit := do
  if nread < 0 then
    let workReq ← heap.allocWorkReq c nread ⟨some buf, buf.length⟩ 0 ret
    Traced.emit (.uvQueueWork workReq)
    if rc < 0 then
      fail
  else if nread = 0 then
    pure ()
  else
    let workReq ← heap.allocWorkReq c nread ⟨some buf, buf.length⟩ 1 ret
    Traced.emit (.uvQueueWork workReq)
    if rc < 0 then
      fail
  Traced.emit (.free heap.base)

end ReadHeap

end WebSocketFiles
