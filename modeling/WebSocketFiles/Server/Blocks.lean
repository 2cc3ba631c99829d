import WebSocketFiles.Model.Process
import WebSocketFiles.Receive.Callbacks
import WebSocketFiles.Server.Steps

/-!
# The blocks of the server

Which blocks belong to what: to a client its handle, its peer state and its endpoint;
to a work item its request, its work data and the buffers; to a connection that was
not accepted its handle.  A `Layout` lists these with their addresses, and `Layout.cells`
are all the blocks there are.

For every function of `main.cpp` there is one rule: from the blocks it works on, what
it leaves of them, in terms of what `Server` has in their place.
-/

namespace WebSocketFiles

open MachineInt HeapLogic WebSocketEndpoint

/-- A block with its content. -/
abbrev Cell := Nat × Obj

/-! ## Whose blocks -/

/-- The addresses of a client's blocks. -/
structure ClientBlocks where
  handle : Addr
  state : Addr
  endpoint : Addr

/-- A client and its blocks; `reg` is whom its endpoint calls back. -/
structure OwnedClient where
  blocks : ClientBlocks
  reg : Registration
  peer : Peer

/-- A work item and its blocks; `req` is its `uv_work_t` or its `uv_write_t`. -/
structure OwnedWork where
  req : Addr
  data : Addr
  request : Addr
  response : Addr
  client : ClientBlocks
  work : PeerWorkData

/-- The pointer to a buffer whose bytes are in the block `a`. -/
def UvBuf.ptr (buf : UvBuf) (a : Addr) : PtrBuf :=
  ⟨buf.base.map fun _ => a, buf.len⟩

/-- The block of a buffer, if it has one. -/
def UvBuf.cells (buf : UvBuf) (a : Addr) : Multiset Cell :=
  match buf.base with
  | some bytes => {(a, .chars bytes)}
  | none => 0

@[simp] theorem UvBuf.cells_null (a : Addr) : UvBuf.null.cells a = 0 := rfl

@[simp] theorem UvBuf.ptr_null (a : Addr) : UvBuf.null.ptr a = .null := rfl

namespace OwnedClient

/-- The blocks of a client that was not freed. -/
def cells (k : OwnedClient) : Multiset Cell :=
  match k.peer with
  | .connected ep _ =>
      (k.blocks.handle, .uvTcp (some k.blocks.state)) ::ₘ
        (k.blocks.state, .peerState ⟨some k.blocks.handle, some k.blocks.endpoint⟩) ::ₘ
          {(k.blocks.endpoint, .endpoint (ep.calledBy k.reg))}
  | .freed => 0

theorem cells_connected {k : OwnedClient} {ep : WebSocketEndpoint} {reading : Bool}
    (hPeer : k.peer = .connected ep reading) :
    k.cells = (k.blocks.handle, .uvTcp (some k.blocks.state)) ::ₘ
      (k.blocks.state, .peerState ⟨some k.blocks.handle, some k.blocks.endpoint⟩) ::ₘ
        {(k.blocks.endpoint, .endpoint (ep.calledBy k.reg))} := by
  rw [cells, hPeer]

/-- A client that was accepted. -/
def accepted (b : ClientBlocks) (ntWorkData : Option Addr) : OwnedClient :=
  ⟨b, (WebSocketEndpoint.new ntWorkData).registration, .connected (.new ntWorkData) true⟩

end OwnedClient

namespace OwnedWork

/-- The content of the work data. -/
def block (w : OwnedWork) : WorkBlock :=
  ⟨some w.client.handle, some w.client.endpoint, w.work.request.ptr w.request,
    w.work.response.ptr w.response, w.work.type⟩

/-- The work data and the buffers. -/
def dataCells (w : OwnedWork) : Multiset Cell :=
  (w.data, .workData w.block) ::ₘ
    (w.work.request.cells w.request + w.work.response.cells w.response)

/-- The blocks of an item that is queued or finished. -/
def workCells (w : OwnedWork) : Multiset Cell :=
  (w.req, .workReq (some w.data)) ::ₘ w.dataCells

/-- The blocks of an item whose response is being written. -/
def writeCells (w : OwnedWork) : Multiset Cell :=
  (w.req, .writeReq (some w.data)) ::ₘ w.dataCells

/-- The item with other work data in its place, whose response is in block `a`. -/
def answered (w : OwnedWork) (work : PeerWorkData) (a : Addr) : OwnedWork :=
  { w with work := work, response := a }

theorem answered_workCells (w : OwnedWork) (work : PeerWorkData) (a : Addr) :
    (w.answered work a).workCells =
      (w.req, .workReq (some w.data)) ::ₘ (w.answered work a).dataCells := rfl

theorem writeCells_req (w : OwnedWork) (a : Addr) :
    ({ w with req := a } : OwnedWork).writeCells =
      (a, .writeReq (some w.data)) ::ₘ w.dataCells := rfl

end OwnedWork

/-! ## Rules for the small functions -/

namespace HeapProg

variable {γ : Type} {m : Multiset Cell} {f : Unit → HeapProg γ}
  {R : γ → Multiset Cell → Prop} {E : Abort → Prop}

theorem fail_triple {α : Type} {f : α → HeapProg γ} (hStop : E .exitFailure) :
    Triple m (fail >>= f) R E :=
  Triple.bind (Triple.stop hStop) fun _ _ hFalse => False.elim hFalse

/-- Releasing a buffer, whether or not it has a block. -/
theorem free_buf {buf : UvBuf} {a : Addr} (hRest : Triple m (f ()) R E) :
    Triple (buf.cells a + m) (free (buf.ptr a).base >>= f) R E := by
  obtain ⟨base, len⟩ := buf
  cases base with
  | none => exact Triple.cells m (Multiset.zero_add m) (Triple.release_null hRest)
  | some bytes =>
      exact Triple.cells ((a, .chars bytes) ::ₘ m) (Multiset.singleton_add _ _)
        (Triple.release rfl hRest)

theorem setWorkData_triple {g : WorkBlock → WorkBlock} {a : Addr} {w : WorkBlock}
    (hRest : Triple ((a, .workData (g w)) ::ₘ m) (f ()) R E) :
    Triple ((a, .workData w) ::ₘ m) (setWorkData g (some a) >>= f) R E :=
  Triple.modify rfl hRest

theorem setPeerState_triple {g : PeerState → PeerState} {a : Addr} {state : PeerState}
    (hRest : Triple ((a, .peerState (g state)) ::ₘ m) (f ()) R E) :
    Triple ((a, .peerState state) ::ₘ m) (setPeerState g (some a) >>= f) R E :=
  Triple.modify rfl hRest

/-- A copy is what it is on the contents, in a new block. -/
theorem uvBufAllocCpy_triple {src : UvBuf} {size ret : Int} {f : Int × PtrBuf → HeapProg γ}
    (hOk : ∀ rc buf a, WebSocketFiles.uvBufAllocCpy .null src size ret = .ok (rc, buf) →
      Triple (buf.cells a + m) (f (rc, buf.ptr a)) R E)
    (hError : ∀ e, WebSocketFiles.uvBufAllocCpy .null src size ret = .error e → E e) :
    Triple m (uvBufAllocCpy .null src size ret >>= f) R E := by
  unfold uvBufAllocCpy
  unfold WebSocketFiles.uvBufAllocCpy at hOk hError
  by_cases hLarge : src.len < toUInt64 size
  · rw [if_pos hLarge] at hOk ⊢
    have hNull := hOk _ _ 0 rfl
    rwa [UvBuf.cells_null, Multiset.zero_add] at hNull
  · rw [if_neg hLarge] at hOk hError ⊢
    by_cases hShort : (src.base.getD []).length < toUInt64 size
    · rw [if_pos hShort] at hError ⊢
      exact Triple.bind (Triple.stop (hError _ rfl)) fun _ _ hFalse => False.elim hFalse
    · rw [if_neg hShort] at hOk ⊢
      simp only [bind_assoc]
      exact Triple.alloc fun a => hOk _ _ a rfl

/-- Work data and its buffers, released. -/
theorem freeWorkData_triple {a ra sa : Addr} {w : WorkBlock} {request response : UvBuf}
    (hRequest : w.request.base = (request.ptr ra).base)
    (hResponse : w.response.base = (response.ptr sa).base) (hRest : Triple m (f ()) R E) :
    Triple ((a, .workData w) ::ₘ (request.cells ra + (response.cells sa + m)))
      (freeWorkData (some a) >>= f) R E := by
  unfold freeWorkData
  simp only [bind_assoc]
  refine setWorkData_triple (setWorkData_triple ?_)
  refine Triple.read (Multiset.mem_cons_self _ _) rfl ?_
  refine Triple.cells _ (Multiset.add_cons _ _ _).symm ?_
  simp only [hRequest]
  refine free_buf (setWorkData_triple ?_)
  refine Triple.read (Multiset.mem_cons_self _ _) rfl ?_
  refine Triple.cells _ (Multiset.add_cons _ _ _).symm ?_
  simp only [hResponse]
  exact free_buf (setWorkData_triple (Triple.release rfl hRest))

/-! ## The callbacks -/

section Work

variable (w : OwnedWork)

/-- `on_write_response` stores the response in a new block. -/
theorem onWriteResponse_triple {buf : Bytes}
    (hOk : ∀ work a, WebSocketFiles.onWriteResponse w.work buf = .ok work →
      Triple ((w.answered work a).dataCells + m) (f ()) R E)
    (hError : ∀ e, WebSocketFiles.onWriteResponse w.work buf = .error e → E e) :
    Triple (w.dataCells + m) (onWriteResponse buf (some w.data) >>= f) R E := by
  unfold onWriteResponse
  simp only [bind_assoc]
  refine Triple.read (b := .workData w.block) (by simp [OwnedWork.dataCells]) rfl ?_
  have hTaken : w.block.response.base ≠ none ↔ w.work.response.base ≠ none := by
    simp [OwnedWork.block, UvBuf.ptr]
  unfold WebSocketFiles.onWriteResponse at hOk hError
  by_cases hFull : w.work.response.base ≠ none
  · rw [if_pos (hTaken.mpr hFull)]
    rw [if_pos hFull] at hError
    exact Triple.stop (hError _ rfl)
  · rw [if_neg (mt hTaken.mp hFull)]
    rw [if_neg hFull] at hOk hError
    have hNone : w.work.response.cells w.response = 0 := by
      rw [UvBuf.cells, not_not.mp hFull]
    unfold OwnedWork.dataCells at hOk ⊢
    rw [hNone, Multiset.add_zero, Multiset.cons_add]
    simp only [bind_assoc]
    refine setWorkData_triple (uvBufAllocCpy_triple (fun rc buf a hCopy => ?_) fun e hCopy => ?_)
    · refine Triple.cells _ (Multiset.add_cons _ _ _) (setWorkData_triple ?_)
      have hWork := hOk { w.work with response := buf } a (by simp only [hCopy]; rfl)
      refine Triple.cells _ ?_ hWork
      rw [Multiset.cons_add, add_left_comm, add_assoc]
      rfl
    · exact hError e (by simp only [hCopy]; rfl)

/-- One response after another, by induction on the calls of the write callback. -/
theorem writeResponses_triple (cb : Addr) (bufs : List Bytes) :
    ∀ w : OwnedWork,
      (∀ work a, bufs.foldlM WebSocketFiles.onWriteResponse w.work = .ok work →
        Triple ((w.answered work a).dataCells + m) (f ()) R E) →
      (∀ e, bufs.foldlM WebSocketFiles.onWriteResponse w.work = .error e → E e) →
      Triple (w.dataCells + m)
        (writeResponses (bufs.map fun buf => (cb, buf, w.data)) >>= f) R E := by
  induction bufs with
  | nil => exact fun w hOk _ => hOk w.work w.response rfl
  | cons buf bufs ih =>
      intro w hOk hError
      simp only [List.foldlM_cons] at hOk hError
      rw [List.map_cons, writeResponses, bind_assoc]
      refine onWriteResponse_triple w (fun work a hWrite => ?_) fun e hWrite => ?_
      · rw [hWrite] at hOk hError
        exact ih (w.answered work a) hOk hError
      · exact hError e (by rw [hWrite]; rfl)

theorem readChars_triple {buf : UvBuf} {a : Addr} {f : Bytes → HeapProg γ}
    (hMem : ∀ c ∈ buf.cells a, c ∈ m) (hRest : Triple m (f (buf.base.getD [])) R E) :
    Triple m (readChars (buf.ptr a).base >>= f) R E := by
  obtain ⟨base, len⟩ := buf
  cases base with
  | none => exact hRest
  | some bytes => exact Triple.read (hMem _ (Multiset.mem_singleton_self _)) rfl hRest

/-- `on_work_submitted` does to the item and to the client what it does in `Server`;
the endpoint is left with the item as the one to call back for. -/
theorem onWorkSubmitted_triple {k : OwnedClient} {ep : WebSocketEndpoint} {reading : Bool}
    (hPeer : k.peer = .connected ep reading) (hClient : w.client = k.blocks)
    {mem : Nat → PassMem}
    (hOk : ∀ nrc ep' work a, WebSocketFiles.onWorkSubmitted ep w.work mem = .ok (nrc, ep', work) →
      Triple ((w.answered work a).workCells + ((OwnedClient.mk k.blocks
        ⟨some onWriteResponseAddr, some w.data⟩ (.connected ep' reading)).cells + m)) (f ()) R E)
    (hError : ∀ e, WebSocketFiles.onWorkSubmitted ep w.work mem = .error e → E e) :
    Triple (w.workCells + (k.cells + m)) (onWorkSubmitted (some w.req) mem >>= f) R E := by
  have hCells := k.cells_connected hPeer
  unfold onWorkSubmitted
  simp only [bind_assoc, pure_bind]
  refine Triple.read (b := .workReq (some w.data)) (by simp [OwnedWork.workCells]) rfl ?_
  refine Triple.read (b := .workData w.block)
    (by simp [OwnedWork.workCells, OwnedWork.dataCells]) rfl ?_
  refine Triple.read (a := w.client.endpoint) (b := .endpoint (ep.calledBy k.reg))
    (by simp [hCells, hClient]) rfl ?_
  refine readChars_triple (fun c hMem => ?_) ?_
  · simp only [OwnedWork.workCells, OwnedWork.dataCells, Multiset.mem_add, Multiset.mem_cons, hMem,
      true_or, or_true]
  · -- what is written, and to whom, is what the silent endpoint puts on the wire
    obtain ⟨readbuf, hReadbuf⟩ : ∃ readbuf : Bytes,
        readbuf = (w.work.request.base.getD []).take w.work.request.len := ⟨_, rfl⟩
    obtain ⟨call, hSilent⟩ : ∃ call, call = (ep.calledBy .silent).fromWire readbuf mem := ⟨_, rfl⟩
    obtain ⟨bufs, hBufs⟩ : ∃ bufs, bufs = (Event.wires call.events).filter fun w => w ≠ [] :=
      ⟨_, rfl⟩
    have hCalled : ∀ data, Event.called (call.events.flatMap (Event.announce
        ⟨some onWriteResponseAddr, some data⟩)) =
          bufs.map fun buf => (onWriteResponseAddr, buf, data) := by
      intro data
      rw [Event.called_announce, hBufs]
      rfl
    have hCallbacks : Event.callbacks (call.events.flatMap (Event.announce
        ⟨some onWriteResponseAddr, some workDataAddr⟩)) = bufs := by
      rw [Event.callbacks_eq_called, hCalled, List.map_map]
      exact List.map_id bufs
    have hHeap := process_eq (ep.calledBy k.reg) readbuf onWriteResponseAddr w.data mem
    rw [calledBy_calledBy, ← hSilent] at hHeap
    have hServer : WebSocketFiles.onWorkSubmitted ep w.work mem =
        (bufs.foldlM WebSocketFiles.onWriteResponse w.work >>= fun work =>
          (call.value.map fun r => (r.1, r.2.calledBy
            ⟨some onWriteResponseAddr, some workDataAddr⟩)) >>= fun r =>
              .ok (r.1, r.2, work)) := by
      unfold WebSocketFiles.onWorkSubmitted
      simp only [← hReadbuf, process_eq, ← hSilent, Traced.expand, hCallbacks]
      rfl
    have hLen : w.block.request.len = w.work.request.len := rfl
    rw [hServer] at hOk hError
    simp only [hLen, ← hReadbuf, hHeap, Traced.expand, hCalled]
    refine Triple.cells (w.dataCells + ((w.req, .workReq (some w.data)) ::ₘ (k.cells + m))) ?_ ?_
    · rw [OwnedWork.workCells, Multiset.cons_add, Multiset.add_cons]
    refine writeResponses_triple _ bufs w (fun work a hFold => ?_) fun e hFold => ?_
    · rw [hFold] at hOk hError
      cases hValue : call.value with
      | error e =>
          rw [hValue] at hError
          exact Triple.lift (fun _ hOther => absurd hOther (by simp [Except.map])) fun e' hSame =>
            hError e' (hSame ▸ rfl)
      | ok r =>
          rw [hValue] at hOk
          have hRest := hOk r.1 (r.2.calledBy ⟨some onWriteResponseAddr, some workDataAddr⟩) work a
            rfl
          rw [OwnedClient.cells_connected rfl, calledBy_calledBy] at hRest
          refine Triple.cells ((w.client.endpoint, .endpoint (ep.calledBy k.reg)) ::ₘ
            ((w.answered work a).workCells +
              ((k.blocks.handle, .uvTcp (some k.blocks.state)) ::ₘ
                (k.blocks.state, .peerState ⟨some k.blocks.handle, some k.blocks.endpoint⟩) ::ₘ
                  m))) ?_ (Triple.modify rfl (Triple.cells _ ?_ hRest))
          · rw [hCells, hClient, w.answered_workCells work a]
            simp only [← Multiset.singleton_add]
            abel
          · rw [hClient]
            simp only [← Multiset.singleton_add]
            abel
    · exact hError e (by rw [hFold]; rfl)

/-- `on_work_client_closed` releases the item and the client. -/
theorem onWorkClientClosed_triple {k : OwnedClient} {ep : WebSocketEndpoint} {reading : Bool}
    (hPeer : k.peer = .connected ep reading) (hClient : w.client = k.blocks)
    (hRest : Triple m (f ()) R E) :
    Triple (w.workCells + (k.cells + m)) (onWorkClientClosed (some w.req) >>= f) R E := by
  unfold onWorkClientClosed
  rw [if_neg (by simp), OwnedClient.cells_connected hPeer, ← hClient]
  simp only [bind_assoc]
  refine Triple.read (b := .workReq (some w.data)) (by simp [OwnedWork.workCells]) rfl ?_
  refine Triple.read (b := .workData w.block)
    (by simp [OwnedWork.workCells, OwnedWork.dataCells]) rfl ?_
  refine Triple.read (a := w.client.handle) (b := .uvTcp (some w.client.state)) (by simp) rfl ?_
  have hCells : w.workCells + (((w.client.handle, .uvTcp (some w.client.state)) ::ₘ
      (w.client.state, .peerState ⟨some w.client.handle, some w.client.endpoint⟩) ::ₘ
        {(w.client.endpoint, .endpoint (ep.calledBy k.reg))}) + m) =
      (w.client.endpoint, .endpoint (ep.calledBy k.reg)) ::ₘ
        (w.data, .workData w.block) ::ₘ
          (w.client.state, .peerState ⟨some w.client.handle, some w.client.endpoint⟩) ::ₘ
            (w.client.handle, .uvTcp (some w.client.state)) ::ₘ
              (w.work.request.cells w.request + (w.work.response.cells w.response +
                ((w.req, .workReq (some w.data)) ::ₘ m))) := by
    unfold OwnedWork.workCells OwnedWork.dataCells
    simp only [← Multiset.singleton_add]
    abel
  refine Triple.cells _ hCells (Triple.release rfl (setWorkData_triple ?_))
  refine Triple.read (a := w.client.handle) (b := .uvTcp (some w.client.state)) (by simp) rfl ?_
  refine Triple.cells _ (Multiset.cons_swap _ _ _) (Triple.release rfl ?_)
  refine Triple.cells _ (Multiset.cons_swap _ _ _) (Triple.release rfl ?_)
  refine Triple.cells _ (Multiset.add_cons _ _ _).symm (free_buf ?_)
  refine Triple.cells _ (Multiset.add_cons _ _ _).symm (free_buf ?_)
  exact Triple.release rfl (Triple.release rfl hRest)

/-- `on_sent_response` releases the item. -/
theorem onSentResponse_triple {status : Int} (hRest : status = 0 → Triple m (f ()) R E)
    (hStop : status ≠ 0 → E .exitFailure) :
    Triple (w.writeCells + m) (onSentResponse (some w.req) status >>= f) R E := by
  unfold onSentResponse
  by_cases hStatus : status = 0
  · rw [if_neg (not_not.mpr hStatus)]
    simp only [bind_assoc]
    refine Triple.read (b := .writeReq (some w.data)) (by simp [OwnedWork.writeCells]) rfl ?_
    refine Triple.cells ((w.data, .workData w.block) ::ₘ (w.work.request.cells w.request +
      (w.work.response.cells w.response + ((w.req, .writeReq (some w.data)) ::ₘ m)))) ?_ ?_
    · unfold OwnedWork.writeCells OwnedWork.dataCells
      simp only [← Multiset.singleton_add]
      abel
    · exact freeWorkData_triple rfl rfl (Triple.release rfl (hRest hStatus))
  · rw [if_pos hStatus]
    exact fail_triple (hStop hStatus)

/-- `on_work_completed` releases an item without a response. -/
theorem onWorkCompleted_drops {rc : Int} {f : Option Addr → HeapProg γ}
    (hNone : w.work.response.base = none) (hRest : Triple m (f none) R E) :
    Triple (w.workCells + m) (onWorkCompleted (some w.req) 0 rc >>= f) R E := by
  have hBase : w.block.response.base = none := by
    simp [OwnedWork.block, UvBuf.ptr, hNone]
  unfold onWorkCompleted
  rw [if_neg (by simp)]
  simp only [bind_assoc]
  refine Triple.read (b := .workReq (some w.data)) (by simp [OwnedWork.workCells]) rfl ?_
  refine Triple.read (b := .workData w.block)
    (by simp [OwnedWork.workCells, OwnedWork.dataCells]) rfl ?_
  rw [if_pos hBase]
  simp only [bind_assoc]
  refine Triple.cells ((w.data, .workData w.block) ::ₘ (w.work.request.cells w.request +
    (w.work.response.cells w.response + ((w.req, .workReq (some w.data)) ::ₘ m)))) ?_ ?_
  · unfold OwnedWork.workCells OwnedWork.dataCells
    simp only [← Multiset.singleton_add]
    abel
  · refine setWorkData_triple (setWorkData_triple ?_)
    exact freeWorkData_triple rfl rfl (Triple.release rfl hRest)

/-- `on_work_completed` hands a response to `uv_write` with a request of its own,
provided the handle of the client is there. -/
theorem onWorkCompleted_writes {rc : Int} {data : Option Addr} {f : Option Addr → HeapProg γ}
    (hSome : w.work.response.base ≠ none) (hHandle : (w.client.handle, .uvTcp data) ∈ m)
    (hRest : 0 ≤ rc → ∀ a, Triple ({ w with req := a }.writeCells + m) (f (some a)) R E)
    (hStop : rc < 0 → E .exitFailure) :
    Triple (w.workCells + m) (onWorkCompleted (some w.req) 0 rc >>= f) R E := by
  have hBase : w.block.response.base ≠ none := by
    simp [OwnedWork.block, UvBuf.ptr, hSome]
  unfold onWorkCompleted
  rw [if_neg (by simp)]
  simp only [bind_assoc]
  refine Triple.read (b := .workReq (some w.data)) (by simp [OwnedWork.workCells]) rfl ?_
  refine Triple.read (b := .workData w.block)
    (by simp [OwnedWork.workCells, OwnedWork.dataCells]) rfl ?_
  rw [if_neg hBase]
  simp only [bind_assoc]
  refine Triple.alloc fun a => ?_
  refine Triple.cells ((w.req, .workReq (some w.data)) ::ₘ
    (({ w with req := a } : OwnedWork).writeCells + m)) ?_ (Triple.modify rfl ?_)
  · rw [OwnedWork.workCells, OwnedWork.writeCells_req]
    simp only [← Multiset.singleton_add]
    abel
  · unfold uvWrite
    simp only [bind_assoc, pure_bind]
    refine Triple.read (a := w.client.handle) (b := .uvTcp data) (by simp [hHandle]) rfl ?_
    by_cases hRc : rc < 0
    · rw [if_pos hRc]
      exact fail_triple (hStop hRc)
    · rw [if_neg hRc]
      simp only [bind_assoc, pure_bind]
      exact Triple.release rfl (hRest (not_lt.mp hRc) a)

end Work

/-- `on_work_completed` gives `uv_write` a handle that was released. -/
theorem onWorkCompleted_faults {h : Heap Obj} {req data handle : Addr} {w : WorkBlock} (rc : Int)
    (hReq : h.cell req = some (.workReq (some data))) (hData : h.cell data = some (.workData w))
    (hSome : w.response.base ≠ none) (hStream : w.uvclient = some handle)
    (hReleased : h.Released handle) :
    onWorkCompleted (some req) 0 rc h = .error .badAccess := by
  have hItem : (HeapM.read Obj.workReq? (some req) : HeapProg _) h = .ok (some data, h) :=
    HeapM.read_ok hReq rfl
  have hWork : (HeapM.read Obj.workData? (some data) : HeapProg _) h = .ok (w, h) :=
    HeapM.read_ok hData rfl
  have hAlloc : xmalloc (.writeReq (some data)) h =
      .ok (h.next, h.alloc (.writeReq (some data))) := rfl
  have hClear : (HeapM.modify (fun o => o.workReq?.map fun _ => .workReq none) (some req) :
      HeapProg Unit) (h.alloc (.writeReq (some data))) =
        .ok ((), (h.alloc (.writeReq (some data))).set req (.workReq none)) :=
    HeapM.modify_ok (Heap.alloc_cell hReq _) rfl
  unfold onWorkCompleted
  rw [if_neg (by simp), HeapM.bind_ok hItem, HeapM.bind_ok hWork, if_neg hSome,
    HeapM.bind_ok hAlloc, HeapM.bind_ok hClear, hStream]
  refine HeapM.bind_error (HeapM.bind_error (HeapM.read_released ?_))
  exact (Heap.Evolves.set _ _ _).keeps ((Heap.Evolves.alloc _ _).keeps hReleased)

/-! ## Reading and connecting -/

section Read

variable {k : OwnedClient} {ep : WebSocketEndpoint} {reading : Bool} {bytes : Bytes}
  {nread ret rc : Int} {garbage : Option Addr} {f : Option Addr → HeapProg γ}

/-- `on_client_closed` releases the handle of a connection that was not accepted. -/
theorem onClientClosed_triple {a : Addr} {f : Unit → HeapProg γ} (hRest : Triple m (f ()) R E) :
    Triple ((a, .uvTcp none) ::ₘ m) (onClientClosed (some a) >>= f) R E := by
  unfold onClientClosed
  simp only [bind_assoc]
  refine Triple.read (Multiset.mem_cons_self _ _) rfl ?_
  exact Triple.release rfl hRest

/-- `alloc_work_req` for the end of a connection. -/
theorem allocWorkReq_closing_triple {a : Addr} {b : ClientBlocks} {buf : PtrBuf} (c : Nat)
    (hState : (a, .peerState ⟨some b.handle, some b.endpoint⟩) ∈ m)
    (hRest : ∀ req data request response, Triple
      ((OwnedWork.mk req data request response b (.closing c)).workCells + m) (f (some req)) R E) :
    Triple m (allocWorkReq (some a) nread buf 0 ret garbage >>= f) R E := by
  unfold allocWorkReq
  simp only [bind_assoc]
  refine Triple.alloc fun req => Triple.alloc fun data => ?_
  refine Triple.read (b := .peerState ⟨some b.handle, some b.endpoint⟩) (by simp [hState]) rfl ?_
  refine setWorkData_triple ?_
  rw [if_neg (by decide)]
  simp only [bind_assoc, pure_bind]
  refine setWorkData_triple (Triple.cells _ (Multiset.cons_swap _ _ _) (Triple.modify rfl ?_))
  exact Triple.cells _ (by simp [OwnedWork.workCells, OwnedWork.dataCells, OwnedWork.block,
    PeerWorkData.closing]) (hRest req data 0 0)

/-- `alloc_work_req` for a chunk whose copy succeeds. -/
theorem allocWorkReq_chunk_triple {a src : Addr} {b : ClientBlocks} (c : Nat)
    (hState : (a, .peerState ⟨some b.handle, some b.endpoint⟩) ∈ m)
    (hChars : (src, .chars bytes) ∈ m) (hPos : 0 < nread) (hFits : nread ≤ bytes.length)
    (hSize : bytes.length < 2147483648) (hRet : 0 ≤ ret)
    (hRest : ∀ req data request response, Triple ((OwnedWork.mk req data request response b
      (.chunk c (bytes.take nread.toNat))).workCells + m) (f (some req)) R E) :
    Triple m (allocWorkReq (some a) nread ⟨some src, bytes.length⟩ 1 ret garbage >>= f) R E := by
  have hLength : toUInt64 (toInt32 nread) = nread.toNat := by
    rw [toInt32_of_lt (by omega) (by omega), toUInt64_of_lt (by omega) (by omega)]
  have hTake : (bytes.take nread.toNat).length = nread.toNat := by
    rw [List.length_take]
    omega
  have hCopy : WebSocketFiles.uvBufAllocCpy .null ⟨some bytes, bytes.length⟩ (toInt32 nread) ret =
      .ok (ret, (PeerWorkData.chunk c (bytes.take nread.toNat)).request) := by
    unfold WebSocketFiles.uvBufAllocCpy PeerWorkData.chunk
    simp only [hLength, Option.getD_some, hTake]
    rw [if_neg (by omega), if_neg (by omega)]
  unfold allocWorkReq
  simp only [bind_assoc]
  refine Triple.alloc fun req => Triple.alloc fun data => ?_
  refine Triple.read (b := .peerState ⟨some b.handle, some b.endpoint⟩) (by simp [hState]) rfl ?_
  refine setWorkData_triple ?_
  rw [if_pos trivial]
  simp only [bind_assoc]
  refine Triple.read (b := .chars bytes) (by simp [hChars]) rfl ?_
  refine uvBufAllocCpy_triple (fun rc buf request hResult => ?_) fun e hError => ?_
  · rw [hCopy] at hResult
    obtain ⟨rfl, rfl⟩ := Prod.mk.inj (Except.ok.inj hResult)
    refine Triple.cells _ (Multiset.add_cons _ _ _) (setWorkData_triple ?_)
    simp only [if_neg (not_lt.mpr hRet), bind_assoc, pure_bind]
    refine setWorkData_triple ?_
    refine Triple.cells ((req, .workReq garbage) ::ₘ (data, .workData
      (OwnedWork.mk req data request 0 b (.chunk c (bytes.take nread.toNat))).block) ::ₘ
        ((PeerWorkData.chunk c (bytes.take nread.toNat)).request.cells request + m)) ?_
          (Triple.modify rfl (Triple.cells _ ?_ (hRest req data request 0)))
    · rw [Multiset.add_cons, Multiset.cons_swap]
      rfl
    · unfold OwnedWork.workCells OwnedWork.dataCells
      simp only [← Multiset.singleton_add]
      abel
  · rw [hCopy] at hError
    exact absurd hError (by simp)

/-- What `on_peer_read` does around `alloc_work_req`: the buffer is released when the
item is queued. -/
theorem onPeerRead_triple {work : PeerWorkData} (hPeer : k.peer = .connected ep reading)
    (hNonzero : nread ≠ 0)
    (hAlloc : ∀ buf m' g, (k.blocks.state, .peerState ⟨some k.blocks.handle,
        some k.blocks.endpoint⟩) ∈ m' → (buf, .chars bytes) ∈ m' →
      (∀ req data request response, Triple
        ((OwnedWork.mk req data request response k.blocks work).workCells + m')
          (g (some req)) R E) →
      Triple m' (allocWorkReq (some k.blocks.state) nread ⟨some buf, bytes.length⟩
        (if nread < 0 then 0 else 1) ret garbage >>= g) R E)
    (hRest : 0 ≤ rc → ∀ req data request response, Triple
      ((OwnedWork.mk req data request response k.blocks work).workCells + (k.cells + m))
        (f (some req)) R E)
    (hStop : rc < 0 → E .exitFailure) :
    Triple (k.cells + m) ((do
      let buf ← onAllocBuffer bytes
      onPeerRead (some k.blocks.handle) nread buf ret rc garbage) >>= f) R E := by
  have hCells := OwnedClient.cells_connected hPeer
  unfold onAllocBuffer onPeerRead
  simp only [bind_assoc, pure_bind, if_neg hNonzero]
  refine Triple.alloc fun buf => ?_
  refine Triple.read (a := k.blocks.handle) (b := .uvTcp (some k.blocks.state))
    (by simp [hCells]) rfl ?_
  refine Triple.cells ((k.blocks.state, .peerState ⟨some k.blocks.handle,
    some k.blocks.endpoint⟩) ::ₘ (k.blocks.handle, .uvTcp (some k.blocks.state)) ::ₘ
      (k.blocks.endpoint, .endpoint (ep.calledBy k.reg)) ::ₘ (buf, .chars bytes) ::ₘ m) ?_
        (setPeerState_triple (hAlloc buf _ _ (by simp) (by simp) ?_))
  · rw [hCells]
    simp only [← Multiset.singleton_add]
    abel
  · intro req data request response
    unfold uvQueueWork
    by_cases hRc : rc < 0
    · simp only [if_pos hRc]
      exact fail_triple (hStop hRc)
    · simp only [if_neg hRc, pure_bind]
      refine Triple.cells ((buf, .chars bytes) ::ₘ
        ((OwnedWork.mk req data request response k.blocks work).workCells + (k.cells + m))) ?_
          (Triple.release rfl (hRest (not_lt.mp hRc) req data request response))
      rw [hCells]
      simp only [← Multiset.singleton_add]
      abel

/-- An empty read leaves nothing behind. -/
theorem onPeerRead_quiet {client : Option Addr} (hRest : Triple m (f none) R E) :
    Triple m ((do
      let buf ← onAllocBuffer bytes
      onPeerRead client 0 buf ret rc garbage) >>= f) R E := by
  unfold onAllocBuffer onPeerRead
  simp only [bind_assoc, pure_bind, if_true]
  exact Triple.alloc fun buf => Triple.release rfl hRest

/-- `on_peer_connected`: nothing is allocated for a connection that failed, the blocks
of a client for one that was accepted, and a handle to be closed for another. -/
theorem onPeerConnected_triple {status : Int} {results : AcceptResults}
    {ntWorkData : Option Addr} {f : Connected → HeapProg γ}
    (hRefused : status < 0 → Triple m (f .refused) R E)
    (hAccepted : ¬ status < 0 → results.uvAccept = 0 → ∀ b : ClientBlocks, Triple
      ((OwnedClient.accepted b ntWorkData).cells + m) (f (.accepted b.handle)) R E)
    (hClosing : results.uvAccept ≠ 0 → ∀ a, Triple ((a, .uvTcp none) ::ₘ m) (f (.closing a)) R E)
    (hStop : ¬ status < 0 → results.uvTcpInit < 0 ∨ results.uvAccept = 0 ∧
      (results.uvTcpGetpeername < 0 ∨ results.uvReadStart < 0) → E .exitFailure) :
    Triple m (onPeerConnected status results ntWorkData garbage >>= f) R E := by
  unfold onPeerConnected
  by_cases hStatus : status < 0
  · rw [if_pos hStatus]
    exact hRefused hStatus
  rw [if_neg hStatus]
  simp only [bind_assoc]
  refine Triple.alloc fun client => ?_
  by_cases hInit : results.uvTcpInit < 0
  · rw [if_pos hInit]
    exact fail_triple (hStop hStatus (.inl hInit))
  rw [if_neg hInit]
  simp only [bind_assoc]
  refine Triple.modify rfl ?_
  by_cases hAccept : results.uvAccept = 0
  · rw [if_pos hAccept]
    by_cases hName : results.uvTcpGetpeername < 0
    · rw [if_pos hName]
      exact fail_triple (hStop hStatus (.inr ⟨hAccept, .inl hName⟩))
    rw [if_neg hName]
    simp only [bind_assoc]
    refine Triple.alloc fun state => Triple.alloc fun endpoint => ?_
    refine Triple.cells _ (Multiset.cons_swap _ _ _) (setPeerState_triple (setPeerState_triple ?_))
    refine Triple.cells ((client, .uvTcp none) ::ₘ (state, .peerState ⟨some client,
      some endpoint⟩) ::ₘ (endpoint, .endpoint (.new ntWorkData)) ::ₘ m) ?_ (Triple.modify rfl ?_)
    · simp only [← Multiset.singleton_add]
      abel
    · by_cases hStart : results.uvReadStart < 0
      · rw [if_pos hStart]
        exact fail_triple (hStop hStatus (.inr ⟨hAccept, .inr hStart⟩))
      · rw [if_neg hStart]
        refine Triple.cells _ ?_ (hAccepted hStatus hAccept ⟨client, state, endpoint⟩)
        rw [OwnedClient.cells_connected (k := OwnedClient.accepted _ _) rfl,
          OwnedClient.accepted, calledBy_registration]
        simp only [← Multiset.singleton_add]
        abel
  · rw [if_neg hAccept]
    exact hClosing hAccept client

end Read

/-! ## What is so on every heap -/

section Anywhere

variable {bytes : Bytes} {nread ret rc : Int} {client garbage : Option Addr}

theorem readChars_returns {ptr : Option Addr} {f : Bytes → HeapProg γ}
    {R : γ → Heap Obj → Prop} (hRest : ∀ bytes, Returns (f bytes) R E) :
    Returns (readChars ptr >>= f) R E := by
  rcases ptr with _ | a
  · exact hRest []
  · exact Returns.read hRest

theorem freeWorkData_returns {workdata : Option Addr} {R : γ → Heap Obj → Prop}
    (hRest : Returns (f ()) R E) : Returns (freeWorkData workdata >>= f) R E := by
  unfold freeWorkData
  simp only [bind_assoc]
  refine Returns.modify (Returns.modify (Returns.read fun w => Returns.release ?_))
  exact Returns.modify (Returns.read fun w => Returns.release (Returns.modify
    (Returns.release hRest)))

/-- With a negative `ret` the copy is not a success, whatever it did. -/
theorem uvBufAllocCpy_fails (dst : PtrBuf) (src : UvBuf) (size : Int) (hRet : ret < 0) :
    Returns (uvBufAllocCpy dst src size ret) (fun r _ => r.1 < 0) (· = .undefined) := by
  unfold uvBufAllocCpy
  by_cases hLarge : src.len < toUInt64 size
  · rw [if_pos hLarge]
    exact Returns.pure fun _ => (by decide : (-2 : Int) < 0)
  · rw [if_neg hLarge]
    by_cases hShort : (src.base.getD []).length < toUInt64 size
    · rw [if_pos hShort]
      exact Returns.stop rfl
    · rw [if_neg hShort]
      exact Returns.alloc fun _ => Returns.pure fun _ => hRet

/-- `alloc_work_req` for a chunk whose copy reports a failure: NULL, unless what was not
assigned makes `free` fault. -/
theorem allocWorkReq_fails (peerstate : Option Addr) (buf : PtrBuf) (hRet : ret < 0) :
    Returns (allocWorkReq peerstate nread buf 1 ret garbage) (fun req _ => req = none)
      (· = .undefined) := by
  unfold allocWorkReq
  refine Returns.alloc fun req => Returns.alloc fun data => Returns.read fun state => ?_
  refine Returns.modify ?_
  rw [if_pos rfl]
  refine readChars_returns fun bytes => ?_
  refine Returns.bind (uvBufAllocCpy_fails _ _ _ hRet) fun r hFails => Returns.modify ?_
  rw [if_pos hFails]
  exact freeWorkData_returns (Returns.release (Returns.pure fun _ => rfl))

/-- A chunk whose copy reports a failure: the process ends, as `uv_queue_work` uses the
request that is NULL, if not before. -/
theorem onPeerRead_fails (hPos : 0 < nread) (hRet : ret < 0) :
    Returns (do
      let buf ← onAllocBuffer bytes
      onPeerRead client nread buf ret rc garbage) (fun _ _ => False) (· = .undefined) := by
  unfold onAllocBuffer onPeerRead
  simp only [bind_assoc, pure_bind, if_neg hPos.ne', if_neg (not_lt.mpr hPos.le)]
  refine Returns.alloc fun buf => Returns.read fun peerstate => Returns.modify ?_
  refine Returns.bind (allocWorkReq_fails _ _ hRet) fun req hNull => ?_
  rw [hNull]
  exact Returns.bind (P := fun _ => False) (Returns.stop rfl) fun _ hFalse => hFalse.elim

end Anywhere

end HeapProg

end WebSocketFiles
