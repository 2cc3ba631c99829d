import WebSocketFiles.Server.Blocks
import WebSocketFiles.Server.Lifetime

/-!
# The ledger of the heap

A `Layout` is a state of `Server` with the addresses of everything in it.  In every
state that the process reaches, the blocks of the heap are those of some layout
(`Holds`), and what libuv holds are the handles and the requests of that layout: there
is no block besides, and none is missing.

One callback takes the process from a layout to a layout, by the step that `Server`
takes for it (`Leads`); or it ends the process by an exit of its own; or `uv_write` is
given the handle of a client that the worker has released; or a copy was reported as a
failure.
-/

namespace WebSocketFiles

open HeapLogic History Transition

/-- libuv reads from the client. -/
def Peer.isReading : Peer → Bool
  | .connected _ reading => reading
  | .freed => false

namespace OwnedClient

/-- The handle of a client, and whether libuv reads from it. -/
def connection (k : OwnedClient) : Addr × Bool :=
  (k.blocks.handle, k.peer.isReading)

theorem connection_connected {k : OwnedClient} {ep : WebSocketEndpoint} {reading : Bool}
    (hPeer : k.peer = .connected ep reading) : k.connection = (k.blocks.handle, reading) := by
  rw [connection, hPeer, Peer.isReading]

theorem connection_freed {k : OwnedClient} (hPeer : k.peer = .freed) :
    k.connection = (k.blocks.handle, false) := by
  rw [connection, hPeer, Peer.isReading]

end OwnedClient

/-- The callback of an item that is queued. -/
def OwnedWork.callback (w : OwnedWork) : WorkCb :=
  if w.work.type = 1 then .onWorkSubmitted else .onWorkClientClosed

/-- The clients, the items and the connections to be closed, with their blocks. -/
structure Layout where
  clients : List OwnedClient
  queue : List OwnedWork
  finished : List OwnedWork
  writing : List OwnedWork
  closing : List Addr

namespace Layout

/-- The block of a connection that was not accepted. -/
def closingCells (a : Addr) : Multiset Cell :=
  {(a, .uvTcp none)}

/-- All the blocks. -/
def cells (L : Layout) : Multiset Cell :=
  (L.clients.map OwnedClient.cells).sum + (L.queue.map OwnedWork.workCells).sum +
    (L.finished.map OwnedWork.workCells).sum + (L.writing.map OwnedWork.writeCells).sum +
      (L.closing.map closingCells).sum

/-- The layout without the addresses. -/
def server (L : Layout) : Server where
  peers := L.clients.map OwnedClient.peer
  queue := L.queue.map OwnedWork.work
  finished := L.finished.map OwnedWork.work
  writing := L.writing.map OwnedWork.work
  exited := false

/-- The process that has the handles and the requests of the layout. -/
def process (L : Layout) (h : Heap Obj) : Process where
  heap := h
  clients := L.clients.map OwnedClient.connection
  closing := L.closing
  queue := L.queue.map fun w => (w.req, w.callback)
  finished := L.finished.map OwnedWork.req
  writing := L.writing.map OwnedWork.req
  outcome := none

/-- Nothing. -/
def empty : Layout :=
  ⟨[], [], [], [], []⟩

end Layout

/-- The heap holds the blocks of the layout and no others.  An item that the worker
or its completion callback will take has the blocks of its client, and what a freed
client had was released. -/
structure Holds (L : Layout) (h : Heap Obj) : Prop where
  owns : Owns h L.cells
  queued : Server.Queued L.server
  linked : ∀ w ∈ L.queue ++ L.finished,
    (L.clients.map OwnedClient.blocks)[w.work.uvclient]? = some w.client
  released : ∀ k ∈ L.clients, k.peer = .freed → h.Released k.blocks.handle

theorem holds_empty : Holds .empty .empty where
  owns := .empty
  queued := ⟨by simp [Layout.server, Layout.empty], by simp [Layout.server, Layout.empty], .nil⟩
  linked := by simp [Layout.empty]
  released := by simp [Layout.empty]

/-! ## One callback -/

/-- The step of `Server` that the callback takes, if it returns. -/
def Callback.action : Callback → Option Action
  | .onPeerConnected status results ntWorkData _ =>
      if status < 0 ∨ results.uvAccept ≠ 0 then none else some (.onPeerConnected ntWorkData)
  | .onPeerRead c nread bytes ret _ _ => some (.onPeerRead c nread bytes ret)
  | .worker mem => some (.worker mem)
  | .onWorkCompleted status rc => some (.onWorkCompleted status rc)
  | .onSentResponse i status => some (.onSentResponse i status)
  | .onClientClosed _ => none

/-- The copy of a chunk is reported as a success. -/
def Callback.Copies : Callback → Prop
  | .onPeerRead _ nread _ ret _ _ => 0 < nread → 0 ≤ ret
  | _ => True

instance (cb : Callback) : Decidable cb.Copies :=
  match cb with
  | .onPeerRead _ nread _ ret _ _ => inferInstanceAs (Decidable (0 < nread → 0 ≤ ret))
  | .onPeerConnected .. | .worker _ | .onWorkCompleted .. | .onSentResponse .. |
    .onClientClosed _ => .isTrue trivial

/-- The next finished item has a response, and the handle that its completion callback
gives to `uv_write` was released. -/
structure WritesToReleased (p : Process) (cb : Callback) : Prop where
  item : ∃ rc req rest data w handle, cb = .onWorkCompleted 0 rc ∧ p.finished = req :: rest ∧
    p.heap.cell req = some (.workReq (some data)) ∧ p.heap.cell data = some (.workData w) ∧
      w.response.base ≠ none ∧ w.uvclient = some handle ∧ p.heap.Released handle

/-- What `Server` does meanwhile. -/
def Server.Follows (s : Server) (action : Option Action) (s' : Server) : Prop :=
  match action with
  | some a => s.step a = some s'
  | none => s' = s

/-- A call of libuv in the callback reports an error, and the callback exits. -/
def Callback.Refused : Callback → Prop
  | .onPeerConnected status results _ _ => ¬ status < 0 ∧
      (results.uvTcpInit < 0 ∨ results.uvAccept = 0 ∧
        (results.uvTcpGetpeername < 0 ∨ results.uvReadStart < 0))
  | .onPeerRead _ nread _ _ rc _ => nread ≠ 0 ∧ rc < 0
  | _ => False

/-- Why a callback ends the process. -/
def Server.EndedBy (s : Server) (cb : Callback) : Prop :=
  cb.Refused ∨ ∃ a, cb.action = some a ∧ Stops s a

/-- Where a callback leads. -/
inductive Leads (L : Layout) (h : Heap Obj) (cb : Callback) : Process → Prop where
  | goes_on {L' : Layout} {h' : Heap Obj} (hHolds : Holds L' h')
      (hServer : L.server.Follows cb.action L'.server) : Leads L h cb (L'.process h')
  | ends {p : Process} (e : Abort) (hOutcome : p.outcome = some (.stop e))
      (hEnded : L.server.EndedBy cb) : Leads L h cb p
  | faults {p : Process} (hWrites : WritesToReleased (L.process h) cb)
      (hOutcome : p.outcome = some .badAccess) : Leads L h cb p
  /-- a copy was reported as a failure, and what was not assigned is released -/
  | miscopies {p : Process} (hFails : ¬ cb.Copies)
      (hStops : ∃ a, cb.action = some a ∧ Server.Stops L.server a)
      (hOutcome : p.outcome = some .badAccess) : Leads L h cb p

theorem Leads.to {L L' : Layout} {h h' : Heap Obj} {cb : Callback} {p : Process}
    (hNext : Holds L' h' ∧ L.server.Follows cb.action L'.server) (hProcess : p = L'.process h') :
    Leads L h cb p :=
  hProcess ▸ .goes_on hNext.1 hNext.2

/-- A program that has a triple, run as a callback. -/
theorem Process.run_triple {α : Type} (p : Process) {prog : HeapProg α}
    {next : α → Process → Process} {m : Multiset Cell} {Q : α → Multiset Cell → Prop}
    {E : Abort → Prop} (hTriple : Triple m prog Q E) (hOwns : Owns p.heap m) :
    (∃ a h' m', p.run prog next = next a { p with heap := h' } ∧ Owns h' m' ∧
      p.heap.Evolves h' ∧ Q a m') ∨ ∃ e, (p.run prog next).outcome = some (.stop e) ∧ E e := by
  unfold Process.run
  rcases hTriple p.heap hOwns with ⟨a, h', m', hRun, hOwns', hEvolves, hPost⟩ | ⟨e, hRun, hStop⟩
  · exact .inl ⟨a, h', m', by rw [hRun], hOwns', hEvolves, hPost⟩
  · exact .inr ⟨e, by rw [hRun], hStop⟩

/-- The same of a program that may fault. -/
theorem Process.run_returns {α : Type} (p : Process) {prog : HeapProg α}
    {next : α → Process → Process} {Q : α → Heap Obj → Prop} {E : Abort → Prop}
    (hReturns : Returns prog Q E) :
    (∃ a h', p.run prog next = next a { p with heap := h' } ∧ Q a h') ∨
      (p.run prog next).outcome = some .badAccess ∨
        ∃ e, (p.run prog next).outcome = some (.stop e) ∧ E e := by
  unfold Process.run
  rcases hReturns p.heap with ⟨a, h', hRun, hPost⟩ | hFault | ⟨e, hRun, hStop⟩
  · exact .inl ⟨a, h', by rw [hRun], hPost⟩
  · exact .inr (.inl (by rw [hFault]))
  · exact .inr (.inr ⟨e, by rw [hRun], hStop⟩)

namespace Holds

variable {L L' : Layout} {h h' : Heap Obj}

/-- After a step of `Server` the new layout holds if its blocks are those of the new
heap, its items have the blocks of their clients, and a client that was freed by the
step was released. -/
theorem step (hHolds : Holds L h) {a : Action} (hStep : Server.Step L.server a L'.server)
    (hOwns : Owns h' L'.cells) (hEvolves : h.Evolves h')
    (hLinked : ∀ w ∈ L'.queue ++ L'.finished,
      (L'.clients.map OwnedClient.blocks)[w.work.uvclient]? = some w.client)
    (hFreed : ∀ k ∈ L'.clients, k.peer = .freed → k ∈ L.clients ∨ h'.Released k.blocks.handle) :
    Holds L' h' where
  owns := hOwns
  queued := Server.queued_step hHolds.queued hStep
  linked := hLinked
  released := fun k hMem hPeer => by
    rcases hFreed k hMem hPeer with hOld | hNew
    · exact hEvolves.keeps (hHolds.released k hOld hPeer)
    · exact hNew

/-- The layout is the same, with other connections to be closed. -/
theorem reclose (hHolds : Holds L h) {closing : List Addr}
    (hOwns : Owns h' { L with closing := closing }.cells) (hEvolves : h.Evolves h') :
    Holds { L with closing := closing } h' :=
  ⟨hOwns, hHolds.queued, hHolds.linked, fun k hMem hPeer =>
    hEvolves.keeps (hHolds.released k hMem hPeer)⟩

/-! ## Connections -/

theorem accepted (hHolds : Holds L h) {status : Int} {results : AcceptResults}
    (ntWorkData garbage : Option Addr) {b : ClientBlocks} (hStatus : ¬ status < 0)
    (hAccept : results.uvAccept = 0)
    (hL' : L' = { L with clients := L.clients ++ [.accepted b ntWorkData] })
    (hOwns : Owns h' ((OwnedClient.accepted b ntWorkData).cells + L.cells))
    (hEvolves : h.Evolves h') :
    Holds L' h' ∧ L.server.Follows
      (Callback.onPeerConnected status results ntWorkData garbage).action L'.server := by
  have hServer : L'.server = { L.server with
      peers := L.server.peers ++ [.connected (.new ntWorkData) true] } := by
    simp [hL', Layout.server, OwnedClient.accepted]
  have hStep : Server.Step L.server (.onPeerConnected ntWorkData) L'.server :=
    hServer ▸ .connects ntWorkData
  constructor
  · subst hL'
    refine hHolds.step hStep ?_ hEvolves (fun w hMem => ?_) fun k hMem hPeer => .inl ?_
    · convert hOwns using 1
      simp only [Layout.cells, sum_map_concat, add_assoc]
    · have hLinked := hHolds.linked w hMem
      obtain ⟨hLt, -⟩ := List.getElem?_eq_some_iff.mp hLinked
      rw [List.map_append, List.getElem?_append_left hLt]
      exact hLinked
    · rcases List.mem_append.mp hMem with hOld | hNew
      · exact hOld
      · rw [List.mem_singleton.mp hNew] at hPeer
        exact absurd hPeer (by simp [OwnedClient.accepted])
  · rw [Callback.action, if_neg (by simp [hStatus, hAccept])]
    exact Server.step_of rfl hStep

/-- What becomes of a connection, and the cells that are owned with it. -/
inductive Lands (m : Multiset Cell) (status : Int) (results : AcceptResults)
    (ntWorkData : Option Addr) : Connected → Multiset Cell → Prop where
  | refused (hStatus : status < 0) : Lands m status results ntWorkData .refused m
  | accepted (hStatus : ¬ status < 0) (hAccept : results.uvAccept = 0) (b : ClientBlocks) :
      Lands m status results ntWorkData (.accepted b.handle)
        ((OwnedClient.accepted b ntWorkData).cells + m)
  | closing (hAccept : results.uvAccept ≠ 0) (a : Addr) :
      Lands m status results ntWorkData (.closing a) ((a, .uvTcp none) ::ₘ m)

/-- `on_peer_connected`. -/
theorem onPeerConnected_leads (hHolds : Holds L h) (status : Int) (results : AcceptResults)
    (ntWorkData garbage : Option Addr) :
    Leads L h (.onPeerConnected status results ntWorkData garbage)
      ((L.process h).onPeerConnected status results ntWorkData garbage) := by
  have hTriple : Triple L.cells
      (HeapProg.onPeerConnected status results ntWorkData garbage)
      (Lands L.cells status results ntWorkData)
      (fun _ => (Callback.onPeerConnected status results ntWorkData garbage).Refused) :=
    Triple.last (HeapProg.onPeerConnected_triple
      (fun hStatus => Triple.pure (.refused hStatus))
      (fun hStatus hAccept b => Triple.pure (.accepted hStatus hAccept b))
      (fun hAccept a => Triple.pure (.closing hAccept a)) fun hStatus hWhy => ⟨hStatus, hWhy⟩)
  unfold Process.onPeerConnected
  rcases Process.run_triple (L.process h) hTriple hHolds.owns with
    ⟨connected, h', m, hRun, hOwns, hEvolves, hPost⟩ | ⟨e, hStops, hRefused⟩
  · rw [hRun]
    cases hPost with
    | refused hStatus =>
        refine .goes_on (hHolds.reclose hOwns hEvolves) ?_
        rw [Callback.action, if_pos (.inl hStatus)]
        rfl
    | accepted hStatus hAccept b =>
        exact Leads.to (hHolds.accepted ntWorkData garbage hStatus hAccept rfl hOwns hEvolves)
          (by simp [Layout.process, OwnedClient.accepted, OwnedClient.connection, Peer.isReading])
    | closing hAccept a =>
        have hClosing : Owns h' ({ L with closing := L.closing ++ [a] } : Layout).cells := by
          convert hOwns using 1
          simp only [Layout.cells, sum_map_concat, Layout.closingCells,
            ← Multiset.singleton_add]
          abel
        refine .goes_on (hHolds.reclose hClosing hEvolves) ?_
        rw [Callback.action, if_pos (.inr hAccept)]
        rfl
  · exact .ends e hStops (.inl hRefused)

/-! ## Reads -/

/-- The blocks of a client do not depend on whether it is read from. -/
theorem cells_reading {k : OwnedClient} {ep : WebSocketEndpoint} {reading : Bool}
    (hPeer : k.peer = .connected ep reading) (reading' : Bool) :
    ({ k with peer := .connected ep reading' } : OwnedClient).cells = k.cells := by
  rw [OwnedClient.cells_connected hPeer, OwnedClient.cells_connected rfl]

theorem set_same {α : Type} {l : List α} {i : Nat} {a : α} (hMember : l[i]? = some a) :
    l.set i a = l := by
  obtain ⟨hLt, rfl⟩ := List.getElem?_eq_some_iff.mp hMember
  exact List.set_getElem_self hLt

/-- A member is replaced by another that `f` does not tell from it. -/
theorem map_set_same {α β : Type} {f : α → β} {l : List α} {i : Nat} {a a' : α}
    (hMember : l[i]? = some a) (hSame : f a' = f a) : (l.set i a').map f = l.map f := by
  rw [List.map_set, hSame]
  exact set_same (by rw [List.getElem?_map, hMember, Option.map_some])

/-- A new item at the end of the queue, for a client that is read from. -/
theorem queues (hHolds : Holds L h) {c : Nat} {k : OwnedClient} {w : OwnedWork} {a : Action}
    {ep : WebSocketEndpoint} (reading : Bool) (hClient : L.clients[c]? = some k)
    (hPeer : k.peer = .connected ep true) (hItem : w.work.uvclient = c)
    (hOwner : w.client = k.blocks)
    (hL' : L' = { L with
      clients := L.clients.set c { k with peer := .connected ep reading }
      queue := L.queue ++ [w] })
    (hStep : Server.Step L.server a { L.server with
      peers := L.server.peers.set c (.connected ep reading)
      queue := L.server.queue ++ [w.work] })
    (hOwns : Owns h' (w.workCells + L.cells)) (hEvolves : h.Evolves h') :
    Holds L' h' ∧ L.server.step a = some L'.server := by
  have hServer : L'.server = { L.server with
      peers := L.server.peers.set c (.connected ep reading)
      queue := L.server.queue ++ [w.work] } := by
    simp [hL', Layout.server, List.map_set]
  rw [← hServer] at hStep
  have hBlocks : L'.clients.map OwnedClient.blocks = L.clients.map OwnedClient.blocks := by
    rw [hL']
    exact map_set_same hClient rfl
  refine ⟨hHolds.step hStep ?_ hEvolves (fun v hMem => ?_) fun k' hMem hFreed => .inl ?_,
    Server.step_of rfl hStep⟩
  · obtain ⟨rest, hSum, hSet, -⟩ := sum_map_getElem OwnedClient.cells hClient
    convert hOwns using 1
    simp only [hL', Layout.cells, sum_map_concat, hSum, hSet, cells_reading hPeer]
    abel
  · rw [hBlocks]
    rw [hL'] at hMem
    simp only [List.mem_append, List.mem_singleton] at hMem
    rcases hMem with (hOld | rfl) | hOld
    · exact hHolds.linked v (List.mem_append_left _ hOld)
    · rw [List.getElem?_map, hItem, hClient, Option.map_some, hOwner]
    · exact hHolds.linked v (List.mem_append_right _ hOld)
  · rw [hL'] at hMem
    rcases List.mem_or_eq_of_mem_set hMem with hOld | rfl
    · exact hOld
    · exact absurd hFreed (by simp)

/-- libuv reads from a client that is there. -/
theorem onPeerRead_cases {c : Nat} {nread : Int} {bytes : Bytes} {ret rc : Int}
    {garbage : Option Addr} {p : Process}
    (hRead : (L.process h).onPeerRead c nread bytes ret rc garbage = some p) :
    ∃ k ep, L.clients[c]? = some k ∧ k.peer = .connected ep true ∧ nread ≤ bytes.length ∧
      bytes.length < 2147483648 ∧
      p = (L.process h).run (do
          let buf ← HeapProg.onAllocBuffer bytes
          HeapProg.onPeerRead (some k.blocks.handle) nread buf ret rc garbage) fun req p => { p with
        clients := if nread < 0 then p.clients.set c (k.blocks.handle, false) else p.clients
        queue := p.queue ++ req.toList.map fun req =>
          (req, if nread < 0 then .onWorkClientClosed else .onWorkSubmitted) } := by
  unfold Process.onPeerRead at hRead
  have hClients : (L.process h).clients[c]? = L.clients[c]?.map OwnedClient.connection :=
    List.getElem?_map
  rw [hClients] at hRead
  rcases hClient : L.clients[c]? with _ | k
  · rw [hClient] at hRead
    exact absurd hRead (by simp)
  rw [hClient, Option.map_some] at hRead
  rcases hPeer : k.peer with ⟨ep, _ | _⟩ | _
  · rw [OwnedClient.connection_connected hPeer] at hRead
    exact absurd hRead (by simp)
  · rw [OwnedClient.connection_connected hPeer] at hRead
    dsimp only at hRead
    by_cases hBad : (bytes.length : Int) < nread ∨ 2147483648 ≤ bytes.length
    · rw [if_pos hBad] at hRead
      exact absurd hRead (by simp)
    · rw [if_neg hBad, Option.some.injEq] at hRead
      obtain ⟨hFits, hSize⟩ := not_or.mp hBad
      exact ⟨k, ep, rfl, hPeer, not_lt.mp hFits, not_le.mp hSize, hRead.symm⟩
  · rw [OwnedClient.connection_freed hPeer] at hRead
    exact absurd hRead (by simp)

/-- The blocks of a client, and all the others. -/
theorem cells_client {c : Nat} {k : OwnedClient} (hClient : L.clients[c]? = some k) :
    ∃ rest, L.cells = k.cells + rest := by
  obtain ⟨rest, hSum, -, -⟩ := sum_map_getElem OwnedClient.cells hClient
  rw [Layout.cells, hSum]
  simp only [add_assoc]
  exact ⟨_, rfl⟩

/-- The handle of a client that is there is live. -/
theorem handle_cell (hHolds : Holds L h) {c : Nat} {k : OwnedClient} {ep : WebSocketEndpoint}
    {reading : Bool} (hClient : L.clients[c]? = some k) (hPeer : k.peer = .connected ep reading) :
    h.cell k.blocks.handle = some (.uvTcp (some k.blocks.state)) := by
  obtain ⟨rest, hCells⟩ := cells_client hClient
  refine (hHolds.owns.cell_iff _ _).mpr ?_
  rw [hCells, OwnedClient.cells_connected hPeer]
  simp

/-- A read that queues an item: `work` says which, and `reading` what becomes of the
client. -/
theorem onPeerRead_queues (hHolds : Holds L h) {c : Nat} {nread : Int} {bytes : Bytes}
    {ret rc : Int} {garbage : Option Addr} {k : OwnedClient} {ep : WebSocketEndpoint}
    {work : PeerWorkData} (hClient : L.clients[c]? = some k) (hPeer : k.peer = .connected ep true)
    (hNonzero : nread ≠ 0) (hItem : work.uvclient = c) (hType : work.type = 1 ↔ ¬ nread < 0)
    (hAlloc : ∀ buf m (g : Option Addr → HeapProg (Option Addr)) Q, (k.blocks.state,
        .peerState ⟨some k.blocks.handle, some k.blocks.endpoint⟩) ∈ m → (buf, .chars bytes) ∈ m →
      (∀ req data request response, Triple
        ((OwnedWork.mk req data request response k.blocks work).workCells + m) (g (some req)) Q
          fun _ => rc < 0) →
      Triple m (HeapProg.allocWorkReq (some k.blocks.state) nread ⟨some buf, bytes.length⟩
        (if nread < 0 then 0 else 1) ret garbage >>= g) Q fun _ => rc < 0)
    (hStep : Server.Step L.server (.onPeerRead c nread bytes ret) { L.server with
      peers := L.server.peers.set c (.connected ep (decide ¬ nread < 0))
      queue := L.server.queue ++ [work] }) :
    Leads L h (.onPeerRead c nread bytes ret rc garbage) ((L.process h).run (do
        let buf ← HeapProg.onAllocBuffer bytes
        HeapProg.onPeerRead (some k.blocks.handle) nread buf ret rc garbage) fun req p => { p with
      clients := if nread < 0 then p.clients.set c (k.blocks.handle, false) else p.clients
      queue := p.queue ++ req.toList.map fun req =>
        (req, if nread < 0 then .onWorkClientClosed else .onWorkSubmitted) }) := by
  obtain ⟨rest, hCells⟩ := cells_client hClient
  have hTriple : Triple L.cells (do
        let buf ← HeapProg.onAllocBuffer bytes
        HeapProg.onPeerRead (some k.blocks.handle) nread buf ret rc garbage)
      (fun req m => ∃ w : OwnedWork, req = some w.req ∧ w.client = k.blocks ∧ w.work = work ∧
        m = w.workCells + L.cells) (fun _ => rc < 0) := by
    rw [hCells]
    exact Triple.last (HeapProg.onPeerRead_triple hPeer hNonzero
      (fun buf m g hState hChars hNext => hAlloc buf m g _ hState hChars hNext)
      (fun _ req data request response => Triple.pure ⟨_, rfl, rfl, rfl, rfl⟩) id)
  rcases Process.run_triple (L.process h) hTriple hHolds.owns with
    ⟨req, h', m, hRun, hOwns, hEvolves, w, rfl, hOwner, rfl, rfl⟩ | ⟨e, hStops, hRc⟩
  · rw [hRun]
    refine Leads.to (hHolds.queues (decide ¬ nread < 0) hClient hPeer hItem hOwner rfl hStep hOwns
      hEvolves) ?_
    by_cases hNeg : nread < 0
    · have hClosing : w.work.type ≠ 1 := fun hChunk => hType.mp hChunk hNeg
      simp [Layout.process, hNeg, List.map_set, OwnedClient.connection, Peer.isReading,
        OwnedWork.callback, hClosing]
    · have hSame : L.clients.set c { k with peer := .connected ep true } = L.clients := by
        rw [← hPeer]
        exact set_same hClient
      simp [Layout.process, hNeg, OwnedWork.callback, hType.mpr hNeg, hSame]
  · exact .ends e hStops (.inl ⟨hNonzero, hRc⟩)

/-- `on_peer_read`. -/
theorem onPeerRead_leads (hHolds : Holds L h) {c : Nat} {nread : Int} {bytes : Bytes}
    {ret rc : Int} {garbage : Option Addr} {p : Process}
    (hRead : (L.process h).onPeerRead c nread bytes ret rc garbage = some p) :
    Leads L h (.onPeerRead c nread bytes ret rc garbage) p := by
  obtain ⟨k, ep, hClient, hPeer, hFits, hSize, rfl⟩ := onPeerRead_cases hRead
  have hServer : L.server.peers[c]? = some (.connected ep true) := by
    rw [Layout.server, List.getElem?_map, hClient, Option.map_some, hPeer]
  rcases lt_trichotomy nread 0 with hNeg | rfl | hPos
  · -- the end of the connection
    refine hHolds.onPeerRead_queues hClient hPeer hNeg.ne (PeerWorkData.closing_uvclient c)
      (by simp [hNeg]) (fun buf m g Q hState _ hNext => ?_) ?_
    · rw [if_pos hNeg]
      exact HeapProg.allocWorkReq_closing_triple c hState hNext
    · rw [decide_eq_false (not_not.mpr hNeg)]
      exact .ends ret hServer hNeg hSize
  · -- nothing was read
    have hTriple : Triple L.cells (do
          let buf ← HeapProg.onAllocBuffer bytes
          HeapProg.onPeerRead (some k.blocks.handle) 0 buf ret rc garbage)
        (fun req m => req = none ∧ m = L.cells) (fun _ => False) :=
      Triple.last (HeapProg.onPeerRead_quiet (Triple.pure ⟨rfl, rfl⟩))
    rcases Process.run_triple (L.process h) hTriple hHolds.owns with
      ⟨req, h', m, hRun, hOwns, hEvolves, rfl, rfl⟩ | ⟨e, hStops, hFalse⟩
    · rw [hRun]
      have hStep : Server.Step L.server (.onPeerRead c 0 bytes ret) L.server :=
        .quiet ret hServer hSize
      refine Leads.to ⟨hHolds.step hStep hOwns hEvolves hHolds.linked fun k hMem _ => .inl hMem,
        Server.step_of rfl hStep⟩ ?_
      simp [Layout.process]
    · exact hFalse.elim
  by_cases hRet : 0 ≤ ret
  · -- a chunk
    have hNotNeg : ¬ nread < 0 := not_lt.mpr hPos.le
    refine hHolds.onPeerRead_queues hClient hPeer hPos.ne'
      (PeerWorkData.chunk_uvclient c (bytes.take nread.toNat)) (by simp [hNotNeg])
      (fun buf m g Q hState hChars hNext => ?_) ?_
    · rw [if_neg hNotNeg]
      exact HeapProg.allocWorkReq_chunk_triple c hState hChars hPos hFits hSize hRet hNext
    · rw [decide_eq_true hNotNeg, set_same hServer]
      exact .reads hServer hPos hFits hSize hRet
  · -- a chunk whose copy is reported as a failure
    have hCopyFails : ∃ a, (Callback.onPeerRead c nread bytes ret rc garbage).action = some a ∧
        Server.Stops L.server a :=
      ⟨_, rfl, .copyFails hServer hPos hFits hSize (not_le.mp hRet)⟩
    rcases (L.process h).run_returns (HeapProg.onPeerRead_fails hPos (not_le.mp hRet)) with
      ⟨-, -, -, hFalse⟩ | hFault | ⟨e, hStops, -⟩
    · exact hFalse.elim
    · exact .miscopies (fun hCopies => hRet (hCopies hPos)) hCopyFails hFault
    · exact .ends e hStops (.inr hCopyFails)

/-! ## The worker -/

/-- The client of an item that is queued is there. -/
theorem queued_client (hHolds : Holds L h) {w : OwnedWork} (hMem : w ∈ L.queue) :
    ∃ k ep reading, L.clients[w.work.uvclient]? = some k ∧ w.client = k.blocks ∧
      k.peer = .connected ep reading := by
  have hLinked := hHolds.linked w (List.mem_append_left _ hMem)
  rw [List.getElem?_map, Option.map_eq_some_iff] at hLinked
  obtain ⟨k, hClient, hBlocks⟩ := hLinked
  have hNotFreed := hHolds.queued.not_freed w.work (List.mem_map_of_mem hMem)
  rw [Layout.server, List.getElem?_map, hClient, Option.map_some] at hNotFreed
  rcases hPeer : k.peer with ⟨ep, reading⟩ | _
  · exact ⟨k, ep, reading, hClient, hBlocks.symm, hPeer⟩
  · exact absurd (congrArg some hPeer) hNotFreed

section Worker

variable {w : OwnedWork} {rest : List OwnedWork} {k : OwnedClient} {ep : WebSocketEndpoint}
  {reading : Bool} {mem : Nat → PassMem}

/-- The layout after a chunk was processed. -/
theorem submits (hHolds : Holds L h) (hQueue : L.queue = w :: rest)
    (hClient : L.clients[w.work.uvclient]? = some k) (hPeer : k.peer = .connected ep reading)
    (hType : w.work.type = 1) {nrc : Int}
    {ep' : WebSocketEndpoint} {work : PeerWorkData} (reg : Registration) (a : Addr)
    (hWork : WebSocketFiles.onWorkSubmitted ep w.work mem = .ok (nrc, ep', work))
    (hL' : L' = { L with
      clients := L.clients.set w.work.uvclient ⟨k.blocks, reg, .connected ep' reading⟩
      queue := rest
      finished := L.finished ++ [w.answered work a] })
    (hOwns : Owns h' L'.cells) (hEvolves : h.Evolves h') :
    Holds L' h' ∧ L.server.step (.worker mem) = some L'.server := by
  have hServerQueue : L.server.queue = w.work :: rest.map OwnedWork.work := by
    rw [Layout.server, hQueue, List.map_cons]
  have hServerPeer : L.server.peers[w.work.uvclient]? = some (.connected ep reading) := by
    rw [Layout.server, List.getElem?_map, hClient, Option.map_some, hPeer]
  have hServer : L'.server = { L.server with
      peers := L.server.peers.set w.work.uvclient (.connected ep' reading)
      queue := rest.map OwnedWork.work
      finished := L.server.finished ++ [work] } := by
    simp [hL', Layout.server, List.map_set, OwnedWork.answered]
  have hStep : Server.Step L.server (.worker mem) L'.server :=
    hServer ▸ .submits hServerQueue hType hServerPeer hWork
  have hBlocks : L'.clients.map OwnedClient.blocks = L.clients.map OwnedClient.blocks := by
    rw [hL']
    exact map_set_same hClient rfl
  refine ⟨hHolds.step hStep hOwns hEvolves (fun v hMem => ?_) fun k' hMem hFreed => .inl ?_,
    Server.step_of rfl hStep⟩
  · rw [hBlocks]
    rw [hL'] at hMem
    simp only [List.mem_append, List.mem_singleton] at hMem
    rcases hMem with hOld | hOld | rfl
    · exact hHolds.linked v (List.mem_append_left _ (hQueue ▸ List.mem_cons_of_mem _ hOld))
    · exact hHolds.linked v (List.mem_append_right _ hOld)
    · have hItem : (w.answered work a).work.uvclient = w.work.uvclient :=
        Server.onWorkSubmitted_ok hWork
      rw [hItem]
      exact hHolds.linked w (List.mem_append_left _ (hQueue ▸ List.mem_cons_self))
  · rw [hL'] at hMem
    rcases List.mem_or_eq_of_mem_set hMem with hOld | rfl
    · exact hOld
    · exact absurd hFreed (by simp)

/-- The layout after the end of a connection. -/
theorem closes (hHolds : Holds L h) (hQueue : L.queue = w :: rest)
    (hClient : L.clients[w.work.uvclient]? = some k) (hPeer : k.peer = .connected ep reading)
    (hType : w.work.type ≠ 1)
    (hL' : L' = { L with
      clients := L.clients.set w.work.uvclient { k with peer := .freed }
      queue := rest })
    (hOwns : Owns h' L'.cells) (hEvolves : h.Evolves h') (hReleased : h'.Released k.blocks.handle) :
    Holds L' h' ∧ L.server.step (.worker mem) = some L'.server := by
  have hServerQueue : L.server.queue = w.work :: rest.map OwnedWork.work := by
    rw [Layout.server, hQueue, List.map_cons]
  have hServerPeer : L.server.peers[w.work.uvclient]? = some (.connected ep reading) := by
    rw [Layout.server, List.getElem?_map, hClient, Option.map_some, hPeer]
  have hServer : L'.server = { L.server with
      peers := L.server.peers.set w.work.uvclient .freed
      queue := rest.map OwnedWork.work } := by
    simp [hL', Layout.server, List.map_set]
  have hStep : Server.Step L.server (.worker mem) L'.server :=
    hServer ▸ .closes mem hServerQueue hType hServerPeer
  have hBlocks : L'.clients.map OwnedClient.blocks = L.clients.map OwnedClient.blocks := by
    rw [hL']
    exact map_set_same hClient rfl
  refine ⟨hHolds.step hStep hOwns hEvolves (fun v hMem => ?_) fun k' hMem _ => ?_,
    Server.step_of rfl hStep⟩
  · rw [hBlocks]
    rw [hL'] at hMem
    rcases List.mem_append.mp hMem with hOld | hOld
    · exact hHolds.linked v (List.mem_append_left _ (hQueue ▸ List.mem_cons_of_mem _ hOld))
    · exact hHolds.linked v (List.mem_append_right _ hOld)
  · rw [hL'] at hMem
    rcases List.mem_or_eq_of_mem_set hMem with hOld | rfl
    · exact .inl hOld
    · exact .inr hReleased

end Worker

/-- The worker takes the first item. -/
theorem worker_leads (hHolds : Holds L h) {mem : Nat → PassMem} {p : Process}
    (hWorker : (L.process h).worker mem = some p) : Leads L h (.worker mem) p := by
  rcases hQueue : L.queue with _ | ⟨w, rest⟩
  · simp only [Process.worker, Layout.process, hQueue, List.map_nil] at hWorker
    exact absurd hWorker (by simp)
  obtain ⟨k, ep, reading, hClient, hOwner, hPeer⟩ :=
    hHolds.queued_client (hQueue ▸ List.mem_cons_self : w ∈ L.queue)
  obtain ⟨others, hSum, hSet, -⟩ := sum_map_getElem OwnedClient.cells hClient
  obtain ⟨m, hm⟩ : ∃ m, m = others + (rest.map OwnedWork.workCells).sum +
    (L.finished.map OwnedWork.workCells).sum + (L.writing.map OwnedWork.writeCells).sum +
      (L.closing.map Layout.closingCells).sum := ⟨_, rfl⟩
  have hCells : L.cells = w.workCells + (k.cells + m) := by
    rw [Layout.cells, hSum, hQueue, List.map_cons, List.sum_cons, hm]
    abel
  by_cases hType : w.work.type = 1
  · -- `on_work_submitted`
    have hTriple : Triple L.cells (HeapProg.onWorkSubmitted (some w.req) mem)
        (fun _ m' => ∃ nrc ep' work a,
          onWorkSubmitted ep w.work mem = .ok (nrc, ep', work) ∧
            m' = (w.answered work a).workCells + ((OwnedClient.mk k.blocks
              ⟨some onWriteResponseAddr, some w.data⟩ (.connected ep' reading)).cells + m))
        (fun e => onWorkSubmitted ep w.work mem = .error e) := by
      rw [hCells]
      exact Triple.last (HeapProg.onWorkSubmitted_triple w hPeer hOwner
        (fun nrc ep' work a hWork => Triple.pure ⟨nrc, ep', work, a, hWork, rfl⟩)
        fun _ hWork => hWork)
    have hRun : (L.process h).worker mem = some ((L.process h).run
        (HeapProg.onWorkSubmitted (some w.req) mem) fun _ p => { p with
          queue := rest.map fun w => (w.req, w.callback), finished := p.finished ++ [w.req] }) := by
      simp only [Process.worker, Layout.process, hQueue, List.map_cons, OwnedWork.callback, hType,
        if_true]
    obtain rfl := Option.some.inj (hWorker.symm.trans hRun)
    rcases Process.run_triple (L.process h) hTriple hHolds.owns with
      ⟨⟨⟩, h', m', hRan, hOwns, hEvolves, nrc, ep', work, a, hWork, rfl⟩ | ⟨e, hStops, hWork⟩
    · rw [hRan]
      refine Leads.to (hHolds.submits hQueue hClient hPeer hType
        ⟨some onWriteResponseAddr, some w.data⟩ a hWork rfl ?_ hEvolves) ?_
      · convert hOwns using 1
        rw [Layout.cells, hSet, sum_map_concat, hm]
        abel
      · have hSame : (OwnedClient.mk k.blocks ⟨some onWriteResponseAddr, some w.data⟩
            (.connected ep' reading)).connection = k.connection := by
          rw [OwnedClient.connection_connected hPeer, OwnedClient.connection_connected rfl]
        simp only [Layout.process, map_set_same hClient hSame, List.map_append, List.map_singleton]
        rfl
    · have hServerQueue : L.server.queue = w.work :: rest.map OwnedWork.work := by
        rw [Layout.server, hQueue, List.map_cons]
      have hServerPeer : L.server.peers[w.work.uvclient]? = some (.connected ep reading) := by
        rw [Layout.server, List.getElem?_map, hClient, Option.map_some, hPeer]
      exact .ends e hStops (.inr ⟨_, rfl, .raises hServerQueue hType hServerPeer hWork⟩)
  · -- `on_work_client_closed`; libuv has ceased to read
    have hEnded : reading = false := by
      obtain ⟨ep', hClosing⟩ := hHolds.queued.closing w.work
        (List.mem_map_of_mem (hQueue ▸ List.mem_cons_self)) hType
      rw [Layout.server, List.getElem?_map, hClient, Option.map_some, hPeer] at hClosing
      simp only [Option.some.injEq, Peer.connected.injEq] at hClosing
      exact hClosing.2
    have hTriple : Triple L.cells (HeapProg.onWorkClientClosed (some w.req))
        (fun _ m' => m' = m) (fun _ => False) := by
      rw [hCells]
      exact Triple.last (HeapProg.onWorkClientClosed_triple w hPeer hOwner (Triple.pure rfl))
    have hRun : (L.process h).worker mem = some ((L.process h).run
        (HeapProg.onWorkClientClosed (some w.req)) fun _ p => { p with
          queue := rest.map fun w => (w.req, w.callback) }) := by
      simp only [Process.worker, Layout.process, hQueue, List.map_cons, OwnedWork.callback, hType,
        if_false]
    obtain rfl := Option.some.inj (hWorker.symm.trans hRun)
    rcases Process.run_triple (L.process h) hTriple hHolds.owns with
      ⟨⟨⟩, h', m', hRan, hOwns, hEvolves, rfl⟩ | ⟨e, hStops, hFalse⟩
    · rw [hRan]
      have hReleased : h'.Released k.blocks.handle := by
        have hBefore := hHolds.owns
        rw [hCells, OwnedClient.cells_connected hPeer, Multiset.cons_add, Multiset.add_cons]
          at hBefore
        refine hBefore.released hOwns hEvolves fun cell hMem => ?_
        exact Multiset.mem_add.mpr (.inr (Multiset.mem_add.mpr (.inr hMem)))
      refine Leads.to (hHolds.closes hQueue hClient hPeer hType rfl ?_ hEvolves hReleased) ?_
      · convert hOwns using 1
        rw [Layout.cells, hSet, hm]
        simp [OwnedClient.cells]
      · have hSame : ({ k with peer := .freed } : OwnedClient).connection = k.connection := by
          rw [OwnedClient.connection_connected hPeer, OwnedClient.connection_freed rfl, hEnded]
        simp only [Layout.process, map_set_same hClient hSame]
    · exact hFalse.elim

/-! ## Completion and writes -/

section Completion

variable {w : OwnedWork} {rest : List OwnedWork} {rc : Int} {p : Process}

/-- A completion callback leaves the clients and the queue as they are, and takes the
item from the finished ones. -/
theorem completes (hHolds : Holds L h) (hFinished : L.finished = w :: rest) {a : Action}
    (writing : List OwnedWork) (hL' : L' = { L with finished := rest, writing := writing })
    (hStep : Server.Step L.server a { L.server with
      finished := rest.map OwnedWork.work, writing := writing.map OwnedWork.work })
    (hOwns : Owns h' L'.cells) (hEvolves : h.Evolves h') :
    Holds L' h' ∧ L.server.step a = some L'.server := by
  subst hL'
  refine ⟨hHolds.step hStep hOwns hEvolves (fun v hMem => ?_) fun k hMem _ => .inl hMem,
    Server.step_of rfl hStep⟩
  refine hHolds.linked v ?_
  rw [hFinished]
  rcases List.mem_append.mp hMem with hOld | hOld
  · exact List.mem_append_left _ hOld
  · exact List.mem_append_right _ (List.mem_cons_of_mem _ hOld)

/-- The first finished item has no response. -/
theorem drops_leads (hHolds : Holds L h) (hFinished : L.finished = w :: rest)
    (hNone : w.work.response.base = none) :
    Leads L h (.onWorkCompleted 0 rc) ((L.process h).run
      (HeapProg.onWorkCompleted (some w.req) 0 rc) fun write p => { p with
        finished := rest.map OwnedWork.req, writing := p.writing ++ write.toList }) := by
  obtain ⟨m, hm⟩ : ∃ m, m = (L.clients.map OwnedClient.cells).sum +
    (L.queue.map OwnedWork.workCells).sum + (rest.map OwnedWork.workCells).sum +
      (L.writing.map OwnedWork.writeCells).sum + (L.closing.map Layout.closingCells).sum :=
    ⟨_, rfl⟩
  have hTriple : Triple L.cells (HeapProg.onWorkCompleted (some w.req) 0 rc)
      (fun write m' => write = none ∧ m' = m) (fun _ => False) := by
    refine Triple.cells (w.workCells + m) ?_
      (Triple.last (HeapProg.onWorkCompleted_drops w hNone (Triple.pure ⟨rfl, rfl⟩)))
    rw [Layout.cells, hFinished, List.map_cons, List.sum_cons, hm]
    abel
  have hServerFinished : L.server.finished = w.work :: rest.map OwnedWork.work := by
    rw [Layout.server, hFinished, List.map_cons]
  rcases Process.run_triple (L.process h) hTriple hHolds.owns with
    ⟨write, h', m', hRan, hOwns, hEvolves, rfl, rfl⟩ | ⟨e, hStops, hFalse⟩
  · rw [hRan]
    refine Leads.to (hHolds.completes hFinished L.writing rfl (.drops rc hServerFinished hNone) ?_
      hEvolves) ?_
    · rw [hm] at hOwns
      exact hOwns
    · simp [Layout.process]
  · exact hFalse.elim

/-- The first finished item has a response, and its client is there. -/
theorem writes_leads (hHolds : Holds L h) (hFinished : L.finished = w :: rest)
    (hSome : w.work.response.base ≠ none) {k : OwnedClient} {ep : WebSocketEndpoint}
    {reading : Bool} (hClient : L.clients[w.work.uvclient]? = some k)
    (hOwner : w.client = k.blocks) (hPeer : k.peer = .connected ep reading) :
    Leads L h (.onWorkCompleted 0 rc) ((L.process h).run
      (HeapProg.onWorkCompleted (some w.req) 0 rc) fun write p => { p with
        finished := rest.map OwnedWork.req, writing := p.writing ++ write.toList }) := by
  obtain ⟨m, hm⟩ : ∃ m, m = (L.clients.map OwnedClient.cells).sum +
    (L.queue.map OwnedWork.workCells).sum + (rest.map OwnedWork.workCells).sum +
      (L.writing.map OwnedWork.writeCells).sum + (L.closing.map Layout.closingCells).sum :=
    ⟨_, rfl⟩
  have hHandle : (w.client.handle, .uvTcp (some k.blocks.state)) ∈ m := by
    obtain ⟨others, hSum, -, -⟩ := sum_map_getElem OwnedClient.cells hClient
    rw [hm, hSum, OwnedClient.cells_connected hPeer, hOwner]
    simp
  have hTriple : Triple L.cells (HeapProg.onWorkCompleted (some w.req) 0 rc)
      (fun write m' => 0 ≤ rc ∧ ∃ a, write = some a ∧
        m' = ({ w with req := a } : OwnedWork).writeCells + m) (fun _ => rc < 0) := by
    refine Triple.cells (w.workCells + m) ?_ (Triple.last (HeapProg.onWorkCompleted_writes w hSome
      hHandle (fun hRc a => Triple.pure ⟨hRc, a, rfl, rfl⟩) id))
    rw [Layout.cells, hFinished, List.map_cons, List.sum_cons, hm]
    abel
  have hServerFinished : L.server.finished = w.work :: rest.map OwnedWork.work := by
    rw [Layout.server, hFinished, List.map_cons]
  rcases Process.run_triple (L.process h) hTriple hHolds.owns with
    ⟨write, h', m', hRan, hOwns, hEvolves, hRc, a, rfl, rfl⟩ | ⟨e, hStops, hRc⟩
  · rw [hRan]
    have hStep := Server.Step.writes hServerFinished hSome hRc
    refine Leads.to (hHolds.completes hFinished (L.writing ++ [{ w with req := a }]) rfl
      (by rw [List.map_append]; exact hStep) ?_ hEvolves) ?_
    · convert hOwns using 1
      rw [Layout.cells, sum_map_concat, hm]
      abel
    · simp [Layout.process]
  · exact .ends e hStops (.inr ⟨_, rfl, .refused hServerFinished hSome hRc⟩)

/-- `on_work_completed`. -/
theorem onWorkCompleted_leads (hHolds : Holds L h) {status : Int}
    (hCompleted : (L.process h).onWorkCompleted status rc = some p) :
    Leads L h (.onWorkCompleted status rc) p := by
  rcases hFinished : L.finished with _ | ⟨w, rest⟩
  · simp only [Process.onWorkCompleted, Layout.process, hFinished, List.map_nil] at hCompleted
    exact absurd hCompleted (by simp)
  have hRun : (L.process h).onWorkCompleted status rc = some ((L.process h).run
      (HeapProg.onWorkCompleted (some w.req) status rc) fun write p => { p with
        finished := rest.map OwnedWork.req, writing := p.writing ++ write.toList }) := by
    simp only [Process.onWorkCompleted, Layout.process, hFinished, List.map_cons]
  obtain rfl := Option.some.inj (hCompleted.symm.trans hRun)
  by_cases hStatus : status = 0
  swap
  · have hServerFinished : L.server.finished = w.work :: rest.map OwnedWork.work := by
      rw [Layout.server, hFinished, List.map_cons]
    refine .ends .exitFailure ?_ (.inr ⟨_, rfl, .cancelled rc hServerFinished hStatus⟩)
    unfold Process.run HeapProg.onWorkCompleted
    rw [if_pos hStatus]
    rfl
  subst hStatus
  by_cases hNone : w.work.response.base = none
  · exact hHolds.drops_leads hFinished hNone
  have hMem : w ∈ L.finished := hFinished ▸ List.mem_cons_self
  have hLinked := hHolds.linked w (List.mem_append_right _ hMem)
  rw [List.getElem?_map, Option.map_eq_some_iff] at hLinked
  obtain ⟨k, hClient, hBlocks⟩ := hLinked
  rcases hPeer : k.peer with ⟨ep, reading⟩ | _
  · exact hHolds.writes_leads hFinished hNone hClient hBlocks.symm hPeer
  · -- the worker has released the client
    have hReq : h.cell w.req = some (.workReq (some w.data)) := by
      refine (hHolds.owns.cell_iff _ _).mpr ?_
      rw [Layout.cells, hFinished]
      simp [OwnedWork.workCells]
    have hData : h.cell w.data = some (.workData w.block) := by
      refine (hHolds.owns.cell_iff _ _).mpr ?_
      rw [Layout.cells, hFinished]
      simp [OwnedWork.workCells, OwnedWork.dataCells]
    have hBase : w.block.response.base ≠ none := by
      simp [OwnedWork.block, UvBuf.ptr, hNone]
    have hReleased : h.Released w.client.handle :=
      hBlocks ▸ hHolds.released k (List.mem_of_getElem? hClient) hPeer
    refine .faults ⟨rc, w.req, rest.map OwnedWork.req, w.data, w.block, w.client.handle, rfl, ?_,
      hReq, hData, hBase, rfl, hReleased⟩ ?_
    · rw [Layout.process, hFinished, List.map_cons]
    · have hFaults := HeapProg.onWorkCompleted_faults rc hReq hData hBase rfl hReleased
      unfold Process.run
      rw [show (L.process h).heap = h from rfl, hFaults]

/-- `on_sent_response`. -/
theorem onSentResponse_leads (hHolds : Holds L h) {i : Nat} {status : Int}
    (hSent : (L.process h).onSentResponse i status = some p) :
    Leads L h (.onSentResponse i status) p := by
  have hWriting : (L.process h).writing[i]? = L.writing[i]?.map OwnedWork.req := List.getElem?_map
  unfold Process.onSentResponse at hSent
  rw [hWriting] at hSent
  rcases hItem : L.writing[i]? with _ | w
  · rw [hItem] at hSent
    exact absurd hSent (by simp)
  rw [hItem, Option.map_some] at hSent
  obtain rfl := Option.some.inj hSent
  obtain ⟨others, hSum, -, hErase⟩ := sum_map_getElem OwnedWork.writeCells hItem
  obtain ⟨m, hm⟩ : ∃ m, m = (L.clients.map OwnedClient.cells).sum +
    (L.queue.map OwnedWork.workCells).sum + (L.finished.map OwnedWork.workCells).sum + others +
      (L.closing.map Layout.closingCells).sum := ⟨_, rfl⟩
  have hTriple : Triple L.cells (HeapProg.onSentResponse (some w.req) status)
      (fun _ m' => status = 0 ∧ m' = m) (fun _ => status ≠ 0) := by
    refine Triple.cells (w.writeCells + m) ?_ (Triple.last (HeapProg.onSentResponse_triple w
      (fun hStatus => Triple.pure ⟨hStatus, rfl⟩) id))
    rw [Layout.cells, hSum, hm]
    abel
  have hIndex : i < L.server.writing.length := by
    rw [Layout.server, List.length_map]
    exact (List.getElem?_eq_some_iff.mp hItem).1
  rcases Process.run_triple (L.process h) hTriple hHolds.owns with
    ⟨⟨⟩, h', m', hRan, hOwns, hEvolves, rfl, rfl⟩ | ⟨e, hStops, hStatus⟩
  · rw [hRan]
    have hServer : ({ L with writing := L.writing.eraseIdx i } : Layout).server =
        { L.server with writing := L.server.writing.eraseIdx i } := by
      simp only [Layout.server, List.eraseIdx_map]
    have hStep : Server.Step L.server (.onSentResponse i 0)
        ({ L with writing := L.writing.eraseIdx i } : Layout).server := hServer ▸ .sends hIndex
    refine Leads.to ⟨hHolds.step hStep ?_ hEvolves hHolds.linked fun k hMem _ => .inl hMem,
      Server.step_of rfl hStep⟩ ?_
    · convert hOwns using 1
      rw [Layout.cells, hErase, hm]
    · simp only [Layout.process, List.eraseIdx_map]
  · exact .ends e hStops (.inr ⟨_, rfl, .writeFails hIndex hStatus⟩)

/-- `on_client_closed`. -/
theorem onClientClosed_leads (hHolds : Holds L h) {i : Nat}
    (hClosed : (L.process h).onClientClosed i = some p) : Leads L h (.onClientClosed i) p := by
  have hClosing : (L.process h).closing[i]? = L.closing[i]? := rfl
  unfold Process.onClientClosed at hClosed
  rw [hClosing] at hClosed
  rcases hItem : L.closing[i]? with _ | a
  · rw [hItem] at hClosed
    exact absurd hClosed (by simp)
  rw [hItem] at hClosed
  obtain rfl := Option.some.inj hClosed
  obtain ⟨others, hSum, -, hErase⟩ := sum_map_getElem Layout.closingCells hItem
  obtain ⟨m, hm⟩ : ∃ m, m = (L.clients.map OwnedClient.cells).sum +
    (L.queue.map OwnedWork.workCells).sum + (L.finished.map OwnedWork.workCells).sum +
      (L.writing.map OwnedWork.writeCells).sum + others := ⟨_, rfl⟩
  have hTriple : Triple L.cells (HeapProg.onClientClosed (some a)) (fun _ m' => m' = m)
      (fun _ => False) := by
    refine Triple.cells ((a, .uvTcp none) ::ₘ m) ?_
      (Triple.last (HeapProg.onClientClosed_triple (Triple.pure rfl)))
    rw [Layout.cells, hSum, hm, Layout.closingCells, ← Multiset.singleton_add]
    abel
  rcases Process.run_triple (L.process h) hTriple hHolds.owns with
    ⟨⟨⟩, h', m', hRan, hOwns, hEvolves, rfl⟩ | ⟨e, hStops, hFalse⟩
  · rw [hRan]
    have hNew : Owns h' ({ L with closing := L.closing.eraseIdx i } : Layout).cells := by
      convert hOwns using 1
      rw [Layout.cells, hErase, hm]
    exact Leads.to ⟨hHolds.reclose hNew hEvolves, rfl⟩ rfl
  · exact hFalse.elim

end Completion

/-- One callback, whichever it is. -/
theorem leads (hHolds : Holds L h) {cb : Callback} {p : Process}
    (hStep : (L.process h).step cb = some p) : Leads L h cb p := by
  unfold Process.step at hStep
  rw [if_neg (by simp [Layout.process])] at hStep
  cases cb with
  | onPeerConnected status results ntWorkData garbage =>
      exact Option.some.inj hStep ▸
        hHolds.onPeerConnected_leads status results ntWorkData garbage
  | onPeerRead c nread bytes ret rc garbage => exact hHolds.onPeerRead_leads hStep
  | worker mem => exact hHolds.worker_leads hStep
  | onWorkCompleted status rc => exact hHolds.onWorkCompleted_leads hStep
  | onSentResponse i status => exact hHolds.onSentResponse_leads hStep
  | onClientClosed i => exact hHolds.onClientClosed_leads hStep

end Holds

end WebSocketFiles
