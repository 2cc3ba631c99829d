import WebSocketFiles.Server.Ledger

/-!
# Runs of the process

By induction over the callbacks: a run of the process is a run of `Server` in which
every block is accounted for, until the process exits or faults (`process_run`).  It
exits when `Server` does, or when libuv refuses a call.

While no copy is reported as a failure, the only access that the callbacks make to a
block after its release is that of `uv_write` to the handle of a client which the worker
has released before the response was written (`process_faults_iff`), and it takes a
client that is closed before all its chunks were served (`process_fault_unserved`).
Until then nothing is lost: every block that is live belongs to a connection or to an
item that libuv holds (`process_ledger`).
-/

namespace WebSocketFiles

open HeapLogic History Transition

/-- The steps of `Server` in a run of the process. -/
def serverActions (run : List (Process × Callback)) : List Action :=
  run.filterMap fun q => q.2.action

theorem serverActions_snoc (run : List (Process × Callback)) (q : Process × Callback) :
    serverActions (run ++ [q]) = serverActions run ++ q.2.action.toList := by
  unfold serverActions
  rw [List.filterMap_append]
  cases hAction : q.2.action <;> simp [hAction]

/-- The layout stands for the state: the heap has its blocks, libuv holds its handles
and requests, and `Server` gets to it by the same steps. -/
structure Represents (L : Layout) (run : List (Process × Callback)) (p : Process) : Prop where
  process : p = L.process p.heap
  holds : Holds L p.heap
  server : ∃ serverRun, Reaches Server.step Server.init serverRun L.server ∧
    serverRun.map Prod.snd = serverActions run

/-- How far a run of the process has got. -/
inductive Progress (run : List (Process × Callback)) (p : Process) : Prop where
  | running (L : Layout) (hRep : Represents L run p)
  | stopped (L : Layout) (pre : List (Process × Callback)) (q : Process × Callback)
      (hRun : run = pre ++ [q]) (hRep : Represents L pre q.1) (hEnded : L.server.EndedBy q.2)
      (e : Abort) (hOutcome : p.outcome = some (.stop e))
  | faulted (L : Layout) (pre : List (Process × Callback)) (q : Process × Callback)
      (hRun : run = pre ++ [q]) (hRep : Represents L pre q.1) (hWrites : WritesToReleased q.1 q.2)
      (hOutcome : p.outcome = some .badAccess)
  | miscopied (L : Layout) (pre : List (Process × Callback)) (q : Process × Callback)
      (hRun : run = pre ++ [q]) (hRep : Represents L pre q.1) (hFails : ¬ q.2.Copies)
      (hStops : ∃ a, q.2.action = some a ∧ Server.Stops L.server a)
      (hOutcome : p.outcome = some .badAccess)

/-! ## Two runs of one client -/

/-- The calls of libuv succeed. -/
def acceptedResults : AcceptResults :=
  ⟨0, 0, 0, 0⟩

/-- A request, and the end of the connection after it was answered. -/
def servedFirstCallbacks : List Callback :=
  [.onPeerConnected 0 acceptedResults none none, .onPeerRead 0 131 openingRequest 0 0 none,
    .worker Server.zeroedMem, .onWorkCompleted 0 0, .onSentResponse 0 0,
    .onPeerRead 0 (-4095) [] 0 0 none, .worker Server.zeroedMem]

/-- A request, and the end of the connection before the loop thread gets to the
answer. -/
def closedFirstCallbacks : List Callback :=
  [.onPeerConnected 0 acceptedResults none none, .onPeerRead 0 131 openingRequest 0 0 none,
    .onPeerRead 0 (-4095) [] 0 0 none, .worker Server.zeroedMem, .worker Server.zeroedMem,
    .onWorkCompleted 0 0]

/-- Every step of the first run is taken, and nothing waits behind it. -/
theorem servedFirst_run :
    (record Process.step [] Process.init servedFirstCallbacks).1.length = 7 ∧
      (record Process.step [] Process.init servedFirstCallbacks).2.outcome = none ∧
      ((record Process.step [] Process.init servedFirstCallbacks).2.queue = [] ∧
        (record Process.step [] Process.init servedFirstCallbacks).2.finished = [] ∧
        (record Process.step [] Process.init servedFirstCallbacks).2.writing = [] ∧
        (record Process.step [] Process.init servedFirstCallbacks).2.closing = []) ∧
      ∀ connection ∈ (record Process.step [] Process.init servedFirstCallbacks).2.clients,
        (record Process.step [] Process.init servedFirstCallbacks).2.heap.cell connection.1 =
          none := by
  decide +kernel

/-- The last step of the second run faults. -/
theorem closedFirst_run :
    (record Process.step [] Process.init closedFirstCallbacks).1.length = 6 ∧
      (record Process.step [] Process.init closedFirstCallbacks).2.outcome = some .badAccess := by
  decide +kernel

theorem closedFirst_copies : Always (fun _ q => q.2.Copies)
    (record Process.step [] Process.init closedFirstCallbacks).1 :=
  always_record closedFirstCallbacks always_nil (by simp [closedFirstCallbacks, Callback.Copies])

section Run

variable {run : List (Process × Callback)} {p : Process} {L : Layout}

theorem Represents.next {L' : Layout} {h' : Heap Obj} {cb : Callback} (hRep : Represents L run p)
    (hHolds : Holds L' h') (hServer : L.server.Follows cb.action L'.server) :
    Represents L' (run ++ [(p, cb)]) (L'.process h') where
  process := rfl
  holds := hHolds
  server := by
    obtain ⟨serverRun, hReach, hActions⟩ := hRep.server
    cases hAction : cb.action with
    | none =>
        rw [hAction] at hServer
        refine ⟨serverRun, ?_, by rw [serverActions_snoc, hAction, hActions]; simp⟩
        rw [show L'.server = L.server from hServer]
        exact hReach
    | some a =>
        rw [hAction] at hServer
        refine ⟨serverRun ++ [(L.server, a)], .next hReach hServer, ?_⟩
        rw [serverActions_snoc, hAction, List.map_append, hActions]
        rfl

theorem Represents.running (hRep : Represents L run p) : p.outcome = none := by
  rw [hRep.process]
  rfl

/-- Every run of the process. -/
theorem process_run (hReach : Reaches Process.step Process.init run p) : Progress run p := by
  induction hReach with
  | start => exact .running .empty ⟨rfl, holds_empty, [], .start, rfl⟩
  | next hRun hStep ih =>
      rename_i run p p' cb
      rcases ih with ⟨L, hRep⟩ | ⟨-, -, -, -, -, -, e, hEnd⟩ | ⟨-, -, -, -, -, -, hEnd⟩ |
        ⟨-, -, -, -, -, -, -, hEnd⟩
      · have hHere := hStep
        rw [hRep.process] at hHere
        rcases hRep.holds.leads hHere with
          ⟨hNext, hFollows⟩ | ⟨e, hEnd, hEnded⟩ | ⟨hWrites, hEnd⟩ | ⟨hFails, hStops, hEnd⟩
        · exact .running _ (hRep.next hNext hFollows)
        · exact .stopped L run (p, cb) rfl hRep hEnded e hEnd
        · rw [← hRep.process] at hWrites
          exact .faulted L run (p, cb) rfl hRep hWrites hEnd
        · exact .miscopied L run (p, cb) rfl hRep hFails hStops hEnd
      · exact absurd hStep (by simp [Process.step, hEnd])
      · exact absurd hStep (by simp [Process.step, hEnd])
      · exact absurd hStep (by simp [Process.step, hEnd])

/-! ## Faults -/

/-- `uv_write` to a released handle is a fault. -/
theorem faults_of_writesToReleased {p' : Process} {cb : Callback} (hWrites : WritesToReleased p cb)
    (hStep : p.step cb = some p') : p'.outcome = some .badAccess := by
  obtain ⟨rc, req, rest, data, w, handle, rfl, hFinished, hReq, hData, hSome, hStream, hReleased⟩ :=
    hWrites.item
  have hFaults := HeapProg.onWorkCompleted_faults rc hReq hData hSome hStream hReleased
  unfold Process.step at hStep
  split at hStep
  · exact absurd hStep (by simp)
  · simp only [Process.onWorkCompleted, hFinished, Process.run, hFaults, Option.some.injEq] at hStep
    rw [← hStep]

/-- In a state with a layout the handle was that of a client that is freed. -/
theorem Represents.freed_of_writesToReleased {cb : Callback} (hRep : Represents L run p)
    (hWrites : WritesToReleased p cb) :
    ∃ w ∈ L.server.finished, L.server.peers[w.uvclient]? = some .freed := by
  obtain ⟨rc, req, rest, data, block, handle, -, hFinished, hReq, hData, -, hStream, hReleased⟩ :=
    hWrites.item
  rw [hRep.process] at hFinished
  obtain ⟨w, rest', hItems, rfl, -⟩ := List.map_eq_cons_iff.mp hFinished
  have hMem : w ∈ L.finished := hItems ▸ List.mem_cons_self
  have hCell : ∀ c ∈ w.workCells, p.heap.cell c.1 = some c.2 := by
    intro c hCell
    refine (hRep.holds.owns.cell_iff _ _).mpr ?_
    rw [Layout.cells, hItems]
    simp [hCell]
  have hReq' := hCell (w.req, .workReq (some w.data)) (by simp [OwnedWork.workCells])
  have hData' := hCell (w.data, .workData w.block)
    (by simp [OwnedWork.workCells, OwnedWork.dataCells])
  obtain rfl : w.data = data := by simpa using hReq'.symm.trans hReq
  obtain rfl : w.block = block := by simpa using hData'.symm.trans hData
  obtain rfl : w.client.handle = handle := by simpa [OwnedWork.block] using hStream
  have hLinked := hRep.holds.linked w (List.mem_append_right _ hMem)
  rw [List.getElem?_map, Option.map_eq_some_iff] at hLinked
  obtain ⟨k, hClient, hBlocks⟩ := hLinked
  refine ⟨w.work, List.mem_map_of_mem hMem, ?_⟩
  rcases hPeer : k.peer with ⟨ep, reading⟩ | _
  · have hLive := hRep.holds.handle_cell hClient hPeer
    rw [hBlocks, hReleased.2] at hLive
    exact absurd hLive (by simp)
  · rw [Layout.server, List.getElem?_map, hClient, Option.map_some, hPeer]

/-- The process ends in a fault only when its last callback was a completion that gave
`uv_write` the handle of a released client, or a read whose copy was reported as a
failure, which ends `Server` too. -/
theorem last_of_fault (hReach : Reaches Process.step Process.init run p)
    (hFault : p.outcome = some .badAccess) :
    ∃ L pre q, run = pre ++ [q] ∧ Represents L pre q.1 ∧ (WritesToReleased q.1 q.2 ∨
      ¬ q.2.Copies ∧ ∃ a, q.2.action = some a ∧ Server.Stops L.server a) := by
  rcases process_run hReach with ⟨L, hRep⟩ | ⟨-, -, -, -, -, -, e, hEnd⟩ |
    ⟨L, pre, q, hRun, hRep, hWrites, -⟩ | ⟨L, pre, q, hRun, hRep, hFails, hStops, -⟩
  · exact absurd (hRep.running.symm.trans hFault) (by simp)
  · exact absurd (hEnd.symm.trans hFault) (by simp)
  · exact ⟨L, pre, q, hRun, hRep, .inl hWrites⟩
  · exact ⟨L, pre, q, hRun, hRep, .inr ⟨hFails, hStops⟩⟩

/-- Over any interleaving of the callbacks, as long as the copies of chunks are reported as
successes: the callbacks touch no block after its release, release none twice and mix up
no two kinds, unless the last one was a completion that gave `uv_write` the handle of a
released client. -/
theorem process_faults_iff (hReach : Reaches Process.step Process.init run p)
    (hCopies : Always (fun _ q => q.2.Copies) run) :
    p.outcome = some .badAccess ↔ ∃ pre q, run = pre ++ [q] ∧ WritesToReleased q.1 q.2 := by
  constructor
  · intro hFault
    obtain ⟨L, pre, q, rfl, -, hWrites | ⟨hFails, -⟩⟩ := last_of_fault hReach hFault
    · exact ⟨pre, q, rfl, hWrites⟩
    · exact absurd (always_snoc.mp hCopies).2 hFails
  · rintro ⟨pre, q, hRun, hWrites⟩
    cases hReach with
    | start => exact absurd hRun (by simp)
    | next hBefore hStep =>
        obtain ⟨-, hLast⟩ := List.append_inj' hRun rfl
        obtain rfl := List.singleton_inj.mp hLast
        exact faults_of_writesToReleased hWrites hStep

/-- The client that was closed first is released under its answer. -/
theorem process_faults_iff_closedFirst :
    (record Process.step [] Process.init closedFirstCallbacks).1.length = 6 ∧
      ∃ pre q, (record Process.step [] Process.init closedFirstCallbacks).1 = pre ++ [q] ∧
        WritesToReleased q.1 q.2 :=
  ⟨closedFirst_run.1, (process_faults_iff (reaches_record closedFirstCallbacks .start)
    closedFirst_copies).mp closedFirst_run.2⟩

/-- Over a run of `Server` that closes every client only after its chunks were served,
no finished item is of a client that is freed. -/
theorem served_not_freed {serverRun : List (Server × Action)} {s : Server}
    (hReach : Reaches Server.step Server.init serverRun s)
    (hServed : Always Server.ServedFirst serverRun) (c : Nat) : Server.SafeFor c s := by
  have hIdle := (Server.always_idle_iff hReach c).mpr
    (hServed.mono fun _ _ _ _ hHere => hHere c)
  refine @Reaches.invariant _ _ _ _ _ _ _ (fun _ s => Server.SafeFor c s) ?_ ?_ hReach hIdle
  · exact fun w hMem => absurd hMem (by simp [Server.init])
  · intro run s a s' hSafe hFrees hStep
    exact Server.safeFor_step hSafe (fun hFreesC => (hFrees hFreesC).2) (Server.step_cases hStep).2

/-- Before the fault some client was closed by the worker although not all its chunks had
been served. -/
theorem process_fault_unserved (hReach : Reaches Process.step Process.init run p)
    (hCopies : Always (fun _ q => q.2.Copies) run) (hFault : p.outcome = some .badAccess) :
    ∃ pre q serverRun s, run = pre ++ [q] ∧ Reaches Server.step Server.init serverRun s ∧
      serverRun.map Prod.snd = serverActions pre ∧ ¬ Always Server.ServedFirst serverRun := by
  obtain ⟨L, pre, q, rfl, hRep, hWrites | ⟨hFails, -⟩⟩ := last_of_fault hReach hFault
  · obtain ⟨serverRun, hServer, hActions⟩ := hRep.server
    refine ⟨pre, q, serverRun, L.server, rfl, hServer, hActions, fun hServed => ?_⟩
    obtain ⟨w, hMem, hFreed⟩ := hRep.freed_of_writesToReleased hWrites
    exact served_not_freed hServer hServed w.uvclient w (List.mem_append_left _ hMem) rfl hFreed
  · exact absurd (always_snoc.mp hCopies).2 hFails

/-- The client that was closed first was not served. -/
theorem process_fault_unserved_closedFirst :
    ∃ pre q serverRun s,
      (record Process.step [] Process.init closedFirstCallbacks).1 = pre ++ [q] ∧
        Reaches Server.step Server.init serverRun s ∧
          serverRun.map Prod.snd = serverActions pre ∧ ¬ Always Server.ServedFirst serverRun :=
  process_fault_unserved (reaches_record closedFirstCallbacks .start) closedFirst_copies
    closedFirst_run.2

/-- As long as the process runs, it is at a state of `Server` that the same steps lead
to.  It exits only by a step that ends `Server`, or when libuv refuses a call; and it
faults only by such a step, which is a copy reported as a failure, or by a write to a
released handle. -/
theorem process_refines_server (hReach : Reaches Process.step Process.init run p) :
    (p.outcome = none → ∃ L, Represents L run p) ∧
      (∀ e, p.outcome = some (.stop e) → ∃ L pre q, run = pre ++ [q] ∧ Represents L pre q.1 ∧
        L.server.EndedBy q.2) ∧
      (p.outcome = some .badAccess → ∃ L pre q, run = pre ++ [q] ∧ Represents L pre q.1 ∧
        (WritesToReleased q.1 q.2 ∨
          ¬ q.2.Copies ∧ ∃ a, q.2.action = some a ∧ Server.Stops L.server a)) := by
  refine ⟨fun hRunning => ?_, fun e hStop => ?_, last_of_fault hReach⟩
  · rcases process_run hReach with ⟨L, hRep⟩ | ⟨-, -, -, -, -, -, e, hEnd⟩ |
      ⟨-, -, -, -, -, -, hEnd⟩ | ⟨-, -, -, -, -, -, -, hEnd⟩
    · exact ⟨L, hRep⟩
    · exact absurd (hEnd.symm.trans hRunning) (by simp)
    · exact absurd (hEnd.symm.trans hRunning) (by simp)
    · exact absurd (hEnd.symm.trans hRunning) (by simp)
  · rcases process_run hReach with ⟨_, hRep⟩ | ⟨L, pre, q, hRun, hRep, hEnded, -, -⟩ |
      ⟨-, -, -, -, -, -, hEnd⟩ | ⟨-, -, -, -, -, -, -, hEnd⟩
    · exact absurd (hRep.running.symm.trans hStop) (by simp)
    · exact ⟨L, pre, q, hRun, hRep, hEnded⟩
    · exact absurd (hEnd.symm.trans hStop) (by simp)
    · exact absurd (hEnd.symm.trans hStop) (by simp)

end Run

/-- The client that was answered first is at the state that `Server` gets to. -/
theorem process_refines_server_servedFirst :
    ∃ L, Represents L (record Process.step [] Process.init servedFirstCallbacks).1
      (record Process.step [] Process.init servedFirstCallbacks).2 :=
  (process_refines_server (reaches_record servedFirstCallbacks .start)).1 servedFirst_run.2.1

/-! ## From `Server` to the heap -/

/-- A callback that takes the step of `Server`, with every call of libuv accepted. -/
def Action.callback : Action → Callback
  | .onPeerConnected ntWorkData => .onPeerConnected 0 acceptedResults ntWorkData none
  | .onPeerRead c nread buf ret => .onPeerRead c nread buf ret 0 none
  | .worker mem => .worker mem
  | .onWorkCompleted status rc => .onWorkCompleted status rc
  | .onSentResponse i status => .onSentResponse i status

theorem Action.callback_action (a : Action) : a.callback.action = some a := by
  cases a <;> rfl

theorem Action.callback_refused (a : Action) : ¬ a.callback.Refused := by
  cases a <;> simp [Action.callback, Callback.Refused, acceptedResults]

/-- What `Server` can do at a layout, the process can do. -/
theorem Layout.step_isSome {L : Layout} (h : Heap Obj) {a : Action} {s' : Server}
    (hStep : Server.step L.server a = some s') : ∃ p, (L.process h).step a.callback = some p := by
  have hRunning : (L.process h).outcome = none := rfl
  unfold Process.step
  rw [if_neg (not_not.mpr hRunning)]
  cases a with
  | onPeerConnected ntWorkData => exact ⟨_, rfl⟩
  | onPeerRead c nread buf ret =>
      have hRead : L.server.onPeerRead c nread buf ret = some s' := hStep
      unfold Server.onPeerRead at hRead
      split at hRead
      · rename_i ep hPeer
        by_cases hBad : (buf.length : Int) < nread ∨ 2147483648 ≤ buf.length
        · rw [if_pos hBad] at hRead
          exact absurd hRead (by simp)
        · rw [Layout.server, List.getElem?_map, Option.map_eq_some_iff] at hPeer
          obtain ⟨k, hClient, hConnected⟩ := hPeer
          have hHandle : (L.process h).clients[c]? = some (k.blocks.handle, true) := by
            rw [← OwnedClient.connection_connected hConnected]
            exact List.getElem?_map.trans (by rw [hClient]; rfl)
          simp only [Action.callback, Process.onPeerRead, hHandle, if_neg hBad]
          exact ⟨_, rfl⟩
      · exact absurd hRead (by simp)
  | worker mem =>
      have hWorker : L.server.worker mem = some s' := hStep
      rcases hQueue : L.queue with _ | ⟨w, rest⟩
      · simp only [Server.worker, Layout.server, hQueue, List.map_nil] at hWorker
        exact absurd hWorker (by simp)
      · simp only [Action.callback, Process.worker, Layout.process, hQueue, List.map_cons]
        cases w.callback <;> exact ⟨_, rfl⟩
  | onWorkCompleted status rc =>
      have hCompleted : L.server.onWorkCompleted status rc = some s' := hStep
      rcases hFinished : L.finished with _ | ⟨w, rest⟩
      · simp only [Server.onWorkCompleted, Layout.server, hFinished, List.map_nil] at hCompleted
        exact absurd hCompleted (by simp)
      · simp only [Action.callback, Process.onWorkCompleted, Layout.process, hFinished,
          List.map_cons]
        exact ⟨_, rfl⟩
  | onSentResponse i status =>
      have hSent : L.server.onSentResponse i status = some s' := hStep
      have hIndex : i < L.writing.length := by
        by_contra hLe
        unfold Server.onSentResponse at hSent
        rw [if_pos (by rw [Layout.server, List.length_map]; exact not_lt.mp hLe)] at hSent
        exact absurd hSent (by simp)
      simp only [Action.callback, Process.onSentResponse, Layout.process, List.getElem?_map,
        List.getElem?_eq_getElem hIndex, Option.map_some]
      exact ⟨_, rfl⟩

/-- A step that `Server` takes at a layout, on the heap: the process follows, or it ends
with `Server`, or it writes to a released handle. -/
theorem Represents.step_cases {run : List (Process × Callback)} {p : Process} {L : Layout}
    (hRep : Represents L run p) {a : Action} {s' : Server}
    (hStep : Server.step L.server a = some s') :
    ∃ p', p.step a.callback = some p' ∧
      ((∃ L', Represents L' (run ++ [(p, a.callback)]) p' ∧ L'.server = s') ∨
        p'.outcome ≠ none ∧ (s'.exited = true ∨ WritesToReleased p a.callback)) := by
  obtain ⟨p', hNext⟩ := L.step_isSome p.heap hStep
  have hHere := hNext
  rw [← hRep.process] at hNext
  have hExits : L.server.EndedBy a.callback → s'.exited = true := by
    rintro (hRefused | ⟨a', hAction, hStops⟩)
    · exact absurd hRefused a.callback_refused
    · rw [Action.callback_action] at hAction
      obtain rfl := Option.some.inj hAction
      rw [Server.step_stops (Server.step_cases hStep).1 hStops hStep]
      rfl
  refine ⟨p', hNext, ?_⟩
  rcases hRep.holds.leads hHere with
    ⟨hHolds, hFollows⟩ | ⟨e, hEnd, hEnded⟩ | ⟨hWrites, hEnd⟩ | ⟨-, hStops, hEnd⟩
  · rename_i L' h'
    refine .inl ⟨L', hRep.next hHolds hFollows, ?_⟩
    rw [Action.callback_action] at hFollows
    exact Option.some.inj (hFollows.symm.trans hStep)
  · exact .inr ⟨by simp [hEnd], .inl (hExits hEnded)⟩
  · rw [← hRep.process] at hWrites
    exact .inr ⟨by simp [hEnd], .inr hWrites⟩
  · exact .inr ⟨by simp [hEnd], .inl (hExits (.inr hStops))⟩

/-- Every run of `Server` that closes its clients only after they were served is one of
the process.  No step of it is lost; while `Server` runs the heap holds the blocks of
its state, and the process ends when `Server` does. -/
theorem server_runs_on_heap {serverRun : List (Server × Action)} {s : Server}
    (hReach : Reaches Server.step Server.init serverRun s)
    (hServed : Always Server.ServedFirst serverRun) :
    ∃ run p, Reaches Process.step Process.init run p ∧
      serverActions run = serverRun.map Prod.snd ∧
        (s.exited = false → ∃ L, Represents L run p ∧ L.server = s) ∧
          (s.exited = true → p.outcome ≠ none) := by
  induction hReach with
  | start =>
      exact ⟨[], Process.init, .start, rfl,
        fun _ => ⟨.empty, ⟨rfl, holds_empty, [], .start, rfl⟩, rfl⟩, fun hExited => by
          exact absurd hExited (by decide)⟩
  | next hBefore hStep ih =>
      rename_i serverRun s s' a
      obtain ⟨hServedBefore, -⟩ := always_snoc.mp hServed
      obtain ⟨run, p, hRun, hActions, hRunning, -⟩ := ih hServedBefore
      obtain ⟨L, hRep, rfl⟩ := hRunning (Server.step_cases hStep).1
      obtain ⟨p', hNext, hCases⟩ := hRep.step_cases hStep
      refine ⟨run ++ [(p, a.callback)], p', .next hRun hNext, ?_, fun hGoesOn => ?_,
        fun hExited => ?_⟩
      · rw [serverActions_snoc, hActions, Action.callback_action, List.map_append]
        rfl
      · rcases hCases with hFollows | ⟨-, hExited | hWrites⟩
        · exact hFollows
        · exact absurd (hExited.symm.trans hGoesOn) (by simp)
        · obtain ⟨w, hMem, hFreed⟩ := hRep.freed_of_writesToReleased hWrites
          exact absurd hFreed (served_not_freed hBefore hServedBefore w.uvclient w
            (List.mem_append_left _ hMem) rfl)
      · rcases hCases with ⟨L', -, rfl⟩ | ⟨hEnd, -⟩
        · exact absurd hExited (by simp [Layout.server])
        · exact hEnd

/-- The client that was answered first, on the heap. -/
theorem server_runs_on_heap_servedFirst :
    ∃ run p, Reaches Process.step Process.init run p ∧
      serverActions run =
        (record Server.step [] Server.init Server.servedFirstActions).1.map Prod.snd ∧
          ∃ L, Represents L run p ∧
            L.server = (record Server.step [] Server.init Server.servedFirstActions).2 := by
  obtain ⟨run, p, hRun, hActions, hRunning, -⟩ :=
    server_runs_on_heap (reaches_record Server.servedFirstActions .start) (by decide +kernel)
  exact ⟨run, p, hRun, hActions, hRunning (by decide +kernel)⟩

/-! ## The ledger -/

/-- The blocks behind a client: its handle, its state and its endpoint. -/
def Peer.blocks : Peer → Nat
  | .connected _ _ => 3
  | .freed => 0

/-- The blocks of an item: the request, the work data and the buffers it has. -/
def PeerWorkData.blocks (w : PeerWorkData) : Nat :=
  2 + w.request.base.toList.length + w.response.base.toList.length

/-- The blocks of the server. -/
def Server.blocks (s : Server) : Nat :=
  (s.peers.map Peer.blocks).sum + (s.queue.map PeerWorkData.blocks).sum +
    (s.finished.map PeerWorkData.blocks).sum + (s.writing.map PeerWorkData.blocks).sum

theorem card_cells (k : OwnedClient) : Multiset.card k.cells = k.peer.blocks := by
  unfold OwnedClient.cells
  cases k.peer <;> rfl

theorem UvBuf.card_cells (buf : UvBuf) (a : Addr) :
    Multiset.card (buf.cells a) = buf.base.toList.length := by
  unfold UvBuf.cells
  cases buf.base <;> rfl

theorem card_dataCells (w : OwnedWork) : Multiset.card w.dataCells + 1 = w.work.blocks := by
  rw [OwnedWork.dataCells, Multiset.card_cons, Multiset.card_add, UvBuf.card_cells,
    UvBuf.card_cells, PeerWorkData.blocks]
  omega

theorem card_workCells (w : OwnedWork) : Multiset.card w.workCells = w.work.blocks := by
  rw [OwnedWork.workCells, Multiset.card_cons, card_dataCells]

theorem card_writeCells (w : OwnedWork) : Multiset.card w.writeCells = w.work.blocks := by
  rw [OwnedWork.writeCells, Multiset.card_cons, card_dataCells]

theorem Layout.card_cells (L : Layout) :
    Multiset.card L.cells = L.server.blocks + L.closing.length := by
  have hSum : ∀ {α : Type} (part : α → Multiset Cell) (l : List α),
      Multiset.card (l.map part).sum = (l.map fun a => Multiset.card (part a)).sum := by
    intro α part l
    induction l with
    | nil => rfl
    | cons a l ih => simp [ih]
  have hClosing : ∀ a, Multiset.card (Layout.closingCells a) = 1 := fun _ => rfl
  simp only [Layout.cells, Multiset.card_add, hSum, WebSocketFiles.card_cells, card_workCells,
    card_writeCells, hClosing, Server.blocks, Layout.server, List.map_map, Function.comp_def]
  simp

/-- A heap without live blocks has no cells. -/
theorem live_eq_nil_iff {L : Layout} {h : Heap Obj} (hHolds : Holds L h) :
    h.live = [] ↔ L.cells = 0 := by
  rw [← List.length_eq_zero_iff, hHolds.owns.length_live, Multiset.card_eq_zero]

theorem sum_map_cons_ne {α : Type} {part : α → Multiset Cell} (hPart : ∀ a, part a ≠ 0)
    {l : List α} : (l.map part).sum = 0 ↔ l = [] := by
  cases l with
  | nil => simp
  | cons a l => simp [hPart a]

/-- The clients have no blocks when all their handles were released. -/
theorem clients_released_iff {L : Layout} {h : Heap Obj} (hHolds : Holds L h) :
    (L.clients.map OwnedClient.cells).sum = 0 ↔
      ∀ k ∈ L.clients, h.cell k.blocks.handle = none := by
  rw [List.sum_eq_zero_iff, List.forall_mem_map]
  refine forall₂_congr fun k hMem => ?_
  rcases hPeer : k.peer with ⟨ep, reading⟩ | _
  · obtain ⟨c, hClient⟩ := List.mem_iff_getElem?.mp hMem
    rw [OwnedClient.cells_connected hPeer, hHolds.handle_cell hClient hPeer]
    simp
  · have hReleased := hHolds.released k hMem hPeer
    rw [OwnedClient.cells, hPeer]
    exact ⟨fun _ => hReleased.2, fun _ => rfl⟩

/-- While the process runs, the blocks that are live are those of the connections and
of the items that libuv holds, and when it holds none and every client was released
there are none. -/
theorem process_ledger {run : List (Process × Callback)} {p : Process}
    (hReach : Reaches Process.step Process.init run p) (hRunning : p.outcome = none) :
    (∃ serverRun s, Reaches Server.step Server.init serverRun s ∧
        serverRun.map Prod.snd = serverActions run ∧
          p.heap.live.length = s.blocks + p.closing.length) ∧
      (p.heap.live = [] ↔ (p.queue = [] ∧ p.finished = [] ∧ p.writing = [] ∧ p.closing = []) ∧
        ∀ connection ∈ p.clients, p.heap.cell connection.1 = none) := by
  obtain ⟨L, hProcess, hHolds, serverRun, hServer, hActions⟩ :=
    (process_refines_server hReach).1 hRunning
  refine ⟨⟨serverRun, L.server, hServer, hActions, ?_⟩, ?_⟩
  · rw [hHolds.owns.length_live, L.card_cells, hProcess]
    rfl
  · have hWork : ∀ w : OwnedWork, w.workCells ≠ 0 := fun w => Multiset.cons_ne_zero
    have hWrite : ∀ w : OwnedWork, w.writeCells ≠ 0 := fun w => Multiset.cons_ne_zero
    have hClosing : ∀ a, Layout.closingCells a ≠ 0 := fun a => Multiset.singleton_ne_zero _
    have hConnections : (∀ connection ∈ p.clients, p.heap.cell connection.1 = none) ↔
        ∀ k ∈ L.clients, p.heap.cell k.blocks.handle = none := by
      rw [hProcess]
      exact List.forall_mem_map
    rw [live_eq_nil_iff hHolds, hConnections, ← clients_released_iff hHolds, hProcess]
    simp only [Layout.cells, Layout.process, add_eq_zero, sum_map_cons_ne hWork,
      sum_map_cons_ne hWrite, sum_map_cons_ne hClosing, List.map_eq_nil_iff]
    tauto

/-- After the client that was answered first is closed, nothing is left. -/
theorem process_ledger_servedFirst :
    (record Process.step [] Process.init servedFirstCallbacks).1.length = 7 ∧
      (record Process.step [] Process.init servedFirstCallbacks).2.heap.live = [] :=
  ⟨servedFirst_run.1, (process_ledger (reaches_record servedFirstCallbacks .start)
    servedFirst_run.2.1).2.mpr servedFirst_run.2.2⟩

end WebSocketFiles
