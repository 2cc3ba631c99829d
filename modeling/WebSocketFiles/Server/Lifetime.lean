import WebSocketFiles.Handshake.Verdict
import WebSocketFiles.Library.Transition
import WebSocketFiles.Server.Steps

/-!
# The lifetime of a client

`on_work_client_closed` frees a client on the worker thread, while completion
callbacks and writes for earlier chunks of the same client may still be waiting
for the loop thread.

Nothing in the program orders the two.  A run keeps off freed clients when each
client is closed only after the loop thread is done with all its chunks, that
is, after as many of them were served as were read (`clients_outlive_work`).
-/

namespace WebSocketFiles

open History Transition

namespace Server

/-! ## The clients behind the queues -/

/-- The client the step frees: the worker takes the end of its connection. -/
def frees (q : Server × Action) : Option Nat :=
  match q.2, q.1.queue with
  | .worker _, workData :: _ => if workData.type = 1 then none else some workData.uvclient
  | _, _ => none

/-- The client of the item that a callback of the loop thread is called for.  A completion
without a response counts, although it does not touch the client. -/
def actsOn (q : Server × Action) : Option Nat :=
  match q.2 with
  | .onWorkCompleted _ _ => q.1.finished.head?.map PeerWorkData.uvclient
  | .onSentResponse i _ => q.1.writing[i]?.map PeerWorkData.uvclient
  | _ => none

/-- What holds of the clients behind the work queue: none is freed, and the end
of a connection is the last item of its client. -/
structure Queued (s : Server) : Prop where
  not_freed : ∀ w ∈ s.queue, s.peers[w.uvclient]? ≠ some .freed
  closing : ∀ w ∈ s.queue, w.type ≠ 1 → ∃ ep, s.peers[w.uvclient]? = some (.connected ep false)
  last : s.queue.Pairwise fun w v => w.type ≠ 1 → v.uvclient ≠ w.uvclient

/-- A new client does not hide another. -/
theorem connect_freed {peers : List Peer} {ep : WebSocketEndpoint} {i : Nat}
    (hNot : peers[i]? ≠ some .freed) : (peers ++ [.connected ep true])[i]? ≠ some .freed := by
  rw [List.getElem?_append]
  split
  · exact hNot
  · rw [List.getElem?_singleton]
    split <;> simp

/-- Setting a client to anything but freed frees none. -/
theorem set_freed {peers : List Peer} {c i : Nat} {ep : WebSocketEndpoint} {reading : Bool}
    (hNot : peers[i]? ≠ some .freed) :
    (peers.set c (.connected ep reading))[i]? ≠ some .freed := by
  rw [List.getElem?_set]
  split
  · split <;> simp
  · exact hNot

theorem set_self {peers : List Peer} {c : Nat} {peer : Peer} (new : Peer)
    (hPeer : peers[c]? = some peer) : (peers.set c new)[c]? = some new := by
  obtain ⟨hLt, -⟩ := List.getElem?_eq_some_iff.mp hPeer
  rw [List.getElem?_set, if_pos rfl, if_pos hLt]

theorem set_other (peers : List Peer) {c i : Nat} (new : Peer) (hNe : i ≠ c) :
    (peers.set c new)[i]? = peers[i]? :=
  List.getElem?_set_ne (Ne.symm hNe)

/-- An item at the end of the queue, for a client that was being read from. -/
theorem Queued.snoc {s : Server} (hQueued : Queued s) {w : PeerWorkData}
    {ep : WebSocketEndpoint} (hPeer : s.peers[w.uvclient]? = some (.connected ep true)) :
    (s.queue ++ [w]).Pairwise fun w v => w.type ≠ 1 → v.uvclient ≠ w.uvclient := by
  refine List.pairwise_append.mpr ⟨hQueued.last, List.pairwise_singleton _ _, ?_⟩
  intro v hv u hu hType hSame
  rw [List.mem_singleton.mp hu] at hSame
  obtain ⟨ep', hClosing⟩ := hQueued.closing v hv hType
  rw [← hSame, hPeer] at hClosing
  simp at hClosing

theorem queued_step {s s' : Server} {a : Action} (hQueued : Queued s) (hStep : Step s a s') :
    Queued s' := by
  cases hStep with
  | stops hStops => exact ⟨hQueued.not_freed, hQueued.closing, hQueued.last⟩
  | connects ntWorkData =>
      refine ⟨fun w hw => connect_freed (hQueued.not_freed w hw), fun w hw hType => ?_,
        hQueued.last⟩
      obtain ⟨ep, hPeer⟩ := hQueued.closing w hw hType
      obtain ⟨hLt, -⟩ := List.getElem?_eq_some_iff.mp hPeer
      exact ⟨ep, by rw [← hPeer]; exact List.getElem?_append_left hLt⟩
  | quiet ret hPeer hSize => exact hQueued
  | reads hPeer hPos hFits hSize hRet =>
      refine ⟨fun v hv => ?_, fun v hv hEnd => ?_, hQueued.snoc hPeer⟩
      · rcases List.mem_append.mp hv with hOld | hNew
        · exact hQueued.not_freed v hOld
        · rw [List.mem_singleton.mp hNew, PeerWorkData.chunk_uvclient, hPeer]
          simp
      · rcases List.mem_append.mp hv with hOld | hNew
        · exact hQueued.closing v hOld hEnd
        · rw [List.mem_singleton.mp hNew] at hEnd
          exact absurd rfl hEnd
  | ends ret hPeer hNeg hSize =>
      refine ⟨fun v hv => ?_, fun v hv hEnd => ?_, hQueued.snoc hPeer⟩
      · rcases List.mem_append.mp hv with hOld | hNew
        · exact set_freed (hQueued.not_freed v hOld)
        · rw [List.mem_singleton.mp hNew, PeerWorkData.closing_uvclient, set_self _ hPeer]
          simp
      · rcases List.mem_append.mp hv with hOld | hNew
        · obtain ⟨ep', hClosing⟩ := hQueued.closing v hOld hEnd
          refine ⟨ep', ?_⟩
          rw [set_other _ _ fun hSame => ?_]
          · exact hClosing
          · rw [hSame, hPeer] at hClosing
            simp at hClosing
        · rw [List.mem_singleton.mp hNew]
          exact ⟨_, set_self _ hPeer⟩
  | submits hQueue hType hPeer hWork =>
      have hLast := hQueue ▸ hQueued.last
      refine ⟨fun v hv => ?_, fun v hv hEnd => ?_, (List.pairwise_cons.mp hLast).2⟩
      · exact set_freed (hQueued.not_freed v (hQueue ▸ List.mem_cons_of_mem _ hv))
      · obtain ⟨ep₁, hClosing⟩ := hQueued.closing v (hQueue ▸ List.mem_cons_of_mem _ hv) hEnd
        rename_i workData _ _ _ ep' _ _
        -- processing a chunk keeps the client's `reading` flag
        by_cases hSame : v.uvclient = workData.uvclient
        · rw [hSame] at hClosing ⊢
          rw [hPeer] at hClosing
          simp only [Option.some.injEq, Peer.connected.injEq] at hClosing
          rw [hClosing.2]
          exact ⟨ep', set_self _ hPeer⟩
        · exact ⟨ep₁, by rw [← hClosing]; exact set_other _ _ hSame⟩
  | closes mem hQueue hType hPeer =>
      -- the end of a connection is the last item of its client, so no other is hit
      have hLast := List.pairwise_cons.mp (hQueue ▸ hQueued.last)
      refine ⟨fun v hv => ?_, fun v hv hEnd => ?_, hLast.2⟩
      · have hOther := set_other s.peers .freed (hLast.1 v hv hType)
        exact hOther ▸ hQueued.not_freed v (hQueue ▸ List.mem_cons_of_mem _ hv)
      · have hOther := set_other s.peers .freed (hLast.1 v hv hType)
        exact hOther ▸ hQueued.closing v (hQueue ▸ List.mem_cons_of_mem _ hv) hEnd
  | drops rc hFinished hNone => exact ⟨hQueued.not_freed, hQueued.closing, hQueued.last⟩
  | writes hFinished hSome hRc => exact ⟨hQueued.not_freed, hQueued.closing, hQueued.last⟩
  | sends hIndex => exact ⟨hQueued.not_freed, hQueued.closing, hQueued.last⟩

/-- Over any run of the server the worker never takes an item of a freed client:
it works on live endpoints, and closes no client twice. -/
theorem worker_keeps_off_freed {run : List (Server × Action)} {s : Server}
    (hReach : Reaches step init run s) :
    Always (fun _ q => ∀ w ∈ q.1.queue, q.1.peers[w.uvclient]? ≠ some .freed) run := by
  have hQueued : Always (fun _ q => Queued q.1) run := by
    refine Reaches.always ⟨by simp [init], by simp [init], .nil⟩ ?_ hReach (always_true run)
    intro run s a s' hQueued _ hStep
    exact queued_step hQueued (step_cases hStep).2
  exact hQueued.mono fun _ _ _ _ hQueued => hQueued.not_freed

/-! ## Chunks read and chunks served -/

/-- A chunk is read from client `c`. -/
def readsFrom (c : Nat) (q : Server × Action) : Bool :=
  match q.2 with
  | .onPeerRead c' nread _ _ => c' = c ∧ 0 < nread
  | _ => false

/-- The loop thread is done with a chunk of client `c`: it had no response, or
its response has been sent. -/
def serves (c : Nat) (q : Server × Action) : Bool :=
  match q.2 with
  | .onWorkCompleted _ _ =>
      match q.1.finished with
      | workData :: _ => workData.uvclient = c ∧ workData.response.base = none
      | [] => false
  | .onSentResponse i _ => q.1.writing[i]?.map PeerWorkData.uvclient = some c
  | _ => false

/-- Every chunk read was served, or is still on its way: in the work queue,
finished, or being written. -/
def Balanced (run : List (Server × Action)) (s : Server) : Prop :=
  s.exited = false → ∀ c, run.countP (readsFrom c) =
    run.countP (serves c) + s.queue.countP (chunkOf c) + s.finished.countP (ofClient c) +
      s.writing.countP (ofClient c)

theorem countP_eraseIdx {α : Type} (p : α → Bool) {l : List α} {i : Nat} (hi : i < l.length) :
    l.countP p = (l.eraseIdx i).countP p + if p l[i] then 1 else 0 := by
  have hSplit : l = l.take i ++ l[i] :: l.drop (i + 1) := by
    rw [← List.drop_eq_getElem_cons hi, List.take_append_drop]
  rw [List.eraseIdx_eq_take_drop_succ, List.countP_append]
  conv_lhs => rw [hSplit]
  rw [List.countP_append, List.countP_cons]
  omega

theorem balanced_step {run : List (Server × Action)} {s s' : Server} {a : Action}
    (hBalanced : Balanced run s) (hRunning : s.exited = false) (hStep : Step s a s') :
    Balanced (run ++ [(s, a)]) s' := by
  intro hGoesOn c
  have hCount := hBalanced hRunning c
  rw [List.countP_append, List.countP_append, List.countP_singleton, List.countP_singleton]
  cases hStep with
  | stops hStops => exact absurd hGoesOn (by simp [exit])
  | connects ntWorkData =>
      simp only [readsFrom, serves, Bool.false_eq_true, if_false]
      omega
  | quiet ret hPeer hSize =>
      simp only [readsFrom, serves, lt_irrefl, and_false, decide_false, Bool.false_eq_true,
        if_false]
      omega
  | reads hPeer hPos hFits hSize hRet =>
      rename_i c' ep nread buf ret
      have hChunk : ∀ readbuf, chunkOf c (.chunk c' readbuf) = decide (c' = c) := by
        simp [chunkOf]
      simp only [readsFrom, serves, hPos, and_true, List.countP_append, List.countP_singleton,
        hChunk, Bool.false_eq_true, if_false]
      omega
  | ends ret hPeer hNeg hSize =>
      have hChunk : ∀ c', chunkOf c (.closing c') = false := by
        simp [chunkOf]
      have hNot := Int.not_lt.mpr hNeg.le
      simp only [readsFrom, serves, hNot, and_false, decide_false, List.countP_append,
        List.countP_singleton, hChunk, Bool.false_eq_true, if_false]
      omega
  | submits hQueue hType hPeer hWork =>
      rename_i mem workData workData' rest ep ep' reading nrc
      have hChunk : chunkOf c workData = ofClient c workData' := by
        simp [chunkOf, ofClient, hType, onWorkSubmitted_ok hWork]
      rw [hQueue, List.countP_cons, hChunk] at hCount
      simp only [readsFrom, serves, List.countP_append, List.countP_singleton,
        Bool.false_eq_true, if_false]
      omega
  | closes mem hQueue hType hPeer =>
      rename_i workData rest ep reading
      have hChunk : chunkOf c workData = false := by
        simp [chunkOf, hType]
      rw [hQueue, List.countP_cons, hChunk] at hCount
      simp only [readsFrom, serves, Bool.false_eq_true, if_false] at hCount ⊢
      omega
  | drops rc hFinished hNone =>
      rename_i workData rest
      have hServes : serves c (s, .onWorkCompleted 0 rc) = ofClient c workData := by
        simp [serves, ofClient, hFinished, hNone]
      rw [hFinished, List.countP_cons] at hCount
      simp only [readsFrom, hServes, Bool.false_eq_true, if_false]
      omega
  | writes hFinished hSome hRc =>
      rename_i rc workData rest
      have hServes : ∀ rc, serves c (s, .onWorkCompleted 0 rc) = false := by
        simp [serves, hFinished, hSome]
      rw [hFinished, List.countP_cons] at hCount
      simp only [readsFrom, hServes, List.countP_append, List.countP_singleton,
        Bool.false_eq_true, if_false]
      omega
  | sends hIndex =>
      rename_i i
      have hServes : serves c (s, .onSentResponse i 0) = ofClient c s.writing[i] := by
        simp [serves, ofClient, List.getElem?_eq_getElem hIndex]
      rw [countP_eraseIdx (ofClient c) hIndex] at hCount
      simp only [readsFrom, hServes, Bool.false_eq_true, if_false]
      omega

/-! ## Clients and their work -/

/-- A client is freed only when no chunk of it waits for its completion callback
and no write on it is in flight. -/
def FreesIdle (q : Server × Action) : Prop :=
  ∀ c, frees q = some c → (∀ w ∈ q.1.queue, w.type = 1 → w.uvclient ≠ c) ∧
    ∀ w ∈ q.1.finished ++ q.1.writing, w.uvclient ≠ c

/-- A callback of the loop thread does not act on a client that was freed. -/
def KeepsOffFreed (q : Server × Action) : Prop :=
  ∀ c, actsOn q = some c → q.1.peers[c]? ≠ some .freed

/-- When the worker takes the end of a connection, as many chunks of the client
have been served as were read. -/
def ServedFirst (run : List (Server × Action)) (q : Server × Action) : Prop :=
  ∀ c, frees q = some c → run.countP (serves c) = run.countP (readsFrom c)

instance (q : Server × Action) : Decidable (FreesIdle q) :=
  inferInstanceAs (Decidable (∀ c, frees q = some c → _ ∧ _))

instance (q : Server × Action) : Decidable (KeepsOffFreed q) :=
  inferInstanceAs (Decidable (∀ c, actsOn q = some c → _))

instance (run : List (Server × Action)) (q : Server × Action) : Decidable (ServedFirst run q) :=
  inferInstanceAs (Decidable (∀ c, frees q = some c → _))

/-- Client `c` is not freed if an item past the work queue is its. -/
def SafeFor (c : Nat) (s : Server) : Prop :=
  ∀ w ∈ s.finished ++ s.writing, w.uvclient = c → s.peers[c]? ≠ some .freed

/-- In a balanced state a client that was served as often as read is idle. -/
theorem served_iff_idle {run : List (Server × Action)} {s : Server} (hBalanced : Balanced run s)
    (hRunning : s.exited = false) (c : Nat) :
    run.countP (serves c) = run.countP (readsFrom c) ↔
      (∀ w ∈ s.queue, w.type = 1 → w.uvclient ≠ c) ∧
        ∀ w ∈ s.finished ++ s.writing, w.uvclient ≠ c := by
  have hCount := hBalanced hRunning c
  have hQueue : s.queue.countP (chunkOf c) = 0 ↔
      ∀ w ∈ s.queue, w.type = 1 → w.uvclient ≠ c := by
    simp [List.countP_eq_zero, chunkOf]
  have hLater : s.finished.countP (ofClient c) + s.writing.countP (ofClient c) = 0 ↔
      ∀ w ∈ s.finished ++ s.writing, w.uvclient ≠ c := by
    rw [← List.countP_append, List.countP_eq_zero]
    simp only [ofClient, decide_eq_true_eq]
  rw [← hQueue, ← hLater]
  omega

/-- As long as a client is idle when it is freed, no item past the work queue is
left behind with it. -/
theorem safeFor_step {c : Nat} {s s' : Server} {a : Action} (hSafe : SafeFor c s)
    (hIdle : frees (s, a) = some c → ∀ w ∈ s.finished ++ s.writing, w.uvclient ≠ c)
    (hStep : Step s a s') : SafeFor c s' := by
  cases hStep with
  | stops hStops => exact hSafe
  | connects ntWorkData => exact fun w hw hSame => connect_freed (hSafe w hw hSame)
  | quiet ret hPeer hSize => exact hSafe
  | reads hPeer hPos hFits hSize hRet => exact hSafe
  | ends ret hPeer hNeg hSize => exact fun w hw hSame => set_freed (hSafe w hw hSame)
  | submits hQueue hType hPeer hWork =>
      intro w hw hSame
      simp only [List.mem_append, List.mem_singleton] at hw
      rcases hw with (hOld | rfl) | hOld
      · exact set_freed (hSafe w (List.mem_append_left _ hOld) hSame)
      · rw [← hSame, onWorkSubmitted_ok hWork, set_self _ hPeer]
        simp
      · exact set_freed (hSafe w (List.mem_append_right _ hOld) hSame)
  | closes mem hQueue hType hPeer =>
      rename_i workData rest ep reading
      intro w hw hSame
      -- the client that is freed is idle; the others stay as they are
      by_cases hOther : workData.uvclient = c
      · have hFrees : frees (s, .worker mem) = some c := by
          simp [frees, hQueue, hType, hOther]
        exact absurd hSame (hIdle hFrees w hw)
      · have hKeep := set_other s.peers .freed (Ne.symm hOther)
        exact hKeep ▸ hSafe w hw hSame
  | drops rc hFinished hNone =>
      intro w hw
      refine hSafe w ?_
      rw [hFinished]
      exact List.mem_cons_of_mem _ hw
  | writes hFinished hSome hRc =>
      intro w hw
      refine hSafe w ?_
      simp only [List.mem_append, List.mem_singleton] at hw
      simp only [hFinished, List.mem_append, List.mem_cons]
      tauto
  | sends hIndex =>
      intro w hw
      refine hSafe w ?_
      simp only [List.mem_append] at hw ⊢
      exact hw.imp id fun hLeft => List.mem_of_mem_eraseIdx hLeft

/-- A callback on an item of a client that is not freed. -/
theorem not_freed_of_actsOn {c : Nat} {q : Server × Action} (hSafe : SafeFor c q.1)
    (hActs : actsOn q = some c) : q.1.peers[c]? ≠ some .freed := by
  obtain ⟨s, a⟩ := q
  unfold actsOn at hActs
  split at hActs
  · rw [Option.map_eq_some_iff] at hActs
    obtain ⟨w, hHead, hSame⟩ := hActs
    exact hSafe w (List.mem_append_left _ (List.mem_of_mem_head? hHead)) hSame
  · rw [Option.map_eq_some_iff] at hActs
    obtain ⟨w, hItem, hSame⟩ := hActs
    exact hSafe w (List.mem_append_right _ (List.mem_of_getElem? hItem)) hSame
  · exact absurd hActs (by simp)

section Run

variable {run : List (Server × Action)} {s : Server} (hReach : Reaches step init run s)

include hReach

/-- Over any run, a client is idle when it is freed exactly when it was served as
often as read. -/
theorem always_idle_iff (c : Nat) :
    Always (fun _ q => frees q = some c → (∀ w ∈ q.1.queue, w.type = 1 → w.uvclient ≠ c) ∧
        ∀ w ∈ q.1.finished ++ q.1.writing, w.uvclient ≠ c) run ↔
      Always (fun pre q => frees q = some c →
        pre.countP (serves c) = pre.countP (readsFrom c)) run := by
  have hKept : Always (fun pre q => Balanced pre q.1) run := by
    refine Reaches.always (fun _ _ => rfl) ?_ hReach (always_true run)
    intro run s a s' hBalanced _ hStep
    obtain ⟨hRunning, hCase⟩ := step_cases hStep
    exact balanced_step hBalanced hRunning hCase
  have hIff : ∀ pre q post, run = pre ++ q :: post →
      (pre.countP (serves c) = pre.countP (readsFrom c) ↔
        (∀ w ∈ q.1.queue, w.type = 1 → w.uvclient ≠ c) ∧
          ∀ w ∈ q.1.finished ++ q.1.writing, w.uvclient ≠ c) := by
    intro pre q post hRun
    obtain ⟨-, s', hStep⟩ := hReach.before pre q post hRun
    exact served_iff_idle (hKept pre q post hRun) (step_cases hStep).1 c
  constructor
  · intro hIdle
    exact hIdle.mono fun pre q post hRun hHere hFrees => (hIff pre q post hRun).mpr (hHere hFrees)
  · intro hServed
    exact hServed.mono fun pre q post hRun hHere hFrees => (hIff pre q post hRun).mp (hHere hFrees)

/-- Over a run that frees the client `c` only when it is idle, no callback acts on
it once it is freed. -/
theorem always_not_freed {c : Nat}
    (hIdle : Always (fun _ q => frees q = some c →
      ∀ w ∈ q.1.finished ++ q.1.writing, w.uvclient ≠ c) run) :
    Always (fun _ q => actsOn q = some c → q.1.peers[c]? ≠ some .freed) run := by
  have hSafe : Always (fun _ q => SafeFor c q.1) run := by
    refine Reaches.always (by simp [SafeFor, init]) ?_ hReach hIdle
    intro run s a s' hSafe hFrees hStep
    exact safeFor_step hSafe hFrees (step_cases hStep).2
  exact hSafe.mono fun pre q post _ hHere hActs => not_freed_of_actsOn hHere hActs

/-- Over any run of the server, no client is freed while work or a write of it is
pending, and no callback acts on a freed client, exactly when every client is
closed after all its chunks have been served. -/
theorem clients_outlive_work :
    (Always (fun _ q => FreesIdle q) run ∧ Always (fun _ q => KeepsOffFreed q) run) ↔
      Always ServedFirst run := by
  constructor
  · rintro ⟨hIdle, -⟩ pre q post hRun c hFrees
    exact (always_idle_iff hReach c).mp (hIdle.mono fun _ _ _ _ hHere => hHere c) pre q post hRun
      hFrees
  · intro hServed
    have hIdle : Always (fun _ q => FreesIdle q) run := fun pre q post hRun c =>
      (always_idle_iff hReach c).mpr (hServed.mono fun _ _ _ _ hHere => hHere c) pre q post hRun
    refine ⟨hIdle, fun pre q post hRun c => ?_⟩
    exact always_not_freed hReach (hIdle.mono fun _ _ _ _ hHere hFrees => (hHere c hFrees).2) pre q
      post hRun

end Run

/-! ## Two runs of one client -/

/-- A request, and the end of the connection after it was answered. -/
def servedFirstActions : List Action :=
  [.onPeerConnected none, .onPeerRead 0 131 openingRequest 0, .worker zeroedMem,
    .onWorkCompleted 0 0, .onSentResponse 0 0, .onPeerRead 0 (-4095) [] 0, .worker zeroedMem]

/-- A request, and the end of the connection before the loop thread gets to the
answer. -/
def closedFirstActions : List Action :=
  [.onPeerConnected none, .onPeerRead 0 131 openingRequest 0, .onPeerRead 0 (-4095) [] 0,
    .worker zeroedMem, .worker zeroedMem, .onWorkCompleted 0 0]

/-- The client that was answered first is closed without harm. -/
theorem clients_outlive_work_served :
    (record step [] init servedFirstActions).1.length = 7 ∧
      Always (fun _ q => FreesIdle q) (record step [] init servedFirstActions).1 ∧
      Always (fun _ q => KeepsOffFreed q) (record step [] init servedFirstActions).1 :=
  ⟨by decide +kernel,
    (clients_outlive_work (reaches_record servedFirstActions .start)).mpr (by decide +kernel)⟩

/-- The client that was closed first is freed under its answer, and the completion
callback writes to it. -/
theorem closedFirst_writes_to_freed :
    Reaches step init (record step [] init closedFirstActions).1
        (record step [] init closedFirstActions).2 ∧
      ¬ Always (fun _ q => FreesIdle q) (record step [] init closedFirstActions).1 ∧
      ¬ Always (fun _ q => KeepsOffFreed q) (record step [] init closedFirstActions).1 ∧
      (record step [] init closedFirstActions).2.writing.map PeerWorkData.uvclient = [0] ∧
      (record step [] init closedFirstActions).2.peers = [.freed] :=
  ⟨reaches_record closedFirstActions .start, by decide +kernel⟩

end Server

end WebSocketFiles
