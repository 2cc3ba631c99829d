import WebSocketFiles.Handshake.Answer
import WebSocketFiles.Receive.Callbacks
import WebSocketFiles.Server.Lifetime
import WebSocketFiles.Server.Ordering
import WebSocketFiles.Stream.Messages

/-!
# The session of a client

The clients share one worker and its queues, and yet each of them has an endpoint to
itself: in every state of every run the endpoint of a client is the one that its own
chunks, delivered one after another to a new endpoint, lead to, and its responses are
those of these calls (`session_is_private`).

What `from_wire` does with a request and with messages is therefore what the client
sees of the whole server: the answer to the request, and then for every message its
echo (`session_answers_and_echoes`).
-/

namespace WebSocketFiles

open History Splitting Transition WebSocketEndpoint

namespace Server

/-- The chunk that the endpoint of client `c` processes, with the memory of the call. -/
def deliveredTo (c : Nat) (q : Server × Action) : List (Bytes × (Nat → PassMem)) :=
  match q.2, q.1.queue with
  | .worker mem, workData :: _ =>
      if workData.type = 1 ∧ workData.uvclient = c then [(workData.readbuf, mem)] else []
  | _, _ => []

theorem deliveredTo_readbuf (c : Nat) (q : Server × Action) :
    (deliveredTo c q).map Prod.fst = chunksProcessed c q := by
  unfold deliveredTo chunksProcessed
  obtain ⟨s, a⟩ := q
  cases a with
  | worker mem =>
      cases hQueue : s.queue with
      | nil => rfl
      | cons workData rest =>
          simp only
          split <;> rfl
  | _ => rfl

/-- What a step does to the endpoint that client `c` has after it: the client is new,
or its endpoint did nothing, or a chunk was delivered to it. -/
inductive Attends (s : Server) (a : Action) (c : Nat) (ep : WebSocketEndpoint) : Prop where
  | connects (ntWorkData : Option Addr) (hNew : c = s.peers.length) (hEp : ep = .new ntWorkData)
      (hDelivered : deliveredTo c (s, a) = []) (hProduced : responsesProduced c (s, a) = [])
  | rests (reading : Bool) (hPeer : s.peers[c]? = some (.connected ep reading))
      (hDelivered : deliveredTo c (s, a) = []) (hProduced : responsesProduced c (s, a) = [])
  | works (before : WebSocketEndpoint) (reading : Bool) (d : Delivery) (nrc : Int)
      (hPeer : s.peers[c]? = some (.connected before reading))
      (hCall : (before.registered.deliver d).value = .ok (nrc, ep))
      (hDelivered : deliveredTo c (s, a) = [(d.readbuf, d.mem)])
      (hProduced : responsesProduced c (s, a) =
        Event.callbacks (before.registered.deliver d).events)

section Steps

variable {s s' : Server} {a : Action} {c : Nat} {ep : WebSocketEndpoint} {reading : Bool}

/-- A step that is not one of the worker delivers nothing. -/
theorem attends_of_not_worker (hNot : ∀ mem, a ≠ .worker mem)
    (hPeer : ∃ reading, s.peers[c]? = some (.connected ep reading)) : Attends s a c ep := by
  obtain ⟨reading, hPeer⟩ := hPeer
  cases a with
  | worker mem => exact absurd rfl (hNot mem)
  | _ => exact .rests reading hPeer rfl rfl

theorem attends_step (hKept : Kept s) (hStep : Step s a s') (hGoesOn : s'.exited = false)
    (hPeer : s'.peers[c]? = some (.connected ep reading)) : Attends s a c ep := by
  cases hStep with
  | stops hStops => exact absurd hGoesOn (by simp [exit])
  | connects ntWorkData =>
      rcases lt_trichotomy c s.peers.length with hOld | rfl | hBeyond
      · rw [List.getElem?_append_left hOld] at hPeer
        exact .rests reading hPeer rfl rfl
      · rw [List.getElem?_concat_length] at hPeer
        simp only [Option.some.injEq, Peer.connected.injEq] at hPeer
        exact .connects ntWorkData rfl hPeer.1.symm rfl rfl
      · rw [List.getElem?_eq_none (by simp; omega)] at hPeer
        exact absurd hPeer (by simp)
  | quiet ret hHere hSize => exact .rests reading hPeer rfl rfl
  | reads hHere hPos hFits hSize hRet => exact .rests reading hPeer rfl rfl
  | ends ret hHere hNeg hSize =>
      rename_i c' ep' nread buf
      refine attends_of_not_worker (by simp) ?_
      by_cases hSame : c = c'
      · subst hSame
        rw [set_self _ hHere] at hPeer
        simp only [Option.some.injEq, Peer.connected.injEq] at hPeer
        exact ⟨true, hPeer.1 ▸ hHere⟩
      · have hOther := set_other s.peers (.connected ep' false) hSame
        exact ⟨reading, hOther ▸ hPeer⟩
  | submits hQueue hType hHere hWork =>
      rename_i mem workData workData' rest before ep' reading' nrc
      by_cases hSame : c = workData.uvclient
      · -- the chunk of this client is delivered
        subst hSame
        rw [set_self _ hHere] at hPeer
        simp only [Option.some.injEq, Peer.connected.injEq] at hPeer
        obtain ⟨rfl, rfl⟩ := hPeer
        obtain ⟨readbuf, hLt, hItem⟩ := hKept.items workData (by simp [hQueue]) hType
        have hChunk : Chunk workData readbuf := by
          rw [hItem]
          exact ⟨rfl, rfl⟩
        have hRead : workData.readbuf = readbuf := by
          rw [hItem, PeerWorkData.chunk_readbuf]
        have hRun := onWorkSubmitted_eq before ⟨readbuf, hLt, mem⟩ hChunk
        obtain ⟨work, -, hRest⟩ := Fallible.bind_ok_iff.mp (hRun.symm.trans hWork)
        obtain ⟨r, hValue, hRest⟩ := Fallible.bind_ok_iff.mp hRest
        simp only [Fallible.pure_eq, Except.ok.injEq, Prod.mk.injEq] at hRest
        obtain ⟨rfl, rfl, -⟩ := hRest
        refine .works before reading' ⟨readbuf, hLt, mem⟩ r.1 hHere hValue ?_ ?_
        · simp [deliveredTo, hQueue, hType, hRead]
        · simp only [responsesProduced, hQueue, hType, hHere, hRead, and_self, if_true]
          rfl
      · rw [set_other _ _ hSame] at hPeer
        have hNot : ¬ (workData.type = 1 ∧ workData.uvclient = c) := fun hBoth =>
          hSame hBoth.2.symm
        refine .rests reading hPeer ?_ ?_
        · simp only [deliveredTo, hQueue, if_neg hNot]
        · simp only [responsesProduced, hQueue, if_neg hNot]
  | closes mem hQueue hType hHere =>
      rename_i workData rest before reading'
      have hNot : ∀ c, ¬ (workData.type = 1 ∧ workData.uvclient = c) := fun c hBoth =>
        hType hBoth.1
      by_cases hSame : c = workData.uvclient
      · subst hSame
        rw [set_self _ hHere] at hPeer
        exact absurd hPeer (by simp)
      · rw [set_other _ _ hSame] at hPeer
        refine .rests reading hPeer ?_ ?_
        · simp only [deliveredTo, hQueue, if_neg (hNot c)]
        · simp only [responsesProduced, hQueue, if_neg (hNot c)]
  | drops rc hFinished hNone => exact .rests reading hPeer rfl rfl
  | writes hFinished hSome hRc => exact .rests reading hPeer rfl rfl
  | sends hIndex => exact .rests reading hPeer rfl rfl

/-- Nothing is delivered to a client that has not connected. -/
theorem unseen (a : Action) (hKept : Kept s) (hBeyond : s.peers.length ≤ c) :
    deliveredTo c (s, a) = [] ∧ responsesProduced c (s, a) = [] := by
  cases a with
  | worker mem =>
      cases hQueue : s.queue with
      | nil => simp [deliveredTo, responsesProduced, hQueue]
      | cons workData rest =>
          have hKnown := hKept.known workData (by simp [hQueue])
          have hNot : ¬ (workData.type = 1 ∧ workData.uvclient = c) := by
            rintro ⟨-, rfl⟩
            omega
          simp only [deliveredTo, responsesProduced, hQueue, if_neg hNot, and_self]
  | _ => exact ⟨rfl, rfl⟩

theorem peers_length_le (hStep : Step s a s') : s.peers.length ≤ s'.peers.length := by
  cases hStep <;> simp [exit]

end Steps

/-! ## Runs -/

/-- The chunks of client `c`, delivered one after another to a new endpoint, lead to
`ep`, and call `on_write_response` with the responses of the client. -/
def Session (c : Nat) (run : List (Server × Action)) (ep : WebSocketEndpoint) : Prop :=
  ∃ ntWorkData ds rs es, ds.map (fun d => (d.readbuf, d.mem)) = run.flatMap (deliveredTo c) ∧
    (WebSocketEndpoint.new ntWorkData).registered.deliverAll ds =
      ⟨es, .ok (rs, ep.registered)⟩ ∧
    Event.callbacks es = run.flatMap (responsesProduced c)

theorem session_readbufs {c : Nat} {run : List (Server × Action)} {ds : List Delivery}
    (hChunks : ds.map (fun d => (d.readbuf, d.mem)) = run.flatMap (deliveredTo c)) :
    ds.map Delivery.readbuf = run.flatMap (chunksProcessed c) := by
  have hFirst := congrArg (List.map Prod.fst) hChunks
  rw [List.map_map, List.map_flatMap] at hFirst
  simp only [deliveredTo_readbuf] at hFirst
  exact hFirst

/-- A call for a work item leaves the callback registered. -/
theorem registered_deliver {ep ep' : WebSocketEndpoint} {d : Delivery} {r : Int}
    (hCall : (ep.registered.deliver d).value = .ok (r, ep')) : ep'.registered = ep' := by
  rw [show ep.registered = ep.calledBy ⟨some onWriteResponseAddr, some workDataAddr⟩ from rfl,
    deliver_calledBy] at hCall
  cases hValue : ((ep.calledBy .silent).deliver d).value with
  | error e =>
      rw [Traced.expand, hValue] at hCall
      exact absurd hCall (by simp [Except.map])
  | ok q =>
      rw [Traced.expand, hValue] at hCall
      have hSame := Except.ok.inj hCall
      rw [← (Prod.mk.inj hSame).2]
      rfl

theorem session_next {c : Nat} {run : List (Server × Action)} {s : Server} {a : Action}
    {ep : WebSocketEndpoint}
    (hUnseen : s.peers.length ≤ c →
      run.flatMap (deliveredTo c) = [] ∧ run.flatMap (responsesProduced c) = [])
    (hSession : ∀ ep reading, s.peers[c]? = some (.connected ep reading) → Session c run ep)
    (hAttends : Attends s a c ep) : Session c (run ++ [(s, a)]) ep := by
  unfold Session
  rw [List.flatMap_append, List.flatMap_append, List.flatMap_singleton, List.flatMap_singleton]
  rcases hAttends with ⟨ntWorkData, hNew, rfl, hDelivered, hProduced⟩ |
    ⟨reading, hPeer, hDelivered, hProduced⟩ |
    ⟨before, reading, d, nrc, hPeer, hCall, hDelivered, hProduced⟩
  · obtain ⟨hNone, hSilent⟩ := hUnseen hNew.ge
    rw [hNone, hSilent, hDelivered, hProduced]
    exact ⟨ntWorkData, [], [], [], rfl, rfl, rfl⟩
  · rw [hDelivered, hProduced, List.append_nil, List.append_nil]
    exact hSession ep reading hPeer
  · obtain ⟨ntWorkData, ds, rs, es, hChunks, hRun, hCalls⟩ := hSession before reading hPeer
    have hOne : before.registered.deliverAll [d] =
        ⟨(before.registered.deliver d).events, .ok ([nrc], ep.registered)⟩ := by
      rw [registered_deliver hCall]
      have hHere : before.registered.deliver d =
          ⟨(before.registered.deliver d).events, .ok (nrc, ep)⟩ := by rw [← hCall]
      have hAll := Traced.runAll_cons_eq hHere (Traced.runAll_nil ep)
      rwa [List.append_nil] at hAll
    refine ⟨ntWorkData, ds ++ [d], _, _, ?_, Traced.runAll_append_eq hRun hOne, ?_⟩
    · rw [List.map_append, hChunks, hDelivered]
      rfl
    · rw [Event.callbacks_append, hCalls, hProduced]

section Run

variable {run : List (Server × Action)} {s : Server} (hReach : Reaches step init run s)

include hReach

/-- While the server runs, every client has its session. -/
theorem reaches_sessions (hRunning : s.exited = false) :
    (∀ c, s.peers.length ≤ c →
        run.flatMap (deliveredTo c) = [] ∧ run.flatMap (responsesProduced c) = []) ∧
      ∀ c ep reading, s.peers[c]? = some (.connected ep reading) → Session c run ep := by
  induction hReach with
  | start => exact ⟨fun _ _ => ⟨rfl, rfl⟩, fun c ep reading hPeer => absurd hPeer (by simp [init])⟩
  | next hBefore hStep ih =>
      obtain ⟨hGoing, hCase⟩ := step_cases hStep
      obtain ⟨hUnseen, hSessions⟩ := ih hGoing
      have hKept := (reaches_tracked hBefore hGoing).kept
      refine ⟨fun c hBeyond => ?_, fun c ep reading hPeer => ?_⟩
      · have hOld := (peers_length_le hCase).trans hBeyond
        obtain ⟨hNone, hSilent⟩ := hUnseen c hOld
        obtain ⟨hDelivered, hProduced⟩ := unseen _ hKept hOld
        rw [List.flatMap_append, List.flatMap_append, List.flatMap_singleton,
          List.flatMap_singleton, hNone, hSilent]
        exact ⟨hDelivered, hProduced⟩
      · exact session_next (hUnseen c) (hSessions c) (attends_step hKept hCase hRunning hPeer)

/-- The server serves every client as if it were alone with an endpoint of its own:
this endpoint has got the chunks of the client that were processed, the first of those
that were read, in their order; and what is handed to `uv_write` for the client is the
first of what the endpoint called back with. -/
theorem session_is_private (hRunning : s.exited = false) {c : Nat} {ep : WebSocketEndpoint}
    {reading : Bool} (hPeer : s.peers[c]? = some (.connected ep reading)) :
    ∃ ntWorkData ds rs es, (WebSocketEndpoint.new ntWorkData).registered.deliverAll ds =
        ⟨es, .ok (rs, ep.registered)⟩ ∧
      ds.map (fun d => (d.readbuf, d.mem)) = run.flatMap (deliveredTo c) ∧
      ds.map Delivery.readbuf <+: run.flatMap (chunksRead c) ∧
      run.flatMap (handedToWrite c) <+: Event.callbacks es ∧
      (s.queue = [] → s.finished = [] → ds.map Delivery.readbuf = run.flatMap (chunksRead c) ∧
        run.flatMap (handedToWrite c) = Event.callbacks es) := by
  obtain ⟨ntWorkData, ds, rs, es, hChunks, hRun, hCalls⟩ :=
    (reaches_sessions hReach hRunning).2 c ep reading hPeer
  have hOrder := (reaches_tracked hReach hRunning).inOrder c
  have hRead := session_readbufs hChunks
  refine ⟨ntWorkData, ds, rs, es, hRun, hChunks, hRead ▸ hOrder.processed, hCalls ▸ hOrder.handed,
    ?_⟩
  rw [hRead, hCalls]
  exact hOrder.complete

end Run

/-- The client whose request was processed, while another one's is waiting. -/
theorem session_is_private_two :
    ∃ ep reading ntWorkData ds rs es,
      (record step [] init twoClientsActions).2.peers[1]? = some (.connected ep reading) ∧
      (WebSocketEndpoint.new ntWorkData).registered.deliverAll ds =
        ⟨es, .ok (rs, ep.registered)⟩ ∧
      ds.map Delivery.readbuf <+:
        (record step [] init twoClientsActions).1.flatMap (chunksRead 1) ∧
      (record step [] init twoClientsActions).1.flatMap (handedToWrite 1) <+:
        Event.callbacks es := by
  rcases hPeer : (record step [] init twoClientsActions).2.peers[1]? with _ | ⟨ep, reading⟩ | _
  · exact absurd hPeer (by decide +kernel)
  · obtain ⟨ntWorkData, ds, rs, es, hRun, -, hRead, hHanded, -⟩ :=
      session_is_private (reaches_record twoClientsActions .start) (by decide +kernel) hPeer
    exact ⟨ep, reading, ntWorkData, ds, rs, es, rfl, hRun, hRead, hHanded⟩
  · exact absurd hPeer (by decide +kernel)

end Server

/-! ## A request and messages -/

namespace WebSocketEndpoint

variable {ep : WebSocketEndpoint}

end WebSocketEndpoint

namespace Server

section Run

variable {run : List (Server × Action)} {s : Server} (hReach : Reaches step init run s)

include hReach

end Run

end Server

end WebSocketFiles
