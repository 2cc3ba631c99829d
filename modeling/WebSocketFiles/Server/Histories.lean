import WebSocketFiles.Library.Transition
import WebSocketFiles.Server.Response
import WebSocketFiles.Server.Steps

/-!
# What a step shows of a client

The history of a client is read off the steps of a run: the chunks read from it,
those its endpoint has processed, the responses the endpoint produced for them,
and the buffers handed to `uv_write` on its handle.
-/

namespace WebSocketFiles

open MachineInt Fallible Transition WebSocketEndpoint

/-- The bytes of the chunk in a work item. -/
def PeerWorkData.readbuf (workData : PeerWorkData) : Bytes :=
  (workData.request.base.getD []).take workData.request.len

/-- The buffer in a work item that `uv_write` is called with, if there is one. -/
def PeerWorkData.written (workData : PeerWorkData) : List Bytes :=
  (workData.response.base.map fun base => base.take workData.response.len).toList

@[simp] theorem PeerWorkData.chunk_readbuf (c : Nat) (readbuf : Bytes) :
    (PeerWorkData.chunk c readbuf).readbuf = readbuf := by
  simp [PeerWorkData.readbuf, PeerWorkData.chunk]

theorem PeerWorkData.written_none {workData : PeerWorkData}
    (hNone : workData.response.base = none) : workData.written = [] := by
  rw [PeerWorkData.written, hNone]
  rfl

namespace Server

/-- The chunk that is read from client `c`. -/
def chunksRead (c : Nat) (q : Server × Action) : List Bytes :=
  match q.2 with
  | .onPeerRead c' nread buf _ => if c' = c ∧ 0 < nread then [buf.take nread.toNat] else []
  | _ => []

/-- The chunk that the endpoint of client `c` processes. -/
def chunksProcessed (c : Nat) (q : Server × Action) : List Bytes :=
  match q.2, q.1.queue with
  | .worker _, workData :: _ =>
      if workData.type = 1 ∧ workData.uvclient = c then [workData.readbuf] else []
  | _, _ => []

/-- The responses that the endpoint of client `c` produces: what it calls
`on_write_response` with. -/
def responsesProduced (c : Nat) (q : Server × Action) : List Bytes :=
  match q.2, q.1.queue with
  | .worker mem, workData :: _ =>
      if workData.type = 1 ∧ workData.uvclient = c then
        match q.1.peers[c]? with
        | some (.connected ep _) => Event.callbacks (ep.process workData.readbuf
            (some onWriteResponseAddr) (some workDataAddr) mem).events
        | _ => []
      else []
  | _, _ => []

/-- The buffer that `uv_write` is called with on the handle of client `c`. -/
def handedToWrite (c : Nat) (q : Server × Action) : List Bytes :=
  match q.2, q.1.finished with
  | .onWorkCompleted status _, workData :: _ =>
      if status = 0 ∧ workData.uvclient = c then workData.written else []
  | _, _ => []

/-- The buffer of client `c` whose write is reported as done. -/
def responsesSent (c : Nat) (q : Server × Action) : List Bytes :=
  match q.2 with
  | .onSentResponse i status =>
      if status = 0 then (q.1.writing[i]?.toList.filter (ofClient c)).flatMap PeerWorkData.written
      else []
  | _ => []

/-- The chunks of client `c` that wait for the worker. -/
def chunksWaiting (c : Nat) (s : Server) : List Bytes :=
  (s.queue.filter (chunkOf c)).map PeerWorkData.readbuf

/-- The responses for client `c` that wait for the loop thread. -/
def responsesWaiting (c : Nat) (s : Server) : List Bytes :=
  (s.finished.filter (ofClient c)).flatMap PeerWorkData.written

/-- The buffers of client `c` whose write is in flight. -/
def responsesInFlight (c : Nat) (s : Server) : List Bytes :=
  (s.writing.filter (ofClient c)).flatMap PeerWorkData.written

/-- What is processed is the first of the chunks that wait. -/
theorem chunksProcessed_prefix (c : Nat) (q : Server × Action) :
    chunksProcessed c q <+: chunksWaiting c q.1 := by
  unfold chunksProcessed chunksWaiting
  split
  · rename_i workData rest _ hQueue
    rw [hQueue]
    split
    · rename_i hHere
      rw [List.filter_cons_of_pos (by simpa [chunkOf] using hHere)]
      exact ⟨_, rfl⟩
    · exact List.nil_prefix
  · exact List.nil_prefix

/-- What is handed on is the first of the responses that wait. -/
theorem handedToWrite_prefix (c : Nat) (q : Server × Action) :
    handedToWrite c q <+: responsesWaiting c q.1 := by
  unfold handedToWrite responsesWaiting
  split
  · rename_i workData rest _ hFinished
    rw [hFinished]
    split
    · rename_i hHere
      rw [List.filter_cons_of_pos (by simp [ofClient, hHere.2]), List.flatMap_cons]
      exact List.prefix_append _ _
    · exact List.nil_prefix
  · exact List.nil_prefix

/-- The client's endpoint, as the worker keeps it. -/
structure Sound (ep : WebSocketEndpoint) : Prop where
  settled : Settled ep
  in_range : ep.fromwireBuf.data.length < 2147483648

/-- An item that had no response holds the one it was given. -/
theorem respond_written {workData : PeerWorkData} (hEmpty : workData.response.base = none)
    {bufs : List Bytes} (hFew : bufs.length ≤ 1) : (workData.respond bufs).written = bufs := by
  match bufs with
  | [] => exact PeerWorkData.written_none hEmpty
  | [b] => simp [PeerWorkData.respond, PeerWorkData.written]

/-- A chunk that is processed leaves what the endpoint produced in the item. -/
theorem onWorkSubmitted_chunk {ep ep' : WebSocketEndpoint} (hSound : Sound ep) {c : Nat}
    {readbuf : Bytes} (hLt : readbuf.length < 2147483648) {mem : Nat → PassMem} {nrc : Int}
    {workData : PeerWorkData}
    (hWork : onWorkSubmitted ep (.chunk c readbuf) mem = .ok (nrc, ep', workData)) :
    workData.written = Event.callbacks (ep.process readbuf (some onWriteResponseAddr)
      (some workDataAddr) mem).events ∧ Sound ep' := by
  let d : Delivery := ⟨readbuf, hLt, mem⟩
  have hChunk : Chunk (.chunk c readbuf) d.readbuf := ⟨rfl, rfl⟩
  have hProcess : ep.process readbuf (some onWriteResponseAddr) (some workDataAddr) mem =
      ep.registered.deliver d := rfl
  rw [hProcess]
  rcases onWorkSubmitted_cases hSound.settled hSound.in_range d hChunk with
    ⟨-, hFew, hEq⟩ | ⟨-, hEq⟩
  · -- at most one response was produced, and it went into the empty slot
    obtain ⟨⟨nrc', ep₁⟩, hValue, hRest⟩ := bind_ok_iff.mp (hEq.symm.trans hWork)
    simp only [pure_eq, Except.ok.injEq, Prod.mk.injEq] at hRest
    obtain ⟨-, rfl, rfl⟩ := hRest
    obtain ⟨hSettled', -, hRange', -⟩ :=
      deliver_keeps (registered_settled hSound.settled) hSound.in_range d hValue
    exact ⟨respond_written hChunk.response hFew, hSettled', hRange'⟩
  · exact absurd (hEq.symm.trans hWork) (by simp)

/-! ## What the server keeps -/

/-- The items of the work queue, and the endpoints of the clients. -/
structure Kept (s : Server) : Prop where
  items : ∀ w ∈ s.queue, w.type = 1 →
    ∃ readbuf, readbuf.length < 2147483648 ∧ w = .chunk w.uvclient readbuf
  known : ∀ w ∈ s.queue, w.uvclient < s.peers.length
  endpoints : ∀ (c : Nat) ep reading, s.peers[c]? = some (.connected ep reading) → Sound ep

theorem sound_new (ntWorkData : Option Addr) : Sound (.new ntWorkData) := by
  obtain ⟨hSettled, -, hRange⟩ := (Reachable.fresh (fresh_new ntWorkData)).invariant
  exact ⟨hSettled, hRange⟩

/-- A client that is set to a sound endpoint, or freed. -/
theorem Kept.set {s : Server} (hKept : Kept s) {c : Nat} {peer : Peer}
    (hSound : ∀ ep reading, peer = .connected ep reading → Sound ep) (i : Nat)
    {ep : WebSocketEndpoint} {reading : Bool}
    (hPeer : (s.peers.set c peer)[i]? = some (.connected ep reading)) : Sound ep := by
  rw [List.getElem?_set] at hPeer
  split at hPeer
  · split at hPeer
    · exact hSound ep reading (Option.some.inj hPeer)
    · exact absurd hPeer (by simp)
  · exact hKept.endpoints i ep reading hPeer

/-- An item at the end of the queue, for a client that is connected. -/
theorem Kept.known_snoc {s : Server} (hKept : Kept s) {w : PeerWorkData} {peer : Peer}
    (hPeer : s.peers[w.uvclient]? = some peer) :
    ∀ v ∈ s.queue ++ [w], v.uvclient < s.peers.length := by
  intro v hv
  rcases List.mem_append.mp hv with hOld | hNew
  · exact hKept.known v hOld
  · obtain ⟨hLt, -⟩ := List.getElem?_eq_some_iff.mp hPeer
    rw [List.mem_singleton.mp hNew]
    exact hLt

theorem kept_step {s s' : Server} {a : Action} (hKept : Kept s) (hStep : Step s a s') :
    Kept s' := by
  cases hStep with
  | stops hStops => exact ⟨hKept.items, hKept.known, hKept.endpoints⟩
  | connects ntWorkData =>
      refine ⟨hKept.items, fun w hw => ?_, fun c ep reading hPeer => ?_⟩
      · have hLt := hKept.known w hw
        rw [List.length_append]
        omega
      · rw [List.getElem?_append] at hPeer
        split at hPeer
        · exact hKept.endpoints c ep reading hPeer
        · rw [List.getElem?_singleton] at hPeer
          split at hPeer
          · simp only [Option.some.injEq, Peer.connected.injEq] at hPeer
            rw [← hPeer.1]
            exact sound_new ntWorkData
          · exact absurd hPeer (by simp)
  | quiet ret hPeer hSize => exact hKept
  | reads hPeer hPos hFits hSize hRet =>
      refine ⟨fun w hw hType => ?_, hKept.known_snoc hPeer, hKept.endpoints⟩
      rcases List.mem_append.mp hw with hOld | hNew
      · exact hKept.items w hOld hType
      · rw [List.mem_singleton.mp hNew]
        refine ⟨_, ?_, rfl⟩
        rw [List.length_take]
        omega
  | ends ret hPeer hNeg hSize =>
      refine ⟨fun w hw hType => ?_, fun w hw => ?_, fun i ep' reading hSet => hKept.set ?_ i hSet⟩
      · rcases List.mem_append.mp hw with hOld | hNew
        · exact hKept.items w hOld hType
        · rw [List.mem_singleton.mp hNew] at hType
          exact absurd hType (by simp)
      · rw [List.length_set]
        exact hKept.known_snoc hPeer w hw
      · intro ep₁ reading₁ hSame
        simp only [Peer.connected.injEq] at hSame
        rw [← hSame.1]
        exact hKept.endpoints _ _ _ hPeer
  | submits hQueue hType hPeer hWork =>
      rename_i workData workData' rest ep ep' reading nrc
      have hRest : ∀ w ∈ rest, w ∈ s.queue := fun w hw => hQueue ▸ List.mem_cons_of_mem _ hw
      obtain ⟨readbuf, hLt, hItem⟩ := hKept.items workData (by simp [hQueue]) hType
      rw [hItem] at hWork
      obtain ⟨-, hSound⟩ := onWorkSubmitted_chunk (hKept.endpoints _ _ _ hPeer) hLt hWork
      refine ⟨fun w hw => hKept.items w (hRest w hw), fun w hw => ?_,
        fun i ep₁ reading₁ hSet => hKept.set ?_ i hSet⟩
      · rw [List.length_set]
        exact hKept.known w (hRest w hw)
      · intro ep₂ reading₂ hSame
        simp only [Peer.connected.injEq] at hSame
        rw [← hSame.1]
        exact hSound
  | closes mem hQueue hType hPeer =>
      rename_i workData rest ep reading
      have hRest : ∀ w ∈ rest, w ∈ s.queue := fun w hw => hQueue ▸ List.mem_cons_of_mem _ hw
      refine ⟨fun w hw => hKept.items w (hRest w hw), fun w hw => ?_,
        fun i ep₁ reading₁ hSet => hKept.set (by simp) i hSet⟩
      rw [List.length_set]
      exact hKept.known w (hRest w hw)
  | drops rc hFinished hNone => exact ⟨hKept.items, hKept.known, hKept.endpoints⟩
  | writes hFinished hSome hRc => exact ⟨hKept.items, hKept.known, hKept.endpoints⟩
  | sends hIndex => exact ⟨hKept.items, hKept.known, hKept.endpoints⟩

theorem kept_init : Kept init :=
  ⟨by simp [init], by simp [init], by simp [init]⟩

end Server

end WebSocketFiles
