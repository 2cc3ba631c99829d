import WebSocketFiles.Server.Histories

/-!
# The order of the responses

The chunks of all clients share one work queue, and the items of all clients
share one queue of completions.  Seen from a single client both are queues of its
own: a step takes what waits first, or adds what is read or produced at the end
(`chunks_flow`, `responses_flow`).  So at every moment of a run the chunks read
are those processed, then those that wait; the responses produced are those
handed to `uv_write`, then those that wait; and what was handed to it was sent or
is in flight (`writes_flow`).
-/

namespace WebSocketFiles

open MachineInt History Transition WebSocketEndpoint

namespace Server

/-! ## The queues of one client -/

/-- A step takes the first chunk that waits, or adds the chunk that is read. -/
theorem chunks_flow {s s' : Server} {a : Action} (hStep : Step s a s')
    (hGoesOn : s'.exited = false) (c : Nat) :
    chunksWaiting c s ++ chunksRead c (s, a) = chunksProcessed c (s, a) ++ chunksWaiting c s' := by
  unfold chunksWaiting
  cases hStep with
  | stops hStops => exact absurd hGoesOn (by simp [exit])
  | connects ntWorkData => exact List.append_nil _
  | quiet ret hPeer hSize => simp [chunksRead, chunksProcessed]
  | reads hPeer hPos hFits hSize hRet =>
      rename_i c' ep nread buf ret
      by_cases hHere : c' = c
      · simp [chunksRead, chunksProcessed, chunkOf, hHere, hPos]
      · simp [chunksRead, chunksProcessed, chunkOf, hHere]
  | ends ret hPeer hNeg hSize =>
      have hNot := Int.not_lt.mpr hNeg.le
      simp [chunksRead, chunksProcessed, chunkOf, hNot]
  | submits hQueue hType hPeer hWork =>
      rename_i mem workData workData' rest ep ep' reading nrc
      by_cases hHere : workData.uvclient = c
      · simp [chunksRead, chunksProcessed, chunkOf, hQueue, hType, hHere]
      · simp [chunksRead, chunksProcessed, chunkOf, hQueue, hHere]
  | closes mem hQueue hType hPeer => simp [chunksRead, chunksProcessed, chunkOf, hQueue, hType]
  | drops rc hFinished hNone => exact List.append_nil _
  | writes hFinished hSome hRc => exact List.append_nil _
  | sends hIndex => exact List.append_nil _

/-- A step takes the first response that waits, or adds what a chunk produced. -/
theorem responses_flow {s s' : Server} {a : Action} (hKept : Kept s) (hStep : Step s a s')
    (hGoesOn : s'.exited = false) (c : Nat) :
    responsesWaiting c s ++ responsesProduced c (s, a) =
      handedToWrite c (s, a) ++ responsesWaiting c s' := by
  unfold responsesWaiting
  cases hStep with
  | stops hStops => exact absurd hGoesOn (by simp [exit])
  | connects ntWorkData => exact List.append_nil _
  | quiet ret hPeer hSize => exact List.append_nil _
  | reads hPeer hPos hFits hSize hRet => exact List.append_nil _
  | ends ret hPeer hNeg hSize => exact List.append_nil _
  | submits hQueue hType hPeer hWork =>
      rename_i mem workData workData' rest ep ep' reading nrc
      obtain ⟨readbuf, hLt, hItem⟩ := hKept.items workData (by simp [hQueue]) hType
      -- the item comes out with what the endpoint produced, for the same client
      have hClient := onWorkSubmitted_ok hWork
      rw [hItem] at hWork
      obtain ⟨hWritten, -⟩ := onWorkSubmitted_chunk (hKept.endpoints _ _ _ hPeer) hLt hWork
      have hRead : workData.readbuf = readbuf := by
        rw [hItem, PeerWorkData.chunk_readbuf]
      by_cases hHere : workData.uvclient = c
      · rw [hHere] at hPeer hClient
        simp [responsesProduced, handedToWrite, ofClient, hQueue, hType, hHere, hPeer, hClient,
          hRead, hWritten]
      · simp [responsesProduced, handedToWrite, ofClient, hQueue, hHere, hClient]
  | closes mem hQueue hType hPeer => simp [responsesProduced, handedToWrite, hQueue, hType]
  | drops rc hFinished hNone =>
      -- the path without a response: nothing is handed on, and nothing was waiting
      rename_i workData rest
      have hWritten := PeerWorkData.written_none hNone
      by_cases hHere : workData.uvclient = c
      · simp [responsesProduced, handedToWrite, ofClient, hFinished, hHere, hWritten]
      · simp [responsesProduced, handedToWrite, ofClient, hFinished, hHere]
  | writes hFinished hSome hRc =>
      rename_i rc workData rest
      by_cases hHere : workData.uvclient = c
      · simp [responsesProduced, handedToWrite, ofClient, hFinished, hHere]
      · simp [responsesProduced, handedToWrite, ofClient, hFinished, hHere]
  | sends hIndex => exact List.append_nil _

/-- A step puts in flight exactly what it hands to `uv_write`, or takes out what was sent. -/
theorem writes_flow {s s' : Server} {a : Action} (hStep : Step s a s') (hGoesOn : s'.exited = false)
    (c : Nat) :
    (responsesInFlight c s ++ handedToWrite c (s, a)).Perm
      (responsesSent c (s, a) ++ responsesInFlight c s') := by
  unfold responsesInFlight
  cases hStep with
  | stops hStops => exact absurd hGoesOn (by simp [exit])
  | connects ntWorkData => exact .of_eq (List.append_nil _)
  | quiet ret hPeer hSize => exact .of_eq (List.append_nil _)
  | reads hPeer hPos hFits hSize hRet => exact .of_eq (List.append_nil _)
  | ends ret hPeer hNeg hSize => exact .of_eq (List.append_nil _)
  | submits hQueue hType hPeer hWork => exact .of_eq (List.append_nil _)
  | closes mem hQueue hType hPeer => exact .of_eq (List.append_nil _)
  | drops rc hFinished hNone =>
      simp [handedToWrite, responsesSent, hFinished, PeerWorkData.written_none hNone]
  | writes hFinished hSome hRc =>
      rename_i rc workData rest
      by_cases hHere : workData.uvclient = c
      · simp [handedToWrite, responsesSent, ofClient, hFinished, hHere]
      · simp [handedToWrite, responsesSent, ofClient, hFinished, hHere]
  | sends hIndex =>
      rename_i i
      -- the `i`-th write need not be the oldest one
      have hTaken : s.writing.Perm (s.writing[i]?.toList ++ s.writing.eraseIdx i) := by
        rw [List.getElem?_eq_getElem hIndex]
        exact (List.getElem_cons_eraseIdx_perm hIndex).symm
      have hBuffers := (hTaken.filter (ofClient c)).flatMap_right PeerWorkData.written
      rw [List.filter_append, List.flatMap_append] at hBuffers
      simpa [handedToWrite, responsesSent] using hBuffers

/-! ## Whole runs -/

/-- What is assumed of libuv and of `uv_buf_alloc_cpy` in a step: no client
disconnects, and the copy of a chunk reports success. -/
def Assumed (q : Server × Action) : Prop :=
  match q.2 with
  | .onPeerRead _ nread _ ret => 0 ≤ nread ∧ 0 ≤ ret
  | _ => True

instance : ∀ q : Server × Action, Decidable (Assumed q)
  | (_, .onPeerRead _ _ _ _) => inferInstanceAs (Decidable (_ ∧ _))
  | (_, .onPeerConnected _) | (_, .worker _) | (_, .onWorkCompleted _ _)
  | (_, .onSentResponse _ _) => .isTrue trivial

/-- In a server that goes on, the history of each client and its part of the
queues account for each other. -/
structure Tracked (run : List (Server × Action)) (s : Server) : Prop where
  kept : Kept s
  chunks : ∀ c, run.flatMap (chunksRead c) = run.flatMap (chunksProcessed c) ++ chunksWaiting c s
  responses : ∀ c, run.flatMap (responsesProduced c) =
    run.flatMap (handedToWrite c) ++ responsesWaiting c s
  writes : ∀ c, (run.flatMap (handedToWrite c)).Perm
    (run.flatMap (responsesSent c) ++ responsesInFlight c s)

theorem tracked_init : Tracked [] init :=
  ⟨kept_init, fun _ => rfl, fun _ => rfl, fun _ => .refl _⟩

theorem tracked_step {run : List (Server × Action)} {s s' : Server} {a : Action}
    (hTracked : Tracked run s) (hStep : Step s a s') (hGoesOn : s'.exited = false) :
    Tracked (run ++ [(s, a)]) s' := by
  refine ⟨kept_step hTracked.kept hStep, fun c => ?_, fun c => ?_, fun c => ?_⟩
  · rw [List.flatMap_append, List.flatMap_append, List.flatMap_singleton, List.flatMap_singleton,
      hTracked.chunks c, List.append_assoc, chunks_flow hStep hGoesOn, List.append_assoc]
  · rw [List.flatMap_append, List.flatMap_append, List.flatMap_singleton, List.flatMap_singleton,
      hTracked.responses c, List.append_assoc, responses_flow hTracked.kept hStep hGoesOn,
      List.append_assoc]
  · rw [List.flatMap_append, List.flatMap_append, List.flatMap_singleton, List.flatMap_singleton]
    refine ((hTracked.writes c).append_right _).trans ?_
    rw [List.append_assoc, List.append_assoc]
    exact (writes_flow hStep hGoesOn c).append_left _

/-- The order that a client sees: its chunks are processed in the order they were
read, its responses are handed to `uv_write` in the order they were produced, and
nothing is missing once both queues are empty. -/
structure InOrder (c : Nat) (run : List (Server × Action)) (s : Server) : Prop where
  processed : run.flatMap (chunksProcessed c) <+: run.flatMap (chunksRead c)
  handed : run.flatMap (handedToWrite c) <+: run.flatMap (responsesProduced c)
  complete : s.queue = [] → s.finished = [] →
    run.flatMap (chunksProcessed c) = run.flatMap (chunksRead c) ∧
      run.flatMap (handedToWrite c) = run.flatMap (responsesProduced c)

theorem Tracked.inOrder {run : List (Server × Action)} {s : Server} (hTracked : Tracked run s)
    (c : Nat) : InOrder c run s where
  processed := ⟨_, (hTracked.chunks c).symm⟩
  handed := ⟨_, (hTracked.responses c).symm⟩
  complete := by
    intro hQueue hFinished
    have hChunks := hTracked.chunks c
    have hResponses := hTracked.responses c
    rw [chunksWaiting, hQueue, List.filter_nil, List.map_nil, List.append_nil] at hChunks
    rw [responsesWaiting, hFinished, List.filter_nil, List.flatMap_nil, List.append_nil]
      at hResponses
    exact ⟨hChunks.symm, hResponses.symm⟩

/-- A step that ends the process reads nothing, unless a copy failed. -/
theorem chunksRead_stops {s : Server} {a : Action} (hStops : Stops s a) (hAssumed : Assumed (s, a))
    (c : Nat) : chunksRead c (s, a) = [] := by
  cases hStops with
  | copyFails hPeer hPos hFits hSize hRet => exact absurd hAssumed.2 (by omega)
  | raises hQueue hType hPeer hWork => rfl
  | dangles mem hQueue hGone => rfl
  | cancelled rc hFinished hStatus => rfl
  | refused hFinished hSome hRc => rfl
  | writeFails hIndex hStatus => rfl

/-- The step that ends the process takes at most the first chunk and the first
response that wait. -/
theorem inOrder_stops {run : List (Server × Action)} {s : Server} {a : Action}
    (hTracked : Tracked run s) (hStops : Stops s a) (hAssumed : Assumed (s, a)) (c : Nat) :
    InOrder c (run ++ [(s, a)]) s.exit := by
  have hProcessed := chunksProcessed_prefix c (s, a)
  have hHanded := handedToWrite_prefix c (s, a)
  have hRead := chunksRead_stops hStops hAssumed c
  refine ⟨?_, ?_, fun hQueue hFinished => ?_⟩
  · simp only [List.flatMap_append, List.flatMap_singleton, hRead, List.append_nil]
    rw [hTracked.chunks c]
    exact (List.prefix_append_right_inj _).mpr hProcessed
  · simp only [List.flatMap_append, List.flatMap_singleton]
    rw [hTracked.responses c, List.append_assoc]
    exact (List.prefix_append_right_inj _).mpr (hHanded.trans (List.prefix_append _ _))
  · -- the queues are those the step started with, so it took nothing from them
    obtain ⟨hChunks, hResponses⟩ := (hTracked.inOrder c).complete hQueue hFinished
    change s.queue = [] at hQueue
    change s.finished = [] at hFinished
    have hNone : chunksProcessed c (s, a) = [] ∧ responsesProduced c (s, a) = [] ∧
        handedToWrite c (s, a) = [] := by
      cases a <;> simp [chunksProcessed, responsesProduced, handedToWrite, hQueue, hFinished]
    obtain ⟨hChunk, hProduced, hWritten⟩ := hNone
    simp only [List.flatMap_append, List.flatMap_singleton, hRead, hChunk, hProduced, hWritten,
      hChunks, hResponses, and_self]

section Run

variable {run : List (Server × Action)} {s : Server} (hReach : Reaches step init run s)

include hReach

/-- Along a run the accounts are kept as long as the process goes on. -/
theorem reaches_tracked : s.exited = false → Tracked run s := by
  induction hReach with
  | start => exact fun _ => tracked_init
  | next hBefore hStep ih =>
      intro hGoesOn
      obtain ⟨hRunning, hCase⟩ := step_cases hStep
      exact tracked_step (ih hRunning) hCase hGoesOn

/-- In every reachable state every client is served in order, however the steps of
the clients and of the two threads interleave. -/
theorem clients_in_order (hAssumed : Always (fun _ q => Assumed q) run) (c : Nat) :
    InOrder c run s := by
  cases hReach with
  | start => exact tracked_init.inOrder c
  | next hBefore hStep =>
      obtain ⟨hRunning, hCase⟩ := step_cases hStep
      have hTracked := reaches_tracked hBefore hRunning
      -- the last step may end the process
      rcases hCase.goes_on hRunning with hGoesOn | ⟨hStops, rfl⟩
      · exact (tracked_step hTracked hCase hGoesOn).inOrder c
      · exact inOrder_stops hTracked hStops (always_snoc.mp hAssumed).2 c

end Run

/-- Two clients whose requests are read one after the other; the worker has
processed the first, which is being written. -/
def twoClientsActions : List Action :=
  [.onPeerConnected none, .onPeerConnected none, .onPeerRead 1 131 openingRequest 0,
    .onPeerRead 0 131 openingRequest 0, .worker zeroedMem, .onWorkCompleted 0 0]

/-- Client 1 was served first, and client 0 has a chunk waiting. -/
theorem clients_in_order_two :
    (record step [] init twoClientsActions).1.length = 6 ∧
      ∀ c, InOrder c (record step [] init twoClientsActions).1
        (record step [] init twoClientsActions).2 :=
  ⟨by decide +kernel,
    clients_in_order (reaches_record twoClientsActions .start) (by decide +kernel)⟩

end Server

end WebSocketFiles
