import WebSocketFiles.Model.Server

/-!
# The steps of the server

Every step of the transition relation, said once: `Step s a s'` lists what an
action can do to the server, and `Stops s a` in which cases it ends the process.
`step_iff` ties the two to the step function, so that the invariants of a run
are case analyses over `Step` and a run can also be built from it.
-/

namespace WebSocketFiles

open MachineInt History Transition

/-- The item of a chunk. -/
def PeerWorkData.chunk (c : Nat) (readbuf : Bytes) : PeerWorkData :=
  ⟨c, ⟨some readbuf, readbuf.length⟩, .null, 1⟩

/-- The item of the end of a connection. -/
def PeerWorkData.closing (c : Nat) : PeerWorkData :=
  ⟨c, .null, .null, 0⟩

@[simp] theorem PeerWorkData.chunk_uvclient (c : Nat) (readbuf : Bytes) :
    (PeerWorkData.chunk c readbuf).uvclient = c := rfl

@[simp] theorem PeerWorkData.chunk_type (c : Nat) (readbuf : Bytes) :
    (PeerWorkData.chunk c readbuf).type = 1 := rfl

@[simp] theorem PeerWorkData.closing_uvclient (c : Nat) :
    (PeerWorkData.closing c).uvclient = c := rfl

@[simp] theorem PeerWorkData.closing_type (c : Nat) : (PeerWorkData.closing c).type = 0 := rfl

namespace Server

/-- An item of client `c`. -/
def ofClient (c : Nat) (workData : PeerWorkData) : Bool :=
  workData.uvclient = c

/-- A chunk of client `c`. -/
def chunkOf (c : Nat) (workData : PeerWorkData) : Bool :=
  workData.type = 1 ∧ workData.uvclient = c

/-- The steps that end the process. -/
inductive Stops (s : Server) : Action → Prop where
  /-- the copy of a chunk reports a failure -/
  | copyFails {c : Nat} {ep : WebSocketEndpoint} {nread : Int} {buf : Bytes} {ret : Int}
      (hPeer : s.peers[c]? = some (.connected ep true)) (hPos : 0 < nread)
      (hFits : nread ≤ buf.length) (hSize : buf.length < 2147483648) (hRet : ret < 0) :
      Stops s (.onPeerRead c nread buf ret)
  /-- processing a chunk exits, raises, or is undefined -/
  | raises {mem : Nat → PassMem} {workData : PeerWorkData} {rest : List PeerWorkData}
      {ep : WebSocketEndpoint} {reading : Bool} {e : Abort}
      (hQueue : s.queue = workData :: rest) (hType : workData.type = 1)
      (hPeer : s.peers[workData.uvclient]? = some (.connected ep reading))
      (hWork : onWorkSubmitted ep workData mem = .error e) : Stops s (.worker mem)
  /-- the worker takes an item of a client that is gone -/
  | dangles (mem : Nat → PassMem) {workData : PeerWorkData} {rest : List PeerWorkData}
      (hQueue : s.queue = workData :: rest)
      (hGone : ∀ ep reading, s.peers[workData.uvclient]? ≠ some (.connected ep reading)) :
      Stops s (.worker mem)
  /-- an item completes with an error -/
  | cancelled {status : Int} (rc : Int) {workData : PeerWorkData} {rest : List PeerWorkData}
      (hFinished : s.finished = workData :: rest) (hStatus : status ≠ 0) :
      Stops s (.onWorkCompleted status rc)
  /-- `uv_write` reports an error -/
  | refused {rc : Int} {workData : PeerWorkData} {rest : List PeerWorkData}
      (hFinished : s.finished = workData :: rest) (hSome : workData.response.base ≠ none)
      (hRc : rc < 0) : Stops s (.onWorkCompleted 0 rc)
  /-- a write completes with an error -/
  | writeFails {i : Nat} {status : Int} (hIndex : i < s.writing.length) (hStatus : status ≠ 0) :
      Stops s (.onSentResponse i status)

/-- The steps of the server. -/
inductive Step (s : Server) : Action → Server → Prop where
  | stops {a : Action} (hStops : Stops s a) : Step s a s.exit
  | connects (ntWorkData : Option Addr) :
      Step s (.onPeerConnected ntWorkData)
        { s with peers := s.peers ++ [.connected (.new ntWorkData) true] }
  | quiet {c : Nat} {ep : WebSocketEndpoint} {buf : Bytes} (ret : Int)
      (hPeer : s.peers[c]? = some (.connected ep true)) (hSize : buf.length < 2147483648) :
      Step s (.onPeerRead c 0 buf ret) s
  | reads {c : Nat} {ep : WebSocketEndpoint} {nread : Int} {buf : Bytes} {ret : Int}
      (hPeer : s.peers[c]? = some (.connected ep true)) (hPos : 0 < nread)
      (hFits : nread ≤ buf.length) (hSize : buf.length < 2147483648) (hRet : 0 ≤ ret) :
      Step s (.onPeerRead c nread buf ret)
        { s with queue := s.queue ++ [.chunk c (buf.take nread.toNat)] }
  | ends {c : Nat} {ep : WebSocketEndpoint} {nread : Int} {buf : Bytes} (ret : Int)
      (hPeer : s.peers[c]? = some (.connected ep true)) (hNeg : nread < 0)
      (hSize : buf.length < 2147483648) :
      Step s (.onPeerRead c nread buf ret) { s with
        peers := s.peers.set c (.connected ep false), queue := s.queue ++ [.closing c] }
  | submits {mem : Nat → PassMem} {workData workData' : PeerWorkData}
      {rest : List PeerWorkData} {ep ep' : WebSocketEndpoint} {reading : Bool} {nrc : Int}
      (hQueue : s.queue = workData :: rest) (hType : workData.type = 1)
      (hPeer : s.peers[workData.uvclient]? = some (.connected ep reading))
      (hWork : onWorkSubmitted ep workData mem = .ok (nrc, ep', workData')) :
      Step s (.worker mem) { s with
        peers := s.peers.set workData.uvclient (.connected ep' reading)
        queue := rest
        finished := s.finished ++ [workData'] }
  | closes (mem : Nat → PassMem) {workData : PeerWorkData} {rest : List PeerWorkData}
      {ep : WebSocketEndpoint} {reading : Bool} (hQueue : s.queue = workData :: rest)
      (hType : workData.type ≠ 1)
      (hPeer : s.peers[workData.uvclient]? = some (.connected ep reading)) :
      Step s (.worker mem) { s with
        peers := s.peers.set workData.uvclient .freed, queue := rest }
  | drops (rc : Int) {workData : PeerWorkData} {rest : List PeerWorkData}
      (hFinished : s.finished = workData :: rest) (hNone : workData.response.base = none) :
      Step s (.onWorkCompleted 0 rc) { s with finished := rest }
  | writes {rc : Int} {workData : PeerWorkData} {rest : List PeerWorkData}
      (hFinished : s.finished = workData :: rest) (hSome : workData.response.base ≠ none)
      (hRc : 0 ≤ rc) :
      Step s (.onWorkCompleted 0 rc) { s with
        finished := rest, writing := s.writing ++ [workData] }
  | sends {i : Nat} (hIndex : i < s.writing.length) :
      Step s (.onSentResponse i 0) { s with writing := s.writing.eraseIdx i }

/-- A step either ends the process or leaves it running. -/
theorem Step.goes_on {s s' : Server} {a : Action} (hStep : Step s a s')
    (hRunning : s.exited = false) : s'.exited = false ∨ (Stops s a ∧ s' = s.exit) := by
  cases hStep with
  | stops hStops => exact .inr ⟨hStops, rfl⟩
  | _ => exact .inl hRunning

/-! ## The callbacks -/

/-- A chunk is queued when its copy does not report a failure. -/
theorem allocWorkReq_chunk (c : Nat) {nread : Int} {buf : Bytes} (ret : Int) (hPos : 0 < nread)
    (hFits : nread ≤ buf.length) (hSize : buf.length < 2147483648) :
    allocWorkReq c nread ⟨some buf, buf.length⟩ 1 ret =
      if ret < 0 then .error .undefined else .ok (.chunk c (buf.take nread.toNat)) := by
  have hLength : toUInt64 (toInt32 nread) = nread.toNat := by
    rw [toInt32_of_lt (by omega) (by omega), toUInt64_of_lt (by omega) (by omega)]
  have hCopy : uvBufAllocCpy .null ⟨some buf, buf.length⟩ (toInt32 nread) ret =
      .ok (ret, ⟨some (buf.take nread.toNat), nread.toNat⟩) := by
    unfold uvBufAllocCpy
    simp only [hLength, Option.getD_some]
    rw [if_neg (by omega), if_neg (by omega)]
  unfold allocWorkReq
  simp only [if_true, hCopy, Fallible.ok_bind]
  by_cases hRet : ret < 0
  · -- `free_work_data` on a response that was never initialised
    rw [if_pos hRet, if_pos hRet]
    rfl
  · have hTake : (buf.take nread.toNat).length = nread.toNat := by
      rw [List.length_take]
      omega
    rw [if_neg hRet, if_neg hRet, PeerWorkData.chunk, hTake]
    rfl

theorem allocWorkReq_closing (c : Nat) (nread : Int) (buf : UvBuf) (ret : Int) :
    allocWorkReq c nread buf 0 ret = .ok (.closing c) := rfl

/-- A response is stored with the client the item has. -/
theorem onWriteResponse_ok {workData workData' : PeerWorkData} {buf : Bytes}
    (hWrite : onWriteResponse workData buf = .ok workData') :
    workData'.uvclient = workData.uvclient := by
  unfold onWriteResponse at hWrite
  split at hWrite
  · exact absurd hWrite (by simp)
  · obtain ⟨⟨rc, response⟩, -, hWrite⟩ := Fallible.bind_ok_iff.mp hWrite
    simp only [Fallible.pure_eq, Except.ok.injEq] at hWrite
    rw [← hWrite]

theorem foldlM_onWriteResponse_ok (bufs : List Bytes) :
    ∀ {workData workData' : PeerWorkData},
      bufs.foldlM onWriteResponse workData = .ok workData' →
        workData'.uvclient = workData.uvclient := by
  induction bufs with
  | nil =>
      intro workData workData' hFold
      simp only [List.foldlM_nil, Fallible.pure_eq, Except.ok.injEq] at hFold
      rw [hFold]
  | cons buf bufs ih =>
      intro workData workData' hFold
      rw [List.foldlM_cons] at hFold
      obtain ⟨workData₁, hWrite, hFold⟩ := Fallible.bind_ok_iff.mp hFold
      rw [ih hFold, onWriteResponse_ok hWrite]

/-- Processing a chunk keeps the item with its client. -/
theorem onWorkSubmitted_ok {ep ep' : WebSocketEndpoint} {workData workData' : PeerWorkData}
    {mem : Nat → PassMem} {nrc : Int}
    (hWork : onWorkSubmitted ep workData mem = .ok (nrc, ep', workData')) :
    workData'.uvclient = workData.uvclient := by
  unfold onWorkSubmitted at hWork
  obtain ⟨workData₁, hFold, hWork⟩ := Fallible.bind_ok_iff.mp hWork
  obtain ⟨⟨nrc₁, ep₁⟩, -, hWork⟩ := Fallible.bind_ok_iff.mp hWork
  simp only [Fallible.pure_eq, Except.ok.injEq, Prod.mk.injEq] at hWork
  obtain ⟨-, -, rfl⟩ := hWork
  exact foldlM_onWriteResponse_ok _ hFold

/-! ## The step function -/

theorem onPeerRead_step {s s' : Server} {c : Nat} {nread : Int} {buf : Bytes} {ret : Int}
    (hStep : s.onPeerRead c nread buf ret = some s') : Step s (.onPeerRead c nread buf ret) s' := by
  unfold onPeerRead at hStep
  split at hStep
  · rename_i ep hPeer
    -- an impossible read, the end of the connection, an empty read, or a chunk
    by_cases hBad : (buf.length : Int) < nread ∨ 2147483648 ≤ buf.length
    · rw [if_pos hBad] at hStep
      exact absurd hStep (by simp)
    · rw [if_neg hBad] at hStep
      obtain ⟨hFits, hSize⟩ := not_or.mp hBad
      by_cases hNeg : nread < 0
      · rw [if_pos hNeg, allocWorkReq_closing] at hStep
        exact Option.some.inj hStep ▸ .ends ret hPeer hNeg (by omega)
      · rw [if_neg hNeg] at hStep
        by_cases hZero : nread = 0
        · rw [if_pos hZero] at hStep
          subst hZero
          exact Option.some.inj hStep ▸ .quiet ret hPeer (by omega)
        · rw [if_neg hZero, allocWorkReq_chunk c ret (by omega) (by omega) (by omega)] at hStep
          by_cases hRet : ret < 0
          · rw [if_pos hRet] at hStep
            exact Option.some.inj hStep ▸
              .stops (.copyFails hPeer (by omega) (by omega) (by omega) hRet)
          · rw [if_neg hRet] at hStep
            exact Option.some.inj hStep ▸
              .reads hPeer (by omega) (by omega) (by omega) (by omega)
  · exact absurd hStep (by simp)

theorem worker_step {s s' : Server} {mem : Nat → PassMem} (hStep : s.worker mem = some s') :
    Step s (.worker mem) s' := by
  unfold worker at hStep
  split at hStep
  · exact absurd hStep (by simp)
  · rename_i workData rest hQueue
    split at hStep
    · rename_i ep reading hPeer
      -- `on_work_submitted`, else `on_work_client_closed`
      split at hStep
      · rename_i hType
        split at hStep
        · rename_i e hWork
          exact Option.some.inj hStep ▸ .stops (.raises hQueue hType hPeer hWork)
        · rename_i nrc ep' workData' hWork
          rw [onWorkSubmitted_ok hWork] at hStep
          exact Option.some.inj hStep ▸ .submits hQueue hType hPeer hWork
      · rename_i hType
        exact Option.some.inj hStep ▸ .closes mem hQueue hType hPeer
    · rename_i hGone
      exact Option.some.inj hStep ▸ .stops (.dangles mem hQueue hGone)

theorem onWorkCompleted_step {s s' : Server} {status rc : Int}
    (hStep : s.onWorkCompleted status rc = some s') : Step s (.onWorkCompleted status rc) s' := by
  unfold onWorkCompleted at hStep
  split at hStep
  · exact absurd hStep (by simp)
  · rename_i workData rest hFinished
    split at hStep
    · rename_i hStatus
      exact Option.some.inj hStep ▸ .stops (.cancelled rc hFinished hStatus)
    · rename_i hStatus
      obtain rfl := not_not.mp hStatus
      split at hStep
      · rename_i hNone
        exact Option.some.inj hStep ▸ .drops rc hFinished hNone
      · rename_i hSome
        split at hStep
        · rename_i hRc
          exact Option.some.inj hStep ▸ .stops (.refused hFinished hSome hRc)
        · rename_i hRc
          exact Option.some.inj hStep ▸ .writes hFinished hSome (by omega)

theorem onSentResponse_step {s s' : Server} {i : Nat} {status : Int}
    (hStep : s.onSentResponse i status = some s') : Step s (.onSentResponse i status) s' := by
  unfold onSentResponse at hStep
  split at hStep
  · exact absurd hStep (by simp)
  · rename_i hIndex
    split at hStep
    · rename_i hStatus
      exact Option.some.inj hStep ▸ .stops (.writeFails (by omega) hStatus)
    · rename_i hStatus
      obtain rfl := not_not.mp hStatus
      exact Option.some.inj hStep ▸ .sends (by omega)

theorem step_cases {s s' : Server} {a : Action} (hStep : step s a = some s') :
    s.exited = false ∧ Step s a s' := by
  unfold step at hStep
  by_cases hExited : s.exited = true
  · rw [if_pos hExited] at hStep
    exact absurd hStep (by simp)
  · rw [if_neg hExited] at hStep
    refine ⟨by simpa using hExited, ?_⟩
    cases a with
    | onPeerConnected ntWorkData => exact Option.some.inj hStep ▸ .connects ntWorkData
    | onPeerRead c nread buf ret => exact onPeerRead_step hStep
    | worker mem => exact worker_step hStep
    | onWorkCompleted status rc => exact onWorkCompleted_step hStep
    | onSentResponse i status => exact onSentResponse_step hStep

/-- The step function takes every step of a server that has not ended. -/
theorem step_of {s s' : Server} {a : Action} (hRunning : s.exited = false) (hStep : Step s a s') :
    step s a = some s' := by
  have hGoes : ¬ s.exited = true := by
    rw [hRunning]
    decide
  unfold step
  rw [if_neg hGoes]
  cases hStep with
  | stops hStops =>
      cases hStops with
      | copyFails hPeer hPos hFits hSize hRet =>
          simp only [onPeerRead, hPeer]
          rw [if_neg (by omega), if_neg (by omega), if_neg (by omega),
            allocWorkReq_chunk _ _ hPos hFits hSize, if_pos hRet]
      | raises hQueue hType hPeer hWork => simp only [worker, hQueue, hPeer, hType, if_true, hWork]
      | dangles mem hQueue hGone =>
          simp only [worker, hQueue]
      | cancelled rc hFinished hStatus =>
          simp only [onWorkCompleted, hFinished]
          rw [if_pos hStatus]
      | refused hFinished hSome hRc =>
          simp only [onWorkCompleted, hFinished]
          rw [if_neg (by simp), if_neg hSome, if_pos hRc]
      | writeFails hIndex hStatus =>
          simp only [onSentResponse]
          rw [if_neg (by omega), if_pos hStatus]
  | connects ntWorkData => rfl
  | quiet ret hPeer hSize =>
      simp only [onPeerRead, hPeer]
      rw [if_neg (by omega), if_neg (by decide), if_pos trivial]
  | reads hPeer hPos hFits hSize hRet =>
      simp only [onPeerRead, hPeer]
      rw [if_neg (by omega), if_neg (by omega), if_neg (by omega),
        allocWorkReq_chunk _ _ hPos hFits hSize, if_neg (by omega)]
  | ends ret hPeer hNeg hSize =>
      simp only [onPeerRead, hPeer]
      rw [if_neg (by omega), if_pos hNeg, allocWorkReq_closing]
  | submits hQueue hType hPeer hWork =>
      simp only [worker, hQueue, hPeer, hType, if_true, hWork, onWorkSubmitted_ok hWork]
  | closes mem hQueue hType hPeer =>
      simp only [worker, hQueue, hPeer]
      rw [if_neg hType]
  | drops rc hFinished hNone =>
      simp only [onWorkCompleted, hFinished]
      rw [if_neg (by simp), if_pos hNone]
  | writes hFinished hSome hRc =>
      simp only [onWorkCompleted, hFinished]
      rw [if_neg (by simp), if_neg hSome, if_neg (by omega)]
  | sends hIndex =>
      simp only [onSentResponse]
      rw [if_neg (by omega), if_neg (by simp)]

/-- A step that can end the process does so. -/
theorem step_stops {s s' : Server} {a : Action} (hRunning : s.exited = false) (hStops : Stops s a)
    (hStep : step s a = some s') : s' = s.exit :=
  Option.some.inj (hStep.symm.trans (step_of hRunning (.stops hStops)))

/-- A server that goes on was not ended by any step of its run. -/
theorem always_goes_on {run : List (Server × Action)} {s : Server}
    (hReach : Reaches step init run s) (hRunning : s.exited = false) :
    Always (fun _ q => ¬ Stops q.1 q.2) run := by
  induction hReach with
  | start => exact always_nil
  | next hBefore hStep ih =>
      -- nothing happens after a step that ends the process
      obtain ⟨hBefore, -⟩ := step_cases hStep
      refine always_snoc.mpr ⟨ih hBefore, fun hStops => ?_⟩
      rw [step_stops hBefore hStops hStep] at hRunning
      exact absurd hRunning (by simp [exit])

theorem step_iff {s s' : Server} {a : Action} :
    step s a = some s' ↔ s.exited = false ∧ Step s a s' :=
  ⟨step_cases, fun hStep => step_of hStep.1 hStep.2⟩

/-- Memory that is zero where nothing was assigned to it. -/
def zeroedMem : Nat → PassMem :=
  fun _ => ⟨.zeroed, .zeroed⟩

end Server

end WebSocketFiles
