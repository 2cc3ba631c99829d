import WebSocketFiles.Server.Histories
import WebSocketFiles.Server.Lifetime

/-!
# A client that is left out

`without A` forgets client `A`: its place among the clients, its items, its
writes.  Every step of another client is a step of the server without `A`
(`without_other`), and a step of `A` changes nothing there unless it ends the
process (`without_own`).  So a run that never ends by a step of `A`, and keeps off
the memory of `A`, is a run of the other clients alone (`isolated_iff`).

It is the error paths of the callbacks that end the process for everyone: all of
them but the one of `on_peer_read` go through `fail`.
-/

namespace WebSocketFiles

open MachineInt History Transition Fallible WebSocketEndpoint

/-- The number of client `c` once client `A` is left out. -/
def renumber (A c : Nat) : Nat :=
  if A < c then c - 1 else c

theorem renumber_inj {A b c : Nat} (hb : b ≠ A) (hc : c ≠ A) :
    renumber A b = renumber A c ↔ b = c := by
  unfold renumber
  split <;> split <;> omega

/-- The same item, for the client with the number `c`. -/
def PeerWorkData.withClient (workData : PeerWorkData) (c : Nat) : PeerWorkData :=
  { workData with uvclient := c }

@[simp] theorem PeerWorkData.withClient_uvclient (w : PeerWorkData) (c : Nat) :
    (w.withClient c).uvclient = c := rfl

@[simp] theorem PeerWorkData.withClient_type (w : PeerWorkData) (c : Nat) :
    (w.withClient c).type = w.type := rfl

@[simp] theorem PeerWorkData.withClient_request (w : PeerWorkData) (c : Nat) :
    (w.withClient c).request = w.request := rfl

@[simp] theorem PeerWorkData.withClient_response (w : PeerWorkData) (c : Nat) :
    (w.withClient c).response = w.response := rfl

@[simp] theorem PeerWorkData.withClient_readbuf (w : PeerWorkData) (c : Nat) :
    (w.withClient c).readbuf = w.readbuf := rfl

@[simp] theorem PeerWorkData.withClient_written (w : PeerWorkData) (c : Nat) :
    (w.withClient c).written = w.written := rfl

/-! ## Processing does not look at the client -/

theorem onWriteResponse_withClient (w : PeerWorkData) (c : Nat) (buf : Bytes) :
    onWriteResponse (w.withClient c) buf =
      (onWriteResponse w buf >>= fun w => pure (w.withClient c)) := by
  unfold onWriteResponse
  rw [PeerWorkData.withClient_response]
  split
  · rfl
  · simp only [bind_assoc, pure_bind]
    rfl

theorem foldlM_onWriteResponse_withClient (bufs : List Bytes) (c : Nat) :
    ∀ w : PeerWorkData, bufs.foldlM onWriteResponse (w.withClient c) =
      (bufs.foldlM onWriteResponse w >>= fun w => pure (w.withClient c)) := by
  induction bufs with
  | nil => exact fun w => rfl
  | cons buf bufs ih =>
      -- the first response, then the others on the item it was stored in
      intro w
      rw [List.foldlM_cons, List.foldlM_cons, onWriteResponse_withClient, bind_assoc, bind_assoc]
      congr 1
      funext w'
      rw [pure_bind, ih]

theorem onWorkSubmitted_withClient (ep : WebSocketEndpoint) (w : PeerWorkData) (c : Nat)
    (mem : Nat → PassMem) :
    onWorkSubmitted ep (w.withClient c) mem =
      (onWorkSubmitted ep w mem >>= fun r => pure (r.1, r.2.1, r.2.2.withClient c)) := by
  unfold onWorkSubmitted
  simp only [PeerWorkData.withClient_request, foldlM_onWriteResponse_withClient, bind_assoc,
    pure_bind]

namespace Server

/-! ## Leaving a client out -/

/-- The items of the other clients. -/
def others (A : Nat) (items : List PeerWorkData) : List PeerWorkData :=
  items.filterMap fun w =>
    if w.uvclient = A then none else some (w.withClient (renumber A w.uvclient))

/-- The server as it would be if client `A` had not connected. -/
def without (A : Nat) (s : Server) : Server where
  peers := s.peers.eraseIdx A
  queue := others A s.queue
  finished := others A s.finished
  writing := others A s.writing
  exited := s.exited

/-- The client a step is about. -/
def actor (q : Server × Action) : Option Nat :=
  match q.2 with
  | .onPeerConnected _ => some q.1.peers.length
  | .onPeerRead c _ _ _ => some c
  | .worker _ => q.1.queue.head?.map PeerWorkData.uvclient
  | .onWorkCompleted _ _ => q.1.finished.head?.map PeerWorkData.uvclient
  | .onSentResponse i _ => q.1.writing[i]?.map PeerWorkData.uvclient

/-- A step of another client, as it is named without `A`. -/
def renumbered (A : Nat) (s : Server) : Action → Action
  | .onPeerConnected ntWorkData => .onPeerConnected ntWorkData
  | .onPeerRead c nread buf ret => .onPeerRead (renumber A c) nread buf ret
  | .worker mem => .worker mem
  | .onWorkCompleted status rc => .onWorkCompleted status rc
  | .onSentResponse i status => .onSentResponse (others A (s.writing.take i)).length status

/-- What is left of a step without `A`. -/
def otherAction (A : Nat) (s : Server) (a : Action) : Option Action :=
  if actor (s, a) = some A then none else some (renumbered A s a)

/-- The run of the other clients. -/
def runWithout (A : Nat) (run : List (Server × Action)) : List (Server × Action) :=
  project (without A) (otherAction A) run

section Others

variable {A : Nat}

theorem others_own {w : PeerWorkData} (hOwn : w.uvclient = A) (items : List PeerWorkData) :
    others A (w :: items) = others A items :=
  List.filterMap_cons_none (if_pos hOwn)

theorem others_other {w : PeerWorkData} (hOther : w.uvclient ≠ A) (items : List PeerWorkData) :
    others A (w :: items) = w.withClient (renumber A w.uvclient) :: others A items :=
  List.filterMap_cons_some (if_neg hOther)

theorem others_append (items more : List PeerWorkData) :
    others A (items ++ more) = others A items ++ others A more :=
  List.filterMap_append

theorem others_snoc_own {w : PeerWorkData} (hOwn : w.uvclient = A) (items : List PeerWorkData) :
    others A (items ++ [w]) = others A items := by
  rw [others_append, others_own hOwn]
  exact List.append_nil _

theorem others_snoc_other {w : PeerWorkData} (hOther : w.uvclient ≠ A)
    (items : List PeerWorkData) :
    others A (items ++ [w]) = others A items ++ [w.withClient (renumber A w.uvclient)] := by
  rw [others_append, others_other hOther]
  rfl

/-- An item in the middle of the list. -/
theorem others_split (items : List PeerWorkData) {i : Nat} (hi : i < items.length) :
    others A items =
      others A (items.take i) ++ (others A [items[i]] ++ others A (items.drop (i + 1))) := by
  rw [← others_append, ← others_append, List.singleton_append, ← List.drop_eq_getElem_cons hi,
    List.take_append_drop]

theorem others_eraseIdx (items : List PeerWorkData) (i : Nat) :
    others A (items.eraseIdx i) =
      others A (items.take i) ++ others A (items.drop (i + 1)) := by
  rw [List.eraseIdx_eq_take_drop_succ, others_append]

theorem others_eraseIdx_own {items : List PeerWorkData} {i : Nat} (hi : i < items.length)
    (hOwn : items[i].uvclient = A) : others A (items.eraseIdx i) = others A items := by
  rw [others_eraseIdx, others_split items hi, others_own hOwn]
  rfl

theorem others_eraseIdx_other {items : List PeerWorkData} {i : Nat} (hi : i < items.length)
    (hOther : items[i].uvclient ≠ A) :
    (others A (items.take i)).length < (others A items).length ∧
      others A (items.eraseIdx i) =
        (others A items).eraseIdx (others A (items.take i)).length := by
  rw [others_eraseIdx, others_split items hi, others_other hOther]
  constructor
  · rw [List.length_append, List.length_append, List.length_cons]
    omega
  · rw [List.eraseIdx_append_of_length_le (le_refl _), Nat.sub_self]
    rfl

theorem peers_without {c : Nat} (hOther : c ≠ A) (peers : List Peer) :
    (peers.eraseIdx A)[renumber A c]? = peers[c]? := by
  unfold renumber
  split
  · rw [List.getElem?_eraseIdx_of_ge (by omega), Nat.sub_add_cancel (by omega)]
  · rw [List.getElem?_eraseIdx_of_lt (by omega)]

theorem set_without {c : Nat} (hOther : c ≠ A) (peers : List Peer) (peer : Peer) :
    (peers.set c peer).eraseIdx A = (peers.eraseIdx A).set (renumber A c) peer := by
  unfold renumber
  split
  · rw [List.eraseIdx_set_lt (by omega)]
  · rw [List.eraseIdx_set_gt (by omega)]

theorem snoc_without {peers : List Peer} (hOther : peers.length ≠ A) (peer : Peer) :
    (peers ++ [peer]).eraseIdx A = peers.eraseIdx A ++ [peer] := by
  by_cases hLt : A < peers.length
  · exact List.eraseIdx_append_of_lt_length hLt _
  -- `A` has not connected yet, so there is nothing to leave out
  · have hLong : (peers ++ [peer]).length ≤ A := by
      rw [List.length_append, List.length_singleton]
      omega
    rw [List.eraseIdx_of_length_le hLong, List.eraseIdx_of_length_le (by omega)]

end Others

/-! ## The steps of the others -/

section Steps

variable {A : Nat} {s s' : Server} {a : Action}

theorem head_other {w : PeerWorkData} {rest : List PeerWorkData}
    (hOther : (w :: rest).head?.map PeerWorkData.uvclient ≠ some A) : w.uvclient ≠ A := by
  intro hSame
  exact hOther (congrArg some hSame)

/-- Where another client ends the process, it does so without `A`, too. -/
theorem stops_without (hStops : Stops s a) (hOther : actor (s, a) ≠ some A) :
    Stops (without A s) (renumbered A s a) := by
  cases hStops with
  | copyFails hPeer hPos hFits hSize hRet =>
      have hNe := fun hSame => hOther (congrArg some hSame)
      exact .copyFails ((peers_without hNe s.peers).trans hPeer) hPos hFits hSize hRet
  | raises hQueue hType hPeer hWork =>
      rw [actor, hQueue] at hOther
      have hNe := head_other hOther
      exact .raises ((congrArg (others A) hQueue).trans (others_other hNe _)) hType
        ((peers_without hNe s.peers).trans hPeer)
        (by rw [onWorkSubmitted_withClient, hWork, error_bind])
  | dangles mem hQueue hGone =>
      rw [actor, hQueue] at hOther
      have hNe := head_other hOther
      refine .dangles mem ((congrArg (others A) hQueue).trans (others_other hNe _)) ?_
      intro ep reading hPeer
      exact hGone ep reading ((peers_without hNe s.peers).symm.trans hPeer)
  | cancelled rc hFinished hStatus =>
      rw [actor, hFinished] at hOther
      have hNe := head_other hOther
      exact .cancelled rc ((congrArg (others A) hFinished).trans (others_other hNe _)) hStatus
  | refused hFinished hSome hRc =>
      rw [actor, hFinished] at hOther
      have hNe := head_other hOther
      exact .refused ((congrArg (others A) hFinished).trans (others_other hNe _)) hSome hRc
  | writeFails hIndex hStatus =>
      have hItem := List.getElem?_eq_getElem hIndex
      rw [actor] at hOther
      simp only [hItem, Option.map_some, ne_eq, Option.some.injEq] at hOther
      exact .writeFails (others_eraseIdx_other hIndex hOther).1 hStatus

/-- A step of another client is a step without `A`. -/
theorem without_other (hStep : Step s a s') (hOther : actor (s, a) ≠ some A) :
    Step (without A s) (renumbered A s a) (without A s') := by
  cases hStep with
  | stops hStops => exact .stops (stops_without hStops hOther)
  | connects ntWorkData =>
      have hNe : s.peers.length ≠ A := fun hSame => hOther (congrArg some hSame)
      have hStep := Step.connects (s := without A s) ntWorkData
      unfold without at hStep ⊢
      rw [snoc_without hNe]
      exact hStep
  | quiet ret hPeer hSize =>
      have hNe := fun hSame => hOther (congrArg some hSame)
      exact .quiet ret ((peers_without hNe s.peers).trans hPeer) hSize
  | reads hPeer hPos hFits hSize hRet =>
      have hNe := fun hSame => hOther (congrArg some hSame)
      have hStep := Step.reads (s := without A s) ((peers_without hNe s.peers).trans hPeer) hPos
        hFits hSize hRet
      unfold without at hStep ⊢
      rw [others_snoc_other hNe]
      exact hStep
  | ends ret hPeer hNeg hSize =>
      have hNe := fun hSame => hOther (congrArg some hSame)
      have hStep := Step.ends (s := without A s) ret ((peers_without hNe s.peers).trans hPeer)
        hNeg hSize
      unfold without at hStep ⊢
      rw [others_snoc_other hNe, set_without hNe]
      exact hStep
  | submits hQueue hType hPeer hWork =>
      rename_i mem workData workData' rest ep ep' reading nrc
      rw [actor, hQueue] at hOther
      have hNe := head_other hOther
      have hClient := onWorkSubmitted_ok hWork
      have hMoved : onWorkSubmitted ep (workData.withClient (renumber A workData.uvclient)) mem =
          .ok (nrc, ep', workData'.withClient (renumber A workData.uvclient)) := by
        rw [onWorkSubmitted_withClient, hWork, ok_bind, pure_eq]
      have hStep := Step.submits (s := without A s)
        ((congrArg (others A) hQueue).trans (others_other hNe _)) hType
        ((peers_without hNe s.peers).trans hPeer) hMoved
      unfold without at hStep ⊢
      rw [others_snoc_other (hClient ▸ hNe), set_without hNe, hClient]
      exact hStep
  | closes mem hQueue hType hPeer =>
      rw [actor, hQueue] at hOther
      have hNe := head_other hOther
      have hStep := Step.closes (s := without A s) mem
        ((congrArg (others A) hQueue).trans (others_other hNe _)) hType
        ((peers_without hNe s.peers).trans hPeer)
      unfold without at hStep ⊢
      rw [set_without hNe]
      exact hStep
  | drops rc hFinished hNone =>
      rw [actor, hFinished] at hOther
      have hNe := head_other hOther
      exact .drops rc ((congrArg (others A) hFinished).trans (others_other hNe _)) hNone
  | writes hFinished hSome hRc =>
      rw [actor, hFinished] at hOther
      have hNe := head_other hOther
      have hStep := Step.writes (s := without A s)
        ((congrArg (others A) hFinished).trans (others_other hNe _)) hSome hRc
      unfold without at hStep ⊢
      rw [others_snoc_other hNe]
      exact hStep
  | sends hIndex =>
      have hItem := List.getElem?_eq_getElem hIndex
      rw [actor] at hOther
      simp only [hItem, Option.map_some, ne_eq, Option.some.injEq] at hOther
      obtain ⟨hLt, hErase⟩ := others_eraseIdx_other hIndex hOther
      have hStep := Step.sends (s := without A s) hLt
      unfold without at hStep ⊢
      rw [hErase]
      exact hStep

/-- A step of `A` that does not end the process leaves the others as they are. -/
theorem without_own (hStep : Step s a s') (hNot : ¬ Stops s a) (hOwn : actor (s, a) = some A) :
    without A s' = without A s := by
  cases hStep with
  | stops hStops => exact absurd hStops hNot
  | connects ntWorkData =>
      obtain rfl := Option.some.inj hOwn
      unfold without
      rw [List.eraseIdx_append_of_length_le (le_refl _), Nat.sub_self,
        List.eraseIdx_of_length_le (le_refl _)]
      simp
  | quiet ret hPeer hSize => rfl
  | reads hPeer hPos hFits hSize hRet =>
      obtain rfl := Option.some.inj hOwn
      unfold without
      rw [others_snoc_own (PeerWorkData.chunk_uvclient _ _)]
  | ends ret hPeer hNeg hSize =>
      obtain rfl := Option.some.inj hOwn
      unfold without
      rw [others_snoc_own (PeerWorkData.closing_uvclient _), List.eraseIdx_set_eq]
  | submits hQueue hType hPeer hWork =>
      rw [actor, hQueue] at hOwn
      obtain rfl := Option.some.inj hOwn
      unfold without
      rw [others_snoc_own (onWorkSubmitted_ok hWork), List.eraseIdx_set_eq, hQueue, others_own rfl]
  | closes mem hQueue hType hPeer =>
      rw [actor, hQueue] at hOwn
      obtain rfl := Option.some.inj hOwn
      unfold without
      rw [List.eraseIdx_set_eq, hQueue, others_own rfl]
  | drops rc hFinished hNone =>
      rw [actor, hFinished] at hOwn
      obtain rfl := Option.some.inj hOwn
      unfold without
      rw [hFinished, others_own rfl]
  | writes hFinished hSome hRc =>
      rw [actor, hFinished] at hOwn
      obtain rfl := Option.some.inj hOwn
      unfold without
      rw [hFinished, others_own rfl, others_snoc_own rfl]
  | sends hIndex =>
      have hItem := List.getElem?_eq_getElem hIndex
      rw [actor] at hOwn
      simp only [hItem, Option.map_some, Option.some.injEq] at hOwn
      unfold without
      rw [others_eraseIdx_own hIndex hOwn]

end Steps

/-! ## What the others show -/

section Observations

variable {A B : Nat} (hNe : B ≠ A) {s : Server} {a : Action}

include hNe

theorem chunksRead_own (hOwn : actor (s, a) = some A) : chunksRead B (s, a) = [] := by
  cases a with
  | onPeerRead c nread buf ret =>
      obtain rfl := Option.some.inj hOwn
      exact if_neg fun hHere => hNe hHere.1.symm
  | _ => rfl

theorem chunksRead_other (hOther : actor (s, a) ≠ some A) :
    chunksRead B (s, a) = chunksRead (renumber A B) (without A s, renumbered A s a) := by
  cases a with
  | onPeerRead c nread buf ret =>
      have hc : c ≠ A := fun hSame => hOther (congrArg some hSame)
      simp only [chunksRead, renumbered, renumber_inj hc hNe]
  | _ => rfl

theorem chunksProcessed_own (hOwn : actor (s, a) = some A) : chunksProcessed B (s, a) = [] := by
  cases a with
  | worker mem =>
      cases hQueue : s.queue with
      | nil => simp only [chunksProcessed, hQueue]
      | cons w rest =>
          rw [actor, hQueue] at hOwn
          obtain rfl := Option.some.inj hOwn
          simp only [chunksProcessed, hQueue]
          exact if_neg fun hHere => hNe hHere.2.symm
  | _ => rfl

theorem chunksProcessed_other (hOther : actor (s, a) ≠ some A) :
    chunksProcessed B (s, a) =
      chunksProcessed (renumber A B) (without A s, renumbered A s a) := by
  cases a with
  | worker mem =>
      cases hQueue : s.queue with
      | nil => simp only [chunksProcessed, renumbered, without, hQueue, others, List.filterMap_nil]
      | cons w rest =>
          rw [actor, hQueue] at hOther
          have hw := head_other hOther
          simp only [chunksProcessed, renumbered, without, hQueue, others_other hw,
            PeerWorkData.withClient_type, PeerWorkData.withClient_uvclient,
            PeerWorkData.withClient_readbuf, renumber_inj hw hNe]
  | _ => rfl

theorem responsesProduced_own (hOwn : actor (s, a) = some A) :
    responsesProduced B (s, a) = [] := by
  cases a with
  | worker mem =>
      cases hQueue : s.queue with
      | nil => simp only [responsesProduced, hQueue]
      | cons w rest =>
          rw [actor, hQueue] at hOwn
          obtain rfl := Option.some.inj hOwn
          simp only [responsesProduced, hQueue]
          exact if_neg fun hHere => hNe hHere.2.symm
  | _ => rfl

theorem responsesProduced_other (hOther : actor (s, a) ≠ some A) :
    responsesProduced B (s, a) =
      responsesProduced (renumber A B) (without A s, renumbered A s a) := by
  cases a with
  | worker mem =>
      cases hQueue : s.queue with
      | nil =>
          simp only [responsesProduced, renumbered, without, hQueue, others, List.filterMap_nil]
      | cons w rest =>
          rw [actor, hQueue] at hOther
          have hw := head_other hOther
          simp only [responsesProduced, renumbered, without, hQueue, others_other hw,
            PeerWorkData.withClient_type, PeerWorkData.withClient_uvclient,
            PeerWorkData.withClient_readbuf, renumber_inj hw hNe, peers_without hNe]
  | _ => rfl

theorem handedToWrite_own (hOwn : actor (s, a) = some A) : handedToWrite B (s, a) = [] := by
  cases a with
  | onWorkCompleted status rc =>
      cases hFinished : s.finished with
      | nil => simp only [handedToWrite, hFinished]
      | cons w rest =>
          rw [actor, hFinished] at hOwn
          obtain rfl := Option.some.inj hOwn
          simp only [handedToWrite, hFinished]
          exact if_neg fun hHere => hNe hHere.2.symm
  | _ => rfl

theorem handedToWrite_other (hOther : actor (s, a) ≠ some A) :
    handedToWrite B (s, a) = handedToWrite (renumber A B) (without A s, renumbered A s a) := by
  cases a with
  | onWorkCompleted status rc =>
      cases hFinished : s.finished with
      | nil => simp only [handedToWrite, renumbered, without, hFinished, others, List.filterMap_nil]
      | cons w rest =>
          rw [actor, hFinished] at hOther
          have hw := head_other hOther
          simp only [handedToWrite, renumbered, without, hFinished, others_other hw,
            PeerWorkData.withClient_uvclient, PeerWorkData.withClient_written,
            renumber_inj hw hNe]
  | _ => rfl

end Observations

/-! ## What a client must not do -/

/-- No callback of the loop thread gets or runs into an error of client `A`, other
than the end of its connection. -/
def NoError (A : Nat) (q : Server × Action) : Prop :=
  actor q = some A →
    match q.2 with
    | .onPeerConnected _ | .worker _ => True
    | .onPeerRead _ nread _ ret => 0 < nread → 0 ≤ ret
    | .onWorkCompleted status rc =>
        status = 0 ∧ ∀ w ∈ q.1.finished.head?, w.response.base ≠ none → 0 ≤ rc
    | .onSentResponse _ status => status = 0

/-- A chunk of client `A` that the worker takes owes at most one answer, and its
bytes come to no fault. -/
def Benign (A : Nat) (q : Server × Action) : Prop :=
  actor q = some A →
    match q.2, q.1.queue, q.1.peers[A]? with
    | .worker mem, w :: _, some (.connected ep _) => w.type = 1 →
        answersOwed ep w.readbuf (mem 0) ≤ 1 ∧ callFault ep w.readbuf (mem 0) = none
    | _, _, _ => True

/-- A step is harmless on the part of client `A`: no error is reported for it, its
chunk can be answered, and its connection is closed after all its chunks have been
served. -/
structure HarmlessFor (A : Nat) (pre : List (Server × Action)) (q : Server × Action) : Prop where
  no_error : NoError A q
  benign : Benign A q
  served : frees q = some A → pre.countP (serves A) = pre.countP (readsFrom A)

instance (A : Nat) (q : Server × Action) : Decidable (NoError A q) := by
  unfold NoError
  refine @instDecidableForall _ _ inferInstance ?_
  split <;> infer_instance

instance (A : Nat) (q : Server × Action) : Decidable (Benign A q) := by
  unfold Benign
  refine @instDecidableForall _ _ inferInstance ?_
  split <;> infer_instance

instance (A : Nat) (pre : List (Server × Action)) (q : Server × Action) :
    Decidable (HarmlessFor A pre q) :=
  decidable_of_iff (NoError A q ∧ Benign A q ∧
      (frees q = some A → pre.countP (serves A) = pre.countP (readsFrom A)))
    ⟨fun hAll => ⟨hAll.1, hAll.2.1, hAll.2.2⟩, fun hAll => ⟨hAll.1, hAll.2, hAll.3⟩⟩

section Harmless

variable {A : Nat} {s s' : Server} {a : Action}

/-- The worker's item of a chunk in a queue that is kept. -/
theorem Kept.returns_iff (hKept : Kept s) {w : PeerWorkData} (hw : w ∈ s.queue)
    (hType : w.type = 1) {ep : WebSocketEndpoint} {reading : Bool}
    (hPeer : s.peers[w.uvclient]? = some (.connected ep reading)) (mem : Nat → PassMem) :
    (∃ r, onWorkSubmitted ep w mem = .ok r) ↔
      answersOwed ep w.readbuf (mem 0) ≤ 1 ∧ callFault ep w.readbuf (mem 0) = none := by
  obtain ⟨readbuf, hLt, hItem⟩ := hKept.items w hw hType
  obtain ⟨hSettled, hRange⟩ := hKept.endpoints _ _ _ hPeer
  have hChunk : Chunk w readbuf := by
    rw [hItem]
    exact ⟨rfl, rfl⟩
  have hRead : w.readbuf = readbuf := by
    rw [hItem, PeerWorkData.chunk_readbuf]
  rw [hRead]
  exact onWorkSubmitted_returns_iff hSettled hRange ⟨readbuf, hLt, mem⟩ hChunk

/-- A step of `A` ends the process exactly when an error is reported for it or its
chunk cannot be answered. -/
theorem not_stops_iff (hKept : Kept s)
    (hLive : ∀ w ∈ s.queue, s.peers[w.uvclient]? ≠ some .freed) (hStep : Step s a s')
    (hOwn : actor (s, a) = some A) : ¬ Stops s a ↔ NoError A (s, a) ∧ Benign A (s, a) := by
  constructor
  · intro hNot
    cases hStep with
    | stops hStops => exact absurd hStops hNot
    | connects ntWorkData => exact ⟨fun _ => trivial, fun _ => trivial⟩
    | quiet ret hPeer hSize => exact ⟨fun _ hPos => absurd hPos (lt_irrefl 0), fun _ => trivial⟩
    | reads hPeer hPos hFits hSize hRet => exact ⟨fun _ _ => hRet, fun _ => trivial⟩
    | ends ret hPeer hNeg hSize => exact ⟨fun _ hPos => absurd hPos (by omega), fun _ => trivial⟩
    | submits hQueue hType hPeer hWork =>
        rename_i mem w w' rest ep ep' reading nrc
        refine ⟨fun _ => trivial, fun _ => ?_⟩
        have hReturns := (hKept.returns_iff (by simp [hQueue]) hType hPeer mem).mp ⟨_, hWork⟩
        rw [actor, hQueue] at hOwn
        obtain rfl := Option.some.inj hOwn
        simp only [hQueue, hPeer]
        exact fun _ => hReturns
    | closes mem hQueue hType hPeer =>
        rename_i w rest ep reading
        refine ⟨fun _ => trivial, fun _ => ?_⟩
        rw [actor, hQueue] at hOwn
        obtain rfl := Option.some.inj hOwn
        simp only [hQueue, hPeer]
        exact fun hChunk => absurd hChunk hType
    | drops rc hFinished hNone =>
        refine ⟨fun _ => ⟨rfl, fun w hw hSome => ?_⟩, fun _ => trivial⟩
        rw [hFinished] at hw
        obtain rfl := Option.some.inj hw
        exact absurd hNone hSome
    | writes hFinished hSome hRc => exact ⟨fun _ => ⟨rfl, fun _ _ _ => hRc⟩, fun _ => trivial⟩
    | sends hIndex => exact ⟨fun _ => rfl, fun _ => trivial⟩
  · rintro ⟨hNoError, hBenign⟩ hStops
    have hHere := hNoError hOwn
    cases hStops with
    | copyFails hPeer hPos hFits hSize hRet => exact absurd (hHere hPos) (by omega)
    | raises hQueue hType hPeer hWork =>
        rename_i mem w rest ep reading e
        have hChunk := hBenign hOwn
        rw [actor, hQueue] at hOwn
        obtain rfl := Option.some.inj hOwn
        simp only [hQueue, hPeer] at hChunk
        obtain ⟨r, hOk⟩ := (hKept.returns_iff (by simp [hQueue]) hType hPeer mem).mpr
          (hChunk hType)
        rw [hWork] at hOk
        exact absurd hOk (by simp)
    | dangles mem hQueue hGone =>
        -- the worker never takes an item of a client that is gone
        rename_i w rest
        have hLt := hKept.known w (by simp [hQueue])
        have hNot := hLive w (by simp [hQueue])
        cases hPeer : s.peers[w.uvclient] with
        | connected ep reading =>
            exact hGone ep reading (by rw [List.getElem?_eq_getElem hLt, hPeer])
        | freed => exact hNot (by rw [List.getElem?_eq_getElem hLt, hPeer])
    | cancelled rc hFinished hStatus => exact hStatus hHere.1
    | refused hFinished hSome hRc =>
        exact absurd (hHere.2 _ (by rw [hFinished]; rfl) hSome) (by omega)
    | writeFails hIndex hStatus => exact hStatus hHere

end Harmless

/-! ## Runs with and without a client -/

/-- The other clients cannot tell whether `A` is there: the memory of `A` is not
used after it was freed, what is left of the run without `A` is a run of the
server that leads to the same state of the others, and each of them is read from,
processed and answered in it as before. -/
structure Isolated (A : Nat) (run : List (Server × Action)) (s : Server) : Prop where
  idle : Always (fun _ q => frees q = some A →
    (∀ w ∈ q.1.queue, w.type = 1 → w.uvclient ≠ A) ∧
      ∀ w ∈ q.1.finished ++ q.1.writing, w.uvclient ≠ A) run
  keeps_off : Always (fun _ q => actsOn q = some A → q.1.peers[A]? ≠ some .freed) run
  reaches : Reaches step init (runWithout A run) (without A s)
  read : ∀ B, B ≠ A → (runWithout A run).flatMap (chunksRead (renumber A B)) =
    run.flatMap (chunksRead B)
  processed : ∀ B, B ≠ A → (runWithout A run).flatMap (chunksProcessed (renumber A B)) =
    run.flatMap (chunksProcessed B)
  produced : ∀ B, B ≠ A → (runWithout A run).flatMap (responsesProduced (renumber A B)) =
    run.flatMap (responsesProduced B)
  handed : ∀ B, B ≠ A → (runWithout A run).flatMap (handedToWrite (renumber A B)) =
    run.flatMap (handedToWrite B)

/-- The process ends in one of the two runs exactly when it does in the other. -/
theorem Isolated.exited_eq {A : Nat} {run : List (Server × Action)} {s : Server}
    (hIsolated : Isolated A run s) :
    (record step [] init ((runWithout A run).map Prod.snd)).2.exited = s.exited := by
  rw [hIsolated.reaches.record_eq]
  rfl

/-- An observation of another client that every step shows alike is the same in
both runs. -/
theorem flatMap_runWithout {A B : Nat} {obs : Nat → Server × Action → List Bytes}
    (hOwn : ∀ {s a}, actor (s, a) = some A → obs B (s, a) = [])
    (hOther : ∀ {s a}, actor (s, a) ≠ some A →
      obs B (s, a) = obs (renumber A B) (without A s, renumbered A s a))
    (run : List (Server × Action)) :
    (runWithout A run).flatMap (obs (renumber A B)) = run.flatMap (obs B) := by
  refine flatMap_project (fun s a hNone => hOwn ?_) (fun s a b hSome => ?_) run
  · unfold otherAction at hNone
    split at hNone
    · assumption
    · exact absurd hNone (by simp)
  · unfold otherAction at hSome
    split at hSome
    · exact absurd hSome (by simp)
    · rename_i hNot
      rw [← Option.some.inj hSome]
      exact hOther hNot

section Run

variable {A : Nat} {run : List (Server × Action)} {s : Server}
  (hReach : Reaches step init run s)

include hReach

/-- The steps of a run, with what every state of it keeps. -/
theorem always_kept :
    Always (fun pre q => Reaches step init pre q.1 ∧ Kept q.1 ∧
      (∀ w ∈ q.1.queue, q.1.peers[w.uvclient]? ≠ some .freed) ∧ q.1.exited = false ∧
      ∃ s', step q.1 q.2 = some s' ∧ Step q.1 q.2 s') run := by
  have hKept : Always (fun _ q => Kept q.1) run := by
    refine Reaches.always kept_init ?_ hReach (always_true run)
    intro run s a s' hKept _ hStep
    exact kept_step hKept (step_cases hStep).2
  intro pre q post hRun
  obtain ⟨hBefore, s', hStep⟩ := hReach.before pre q post hRun
  obtain ⟨hRunning, hCase⟩ := step_cases hStep
  exact ⟨hBefore, hKept pre q post hRun, worker_keeps_off_freed hReach pre q post hRun, hRunning,
    s', hStep, hCase⟩

/-- Over a run, no step of `A` ends the process exactly when no error is reported
for `A` and all its chunks can be answered. -/
theorem always_not_stops_iff :
    Always (fun _ q => actor q = some A → ¬ Stops q.1 q.2) run ↔
      Always (fun _ q => NoError A q ∧ Benign A q) run := by
  have hIff : ∀ pre q post, run = pre ++ q :: post →
      ((actor q = some A → ¬ Stops q.1 q.2) ↔ NoError A q ∧ Benign A q) := by
    rintro pre ⟨p, a⟩ post hRun
    obtain ⟨-, hKept, hLive, -, s', -, hStep⟩ := always_kept hReach pre (p, a) post hRun
    by_cases hOwn : actor (p, a) = some A
    · rw [← not_stops_iff hKept hLive hStep hOwn]
      exact ⟨fun hNot => hNot hOwn, fun hNot _ => hNot⟩
    · exact ⟨fun _ => ⟨fun hSame => absurd hSame hOwn, fun hSame => absurd hSame hOwn⟩,
        fun _ hSame => absurd hSame hOwn⟩
  exact ⟨fun hAll pre q post hRun => (hIff pre q post hRun).mp (hAll pre q post hRun),
    fun hAll pre q post hRun => (hIff pre q post hRun).mpr (hAll pre q post hRun)⟩

/-- If no step of `A` ends the process, the run without `A` is a run. -/
theorem reaches_without
    (hGoesOn : Always (fun _ q => actor q = some A → ¬ Stops q.1 q.2) run) :
    Reaches step init (runWithout A run) (without A s) := by
  show Reaches step (without A init) (project (without A) (otherAction A) run) (without A s)
  refine Reaches.project ?_ ?_ hReach hGoesOn
  · intro run s a s' _ hNot hStep hNone
    unfold otherAction at hNone
    split at hNone
    · rename_i hOwn
      exact without_own (step_cases hStep).2 (hNot hOwn) hOwn
    · exact absurd hNone (by simp)
  · intro run s a s' b _ hNot hStep hSome
    unfold otherAction at hSome
    split at hSome
    · exact absurd hSome (by simp)
    · rename_i hOther
      obtain ⟨hRunning, hCase⟩ := step_cases hStep
      rw [← Option.some.inj hSome]
      exact step_of hRunning (without_other hCase hOther)

omit hReach in
/-- A run with one more step of `A`. -/
theorem runWithout_own {p : Server} {a : Action} (hOwn : actor (p, a) = some A) :
    runWithout A (run ++ [(p, a)]) = runWithout A run := by
  have hNone : otherAction A p a = none := if_pos hOwn
  unfold runWithout project
  rw [List.filterMap_append, List.filterMap_cons_none (by rw [hNone, Option.map_none]),
    List.filterMap_nil, List.append_nil]

/-- If the other clients cannot tell whether `A` is there, no step of `A` ends the
process: such a step is the last of its run, and without `A` the process goes on
after it. -/
theorem not_stops_of_isolated (hIsolated : Isolated A run s) :
    Always (fun _ q => actor q = some A → ¬ Stops q.1 q.2) run := by
  cases hReach with
  | start => exact always_nil
  | next hBefore hStep =>
      rename_i run p a
      -- the steps before the last one did not end the process, or it would not be there
      obtain ⟨hRunning, -⟩ := step_cases hStep
      have hGoesOn := always_goes_on hBefore hRunning
      refine always_snoc.mpr ⟨hGoesOn.mono fun _ _ _ _ hNot _ => hNot, fun hOwn hStops => ?_⟩
      obtain rfl := step_stops hRunning hStops hStep
      -- without `A` the last step is left out, and the process goes on
      have hWithout := reaches_without (A := A) hBefore
        (hGoesOn.mono fun _ _ _ _ hNot _ => hNot)
      have hReaches := hIsolated.reaches
      rw [runWithout_own hOwn] at hReaches
      have hExited := congrArg Server.exited (hReaches.unique hWithout)
      change true = p.exited at hExited
      rw [hRunning] at hExited
      exact absurd hExited (by decide)

/-- The other clients cannot tell whether `A` is there exactly when every step is
harmless on the part of `A`. -/
theorem isolated_iff : Isolated A run s ↔ Always (HarmlessFor A) run := by
  constructor
  · intro hIsolated
    have hGoesOn := (always_not_stops_iff hReach).mp (not_stops_of_isolated hReach hIsolated)
    have hServed := (always_idle_iff hReach A).mp hIsolated.idle
    intro pre q post hRun
    obtain ⟨hNoError, hBenign⟩ := hGoesOn pre q post hRun
    exact ⟨hNoError, hBenign, hServed pre q post hRun⟩
  · intro hHarmless
    have hIdle := (always_idle_iff hReach A).mpr
      (hHarmless.mono fun _ _ _ _ hHere => hHere.served)
    have hGoesOn := (always_not_stops_iff hReach).mpr
      (hHarmless.mono fun _ _ _ _ hHere => ⟨hHere.no_error, hHere.benign⟩)
    exact {
      idle := hIdle
      keeps_off := always_not_freed hReach
        (hIdle.mono fun _ _ _ _ hHere hFrees => (hHere hFrees).2)
      reaches := reaches_without hReach hGoesOn
      read := fun B hNe => flatMap_runWithout (chunksRead_own hNe) (chunksRead_other hNe) run
      processed := fun B hNe =>
        flatMap_runWithout (chunksProcessed_own hNe) (chunksProcessed_other hNe) run
      produced := fun B hNe =>
        flatMap_runWithout (responsesProduced_own hNe) (responsesProduced_other hNe) run
      handed := fun B hNe =>
        flatMap_runWithout (handedToWrite_own hNe) (handedToWrite_other hNe) run }

end Run

/-! ## Two runs of two clients -/

/-- Client 0 is answered, and then its connection breaks, before client 1 sends a
byte. -/
def brokenConnectionActions : List Action :=
  [.onPeerConnected none, .onPeerConnected none, .onPeerRead 0 131 openingRequest 0,
    .worker zeroedMem, .onWorkCompleted 0 0, .onSentResponse 0 0, .onPeerRead 0 (-104) [] 0,
    .worker zeroedMem, .onPeerRead 1 1 [71] 0, .worker zeroedMem]

/-- Client 1 does not notice. -/
theorem isolated_iff_brokenConnection :
    (record step [] init brokenConnectionActions).1.length = 10 ∧
      Isolated 0 (record step [] init brokenConnectionActions).1
        (record step [] init brokenConnectionActions).2 :=
  ⟨by decide +kernel,
    (isolated_iff (reaches_record brokenConnectionActions .start)).mpr (by decide +kernel)⟩

/-- The answer to client 0 is being written, client 1 has sent a byte, and the
write fails. -/
def brokenWriteActions : List Action :=
  [.onPeerConnected none, .onPeerConnected none, .onPeerRead 0 131 openingRequest 0,
    .worker zeroedMem, .onWorkCompleted 0 0, .onPeerRead 1 1 [71] 0, .onSentResponse 0 (-32)]

/-- The failed write of client 0 ends the process: the byte of client 1 waits in
the work queue for ever.  Without client 0 it is processed. -/
theorem brokenWrite_not_isolated :
    Reaches step init (record step [] init brokenWriteActions).1
        (record step [] init brokenWriteActions).2 ∧
      ¬ Isolated 0 (record step [] init brokenWriteActions).1
        (record step [] init brokenWriteActions).2 ∧
      chunksWaiting 1 (record step [] init brokenWriteActions).2 = [[71]] ∧
      (∀ a, step (record step [] init brokenWriteActions).2 a = none) ∧
      ((record step [] init [.onPeerConnected none, .onPeerRead 0 1 [71] 0,
        .worker zeroedMem]).1.flatMap (chunksProcessed 0)) = [[71]] := by
  obtain ⟨hExited, hGoesOn, hWaiting⟩ :
      (record step [] init brokenWriteActions).2.exited = true ∧
        (record step [] init ((runWithout 0
          (record step [] init brokenWriteActions).1).map Prod.snd)).2.exited = false ∧
        chunksWaiting 1 (record step [] init brokenWriteActions).2 = [[71]] := by
    decide +kernel
  refine ⟨reaches_record brokenWriteActions .start, fun hIsolated => ?_, hWaiting,
    fun a => if_pos hExited, by decide +kernel⟩
  have hSame := hIsolated.exited_eq
  rw [hGoesOn, hExited] at hSame
  exact absurd hSame (by decide)

end Server

end WebSocketFiles
