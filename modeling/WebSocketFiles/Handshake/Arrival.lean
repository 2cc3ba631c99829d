import WebSocketFiles.Handshake.Gate

/-!
# A handshake that arrives in pieces

However an acceptable request is cut into chunks, the endpoint waits through
every chunk but the last, answers once when the last one comes, and then is in
the same state, with the same further writes, as an endpoint that had completed
its handshake and was given only the bytes behind the request.

The pass that answers leaves an opened endpoint with those bytes in its buffer;
what remains is that the loop does not depend on how much fuel it has left.
-/

namespace WebSocketFiles

open MachineInt ListSearch Fallible FrameFormat

/-- A request that `recv_handshake` accepts on its own, reading it into the
packet `p`, and that ends with its first empty line. -/
structure Accepts (h : Bytes) (p : WebSocketPacket) : Prop where
  accepted : ∃ input, (WebSocketPacket.new .zeroed).recvHandshake ⟨h, 0⟩ = .ok (0, p, input)
  hs_length : p.hsLength ≠ 0
  ends : indexOfSub (EOL ++ EOL) h = some (h.length - 4)

/-- The verdict on such a request, with the answer it gets. -/
theorem Accepts.verdict_eq {h : Bytes} {p : WebSocketPacket} (hAccepts : Accepts h p)
    (hSize : h.length ≤ 1024000) :
    ∃ p', verdict h = .accepted h.length p' ∧ p'.packHandshakeRsp = p.packHandshakeRsp := by
  obtain ⟨input, hRecv⟩ := hAccepts.accepted
  rcases verdict_of_recvHandshake .zeroed (lt_of_le_of_lt hSize (by decide)) hRecv with
    ⟨-, rfl⟩ | ⟨n, p', hVerdict, rfl⟩
  · exact absurd rfl hAccepts.hs_length
  · obtain ⟨-, hLe, hFour, hFind, -, -⟩ := verdict_accepted hVerdict
    have hEnd := hAccepts.ends
    rw [hFind, Option.some.injEq] at hEnd
    obtain rfl : n = h.length := by omega
    exact ⟨p', hVerdict, rfl⟩

namespace WebSocketEndpoint

variable {ep : WebSocketEndpoint}

/-! ## Before the last chunk -/

/-- While bytes of the request are missing, every call waits, by induction on
the calls. -/
theorem deliverAll_undecided {h : Bytes} {p : WebSocketPacket}
    (hVerdict : verdict h = .accepted h.length p) (front : List Delivery) :
    ∀ (ep : WebSocketEndpoint) (rest : Bytes), Settled ep → ep.wsHandshakeCompleted = false →
      rest ≠ [] → ep.fromwireBuf.data ++ (front.map Delivery.readbuf).flatten ++ rest = h →
      (∀ d ∈ front, ∀ i, (d.mem i).wspacket.hsLength = 0) →
      ep.deliverAll front = ⟨[], .ok (List.replicate front.length 0,
        { ep with fromwireBuf :=
          ⟨ep.fromwireBuf.data ++ (front.map Delivery.readbuf).flatten, 0⟩ })⟩ := by
  induction front with
  | nil =>
      intro ep rest hSettled _ _ _ _
      have hSame : { ep with fromwireBuf := ⟨ep.fromwireBuf.data ++ [], 0⟩ } = ep := by
        rw [List.append_nil, ← hSettled.fromwireBuf_eq]
      rw [List.map_nil, List.flatten_nil, hSame]
      rfl
  | cons d front ih =>
      intro ep rest hSettled hNot hRest hCut hZero
      rw [List.map_cons, List.flatten_cons, ← List.append_assoc] at hCut
      have hClosed : (ep.gathered d).wsHandshakeCompleted = false := hNot
      have hMissing : 0 < rest.length := List.length_pos_iff.mpr hRest
      have hTake : (ep.gathered d).fromwireBuf.data =
          h.take (ep.fromwireBuf.data ++ d.readbuf).length := by
        rw [← hCut, List.append_assoc, List.take_left]
        rfl
      have hShort : (ep.fromwireBuf.data ++ d.readbuf).length < h.length := by
        rw [← hCut]
        simp only [List.length_append]
        omega
      have hUndecided : verdict (ep.gathered d).fromwireBuf.data = .undecided := by
        rw [hTake]
        exact verdict_take hVerdict hShort
      have hCall := deliver_done hSettled (wirePass_undecided hClosed rfl (d.mem 0) hUndecided
        (hZero d List.mem_cons_self 0))
      have hRun := ih (ep.gathered d) rest (gathered_settled hSettled d) hClosed hRest hCut
        fun d' hd' => hZero d' (List.mem_cons_of_mem d hd')
      rw [List.map_cons, List.flatten_cons, ← List.append_assoc]
      exact Traced.runAll_cons_eq hCall hRun

/-! ## The last chunk -/

/-- More fuel changes nothing. -/
theorem fromWireLoop_more_fuel (fuel k : Nat) :
    ∀ (ep : WebSocketEndpoint) (mem : Nat → PassMem),
      (fromWireLoop fuel ep mem).value ≠ .error .outOfFuel →
      fromWireLoop (fuel + k) ep mem = fromWireLoop fuel ep mem := by
  induction fuel with
  | zero =>
      intro ep mem hFuel
      exact absurd rfl hFuel
  | succ fuel ih =>
      intro ep mem hFuel
      rw [Nat.add_right_comm]
      cases hPass : ep.wirePass (mem 0) with
      | mk es v =>
          cases v with
          | error e => rw [fromWireLoop_stops hPass, fromWireLoop_stops hPass]
          | ok pass =>
              cases pass with
              | done result ep₁ => rw [fromWireLoop_done hPass, fromWireLoop_done hPass]
              | again ep₁ =>
                  rw [fromWireLoop_again hPass, Traced.value_prepend] at hFuel
                  rw [fromWireLoop_again hPass, fromWireLoop_again hPass, ih ep₁ _ hFuel]

/-- After the handshake a call writes frames only. -/
theorem fromWireLoop_framed (fuel : Nat) :
    ∀ (ep : WebSocketEndpoint) (mem : Nat → PassMem), ep.wsHandshakeCompleted = true →
      Settled ep → ep.fromwireBuf.data.length < 4294967296 →
      ∀ w ∈ Event.wires (fromWireLoop fuel ep mem).events, Framed w := by
  induction fuel with
  | zero =>
      intro ep mem _ _ _ w hw
      exact absurd hw (by simp [fromWireLoop])
  | succ fuel ih =>
      intro ep mem hDone hSettled hSize w hw
      have hFirst := wirePass_framed hDone hSettled hSize (mem 0)
      cases hPass : ep.wirePass (mem 0) with
      | mk es v =>
          rw [hPass] at hFirst
          cases v with
          | error e =>
              rw [fromWireLoop_stops hPass] at hw
              exact hFirst w hw
          | ok pass =>
              cases pass with
              | done result ep₁ =>
                  rw [fromWireLoop_done hPass] at hw
                  exact hFirst w hw
              | again ep₁ =>
                  rw [fromWireLoop_again hPass, Traced.events_prepend, Event.wires_append] at hw
                  rcases List.mem_append.mp hw with hHead | hTail
                  · exact hFirst w hHead
                  · have hKeeps := wirePass_keeps hSettled (mem 0) hSize (by rw [hPass])
                    exact ih ep₁ _ (hKeeps.stays_open hDone) hKeeps.settled
                      (lt_trans hKeeps.in_range (by decide)) w hTail

theorem wires_rspEvents (ep : WebSocketEndpoint) (p : WebSocketPacket) :
    Event.wires (ep.rspEvents p) = [p.packHandshakeRsp] := by
  rw [rspEvents, wires_wireEvents, Int.toNat_natCast, Option.getD_some, List.take_length]

/-- The call that completes the request: the answer, then what an opened
endpoint does with the bytes behind the request. -/
theorem deliver_accepted {h t : Bytes} {p : WebSocketPacket} (hSettled : Settled ep)
    (hNot : ep.wsHandshakeCompleted = false) {d alone : Delivery}
    (hData : ep.fromwireBuf.data ++ d.readbuf = h ++ t)
    (hVerdict : verdict (h ++ t) = .accepted h.length p)
    (hBytes : alone.readbuf = t) (hMem : ∀ i, alone.mem i = d.mem (i + 1)) :
    (ep.deliver d).events = ep.rspEvents p ++ ((ep.opened []).deliver alone).events ∧
      (ep.deliver d).value.map Prod.snd = ((ep.opened []).deliver alone).value.map Prod.snd := by
  have hClosed : (ep.gathered d).wsHandshakeCompleted = false := hNot
  have hOpen : (ep.opened []).wsHandshakeCompleted = true := rfl
  have hStart : Settled (ep.opened []) := ⟨rfl, hSettled.message_oft⟩
  have hGathered : (ep.opened []).gathered alone = ep.opened t := by
    rw [gathered, hBytes]
    rfl
  have hMems : (fun i => d.mem (i + 1)) = alone.mem := by
    funext i
    exact (hMem i).symm
  have hFour := (verdict_accepted hVerdict).2.2.1
  have hBuf : (ep.gathered d).fromwireBuf = ⟨h ++ t, 0⟩ := by
    rw [← hData]
    rfl
  have hPass := wirePass_accepted hClosed hBuf (d.mem 0) hVerdict
  rw [List.drop_left, openingPass] at hPass
  by_cases hNil : t = []
  · subst hNil
    rw [if_pos rfl] at hPass
    have hAlone : (ep.opened []).deliver alone = ⟨[], .ok (0, ep.opened [])⟩ := by
      have hWait := wirePass_waits (d := []) hOpen (alone.mem 0) (by decide)
        ep.messageData.data (.inl rfl)
      have hHold : (ep.opened []).holding ep.messageData.data [] = ep.opened [] :=
        hStart.eq_holding.symm
      rw [hHold] at hWait
      exact deliver_done hStart (by rw [hGathered]; exact hWait)
    rw [deliver_done hSettled hPass, hAlone]
    exact ⟨(List.append_nil _).symm, rfl⟩
  · rw [if_neg hNil] at hPass
    have hRange : (ep.opened []).fromwireBuf.data.length < 2147483648 := Nat.zero_lt_succ _
    have hEnough := deliver_fuel hStart hRange alone
    rw [deliver_eq hStart, hGathered] at hEnough
    obtain ⟨k, hk⟩ : ∃ k, (ep.gathered d).fromwireBuf.data.length + 1 =
        (ep.opened t).fromwireBuf.data.length + 2 + k := by
      refine ⟨h.length - 1, ?_⟩
      rw [hBuf]
      show (h ++ t).length + 1 = t.length + 2 + (h.length - 1)
      rw [List.length_append]
      omega
    have hLoop := fromWireLoop_more_fuel _ k _ _ hEnough
    rw [deliver_again hSettled hPass, deliver_eq hStart, hGathered, hMems, hk]
    show _ = _ ∧ Except.map Prod.snd (fromWireLoop _ (ep.opened t) alone.mem).value = _
    have hSame : (ep.gathered d).opened t = ep.opened t := rfl
    rw [hSame, hLoop]
    exact ⟨rfl, rfl⟩

/-- Whatever the cuts, a fresh endpoint writes nothing before the last chunk of
an acceptable request; on the last chunk it writes the response, once and first,
and goes on like an endpoint that has completed its handshake and is given the
bytes behind the request. -/
theorem handshake_any_segmentation {h t c : Bytes} {p : WebSocketPacket} (hFresh : Fresh ep)
    (hAccepts : Accepts h p) (hLimit : (h.length + t.length : Int) ≤ wsMaxHandshakeFrameSize)
    (front : List Delivery) (last alone : Delivery)
    (hCut : (front.map Delivery.readbuf).flatten ++ c = h) (hChunk : c ≠ [])
    (hLast : last.readbuf = c ++ t)
    (hZero : ∀ d ∈ front, ∀ i, (d.mem i).wspacket.hsLength = 0)
    (hBytes : alone.readbuf = t) (hMem : ∀ i, alone.mem i = last.mem (i + 1)) :
    (∀ k, ∃ ep', ep.deliverAll (front.take k) =
        ⟨[], .ok (List.replicate (front.take k).length 0, ep')⟩ ∧
      ep'.wsHandshakeCompleted = false) ∧
    ∃ ep', (ep.deliverAll front).value = .ok (List.replicate front.length 0, ep') ∧
      (ep'.deliver last).events = ep.rspEvents p ++ ((ep.opened []).deliver alone).events ∧
      Event.wires (ep'.deliver last).events =
        p.packHandshakeRsp :: Event.wires ((ep.opened []).deliver alone).events ∧
      p.packHandshakeRsp ∉ Event.wires ((ep.opened []).deliver alone).events ∧
      (ep'.deliver last).value.map Prod.snd =
        ((ep.opened []).deliver alone).value.map Prod.snd := by
  unfold wsMaxHandshakeFrameSize at hLimit
  obtain ⟨p', hVerdict, hRsp⟩ := hAccepts.verdict_eq (by omega)
  have hSettled := hFresh.settled
  have hHeld : ep.fromwireBuf.data = [] := by
    rw [hFresh.fromwire]
    rfl
  constructor
  · intro k
    have hSplit : (front.map Delivery.readbuf).flatten =
        ((front.take k).map Delivery.readbuf).flatten ++
          ((front.drop k).map Delivery.readbuf).flatten := by
      rw [← List.flatten_append, ← List.map_append, List.take_append_drop]
    refine ⟨_, deliverAll_undecided hVerdict (front.take k) ep
      (((front.drop k).map Delivery.readbuf).flatten ++ c) hSettled hFresh.handshake ?_ ?_
      fun d hd => hZero d (List.mem_of_mem_take hd), hFresh.handshake⟩
    · exact fun hNil => hChunk (List.append_eq_nil_iff.mp hNil).2
    · rw [hHeld, List.nil_append, ← List.append_assoc, ← hSplit, hCut]
  · have hFront := deliverAll_undecided hVerdict front ep c hSettled hFresh.handshake hChunk
      (by rw [hHeld, List.nil_append, hCut]) hZero
    refine ⟨_, congrArg Traced.value hFront, ?_⟩
    have hWhole : verdict (h ++ t) = .accepted h.length p' := by
      rw [verdict_append hAccepts.ends (by rw [List.length_append]; omega), hVerdict]
    have hWaiting : Settled { ep with fromwireBuf :=
        ⟨ep.fromwireBuf.data ++ (front.map Delivery.readbuf).flatten, 0⟩ } :=
      ⟨rfl, hSettled.message_oft⟩
    obtain ⟨hEvents, hValue⟩ := deliver_accepted hWaiting hFresh.handshake (d := last)
      (by rw [hHeld, hLast, List.nil_append, ← List.append_assoc, hCut]) hWhole hBytes hMem
    have hEvents' : _ = ep.rspEvents p ++ ((ep.opened []).deliver alone).events :=
      hEvents.trans (by rw [rspEvents, rspEvents, hRsp]; rfl)
    refine ⟨hEvents', ?_, ?_, hValue⟩
    · rw [hEvents', Event.wires_append, wires_rspEvents, List.singleton_append]
    · intro hAgain
      have hStart : Settled (ep.opened []) := ⟨rfl, hSettled.message_oft⟩
      have hRange : (ep.opened []).fromwireBuf.data.length < 2147483648 := Nat.zero_lt_succ _
      rw [deliver_eq hStart] at hAgain
      exact packHandshakeRsp_not_framed p (fromWireLoop_framed _ _ _ rfl
        (gathered_settled hStart alone) (gathered_size hRange alone) _ hAgain)

/-- The browser's request is acceptable. -/
theorem openingRequest_accepts : ∃ p, Accepts openingRequest p := by
  have hRecv : ((WebSocketPacket.new .zeroed).recvHandshake ⟨openingRequest, 0⟩).toOption.map
      (fun r => (r.1, r.2.1.hsLength)) = some (0, 131) := by
    decide +kernel
  cases hCall : (WebSocketPacket.new .zeroed).recvHandshake ⟨openingRequest, 0⟩ with
  | error e =>
      rw [hCall] at hRecv
      exact absurd hRecv (by simp [Except.toOption])
  | ok r =>
      obtain ⟨status, p, input⟩ := r
      rw [hCall] at hRecv
      simp only [Except.toOption, Option.map_some, Option.some.injEq, Prod.mk.injEq] at hRecv
      obtain ⟨rfl, hLength⟩ := hRecv
      refine ⟨p, ⟨input, hCall⟩, ?_, ?_⟩
      · rw [hLength]
        decide
      · rw [length_openingRequest, indexOfSub_openingRequest]

/-- The request in two pieces, with a frame (the text 'A') behind the second. -/
theorem handshake_any_segmentation_request :
    ∃ (p : WebSocketPacket) (ep' : WebSocketEndpoint), (deliverAll (.new none)
        [.zeroed (openingRequest.take 60) (by decide +kernel)]).value = .ok ([0], ep') ∧
      Event.wires (ep'.deliver (.zeroed (openingRequest.drop 60 ++ [129, 129, 1, 2, 3, 4, 64])
          (by decide +kernel))).events =
        p.packHandshakeRsp :: Event.wires (((WebSocketEndpoint.new none).opened []).deliver
          (.zeroed [129, 129, 1, 2, 3, 4, 64] (by decide))).events := by
  obtain ⟨p, hAccepts⟩ := openingRequest_accepts
  obtain ⟨-, ep', hFront, -, hWires, -, -⟩ := handshake_any_segmentation (fresh_new none) hAccepts
    (c := openingRequest.drop 60) (t := [129, 129, 1, 2, 3, 4, 64]) (by decide +kernel)
    [.zeroed (openingRequest.take 60) (by decide +kernel)]
    (.zeroed (openingRequest.drop 60 ++ [129, 129, 1, 2, 3, 4, 64]) (by decide +kernel))
    (.zeroed [129, 129, 1, 2, 3, 4, 64] (by decide)) (by decide +kernel) (by decide +kernel) rfl
    (fun d hd i => by rw [List.mem_singleton.mp hd]; rfl) rfl (fun _ => rfl)
  exact ⟨p, ep', hFront, hWires⟩

end WebSocketEndpoint

end WebSocketFiles
