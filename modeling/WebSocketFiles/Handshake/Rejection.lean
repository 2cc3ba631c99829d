import WebSocketFiles.Handshake.Runs

/-!
# A rejected handshake stays rejected

The endpoint has no failed state: after `from_wire` has returned `-1` it goes on
gathering bytes.  But the rejected buffer is kept, and a rejected buffer stays
rejected whatever is appended (`verdict_rejected_append`), so every later call
returns `-1` again and writes nothing.
-/

namespace WebSocketFiles

open MachineInt ListSearch Fallible FrameFormat StrHelper

/-- Why a handshake is refused: the buffer is over the limit, or its header
block has a wrong parameter. -/
def RefusedFor (d : Bytes) : Prop :=
  wsMaxHandshakeFrameSize < d.length ∨
    ∃ n p, (WebSocketPacket.new .zeroed).fetchHsElement d = .ok (n, p) ∧ 0 < n ∧
      p.handshakeParamsOk = false

theorem verdict_rejected_iff {d : Bytes} : verdict d = .rejected ↔ RefusedFor d := by
  unfold verdict RefusedFor
  by_cases hLong : wsMaxHandshakeFrameSize < d.length
  · rw [if_pos hLong]
    exact ⟨fun _ => .inl hLong, fun _ => rfl⟩
  · rw [if_neg hLong]
    cases hFetch : (WebSocketPacket.new .zeroed).fetchHsElement d with
    | error e => simp [hLong]
    | ok r =>
        obtain ⟨n, p⟩ := r
        constructor
        · intro hVerdict
          by_cases hNeg : n ≤ 0
          · simp [hNeg] at hVerdict
          · refine .inr ⟨n, p, rfl, by omega, ?_⟩
            cases hParams : p.handshakeParamsOk with
            | true => simp [hNeg, hParams] at hVerdict
            | false => rfl
        · rintro (hOver | ⟨n', p', hEq, hPos, hWrong⟩)
          · exact absurd hOver hLong
          · simp only [Except.ok.injEq, Prod.mk.injEq] at hEq
            obtain ⟨rfl, rfl⟩ := hEq
            simp [show ¬ n ≤ 0 by omega, hWrong]

namespace WebSocketEndpoint

variable {ep : WebSocketEndpoint}

/-- After the handshake no call returns a negative number. -/
theorem fromWireLoop_result_nonneg (fuel : Nat) :
    ∀ (ep : WebSocketEndpoint) (mem : Nat → PassMem), ep.wsHandshakeCompleted = true →
      Settled ep → ep.fromwireBuf.data.length < 4294967296 →
      ∀ r ep', (fromWireLoop fuel ep mem).value = .ok (r, ep') → 0 ≤ r := by
  induction fuel with
  | zero =>
      intro ep mem _ _ _ r ep' hLoop
      exact absurd hLoop (by simp [fromWireLoop])
  | succ fuel ih =>
      intro ep mem hDone hSettled hSize r ep' hLoop
      rw [fromWireLoop_succ] at hLoop
      obtain ⟨pass, hPass, hNext⟩ := Traced.bind_ok_iff.mp hLoop
      cases pass with
      | again ep₁ =>
          have hKeeps := wirePass_keeps hSettled (mem 0) hSize hPass
          exact ih ep₁ _ (hKeeps.stays_open hDone) hKeeps.settled
            (lt_trans hKeeps.in_range (by decide)) r ep' hNext
      | done result ep₁ =>
          simp only [Traced.pure_eq, Except.ok.injEq, Prod.mk.injEq] at hNext
          obtain ⟨rfl, -⟩ := hNext
          have hCall := openPass hDone hSettled hSize (mem 0)
          generalize ep.wirePass (mem 0) = call at hPass hCall
          cases hCall with
          | waits hWaits =>
              simp only [Except.ok.injEq, Pass.done.injEq] at hPass
              exact hPass.1 ▸ le_refl _
          | raises hWaits hRaises => exact absurd hPass (by simp)
          | overlong hWaits hRaises hFin hOver => exact absurd hPass (by simp)
          | consumes hWaits hRaises hFits =>
              have hEnd := Except.ok.inj hPass
              unfold consumedPass at hEnd
              split at hEnd
              · simp only [Pass.done.injEq] at hEnd
                exact hEnd.1 ▸ Int.natCast_nonneg _
              · exact absurd hEnd (by simp)

/-- A call over a rejected buffer returns `-1` and keeps the buffer. -/
theorem deliver_rejected (hSettled : Settled ep) (hNot : ep.wsHandshakeCompleted = false)
    {d : Delivery} (hLt : (ep.gathered d).fromwireBuf.data.length < 2147483648)
    (hVerdict : verdict (ep.gathered d).fromwireBuf.data = .rejected) :
    ep.deliver d = ⟨[], .ok (-1, ep.gathered d)⟩ := by
  have hClosed : (ep.gathered d).wsHandshakeCompleted = false := hNot
  exact deliver_done hSettled (wirePass_rejected hClosed rfl _ hLt hVerdict)

/-- With bytes in the buffer, only a rejected handshake makes a call return
`-1`. -/
theorem rejected_of_deliver {ep₁ : WebSocketEndpoint} (hSettled : Settled ep) {d : Delivery}
    (hLt : (ep.gathered d).fromwireBuf.data.length < 2147483648)
    (hSome : (ep.gathered d).fromwireBuf.data ≠ [])
    (hCall : (ep.deliver d).value = .ok (-1, ep₁)) :
    ep.wsHandshakeCompleted = false ∧ verdict (ep.gathered d).fromwireBuf.data = .rejected := by
  have hStart := gathered_settled hSettled d
  have hSize := lt_trans hLt (show 2147483648 < 4294967296 by decide)
  have hOpened : ∀ fuel mem rest, rest.length ≤ (ep.gathered d).fromwireBuf.data.length →
      (fromWireLoop fuel ((ep.gathered d).opened rest) mem).value ≠ .ok (-1, ep₁) := by
    intro fuel mem rest hLe hLoop
    have hNonneg := fromWireLoop_result_nonneg fuel ((ep.gathered d).opened rest) mem rfl
      ⟨rfl, hStart.message_oft⟩ (lt_of_le_of_lt hLe hSize) _ _ hLoop
    omega
  cases hDone : (ep.gathered d).wsHandshakeCompleted with
  | true =>
      rw [deliver_eq hSettled] at hCall
      have hNonneg := fromWireLoop_result_nonneg _ _ _ hDone hStart hSize _ _ hCall
      omega
  | false =>
      refine ⟨hDone, ?_⟩
      cases hVerdict : verdict (ep.gathered d).fromwireBuf.data with
      | rejected => rfl
      | stops e =>
          rw [deliver_eq hSettled, fromWireLoop_succ, wirePass_stops hDone rfl _ hVerdict] at hCall
          exact absurd hCall (by simp)
      | undecided =>
          by_cases hZero : (d.mem 0).wspacket.hsLength = 0
          · rw [deliver_done hSettled (wirePass_undecided hDone rfl _ hVerdict hZero)] at hCall
            simp only [Except.ok.injEq, Prod.mk.injEq] at hCall
            exact absurd hCall.1 (by decide)
          · have hPass := wirePass_garbage hDone rfl _ hLt hVerdict hZero
            unfold openingPass at hPass
            split at hPass
            · -- garbage that reads as a negative size removes nothing
              rename_i hNil
              rw [deliver_done hSettled hPass] at hCall
              simp only [Except.ok.injEq, Prod.mk.injEq] at hCall
              have hWord := (d.mem 0).wspacket.hsLength.toNat_lt
              unfold garbageUsed at hNil
              split at hNil
              · rw [toInt32_of_lt (by omega) (by omega)] at hCall
                omega
              · exact absurd hNil hSome
            · rw [deliver_again hSettled hPass] at hCall
              exact absurd hCall (hOpened _ _ _ (List.drop_suffix _ _).length_le)
      | accepted n p =>
          have hPass := wirePass_accepted hDone rfl (d.mem 0) hVerdict
          unfold openingPass at hPass
          split at hPass
          · rw [deliver_done hSettled hPass] at hCall
            simp only [Except.ok.injEq, Prod.mk.injEq] at hCall
            omega
          · rw [deliver_again hSettled hPass] at hCall
            exact absurd hCall (hOpened _ _ _ (List.drop_suffix _ _).length_le)

/-- From a rejected buffer every run returns `-1` at each call, by induction on
the calls. -/
theorem deliverAll_rejected (later : List Delivery) :
    ∀ ep : WebSocketEndpoint, Settled ep → ep.wsHandshakeCompleted = false →
      verdict ep.fromwireBuf.data = .rejected →
      ep.fromwireBuf.data.length + (later.map fun d => d.readbuf.length).sum < 2147483648 →
      ∃ ep₂, ep.deliverAll later = ⟨[], .ok (List.replicate later.length (-1), ep₂)⟩ ∧
        ep₂.wsHandshakeCompleted = false := by
  induction later with
  | nil =>
      intro ep _ hNot _ _
      exact ⟨ep, rfl, hNot⟩
  | cons d later ih =>
      intro ep hSettled hNot hVerdict hBytes
      simp only [List.map_cons, List.sum_cons] at hBytes
      have hLength : (ep.gathered d).fromwireBuf.data.length =
          ep.fromwireBuf.data.length + d.readbuf.length := by
        simp [gathered]
      have hVerdict' : verdict (ep.gathered d).fromwireBuf.data = .rejected :=
        verdict_rejected_append hVerdict
      have hCall := deliver_rejected hSettled hNot (by omega) hVerdict'
      obtain ⟨ep₂, hRest, hNot₂⟩ := ih (ep.gathered d) (gathered_settled hSettled d) hNot hVerdict'
        (by omega)
      exact ⟨ep₂, Traced.runAll_cons_eq hCall hRest, hNot₂⟩

/-- Once a call has returned `-1`, for one of the two reasons a handshake is
refused for, every later call returns `-1`, nothing is passed to `to_wire`, and
the handshake stays uncompleted.  The buffer that was refused holds at least a
byte; on an empty one the garbage `0xFFFFFFFF` in `hs_length_` would be returned
as `-1` too. -/
theorem rejected_stays_rejected {n : Nat} {ep₁ : WebSocketEndpoint} (hReach : Reachable n ep)
    (d : Delivery) (hCall : (ep.deliver d).value = .ok (-1, ep₁))
    (hSome : ep.fromwireBuf.data ++ d.readbuf ≠ []) (later : List Delivery)
    (hBytes : n + d.readbuf.length + (later.map fun d' => d'.readbuf.length).sum < 2147483648) :
    RefusedFor (ep.fromwireBuf.data ++ d.readbuf) ∧
      ∃ ep₂, ep₁.deliverAll later = ⟨[], .ok (List.replicate later.length (-1), ep₂)⟩ ∧
        ep₂.wsHandshakeCompleted = false := by
  obtain ⟨hSettled, hHeld, -⟩ := hReach.invariant
  have hLength : (ep.gathered d).fromwireBuf.data.length =
      ep.fromwireBuf.data.length + d.readbuf.length := by
    simp [gathered]
  obtain ⟨hNot, hVerdict⟩ := rejected_of_deliver hSettled (by omega) hSome hCall
  rw [deliver_rejected hSettled hNot (by omega) hVerdict] at hCall
  simp only [Except.ok.injEq, Prod.mk.injEq, true_and] at hCall
  subst hCall
  exact ⟨verdict_rejected_iff.mp hVerdict,
    deliverAll_rejected later _ (gathered_settled hSettled d) hNot hVerdict (by omega)⟩

/-- A request that does not ask for the upgrade. -/
def plainRequest : Bytes :=
  lit "GET / HTTP/1.1\r\nHost: localhost\r\n\r\n"

theorem plainRequest_refused : RefusedFor plainRequest := by
  have hParse : ((WebSocketPacket.new .zeroed).fetchHsElement plainRequest).toOption.map
      (fun r => (r.1, r.2.handshakeParamsOk)) = some (35, false) := by
    decide +kernel
  cases hFetch : (WebSocketPacket.new .zeroed).fetchHsElement plainRequest with
  | error e =>
      rw [hFetch] at hParse
      exact absurd hParse (by simp [Except.toOption])
  | ok r =>
      rw [hFetch] at hParse
      simp only [Except.toOption, Option.map_some, Option.some.injEq, Prod.mk.injEq] at hParse
      exact .inr ⟨r.1, r.2, hFetch, by omega, hParse.2⟩

/-- A refused request, then a correct one on the same connection. -/
theorem rejected_stays_rejected_plainRequest :
    ∃ ep₁ ep₂ : WebSocketEndpoint,
      (deliver (.new none) (.zeroed plainRequest (by decide +kernel))).value = .ok (-1, ep₁) ∧
        ep₁.deliverAll [.zeroed openingRequest (by decide +kernel)] = ⟨[], .ok ([-1], ep₂)⟩ ∧
        ep₂.wsHandshakeCompleted = false := by
  have hCall := deliver_rejected (fresh_new none).settled rfl
    (d := .zeroed plainRequest (by decide +kernel)) (by decide +kernel)
    (verdict_rejected_iff.mpr plainRequest_refused)
  obtain ⟨-, ep₂, hLater, hNot⟩ := rejected_stays_rejected (.fresh (fresh_new none)) _
    (congrArg Traced.value hCall) (by decide +kernel)
    [.zeroed openingRequest (by decide +kernel)] (by decide +kernel)
  exact ⟨_, ep₂, congrArg Traced.value hCall, hLater, hNot⟩

end WebSocketEndpoint

end WebSocketFiles
