import WebSocketFiles.Receive.Passes

/-!
# The receive loop ends and loses no byte

The `while (true)` loop has no bound of its own.  It ends because a pass that
goes round again has removed at least one byte, and no byte is lost because what
a pass removes is exactly the header it has read and the payload this announces
(`conserves_deliver`).
-/

namespace WebSocketFiles

open MachineInt FrameFormat Fallible WebSocketEndpoint

namespace PassStart

/-- The count that `parse_packet` returns in the pass. -/
def count (q : PassStart) : Nat :=
  match (q.ep.parsePacket q.mem).value with
  | .ok (n, _) => n.toNat
  | .error _ => 0

/-- The bytes that are counted, at the front of the buffer. -/
def removed (q : PassStart) : Bytes :=
  q.buffer.take q.count

/-- What a pass does that gets the count `n`. -/
structure Removes (q : PassStart) (n : Int) : Prop where
  /-- the count is that of the header bytes read and the payload announced -/
  counts : ∃ headerSize p input,
    (WebSocketPacket.new q.mem.wspacket).fetchFrameInfo q.ep.fromwireBuf =
      .ok (headerSize, p, input) ∧ n = headerSize + p.payloadLength
  positive : 1 ≤ n
  inside : n ≤ q.buffer.length
  /-- just these bytes leave the buffer -/
  leaves : ∃ pass, q.call.value = .ok pass ∧
    pass.endpoint.fromwireBuf.data = q.buffer.drop n.toNat

end PassStart

/-- What a call of `from_wire` leaves behind that returns the endpoint `ep'`. -/
structure Conserves (ep : WebSocketEndpoint) (d : Delivery) (ep' : WebSocketEndpoint) : Prop where
  passes_le : (ep.deliverPasses d).length ≤ (ep.fromwireBuf.data ++ d.readbuf).length + 1
  /-- each pass with a positive count removes that many bytes -/
  removes : ∀ q ∈ ep.deliverPasses d, ∀ n ep₁,
    (q.ep.parsePacket q.mem).value = .ok (n, ep₁) → 0 < n → q.Removes n
  /-- what was there is what was removed, in order, and what is left -/
  pieces : ep.fromwireBuf.data ++ d.readbuf =
    (ep.deliverPasses d).flatMap PassStart.removed ++ ep'.fromwireBuf.data
  settled : Settled ep'
  /-- a further call without bytes has nothing to do -/
  idle : ∀ d' : Delivery, d'.readbuf = [] → ep'.deliver d' = ⟨[], .ok (0, ep')⟩

namespace WebSocketEndpoint

variable {ep : WebSocketEndpoint}

/-! ## One pass -/

section Pass

variable (hDone : ep.wsHandshakeCompleted = true) (hSettled : Settled ep) (mem : PassMem)
  (hSize : ep.fromwireBuf.data.length < 2147483648)

include hDone hSettled hSize

theorem parsePacket_of_waits (hWaits : Waits mem.wspacket.maskingKey ep.fromwireBuf.data) :
    (ep.parsePacket mem).value = .ok (0, ep) := by
  have hCall := parsePacket_waits (M := ep.messageData.data) hDone mem
    (lt_trans hSize (by decide)) hWaits
  rw [← hSettled.eq_holding] at hCall
  rw [hCall]

variable (hWaits : ¬ Waits mem.wspacket.maskingKey ep.fromwireBuf.data)
  (hRaises : ¬ Raises mem.wspacket.maskingKey ep.fromwireBuf.data)
  (hFits : (ep.frontHeader mem).fin = 1 →
    ¬ Overlong (ep.frontHeader mem).opcode (ep.frontMessage mem))

include hWaits hRaises hFits

/-- A whole frame is counted with its header and its payload. -/
theorem parsePacket_of_frame :
    ∃ ep₁, (ep.parsePacket mem).value = .ok (((ep.frontHeader mem).total : Int), ep₁) := by
  have hCall := parsePacket_frame (M := ep.messageData.data) hDone mem rfl
    (lt_trans hSize (by decide)) hWaits hRaises hFits
  rw [← hSettled.eq_holding] at hCall
  exact ⟨_, by rw [hCall]; rfl⟩

/-- A whole frame is removed. -/
theorem removes_of_frame : PassStart.Removes ⟨ep, mem⟩ (ep.frontHeader mem).total := by
  have hLarge := lt_trans hSize (show 2147483648 < 4294967296 by decide)
  have hPos := scanHeader_total_pos mem.wspacket.maskingKey (not_or.mp hWaits).1
  have hLe := Nat.le_of_not_lt (not_or.mp hWaits).2
  have hPass := wirePass_consumes (M := ep.messageData.data) hDone mem hLarge rfl hWaits hRaises
    hFits
  rw [← hSettled.eq_holding] at hPass
  have hHeader := fetchFrameInfo_eq mem.wspacket (seen_self hLarge)
  rw [← hSettled.fromwireBuf_eq] at hHeader
  refine ⟨⟨_, _, _, hHeader, ?_⟩, ?_, ?_, _, by rw [PassStart.call, hPass], ?_⟩
  · exact Nat.cast_add _ _
  · show 1 ≤ ((scanHeader _ _).total : Int)
    omega
  · show ((scanHeader _ _).total : Int) ≤ ep.fromwireBuf.data.length
    omega
  · show (consumedPass _ _ _ (remaining (ep.frontHeader mem).total _)).endpoint.fromwireBuf.data =
      ep.fromwireBuf.data.drop (ep.frontHeader mem).total
    rw [remaining, if_pos hSize, consumedPass]
    split
    · rename_i hNil
      exact hNil.symm
    · rfl

end Pass

/-! ## The loop -/

/-- What passes over the bytes `d` leave behind that end with the endpoint
`ep'`. -/
structure Drained (passes : List PassStart) (d : Bytes) (ep' : WebSocketEndpoint) : Prop where
  passes_le : passes.length ≤ d.length + 1
  removes : ∀ q ∈ passes, ∀ n ep₁,
    (q.ep.parsePacket q.mem).value = .ok (n, ep₁) → 0 < n → q.Removes n
  pieces : d = passes.flatMap PassStart.removed ++ ep'.fromwireBuf.data
  settled : Settled ep'
  stays_open : ep'.wsHandshakeCompleted = true
  waits : Waits Uninit.zeroed.maskingKey ep'.fromwireBuf.data

section Drain

variable {mem : PassMem}

/-- Bytes that wait end the passes. -/
theorem drained_waits (hDone : ep.wsHandshakeCompleted = true) (hSettled : Settled ep)
    (hSize : ep.fromwireBuf.data.length < 2147483648)
    (hWaits : Waits mem.wspacket.maskingKey ep.fromwireBuf.data) :
    Drained [⟨ep, mem⟩] ep.fromwireBuf.data ep := by
  have hCall := parsePacket_of_waits hDone hSettled mem hSize hWaits
  have hCount : PassStart.count ⟨ep, mem⟩ = 0 := by
    rw [PassStart.count, hCall]
    rfl
  refine ⟨Nat.le_add_left _ _, ?_, ?_, hSettled, hDone, (waits_any_key _ _ _).mp hWaits⟩
  · intro q hq n ep₁ hResult hPos
    obtain rfl := List.mem_singleton.mp hq
    rw [hCall] at hResult
    simp only [Except.ok.injEq, Prod.mk.injEq] at hResult
    omega
  · rw [List.flatMap_singleton, PassStart.removed, hCount, List.take_zero, List.nil_append]

/-- No passes are needed over an empty buffer. -/
theorem drained_nil (hDone : ep.wsHandshakeCompleted = true) (M : Bytes) :
    Drained [] [] (ep.holding M []) :=
  ⟨Nat.zero_le _, fun _ hq => absurd hq (by simp), rfl, settled_holding ep M [], hDone, .inl rfl⟩

/-- A pass over a frame, in front of the passes over what is left. -/
theorem Drained.cons {passes : List PassStart} {n : Nat} {ep₁ ep' : WebSocketEndpoint}
    (hCall : (ep.parsePacket mem).value = .ok ((n : Int), ep₁))
    (hRemoves : PassStart.Removes ⟨ep, mem⟩ n)
    (hDrained : Drained passes (ep.fromwireBuf.data.drop n) ep') :
    Drained (⟨ep, mem⟩ :: passes) ep.fromwireBuf.data ep' := by
  have hCount : PassStart.count ⟨ep, mem⟩ = n := by
    rw [PassStart.count, hCall]
    exact Int.toNat_natCast n
  have hPos := hRemoves.positive
  have hLe : (n : Int) ≤ ep.fromwireBuf.data.length := hRemoves.inside
  have hPasses := hDrained.passes_le
  rw [List.length_drop] at hPasses
  refine ⟨?_, ?_, ?_, hDrained.settled, hDrained.stays_open, hDrained.waits⟩
  · rw [List.length_cons]
    omega
  · intro q hq m ep₂ hResult hMore
    rcases List.mem_cons.mp hq with rfl | hLater
    · rw [hCall] at hResult
      simp only [Except.ok.injEq, Prod.mk.injEq] at hResult
      exact hResult.1 ▸ hRemoves
    · exact hDrained.removes q hLater m ep₂ hResult hMore
  · rw [List.flatMap_cons, List.append_assoc, ← hDrained.pieces, PassStart.removed, hCount]
    exact (List.take_append_drop n _).symm

end Drain

/-- The bytes held of the message and the bytes in the buffer become no more when
a frame is taken from the one to the other. -/
theorem kept_length_le {h : Header} {M d : Bytes} (hLe : h.total ≤ d.length)
    (hLt : M.length + d.length < 2147483648) :
    (kept h (M ++ h.payload d)).length + (d.drop h.total).length ≤ M.length + d.length := by
  have hPayload := (payload_length_le h d).2
  have hMessage : (M ++ h.payload d).length = M.length + (h.payload d).length :=
    List.length_append
  unfold Header.total at *
  rw [List.length_drop]
  unfold kept
  split
  · have hAll := (payload_length_le h d).1
    rw [flushed_eq (by omega), List.length_nil]
    omega
  · omega

/-- The loop returns and conserves the bytes, by induction on its passes: each
frame leaves fewer bytes in the buffer and no more in all. -/
theorem fromWireLoop_conserves (fuel : Nat) :
    ∀ (ep : WebSocketEndpoint) (mem : Nat → PassMem), ep.wsHandshakeCompleted = true →
      Settled ep →
      ep.messageData.data.length + ep.fromwireBuf.data.length < 2147483634 →
      ep.fromwireBuf.data.length < fuel →
      (fromWireLoop fuel ep mem).value ≠ .error .outOfRange →
      ∃ r ep', (fromWireLoop fuel ep mem).value = .ok (r, ep') ∧
        Drained (loopPasses fuel ep mem) ep.fromwireBuf.data ep' := by
  induction fuel with
  | zero =>
      intro ep mem _ _ _ hFuel
      omega
  | succ fuel ih =>
      intro ep mem hDone hSettled hHeld hFuel hInRange
      have hSize : ep.fromwireBuf.data.length < 2147483648 := by omega
      have hCall := openPass hDone hSettled (lt_trans hSize (by decide)) (mem 0)
      generalize hPass : ep.wirePass (mem 0) = call at hCall
      cases hCall with
      | waits hWaits =>
          rw [fromWireLoop_done hPass, loopPasses, hPass]
          exact ⟨0, ep, rfl, drained_waits hDone hSettled hSize hWaits⟩
      | raises hWaits hRaises =>
          rw [fromWireLoop_stops hPass] at hInRange
          exact absurd rfl hInRange
      | overlong hWaits hRaises hFin hOver =>
          -- the bytes held are too few for a message of `2^31` bytes
          have hPayload := (payload_length_le (ep.frontHeader (mem 0)) ep.fromwireBuf.data).1
          have hShort : (ep.frontMessage (mem 0)).length < 2147483648 := by
            rw [frontMessage, List.length_append]
            omega
          exact absurd hOver (not_overlong _ hShort)
      | consumes hWaits hRaises hFits =>
          obtain ⟨ep₁, hResult⟩ := parsePacket_of_frame hDone hSettled (mem 0) hSize hWaits hRaises
            hFits
          have hRemoves := removes_of_frame hDone hSettled (mem 0) hSize hWaits hRaises hFits
          have hLe : (ep.frontHeader (mem 0)).total ≤ ep.fromwireBuf.data.length :=
            Nat.le_of_not_lt (not_or.mp hWaits).2
          have hPos : 0 < (ep.frontHeader (mem 0)).total :=
            scanHeader_total_pos _ (not_or.mp hWaits).1
          have hKept := kept_length_le (M := ep.messageData.data) hLe (by omega)
          rw [remaining, if_pos hSize] at hPass
          -- the loop goes round again only if bytes are left behind the frame
          by_cases hNil : ep.fromwireBuf.data.drop (ep.frontHeader (mem 0)).total = []
          · rw [consumedPass, if_pos hNil] at hPass
            rw [fromWireLoop_done hPass, loopPasses, hPass]
            refine ⟨_, _, rfl, Drained.cons hResult hRemoves ?_⟩
            rw [hNil]
            exact drained_nil hDone _
          · rw [consumedPass, if_neg hNil] at hPass
            rw [fromWireLoop_again hPass] at hInRange ⊢
            rw [loopPasses, hPass]
            obtain ⟨r, ep', hLoop, hDrained⟩ := ih
              (ep.holding (kept (ep.frontHeader (mem 0)) (ep.frontMessage (mem 0)))
                (ep.fromwireBuf.data.drop (ep.frontHeader (mem 0)).total))
              (fun i => mem (i + 1)) hDone (settled_holding ep _ _)
              (lt_of_le_of_lt hKept hHeld)
              (by show (ep.fromwireBuf.data.drop _).length < fuel; rw [List.length_drop]; omega)
              hInRange
            exact ⟨r, ep', hLoop, Drained.cons hResult hRemoves hDrained⟩

/-- A call on an endpoint whose bytes wait has nothing to do. -/
theorem deliver_idle (hDone : ep.wsHandshakeCompleted = true) (hSettled : Settled ep)
    (hWaits : Waits Uninit.zeroed.maskingKey ep.fromwireBuf.data) {d : Delivery}
    (hNone : d.readbuf = []) : ep.deliver d = ⟨[], .ok (0, ep)⟩ := by
  have hSame : ep.gathered d = ep := by
    rw [gathered, hNone, List.append_nil, ← hSettled.fromwireBuf_eq]
  have hPass := wirePass_waits hDone (d.mem 0) (lt_trans (waits_length_lt hWaits) (by decide))
    ep.messageData.data ((waits_any_key _ _ _).mp hWaits)
  rw [← hSettled.eq_holding] at hPass
  exact deliver_done hSettled (by rw [hSame]; exact hPass)

/-- A call that reads nothing out of range returns, and loses no byte. -/
theorem conserves_deliver (hDone : ep.wsHandshakeCompleted = true) (hSettled : Settled ep)
    (d : Delivery)
    (hHeld : ep.messageData.data.length + ep.fromwireBuf.data.length + d.readbuf.length <
      2147483634)
    (hInRange : (ep.deliver d).value ≠ .error .outOfRange) :
    ∃ r ep', (ep.deliver d).value = .ok (r, ep') ∧ Conserves ep d ep' := by
  rw [deliver_eq hSettled] at hInRange ⊢
  have hBytes : (ep.gathered d).fromwireBuf.data = ep.fromwireBuf.data ++ d.readbuf := rfl
  obtain ⟨r, ep', hLoop, hDrained⟩ := fromWireLoop_conserves
    ((ep.gathered d).fromwireBuf.data.length + 2) (ep.gathered d) d.mem hDone
    (gathered_settled hSettled d)
    (by
      show ep.messageData.data.length + _ < _
      rw [hBytes, List.length_append]
      omega)
    (by omega) hInRange
  rw [← deliverPasses_gathered hSettled] at hDrained
  exact ⟨r, ep', hLoop, hDrained.passes_le, hDrained.removes, hDrained.pieces, hDrained.settled,
    fun d' hNone => deliver_idle hDrained.stays_open hDrained.settled hDrained.waits hNone⟩

/-- Two frames and the beginning of a third. -/
theorem conserves_deliver_frames :
    ∃ r ep', (openEndpoint.deliver
        (.zeroed (letterFrame.bytes ++ letterFrame.bytes ++ [129]) (by decide))).value =
          .ok (r, ep') ∧
      Conserves openEndpoint
        (.zeroed (letterFrame.bytes ++ letterFrame.bytes ++ [129]) (by decide)) ep' :=
  conserves_deliver rfl ⟨rfl, rfl⟩ _ (by decide) (by decide +kernel)

end WebSocketEndpoint

end WebSocketFiles
