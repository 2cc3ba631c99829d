import WebSocketFiles.Handshake.Verdict

/-!
# A pass of the receive loop before the handshake is completed

`parse_packet` before the handshake, in terms of the verdict on the buffer.
An accepted block opens the connection.  So does an undecided one when the
packet's `hs_length_`, which `recv_handshake` then leaves alone, happens not to
be zero; what is removed from the buffer in that case depends on the garbage.
-/

namespace WebSocketFiles

open MachineInt ListSearch Fallible

/-! ## `recv_handshake` -/

section Recv

variable (mem : Uninit) {d : Bytes}

/-- Below the limit, the result is read off `fetch_hs_element`. -/
theorem recvHandshake_eq {input : ByteBuffer} (hSize : input.data.length ≤ 1024000) :
    (WebSocketPacket.new mem).recvHandshake input =
      (WebSocketPacket.new .zeroed).fetchHsElement input.data >>= fun r =>
        if r.1 ≤ 0 then .ok (0, r.2.withMem mem, input.resetoft)
        else if !r.2.handshakeParamsOk then
          .ok (wsErrorInvalidHandshakeParams, r.2.withMem mem, input.resetoft)
        else
          .ok (0, { r.2.withMem mem with hsLength := UInt32.ofNat (toUInt32 r.1) },
            (input.skipX (toInt32 (UInt32.ofNat (toUInt32 r.1)).toNat)).2) := by
  have hLength : input.length = input.data.length := ByteBuffer.length_eq (by omega)
  have hString : stdString (if input.length = 0 then none else some input.data) input.length =
      .ok input.data := stdString_bytes (by omega)
  have hLimit : ¬ wsMaxHandshakeFrameSize < input.length := by
    rw [hLength]
    unfold wsMaxHandshakeFrameSize
    omega
  have hMem : WebSocketPacket.new mem = (WebSocketPacket.new .zeroed).withMem mem := rfl
  unfold WebSocketPacket.recvHandshake
  rw [if_neg hLimit, ByteBuffer.bytes_eq, ok_bind, hString, ok_bind, hMem,
    WebSocketPacket.fetchHsElement_withMem]
  cases (WebSocketPacket.new .zeroed).fetchHsElement input.data with
  | error e => rfl
  | ok r => rfl

variable (hLt : d.length < 2147483648)

include hLt

private theorem recvHandshake_large (hSize : 1024000 < d.length) :
    (WebSocketPacket.new mem).recvHandshake ⟨d, 0⟩ =
      .ok (wsMaxHandshakeFrameSize, WebSocketPacket.new mem, ⟨d, 0⟩) := by
  have hLength : (⟨d, 0⟩ : ByteBuffer).length = d.length := ByteBuffer.length_eq hLt
  have hLimit : wsMaxHandshakeFrameSize < (⟨d, 0⟩ : ByteBuffer).length := by
    rw [hLength]
    unfold wsMaxHandshakeFrameSize
    omega
  unfold WebSocketPacket.recvHandshake
  rw [if_pos hLimit]
  rfl

omit hLt in
theorem recvHandshake_stops {e : Abort} (hVerdict : verdict d = .stops e) :
    (WebSocketPacket.new mem).recvHandshake ⟨d, 0⟩ = .error e := by
  have hSize := verdict_length_le hVerdict (by simp)
  have hLimit : ¬ wsMaxHandshakeFrameSize < d.length := by
    unfold wsMaxHandshakeFrameSize
    omega
  rw [verdict, if_neg hLimit] at hVerdict
  rw [recvHandshake_eq mem hSize]
  cases hFetch : (WebSocketPacket.new .zeroed).fetchHsElement d with
  | error e' =>
      rw [hFetch] at hVerdict
      simp only [Verdict.stops.injEq] at hVerdict
      rw [hVerdict]
      rfl
  | ok r =>
      rw [hFetch] at hVerdict
      simp only at hVerdict
      split at hVerdict
      · exact absurd hVerdict (by simp)
      · split at hVerdict <;> exact absurd hVerdict (by simp)

omit hLt in
/-- Undecided: the packet is untouched, its `hs_length_` included. -/
theorem recvHandshake_undecided (hVerdict : verdict d = .undecided) :
    (WebSocketPacket.new mem).recvHandshake ⟨d, 0⟩ =
      .ok (0, WebSocketPacket.new mem, ⟨d, 0⟩) := by
  have hSize := verdict_length_le hVerdict (by simp)
  have hLimit : ¬ wsMaxHandshakeFrameSize < d.length := by
    unfold wsMaxHandshakeFrameSize
    omega
  rw [verdict, if_neg hLimit] at hVerdict
  rw [recvHandshake_eq mem hSize]
  cases hFetch : (WebSocketPacket.new .zeroed).fetchHsElement d with
  | error e' =>
      rw [hFetch] at hVerdict
      exact absurd hVerdict (by simp)
  | ok r =>
      obtain ⟨n, p⟩ := r
      rw [hFetch] at hVerdict
      simp only at hVerdict
      split at hVerdict
      · rename_i hNeg
        rcases WebSocketPacket.fetchHsElement_ok hFetch with ⟨-, rfl⟩ | ⟨endpos, hFind, hEnd⟩
        · rw [ok_bind, if_pos hNeg]
          rfl
        · have hFit := indexOfSub_add_le (by decide) hFind
          rw [toInt32_of_lt (by omega) (by omega)] at hEnd
          omega
      · split at hVerdict <;> exact absurd hVerdict (by simp)

/-- Rejected: a status other than zero. -/
theorem recvHandshake_rejected (hVerdict : verdict d = .rejected) :
    ∃ status p, toUInt32 status ≠ 0 ∧
      (WebSocketPacket.new mem).recvHandshake ⟨d, 0⟩ = .ok (status, p, ⟨d, 0⟩) := by
  by_cases hLong : 1024000 < d.length
  · exact ⟨_, _, by decide +kernel, recvHandshake_large mem hLt hLong⟩
  · have hLimit : ¬ wsMaxHandshakeFrameSize < d.length := by
      unfold wsMaxHandshakeFrameSize
      omega
    rw [verdict, if_neg hLimit] at hVerdict
    rw [recvHandshake_eq mem (Nat.le_of_not_lt hLong)]
    cases hFetch : (WebSocketPacket.new .zeroed).fetchHsElement d with
    | error e' =>
        rw [hFetch] at hVerdict
        exact absurd hVerdict (by simp)
    | ok r =>
        obtain ⟨n, p⟩ := r
        rw [hFetch] at hVerdict
        simp only at hVerdict
        split at hVerdict
        · exact absurd hVerdict (by simp)
        · rename_i hPos
          split at hVerdict
          · exact absurd hVerdict (by simp)
          · rename_i hParams
            refine ⟨wsErrorInvalidHandshakeParams, p.withMem mem, by decide +kernel, ?_⟩
            rw [ok_bind, if_neg hPos, if_pos (by simpa using hParams)]
            rfl

omit hLt in
/-- Accepted: `hs_length_` is the size of the block, and the cursor stands
behind it. -/
theorem recvHandshake_accepted {n : Nat} {p : WebSocketPacket}
    (hVerdict : verdict d = .accepted n p) :
    (WebSocketPacket.new mem).recvHandshake ⟨d, 0⟩ =
      .ok (0, { p.withMem mem with hsLength := UInt32.ofNat n }, ⟨d, n⟩) := by
  obtain ⟨hSize, hLe, hFour, -, hParams, hFetch⟩ := verdict_accepted hVerdict
  have hWord : toUInt32 (n : Int) = n := by
    rw [toUInt32_of_lt (by omega) (by omega), Int.toNat_natCast]
  have hBack : (UInt32.ofNat n).toNat = n := by
    rw [UInt32.toNat_ofNat']
    omega
  have hInt : toInt32 (n : Int) = n := toInt32_of_lt (by omega) (by omega)
  have hSkip : (⟨d, 0⟩ : ByteBuffer).skipX n = (true, ⟨d, 0 + n⟩) :=
    ByteBuffer.skipX_eq (by show d.length < 4294967296; omega)
      (by show 0 + n ≤ d.length; omega)
  rw [recvHandshake_eq mem hSize, hFetch, ok_bind]
  simp only
  rw [if_neg (by omega), if_neg (by simp [hParams]), hWord, hBack, hInt, hSkip, Nat.zero_add]

/-- A result of 0 means that the buffer is undecided, and the packet untouched, or
that it is accepted. -/
theorem verdict_of_recvHandshake {p : WebSocketPacket} {input : ByteBuffer}
    (hCall : (WebSocketPacket.new mem).recvHandshake ⟨d, 0⟩ = .ok (0, p, input)) :
    verdict d = .undecided ∧ p = .new mem ∨
      ∃ n q, verdict d = .accepted n q ∧
        p = { q.withMem mem with hsLength := UInt32.ofNat n } := by
  cases hVerdict : verdict d with
  | stops e =>
      rw [recvHandshake_stops _ hVerdict] at hCall
      exact absurd hCall (by simp)
  | undecided =>
      rw [recvHandshake_undecided _ hVerdict] at hCall
      exact .inl ⟨rfl, (Prod.mk.inj (Prod.mk.inj (Except.ok.inj hCall)).2).1.symm⟩
  | rejected =>
      obtain ⟨status, q, hStatus, hRejected⟩ := recvHandshake_rejected mem hLt hVerdict
      rw [hRejected] at hCall
      obtain ⟨rfl, -⟩ := Prod.mk.inj (Except.ok.inj hCall)
      exact absurd toUInt32_zero hStatus
  | accepted n q =>
      rw [recvHandshake_accepted _ hVerdict] at hCall
      exact .inr ⟨n, q, rfl, (Prod.mk.inj (Prod.mk.inj (Except.ok.inj hCall)).2).1.symm⟩

end Recv

/-! ## One pass -/

/-- The bytes that `erase` removes when `hs_length_` holds the garbage `j`: a
value from `2^31` on turns negative and removes nothing. -/
def garbageUsed (j : UInt32) : Nat :=
  if j.toNat < 2147483648 then j.toNat else 0

namespace WebSocketEndpoint

/-- What the endpoint emits when it answers the handshake. -/
def rspEvents (ep : WebSocketEndpoint) (p : WebSocketPacket) : List Event :=
  ep.wireEvents (some p.packHandshakeRsp) p.packHandshakeRsp.length

/-- The endpoint after the handshake, with `rest` left in its buffer. -/
def opened (ep : WebSocketEndpoint) (rest : Bytes) : WebSocketEndpoint :=
  { ep with wsHandshakeCompleted := true, fromwireBuf := ⟨rest, 0⟩ }

/-- The pass that opens the connection goes round again unless the buffer is
used up. -/
def openingPass (ep : WebSocketEndpoint) (result : Int) (rest : Bytes) : Pass :=
  if rest = [] then .done result (ep.opened []) else .again (ep.opened rest)

/-- What the loop removes when the size returned is the garbage in
`hs_length_`. -/
theorem settle_garbage (ep : WebSocketEndpoint) {d : Bytes} (hBuf : ep.fromwireBuf = ⟨d, 0⟩)
    (hSize : d.length < 2147483648) {j : UInt32} (hJunk : j ≠ 0) :
    settle j.toNat ep =
      if d.drop (garbageUsed j) = [] then
        .done (toInt32 j.toNat) { ep with fromwireBuf := ⟨[], 0⟩ }
      else .again { ep with fromwireBuf := ⟨d.drop (garbageUsed j), 0⟩ } := by
  have hPos : 0 < j.toNat := by
    rw [Nat.pos_iff_ne_zero]
    intro hZero
    exact hJunk (UInt32.toNat_inj.mp hZero)
  have hWord := j.toNat_lt
  have hErase : (⟨d, 0⟩ : ByteBuffer).erase (toInt32 j.toNat) = ⟨d.drop (garbageUsed j), 0⟩ := by
    unfold garbageUsed
    split
    · rw [toInt32_of_lt (by omega) (by omega)]
      exact ByteBuffer.erase_eq hSize hPos
    · rw [toInt32_neg (by omega) (by omega), ByteBuffer.erase, if_pos (by omega), List.drop_zero]
  have hRest : (⟨d.drop (garbageUsed j), 0⟩ : ByteBuffer).length = 0 ↔
      d.drop (garbageUsed j) = [] :=
    ByteBuffer.length_eq_zero_iff (by rw [List.length_drop]; omega)
  unfold settle
  rw [if_pos (by omega)]
  simp only [hBuf, hErase, ByteBuffer.resetoft, hRest]
  by_cases hNil : d.drop (garbageUsed j) = []
  · rw [if_pos hNil, if_pos hNil, hNil]
  · rw [if_neg hNil, if_neg hNil]

section Pass

variable {ep : WebSocketEndpoint} {d : Bytes} (hNot : ep.wsHandshakeCompleted = false)
  (hBuf : ep.fromwireBuf = ⟨d, 0⟩) (mem : PassMem)

include hBuf in
private theorem with_fromwireBuf : { ep with fromwireBuf := ⟨d, 0⟩ } = ep := by
  rw [← hBuf]

include hNot in
private theorem handshaking : (!ep.wsHandshakeCompleted) = true := by
  rw [hNot]
  rfl

include hNot hBuf

theorem wirePass_stops {e : Abort} (hVerdict : verdict d = .stops e) :
    ep.wirePass mem = ⟨[], .error e⟩ := by
  unfold wirePass parsePacket
  rw [if_pos (handshaking hNot), hBuf, recvHandshake_stops _ hVerdict]
  rfl

/-- A rejected buffer is kept, and the call returns `-1`. -/
theorem wirePass_rejected (hLt : d.length < 2147483648) (hVerdict : verdict d = .rejected) :
    ep.wirePass mem = ⟨[], .ok (.done (-1) ep)⟩ := by
  obtain ⟨status, p, hStatus, hRecv⟩ := recvHandshake_rejected mem.wspacket hLt hVerdict
  unfold wirePass parsePacket
  rw [if_pos (handshaking hNot), hBuf, hRecv, Traced.liftM_ok, Traced.mk_ok_bind,
    Traced.prepend_nil]
  simp only [if_pos hStatus, with_fromwireBuf hBuf]
  rfl

/-- An undecided buffer waits when `hs_length_` is zero. -/
theorem wirePass_undecided (hVerdict : verdict d = .undecided)
    (hZero : mem.wspacket.hsLength = 0) : ep.wirePass mem = ⟨[], .ok (.done 0 ep)⟩ := by
  unfold wirePass parsePacket
  rw [if_pos (handshaking hNot), hBuf, recvHandshake_undecided _ hVerdict, Traced.liftM_ok,
    Traced.mk_ok_bind, Traced.prepend_nil]
  have hPacket : (WebSocketPacket.new mem.wspacket).hsLength = 0 := hZero
  have hReset : { ep with fromwireBuf := ep.fromwireBuf.resetoft } = ep := by
    rw [hBuf]
    exact with_fromwireBuf hBuf
  simp only [with_fromwireBuf hBuf, hPacket, if_true]
  rw [if_neg (by decide +kernel)]
  rw [Traced.pure_eq, Traced.mk_ok_bind, Traced.prepend_nil, settle,
    if_neg (show ¬ (0 : Int) > 0 by decide), if_pos (by rfl), hReset]
  rfl

/-- An undecided buffer opens the connection when `hs_length_` is not zero. -/
theorem wirePass_garbage (hSize : d.length < 2147483648) (hVerdict : verdict d = .undecided)
    (hJunk : mem.wspacket.hsLength ≠ 0) :
    ep.wirePass mem = ⟨ep.rspEvents (.new .zeroed),
      .ok (ep.openingPass (toInt32 mem.wspacket.hsLength.toNat)
        (d.drop (garbageUsed mem.wspacket.hsLength)))⟩ := by
  have hPacket : (WebSocketPacket.new mem.wspacket).hsLength ≠ 0 := hJunk
  have hSettle := settle_garbage
    { ep with wsHandshakeCompleted := true, fromwireBuf := ⟨d, 0⟩ } rfl hSize hJunk
  unfold wirePass parsePacket
  rw [if_pos (handshaking hNot), hBuf, recvHandshake_undecided _ hVerdict, Traced.liftM_ok,
    Traced.mk_ok_bind, Traced.prepend_nil]
  simp only [with_fromwireBuf hBuf, if_neg hPacket]
  rw [if_neg (by decide +kernel)]
  simp only [toWire_eq, Traced.mk_ok_bind, Traced.pure_eq, Traced.prepend_mk, List.append_nil]
  refine congrArg (fun pass => Traced.mk _ (Except.ok pass)) ?_
  exact hSettle

/-- An accepted block opens the connection and is removed exactly. -/
theorem wirePass_accepted {n : Nat} {p : WebSocketPacket} (hVerdict : verdict d = .accepted n p) :
    ep.wirePass mem = ⟨ep.rspEvents p, .ok (ep.openingPass n (d.drop n))⟩ := by
  obtain ⟨hSize, hLe, hFour, -, -, -⟩ := verdict_accepted hVerdict
  have hBack : (UInt32.ofNat n).toNat = n := by
    rw [UInt32.toNat_ofNat']
    omega
  have hWord : UInt32.ofNat n ≠ 0 := by
    intro hZero
    rw [hZero] at hBack
    simp at hBack
    omega
  have hSettle := settle_consumed
    { ep with wsHandshakeCompleted := true, fromwireBuf := ⟨d, n⟩ } rfl (by omega) hLe (by omega)
  unfold wirePass parsePacket
  rw [if_pos (handshaking hNot), hBuf, recvHandshake_accepted _ hVerdict, Traced.liftM_ok,
    Traced.mk_ok_bind, Traced.prepend_nil]
  simp only [if_neg hWord, hBack]
  rw [if_neg (by decide +kernel)]
  simp only [toWire_eq, Traced.mk_ok_bind, Traced.pure_eq, Traced.prepend_mk, List.append_nil]
  refine congrArg (fun pass => Traced.mk _ (Except.ok pass)) ?_
  exact hSettle

end Pass

end WebSocketEndpoint

end WebSocketFiles
