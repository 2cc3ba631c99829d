import WebSocketFiles.Handshake.Opening

/-!
# Whole runs of an endpoint

What every pass of the receive loop leaves behind, in either phase and for any
buffer a run can reach: the cursors stand at the start, the buffer does not
grow, it is shorter than `2^31` bytes, and the loop never runs out of fuel.
`Reachable` collects the endpoints that calls of `from_wire` lead to, with the
number of bytes received so far.
-/

namespace WebSocketFiles

open MachineInt ListSearch Fallible FrameFormat

namespace WebSocketEndpoint

variable {ep : WebSocketEndpoint} {d : Bytes}

/-! ## Between two calls -/

/-- The cursors of both buffers stand at the start, as between two calls. -/
structure Settled (ep : WebSocketEndpoint) : Prop where
  fromwire_oft : ep.fromwireBuf.oft = 0
  message_oft : ep.messageData.oft = 0

theorem settled_holding (ep : WebSocketEndpoint) (M buf : Bytes) : Settled (ep.holding M buf) :=
  ⟨rfl, rfl⟩

theorem Settled.fromwireBuf_eq (hSettled : Settled ep) :
    ep.fromwireBuf = ⟨ep.fromwireBuf.data, 0⟩ := by
  rw [← hSettled.fromwire_oft]

theorem Settled.eq_holding (hSettled : Settled ep) :
    ep = ep.holding ep.messageData.data ep.fromwireBuf.data :=
  WebSocketEndpoint.eq_holding hSettled.fromwire_oft hSettled.message_oft

/-! ## What a pass can do -/

/-- Before the handshake a buffer of `2^31` bytes or more makes the string
constructor raise. -/
theorem wirePass_overflow (hNot : ep.wsHandshakeCompleted = false)
    (hBuf : ep.fromwireBuf = ⟨d, 0⟩) (mem : PassMem) (hLow : 2147483648 ≤ d.length)
    (hHigh : d.length < 4294967296) : ep.wirePass mem = ⟨[], .error .lengthError⟩ := by
  have hNeg : (⟨d, 0⟩ : ByteBuffer).length < 0 := ByteBuffer.length_neg hLow hHigh
  have hLimit : ¬ wsMaxHandshakeFrameSize < (⟨d, 0⟩ : ByteBuffer).length := by
    unfold wsMaxHandshakeFrameSize
    omega
  have hRecv : (WebSocketPacket.new mem.wspacket).recvHandshake ⟨d, 0⟩ =
      .error .lengthError := by
    unfold WebSocketPacket.recvHandshake
    rw [if_neg hLimit, ByteBuffer.bytes_eq, ok_bind]
    unfold stdString
    rw [if_pos hNeg, error_bind]
  unfold wirePass parsePacket
  rw [if_pos (by rw [hNot]; rfl), hBuf, hRecv]
  rfl

/-- What a pass can do before the handshake is completed. -/
inductive ClosedPass (ep : WebSocketEndpoint) (mem : PassMem) : Call Pass → Prop where
  | overflow (hLow : 2147483648 ≤ ep.fromwireBuf.data.length) :
      ClosedPass ep mem ⟨[], .error .lengthError⟩
  | stops (hVerdict : verdict ep.fromwireBuf.data = .stops .undefined) :
      ClosedPass ep mem ⟨[], .error .undefined⟩
  | rejected (hSmall : ep.fromwireBuf.data.length < 2147483648)
      (hVerdict : verdict ep.fromwireBuf.data = .rejected) :
      ClosedPass ep mem ⟨[], .ok (.done (-1) ep)⟩
  | undecided (hVerdict : verdict ep.fromwireBuf.data = .undecided)
      (hZero : mem.wspacket.hsLength = 0) :
      ClosedPass ep mem ⟨[], .ok (.done 0 ep)⟩
  | garbage (hVerdict : verdict ep.fromwireBuf.data = .undecided)
      (hJunk : mem.wspacket.hsLength ≠ 0) :
      ClosedPass ep mem ⟨ep.rspEvents (.new .zeroed),
        .ok (ep.openingPass (toInt32 mem.wspacket.hsLength.toNat)
          (ep.fromwireBuf.data.drop (garbageUsed mem.wspacket.hsLength)))⟩
  | accepted {n : Nat} {p : WebSocketPacket}
      (hVerdict : verdict ep.fromwireBuf.data = .accepted n p) :
      ClosedPass ep mem ⟨ep.rspEvents p,
        .ok (ep.openingPass n (ep.fromwireBuf.data.drop n))⟩

/-- A pass before the handshake does one of these. -/
theorem closedPass (hNot : ep.wsHandshakeCompleted = false) (hSettled : Settled ep)
    (hSize : ep.fromwireBuf.data.length < 4294967296) (mem : PassMem) :
    ClosedPass ep mem (ep.wirePass mem) := by
  have hBuf := hSettled.fromwireBuf_eq
  by_cases hSmall : ep.fromwireBuf.data.length < 2147483648
  · cases hVerdict : verdict ep.fromwireBuf.data with
    | stops e =>
        obtain rfl := verdict_stops hVerdict
        rw [wirePass_stops hNot hBuf mem hVerdict]
        exact .stops hVerdict
    | rejected =>
        rw [wirePass_rejected hNot hBuf mem hSmall hVerdict]
        exact .rejected hSmall hVerdict
    | undecided =>
        by_cases hZero : mem.wspacket.hsLength = 0
        · rw [wirePass_undecided hNot hBuf mem hVerdict hZero]
          exact .undecided hVerdict hZero
        · rw [wirePass_garbage hNot hBuf mem hSmall hVerdict hZero]
          exact .garbage hVerdict hZero
    | accepted n p =>
        rw [wirePass_accepted hNot hBuf mem hVerdict]
        exact .accepted hVerdict
  · have hLow := Nat.le_of_not_lt hSmall
    rw [wirePass_overflow hNot hBuf mem hLow hSize]
    exact .overflow hLow

/-- The header at the front of the buffer. -/
def frontHeader (ep : WebSocketEndpoint) (mem : PassMem) : Header :=
  scanHeader mem.wspacket.maskingKey ep.fromwireBuf.data

/-- The message with the payload of the frame at the front of the buffer. -/
def frontMessage (ep : WebSocketEndpoint) (mem : PassMem) : Bytes :=
  ep.messageData.data ++ (ep.frontHeader mem).payload ep.fromwireBuf.data

/-- What a pass can do once the handshake is completed. -/
inductive OpenPass (ep : WebSocketEndpoint) (mem : PassMem) : Call Pass → Prop where
  | waits (hWaits : Waits mem.wspacket.maskingKey ep.fromwireBuf.data) :
      OpenPass ep mem ⟨[], .ok (.done 0 ep)⟩
  | raises (hWaits : ¬ Waits mem.wspacket.maskingKey ep.fromwireBuf.data)
      (hRaises : Raises mem.wspacket.maskingKey ep.fromwireBuf.data) :
      OpenPass ep mem ⟨[], .error .outOfRange⟩
  | overlong (hWaits : ¬ Waits mem.wspacket.maskingKey ep.fromwireBuf.data)
      (hRaises : ¬ Raises mem.wspacket.maskingKey ep.fromwireBuf.data)
      (hFin : (ep.frontHeader mem).fin = 1)
      (hOver : Overlong (ep.frontHeader mem).opcode (ep.frontMessage mem)) :
      OpenPass ep mem ⟨[.userDefinedProcess (ep.frontHeader mem).opcode (ep.frontMessage mem)],
        .error .lengthError⟩
  | consumes (hWaits : ¬ Waits mem.wspacket.maskingKey ep.fromwireBuf.data)
      (hRaises : ¬ Raises mem.wspacket.maskingKey ep.fromwireBuf.data)
      (hFits : (ep.frontHeader mem).fin = 1 →
        ¬ Overlong (ep.frontHeader mem).opcode (ep.frontMessage mem)) :
      OpenPass ep mem ⟨if (ep.frontHeader mem).fin = 1 then
          ep.dispatched (ep.frontHeader mem).opcode (ep.frontMessage mem) else [],
        .ok (ep.consumedPass (ep.frontHeader mem).total
          (kept (ep.frontHeader mem) (ep.frontMessage mem))
          (remaining (ep.frontHeader mem).total ep.fromwireBuf.data))⟩

/-- A pass after the handshake does one of these. -/
theorem openPass (hDone : ep.wsHandshakeCompleted = true) (hSettled : Settled ep)
    (hSize : ep.fromwireBuf.data.length < 4294967296) (mem : PassMem) :
    OpenPass ep mem (ep.wirePass mem) := by
  have hHold := hSettled.eq_holding
  by_cases hWaits : Waits mem.wspacket.maskingKey ep.fromwireBuf.data
  · have hPass := wirePass_waits hDone mem hSize ep.messageData.data hWaits
    rw [← hHold] at hPass
    exact hPass ▸ .waits hWaits
  · by_cases hRaises : Raises mem.wspacket.maskingKey ep.fromwireBuf.data
    · have hPass := wirePass_raises hDone mem hSize ep.messageData.data hWaits hRaises
      rw [← hHold] at hPass
      exact hPass ▸ .raises hWaits hRaises
    · by_cases hOver : (ep.frontHeader mem).fin = 1 ∧
          Overlong (ep.frontHeader mem).opcode (ep.frontMessage mem)
      · have hPass := wirePass_overlong (M := ep.messageData.data) hDone mem hSize rfl hWaits
          hRaises hOver.1 hOver.2
        rw [← hHold] at hPass
        exact hPass ▸ .overlong hWaits hRaises hOver.1 hOver.2
      · have hFits := not_and.mp hOver
        have hPass := wirePass_consumes (M := ep.messageData.data) hDone mem hSize rfl hWaits
          hRaises hFits
        rw [← hHold] at hPass
        exact hPass ▸ .consumes hWaits hRaises hFits

/-! ## What every pass leaves behind -/

/-- The endpoint after a pass. -/
def Pass.endpoint : Pass → WebSocketEndpoint
  | .again ep => ep
  | .done _ ep => ep

/-- What a pass that returns leaves behind: the buffer has not grown and is in
range; a pass that goes round again has used up a byte or opened the
connection, which never closes again. -/
structure PassKeeps (ep : WebSocketEndpoint) (pass : Pass) : Prop where
  settled : Settled pass.endpoint
  shrinks : pass.endpoint.fromwireBuf.data.length ≤ ep.fromwireBuf.data.length
  in_range : pass.endpoint.fromwireBuf.data.length < 2147483648
  stays_open : ep.wsHandshakeCompleted = true → pass.endpoint.wsHandshakeCompleted = true
  progress : ∀ ep', pass = .again ep' → ep'.wsHandshakeCompleted = true ∧
    (ep.wsHandshakeCompleted = true →
      ep'.fromwireBuf.data.length < ep.fromwireBuf.data.length)

/-- A pass that returns without going round again may leave all as it was. -/
theorem passKeeps_done (hSettled : Settled ep) (hSmall : ep.fromwireBuf.data.length < 2147483648)
    (r : Int) : PassKeeps ep (.done r ep) :=
  ⟨hSettled, le_refl _, hSmall, id, fun _ hAgain => by simp at hAgain⟩

theorem openingPass_keeps (hNot : ep.wsHandshakeCompleted = false) (hSettled : Settled ep)
    (result : Int) {n : Nat} (hLt : ep.fromwireBuf.data.length < 2147483648) :
    PassKeeps ep (ep.openingPass result (ep.fromwireBuf.data.drop n)) := by
  have hLe := (List.drop_suffix n ep.fromwireBuf.data).length_le
  unfold openingPass
  split
  · exact ⟨⟨rfl, hSettled.message_oft⟩, Nat.zero_le _, Nat.zero_lt_succ _, fun _ => rfl,
      fun _ hAgain => by simp at hAgain⟩
  · refine ⟨⟨rfl, hSettled.message_oft⟩, hLe, lt_of_le_of_lt hLe hLt, fun _ => rfl,
      fun ep' hAgain => ?_⟩
    simp only [Pass.again.injEq] at hAgain
    subst hAgain
    exact ⟨rfl, fun hDone => absurd (hNot ▸ hDone) (by decide)⟩

theorem consumedPass_keeps (hDone : ep.wsHandshakeCompleted = true) (result : Int) (M : Bytes)
    {n : Nat} (hPos : 0 < n) (hLe : n ≤ ep.fromwireBuf.data.length) :
    PassKeeps ep (ep.consumedPass result M (remaining n ep.fromwireBuf.data)) := by
  have hRest := remaining_length n ep.fromwireBuf.data
  unfold consumedPass
  split
  · exact ⟨settled_holding ep _ _, Nat.zero_le _, Nat.zero_lt_succ _, fun _ => hDone,
      fun _ hAgain => by simp at hAgain⟩
  · refine ⟨settled_holding ep _ _, hRest.1.trans (Nat.sub_le _ _), hRest.2,
      fun _ => hDone, fun ep' hAgain => ?_⟩
    simp only [Pass.again.injEq] at hAgain
    subst hAgain
    refine ⟨hDone, fun _ => ?_⟩
    show (remaining _ _).length < _
    omega

/-- Bytes that wait are fewer than a frame can have. -/
theorem waits_length_lt {key : MaskingKey} (hWaits : Waits key d) : d.length < 2147483648 := by
  rcases hWaits with rfl | hShort
  · exact Nat.zero_lt_succ _
  · have hSizeLe := scanHeader_size_le_fourteen key d
    have hLength := scanHeader_length_lt key d
    unfold Header.total at hShort
    omega

theorem wirePass_keeps (hSettled : Settled ep) (mem : PassMem)
    (hSize : ep.fromwireBuf.data.length < 4294967296) {pass : Pass}
    (hPass : (ep.wirePass mem).value = .ok pass) : PassKeeps ep pass := by
  cases hDone : ep.wsHandshakeCompleted with
  | false =>
      have hCall := closedPass hDone hSettled hSize mem
      generalize ep.wirePass mem = call at hPass hCall
      cases hCall with
      | overflow hLow => exact absurd hPass (by simp)
      | stops hVerdict => exact absurd hPass (by simp)
      | rejected hSmall hVerdict =>
          obtain rfl := Except.ok.inj hPass
          exact passKeeps_done hSettled hSmall _
      | undecided hVerdict hZero =>
          have hLe := verdict_length_le hVerdict (by simp)
          obtain rfl := Except.ok.inj hPass
          exact passKeeps_done hSettled (by omega) _
      | garbage hVerdict hJunk =>
          have hLe := verdict_length_le hVerdict (by simp)
          obtain rfl := Except.ok.inj hPass
          exact openingPass_keeps hDone hSettled _ (by omega)
      | accepted hVerdict =>
          have hLe := (verdict_accepted hVerdict).1
          obtain rfl := Except.ok.inj hPass
          exact openingPass_keeps hDone hSettled _ (by omega)
  | true =>
      have hCall := openPass hDone hSettled hSize mem
      generalize ep.wirePass mem = call at hPass hCall
      cases hCall with
      | waits hWaits =>
          obtain rfl := Except.ok.inj hPass
          exact passKeeps_done hSettled (waits_length_lt hWaits) _
      | raises hWaits hRaises => exact absurd hPass (by simp)
      | overlong hWaits hRaises hFin hOver => exact absurd hPass (by simp)
      | consumes hWaits hRaises hFits =>
          obtain rfl := Except.ok.inj hPass
          exact consumedPass_keeps hDone _ _
            (scanHeader_total_pos mem.wspacket.maskingKey (not_or.mp hWaits).1)
            (Nat.le_of_not_lt (not_or.mp hWaits).2)

/-- How the endpoint can end the process: an exception of the library, or
undefined behaviour. -/
def Faults (e : Abort) : Prop :=
  e = .lengthError ∨ e = .outOfRange ∨ e = .undefined

theorem wirePass_faults (hSettled : Settled ep) (mem : PassMem)
    (hSize : ep.fromwireBuf.data.length < 4294967296) {e : Abort}
    (hError : (ep.wirePass mem).value = .error e) : Faults e := by
  cases hDone : ep.wsHandshakeCompleted with
  | false =>
      have hCall := closedPass hDone hSettled hSize mem
      generalize ep.wirePass mem = call at hError hCall
      cases hCall <;> simp_all [Faults]
  | true =>
      have hCall := openPass hDone hSettled hSize mem
      generalize ep.wirePass mem = call at hError hCall
      cases hCall <;> simp_all [Faults]

/-! ## What a call leaves behind -/

/-- One unfolding of the loop. -/
theorem fromWireLoop_succ (fuel : Nat) (ep : WebSocketEndpoint) (mem : Nat → PassMem) :
    fromWireLoop (fuel + 1) ep mem =
      (ep.wirePass (mem 0) >>= fun pass =>
        match pass with
        | .done result ep => pure (result, ep)
        | .again ep => fromWireLoop fuel ep fun i => mem (i + 1)) := rfl

section FirstPass

variable {fuel : Nat} {mem : Nat → PassMem} {es : List Event} {ep' : WebSocketEndpoint}

theorem fromWireLoop_stops {e : Abort} (hPass : ep.wirePass (mem 0) = ⟨es, .error e⟩) :
    fromWireLoop (fuel + 1) ep mem = ⟨es, .error e⟩ := by
  rw [fromWireLoop_succ, hPass, Traced.mk_error_bind]

theorem fromWireLoop_done {r : Int} (hPass : ep.wirePass (mem 0) = ⟨es, .ok (.done r ep')⟩) :
    fromWireLoop (fuel + 1) ep mem = ⟨es, .ok (r, ep')⟩ := by
  rw [fromWireLoop_succ, hPass, Traced.mk_ok_bind]
  simp only [Traced.pure_eq, Traced.prepend_mk, List.append_nil]

theorem fromWireLoop_again (hPass : ep.wirePass (mem 0) = ⟨es, .ok (.again ep')⟩) :
    fromWireLoop (fuel + 1) ep mem =
      Traced.prepend es (fromWireLoop fuel ep' fun i => mem (i + 1)) := by
  rw [fromWireLoop_succ, hPass, Traced.mk_ok_bind]

end FirstPass

/-- What a loop that returns leaves behind, by induction on its passes. -/
theorem fromWireLoop_keeps (fuel : Nat) :
    ∀ (ep : WebSocketEndpoint) (mem : Nat → PassMem), Settled ep →
      ep.fromwireBuf.data.length < 4294967296 →
      ∀ r ep', (fromWireLoop fuel ep mem).value = .ok (r, ep') →
        Settled ep' ∧ ep'.fromwireBuf.data.length ≤ ep.fromwireBuf.data.length ∧
          ep'.fromwireBuf.data.length < 2147483648 ∧
          (ep.wsHandshakeCompleted = true → ep'.wsHandshakeCompleted = true) := by
  induction fuel with
  | zero =>
      intro ep mem _ _ r ep' hLoop
      exact absurd hLoop (by simp [fromWireLoop])
  | succ fuel ih =>
      intro ep mem hSettled hSize r ep' hLoop
      rw [fromWireLoop_succ] at hLoop
      obtain ⟨pass, hPass, hNext⟩ := Traced.bind_ok_iff.mp hLoop
      have hKeeps := wirePass_keeps hSettled (mem 0) hSize hPass
      cases pass with
      | done result ep₁ =>
          simp only [Traced.pure_eq, Except.ok.injEq, Prod.mk.injEq] at hNext
          obtain ⟨-, rfl⟩ := hNext
          exact ⟨hKeeps.settled, hKeeps.shrinks, hKeeps.in_range, hKeeps.stays_open⟩
      | again ep₁ =>
          obtain ⟨hSettled', hShrinks, hRange, hOpen⟩ :=
            ih ep₁ _ hKeeps.settled (lt_trans hKeeps.in_range (by decide)) r ep' hNext
          exact ⟨hSettled', hShrinks.trans hKeeps.shrinks, hRange,
            fun hDone => hOpen (hKeeps.stays_open hDone)⟩

/-- The endpoint with the bytes of a call behind those it held. -/
def gathered (ep : WebSocketEndpoint) (d : Delivery) : WebSocketEndpoint :=
  { ep with fromwireBuf := ⟨ep.fromwireBuf.data ++ d.readbuf, 0⟩ }

theorem gathered_settled (hSettled : Settled ep) (d : Delivery) : Settled (ep.gathered d) :=
  ⟨rfl, hSettled.message_oft⟩

/-- A call enters the loop with the bytes read behind those held. -/
theorem deliver_eq (hSettled : Settled ep) (d : Delivery) :
    ep.deliver d =
      fromWireLoop ((ep.gathered d).fromwireBuf.data.length + 2) (ep.gathered d) d.mem := by
  conv_lhs => rw [hSettled.eq_holding]
  rw [deliver, fromWire_eq]
  have hMessage : (⟨ep.messageData.data, 0⟩ : ByteBuffer) = ep.messageData := by
    rw [← hSettled.message_oft]
  unfold holding gathered
  rw [hMessage]

/-- A call whose first pass returns. -/
theorem deliver_done (hSettled : Settled ep) {d : Delivery} {es : List Event} {r : Int}
    {ep' : WebSocketEndpoint}
    (hPass : (ep.gathered d).wirePass (d.mem 0) = ⟨es, .ok (.done r ep')⟩) :
    ep.deliver d = ⟨es, .ok (r, ep')⟩ := by
  rw [deliver_eq hSettled, fromWireLoop_done hPass]

/-- A call whose first pass goes round again. -/
theorem deliver_again (hSettled : Settled ep) {d : Delivery} {es : List Event}
    {ep' : WebSocketEndpoint}
    (hPass : (ep.gathered d).wirePass (d.mem 0) = ⟨es, .ok (.again ep')⟩) :
    ep.deliver d =
      Traced.prepend es (fromWireLoop ((ep.gathered d).fromwireBuf.data.length + 1) ep'
        fun i => d.mem (i + 1)) := by
  rw [deliver_eq hSettled, fromWireLoop_again hPass]

theorem gathered_size (hRange : ep.fromwireBuf.data.length < 2147483648) (d : Delivery) :
    (ep.gathered d).fromwireBuf.data.length < 4294967296 := by
  have hChunk := d.sizeLt
  show (ep.fromwireBuf.data ++ d.readbuf).length < _
  rw [List.length_append]
  omega

theorem deliver_keeps (hSettled : Settled ep) (hRange : ep.fromwireBuf.data.length < 2147483648)
    (d : Delivery) {r : Int} {ep' : WebSocketEndpoint}
    (hCall : (ep.deliver d).value = .ok (r, ep')) :
    Settled ep' ∧
      ep'.fromwireBuf.data.length ≤ ep.fromwireBuf.data.length + d.readbuf.length ∧
      ep'.fromwireBuf.data.length < 2147483648 ∧
      (ep.wsHandshakeCompleted = true → ep'.wsHandshakeCompleted = true) := by
  rw [deliver_eq hSettled] at hCall
  have hKeeps := fromWireLoop_keeps _ _ d.mem (gathered_settled hSettled d)
    (gathered_size hRange d) r ep' hCall
  simp only [gathered, List.length_append] at hKeeps
  exact hKeeps

/-- One pass for the handshake and one for each byte are enough: a loop that
stops does so by a fault. -/
theorem fromWireLoop_faults (fuel : Nat) :
    ∀ (ep : WebSocketEndpoint) (mem : Nat → PassMem), Settled ep →
      ep.fromwireBuf.data.length < 4294967296 →
      ep.fromwireBuf.data.length + (if ep.wsHandshakeCompleted then 0 else 1) < fuel →
      ∀ e, (fromWireLoop fuel ep mem).value = .error e → Faults e := by
  induction fuel with
  | zero =>
      intro ep mem _ _ hFuel
      omega
  | succ fuel ih =>
      intro ep mem hSettled hSize hFuel e hLoop
      have hFaults := wirePass_faults (e := e) hSettled (mem 0) hSize
      cases hPass : ep.wirePass (mem 0) with
      | mk es v =>
          rw [hPass] at hFaults
          cases v with
          | error e' =>
              rw [fromWireLoop_stops hPass] at hLoop
              exact hFaults (by simpa using hLoop)
          | ok pass =>
              have hKeeps := wirePass_keeps hSettled (mem 0) hSize (by rw [hPass])
              cases pass with
              | done result ep₁ =>
                  rw [fromWireLoop_done hPass] at hLoop
                  exact absurd hLoop (by simp)
              | again ep₁ =>
                  rw [fromWireLoop_again hPass, Traced.value_prepend] at hLoop
                  obtain ⟨hOpen, hLess⟩ := hKeeps.progress ep₁ rfl
                  have hShrinks := hKeeps.shrinks
                  have hRange := hKeeps.in_range
                  change ep₁.fromwireBuf.data.length ≤ _ at hShrinks
                  change ep₁.fromwireBuf.data.length < _ at hRange
                  refine ih ep₁ _ hKeeps.settled (by omega) ?_ e hLoop
                  rw [if_pos hOpen]
                  cases hDone : ep.wsHandshakeCompleted with
                  | false =>
                      rw [hDone] at hFuel
                      simp only [Bool.false_eq_true, if_false] at hFuel
                      omega
                  | true =>
                      rw [hDone] at hFuel
                      have hStep := hLess hDone
                      simp only [if_true] at hFuel
                      omega

/-- The fuel of a call is enough. -/
theorem deliver_faults (hSettled : Settled ep)
    (hRange : ep.fromwireBuf.data.length < 2147483648) (d : Delivery) {e : Abort}
    (hError : (ep.deliver d).value = .error e) : Faults e := by
  rw [deliver_eq hSettled] at hError
  refine fromWireLoop_faults _ _ d.mem (gathered_settled hSettled d) (gathered_size hRange d) ?_
    e hError
  split <;> omega

theorem deliver_fuel (hSettled : Settled ep) (hRange : ep.fromwireBuf.data.length < 2147483648)
    (d : Delivery) : (ep.deliver d).value ≠ .error .outOfFuel := by
  intro hError
  exact absurd (deliver_faults hSettled hRange d hError) (by simp [Faults])

/-! ## Reachable endpoints -/

/-- An endpoint as the constructors leave it, whatever its callback. -/
structure Fresh (ep : WebSocketEndpoint) : Prop where
  handshake : ep.wsHandshakeCompleted = false
  fromwire : ep.fromwireBuf = ByteBuffer.empty
  message : ep.messageData = ByteBuffer.empty

/-- The endpoints that calls lead to from a fresh one, with the number of bytes
received on the way.  `process` sets the write callback before a call. -/
inductive Reachable : Nat → WebSocketEndpoint → Prop
  | fresh {ep : WebSocketEndpoint} (hFresh : Fresh ep) : Reachable 0 ep
  | callback {n : Nat} {ep : WebSocketEndpoint} (cb wd : Option Addr) (hReach : Reachable n ep) :
      Reachable n { ep with ntWriteCb := cb, ntWorkData := wd }
  | deliver {n : Nat} {ep ep' : WebSocketEndpoint} {r : Int} (d : Delivery)
      (hReach : Reachable n ep) (hCall : (ep.deliver d).value = .ok (r, ep')) :
      Reachable (n + d.readbuf.length) ep'

theorem fresh_new (ntWorkData : Option Addr) : Fresh (.new ntWorkData) :=
  ⟨rfl, rfl, rfl⟩

theorem Fresh.settled (hFresh : Fresh ep) : Settled ep := by
  constructor
  · rw [hFresh.fromwire]
    rfl
  · rw [hFresh.message]
    rfl

/-- Between calls the cursors stand at the start, and the buffer is in range and
holds no more than was received. -/
theorem Reachable.invariant {n : Nat} (hReach : Reachable n ep) :
    Settled ep ∧ ep.fromwireBuf.data.length ≤ n ∧
      ep.fromwireBuf.data.length < 2147483648 := by
  induction hReach with
  | fresh hFresh =>
      refine ⟨hFresh.settled, ?_, ?_⟩
      · rw [hFresh.fromwire]
        exact le_refl _
      · rw [hFresh.fromwire]
        exact Nat.zero_lt_succ _
  | callback cb wd hReach ih =>
      obtain ⟨hSettled, hBytes, hRange⟩ := ih
      exact ⟨⟨hSettled.fromwire_oft, hSettled.message_oft⟩, hBytes, hRange⟩
  | deliver d hReach hCall ih =>
      obtain ⟨hSettled, hBytes, hRange⟩ := ih
      obtain ⟨hSettled', hBytes', hRange', -⟩ := deliver_keeps hSettled hRange d hCall
      exact ⟨hSettled', by omega, hRange'⟩

end WebSocketEndpoint

end WebSocketFiles
