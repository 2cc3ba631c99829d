import WebSocketFiles.Receive.Passes

/-!
# What ends the process during a call

`fetch_payload` takes the address of the byte at the cursor before it copies an
unmasked payload, also when there is nothing to copy.  When the header ends the
buffer, there is no such byte, `vector::at` raises, and nothing catches it.  A
message of `2^31` bytes or more raises too, and so does a handshake buffer of that
size.

`framesFault` goes over the frames in a buffer and says which of these is met
first; `callFault` also looks at the handshake in front of them.  They are what
decides whether a call returns (`deliver_fault_iff`), and in particular whether it
reads out of range (`inRange_iff`).
-/

namespace WebSocketFiles

open MachineInt FrameFormat Fallible WebSocketEndpoint

/-- Going over the frames in `d`, with `m` bytes of an unfinished message held:
the fault that is met first.  An unmasked frame without payload at the end of the
buffer raises `out_of_range`, a frame that ends an overlong message
`length_error`. -/
def framesFault : Nat → Nat → Bytes → Option Abort
  | 0, _, _ => none
  | fuel + 1, m, d =>
      let h := scanHeader Uninit.zeroed.maskingKey d
      if Waits Uninit.zeroed.maskingKey d then none
      else if Raises Uninit.zeroed.maskingKey d then some .outOfRange
      else
        let message := m + min h.length (d.length - h.size)
        let rest := remaining h.total d
        if h.fin ≠ 1 then framesFault fuel message rest
        else if h.opcode ∈ knownOpcodes ∧ toInt32 message < 0 then some .lengthError
        else framesFault fuel (flushedLength message) rest

/-- Whether the bytes held and the bytes `readbuf` behind them come to an unmasked
frame without payload that ends the buffer. -/
def bareHeader (ep : WebSocketEndpoint) (readbuf : Bytes) : Bool :=
  framesFault ((ep.fromwireBuf.data ++ readbuf).length + 2) ep.messageData.data.length
    (ep.fromwireBuf.data ++ readbuf) = some .outOfRange

/-- The fault that the bytes held and the bytes `readbuf` behind them come to, the
handshake included. -/
def callFault (ep : WebSocketEndpoint) (readbuf : Bytes) (mem : PassMem) : Option Abort :=
  let d := ep.fromwireBuf.data ++ readbuf
  let m := ep.messageData.data.length
  if ep.wsHandshakeCompleted then framesFault (d.length + 2) m d
  else if 2147483648 ≤ d.length then some .lengthError
  else
    match verdict d with
    | .stops e => some e
    | .rejected => none
    | .undecided =>
        if mem.wspacket.hsLength = 0 then none
        else framesFault (d.length + 1) m (d.drop (garbageUsed mem.wspacket.hsLength))
    | .accepted n _ => framesFault (d.length + 1) m (d.drop n)

theorem framesFault_waits {fuel m : Nat} {d : Bytes}
    (hWaits : Waits Uninit.zeroed.maskingKey d) : framesFault fuel m d = none := by
  cases fuel with
  | zero => rfl
  | succ fuel => rw [framesFault, if_pos hWaits]

theorem framesFault_raises {fuel m : Nat} {d : Bytes}
    (hWaits : ¬ Waits Uninit.zeroed.maskingKey d) (hRaises : Raises Uninit.zeroed.maskingKey d) :
    framesFault (fuel + 1) m d = some .outOfRange := by
  rw [framesFault, if_neg hWaits, if_pos hRaises]

/-- What the frames come to is a fault of the endpoint. -/
theorem framesFault_faults {e : Abort} (fuel : Nat) :
    ∀ (m : Nat) (d : Bytes), framesFault fuel m d = some e → Faults e := by
  induction fuel with
  | zero =>
      intro m d hFault
      exact absurd hFault (by simp [framesFault])
  | succ fuel ih =>
      intro m d hFault
      rw [framesFault] at hFault
      split at hFault
      · exact absurd hFault (by simp)
      · split at hFault
        · exact .inr (.inl (Option.some.inj hFault).symm)
        · simp only at hFault
          split at hFault
          · exact ih _ _ hFault
          · split at hFault
            · exact .inl (Option.some.inj hFault).symm
            · exact ih _ _ hFault

theorem callFault_faults {ep : WebSocketEndpoint} {readbuf : Bytes} {mem : PassMem} {e : Abort}
    (hFault : callFault ep readbuf mem = some e) : Faults e := by
  unfold callFault at hFault
  simp only at hFault
  split at hFault
  · exact framesFault_faults _ _ _ hFault
  · split at hFault
    · exact .inl (Option.some.inj hFault).symm
    · split at hFault
      · rename_i hVerdict
        rw [verdict_stops hVerdict, Option.some.injEq] at hFault
        exact .inr (.inr hFault.symm)
      · exact absurd hFault (by simp)
      · split at hFault
        · exact absurd hFault (by simp)
        · exact framesFault_faults _ _ _ hFault
      · exact framesFault_faults _ _ _ hFault

namespace WebSocketEndpoint

variable {ep : WebSocketEndpoint}

/-- A frame at the front of the buffer that raises nothing. -/
theorem framesFault_front (ep : WebSocketEndpoint) (mem : PassMem) (fuel : Nat)
    (hWaits : ¬ Waits mem.wspacket.maskingKey ep.fromwireBuf.data)
    (hRaises : ¬ Raises mem.wspacket.maskingKey ep.fromwireBuf.data) :
    let rest := remaining (ep.frontHeader mem).total ep.fromwireBuf.data
    framesFault (fuel + 1) ep.messageData.data.length ep.fromwireBuf.data =
      if (ep.frontHeader mem).fin ≠ 1 then
        framesFault fuel (ep.frontMessage mem).length rest
      else if Overlong (ep.frontHeader mem).opcode (ep.frontMessage mem) then some .lengthError
      else framesFault fuel (flushed (ep.frontMessage mem)).length rest := by
  obtain ⟨hFin, hOpcode, -, hLength, hSize⟩ := scanHeader_any_key Uninit.zeroed.maskingKey
    ep.fromwireBuf.data mem.wspacket.maskingKey
  have hTotal := scanHeader_total_eq Uninit.zeroed.maskingKey ep.fromwireBuf.data
    mem.wspacket.maskingKey
  have hMessage : ep.messageData.data.length +
      min (scanHeader mem.wspacket.maskingKey ep.fromwireBuf.data).length
        (ep.fromwireBuf.data.length -
          (scanHeader mem.wspacket.maskingKey ep.fromwireBuf.data).size) =
      (ep.frontMessage mem).length := by
    rw [frontMessage, List.length_append, payload_length]
    rfl
  rw [framesFault, if_neg (mt (waits_any_key _ _ _).mp hWaits),
    if_neg (mt (raises_any_key _ _ _).mp hRaises), flushed_length]
  simp only [hFin, hOpcode, hLength, hSize, hTotal, hMessage]
  rfl

/-- After the handshake the loop ends in the fault that its frames come to, by
induction on its passes. -/
theorem fromWireLoop_fault_iff {e : Abort} (hFaults : Faults e) (fuel : Nat) :
    ∀ (ep : WebSocketEndpoint) (mem : Nat → PassMem), ep.wsHandshakeCompleted = true →
      Settled ep → ep.fromwireBuf.data.length < 4294967296 →
      ((fromWireLoop fuel ep mem).value = .error e ↔
        framesFault fuel ep.messageData.data.length ep.fromwireBuf.data = some e) := by
  induction fuel with
  | zero =>
      intro ep mem _ _ _
      have hNot : Abort.outOfFuel ≠ e := by
        rintro rfl
        exact absurd hFaults (by simp [Faults])
      simp [fromWireLoop, framesFault, hNot]
  | succ fuel ih =>
      intro ep mem hDone hSettled hSize
      have hCall := openPass hDone hSettled hSize (mem 0)
      generalize hPass : ep.wirePass (mem 0) = call at hCall
      cases hCall with
      | waits hWaits =>
          rw [fromWireLoop_done hPass, framesFault_waits ((waits_any_key _ _ _).mp hWaits)]
          simp
      | raises hWaits hRaises =>
          rw [fromWireLoop_stops hPass, framesFault_raises
            (mt (waits_any_key _ _ _).mp hWaits) ((raises_any_key _ _ _).mp hRaises)]
          simp
      | overlong hWaits hRaises hFin hOver =>
          rw [fromWireLoop_stops hPass, framesFault_front ep (mem 0) fuel hWaits hRaises,
            if_neg (not_not.mpr hFin), if_pos hOver]
          simp
      | consumes hWaits hRaises hFits =>
          -- what is held of the message after the pass is what `framesFault` goes on with
          have hKept : framesFault (fuel + 1) ep.messageData.data.length
                ep.fromwireBuf.data =
              framesFault fuel
                (kept (ep.frontHeader (mem 0)) (ep.frontMessage (mem 0))).length
                (remaining (ep.frontHeader (mem 0)).total ep.fromwireBuf.data) := by
            rw [framesFault_front ep (mem 0) fuel hWaits hRaises, kept]
            by_cases hFin : (ep.frontHeader (mem 0)).fin = 1
            · rw [if_neg (not_not.mpr hFin), if_neg (hFits hFin), if_pos hFin]
            · rw [if_pos hFin, if_neg hFin]
          have hRest := (remaining_length (ep.frontHeader (mem 0)).total ep.fromwireBuf.data).2
          rw [hKept]
          by_cases hNil : remaining (ep.frontHeader (mem 0)).total ep.fromwireBuf.data = []
          · rw [consumedPass, if_pos hNil] at hPass
            rw [fromWireLoop_done hPass, hNil, framesFault_waits (.inl rfl)]
            simp
          · rw [consumedPass, if_neg hNil] at hPass
            rw [fromWireLoop_again hPass, Traced.value_prepend]
            exact ih (ep.holding _ _) _ hDone (settled_holding ep _ _)
              (lt_trans hRest (by decide))

/-- The pass that opens the connection adds no fault. -/
theorem opening_fault_iff (hSettled : Settled ep) {e : Abort} (hFaults : Faults e) (fuel : Nat)
    {mem : Nat → PassMem} {es : List Event} {result : Int} {rest : Bytes}
    (hLt : rest.length < 4294967296)
    (hPass : ep.wirePass (mem 0) = ⟨es, .ok (ep.openingPass result rest)⟩) :
    (fromWireLoop (fuel + 1) ep mem).value = .error e ↔
      framesFault fuel ep.messageData.data.length rest = some e := by
  by_cases hNil : rest = []
  · rw [openingPass, if_pos hNil] at hPass
    rw [fromWireLoop_done hPass, hNil, framesFault_waits (.inl rfl)]
    simp
  · rw [openingPass, if_neg hNil] at hPass
    rw [fromWireLoop_again hPass, Traced.value_prepend]
    exact fromWireLoop_fault_iff hFaults fuel (ep.opened rest) _ rfl ⟨rfl, hSettled.message_oft⟩ hLt

/-- A call ends in the fault that its bytes come to, and returns when they come to
none. -/
theorem deliver_fault_iff (hSettled : Settled ep)
    (hRange : ep.fromwireBuf.data.length < 2147483648) (d : Delivery) {e : Abort}
    (hFaults : Faults e) :
    (ep.deliver d).value = .error e ↔ callFault ep d.readbuf (d.mem 0) = some e := by
  have hStart := gathered_settled hSettled d
  have hSize := gathered_size hRange d
  rw [deliver_eq hSettled]
  unfold callFault
  cases hDone : ep.wsHandshakeCompleted with
  | true =>
      simp only [if_true]
      exact fromWireLoop_fault_iff hFaults _ (ep.gathered d) d.mem hDone hStart hSize
  | false =>
      simp only [Bool.false_eq_true, if_false]
      have hClosed : (ep.gathered d).wsHandshakeCompleted = false := hDone
      have hCall := closedPass hClosed hStart hSize (d.mem 0)
      have hBuf : ep.fromwireBuf.data ++ d.readbuf = (ep.gathered d).fromwireBuf.data := rfl
      rw [hBuf]
      generalize hPass : (ep.gathered d).wirePass (d.mem 0) = call at hCall
      cases hCall with
      | overflow hLow =>
          -- `std::string` is given a negative length
          rw [fromWireLoop_stops hPass, if_pos hLow]
          simp
      | stops hVerdict =>
          have hLe := verdict_length_le hVerdict (by simp)
          rw [fromWireLoop_stops hPass, if_neg (by omega), hVerdict]
          simp
      | rejected hSmall hVerdict =>
          rw [fromWireLoop_done hPass, if_neg (by omega), hVerdict]
          simp
      | undecided hVerdict hZero =>
          have hLe := verdict_length_le hVerdict (by simp)
          rw [fromWireLoop_done hPass, if_neg (by omega), hVerdict]
          simp [hZero]
      | garbage hVerdict hJunk =>
          have hLe := verdict_length_le hVerdict (by simp)
          rw [if_neg (by omega), hVerdict]
          simp only [if_neg hJunk]
          exact opening_fault_iff hStart hFaults _
            (lt_of_le_of_lt (List.drop_suffix _ _).length_le hSize) hPass
      | accepted hVerdict =>
          have hLe := verdict_length_le hVerdict (by simp)
          rw [if_neg (by omega), hVerdict]
          exact opening_fault_iff hStart hFaults _
            (lt_of_le_of_lt (List.drop_suffix _ _).length_le hSize) hPass

/-- A call returns exactly when its bytes come to no fault. -/
theorem deliver_returns_iff (hSettled : Settled ep)
    (hRange : ep.fromwireBuf.data.length < 2147483648) (d : Delivery) :
    (∃ r, (ep.deliver d).value = .ok r) ↔ callFault ep d.readbuf (d.mem 0) = none := by
  cases hValue : (ep.deliver d).value with
  | ok r =>
      refine ⟨fun _ => Option.eq_none_iff_forall_ne_some.mpr fun e hFault => ?_,
        fun _ => ⟨r, rfl⟩⟩
      have hError := (deliver_fault_iff hSettled hRange d (callFault_faults hFault)).mpr hFault
      rw [hValue] at hError
      exact absurd hError (by simp)
  | error e =>
      have hFault := (deliver_fault_iff hSettled hRange d
        (deliver_faults hSettled hRange d hValue)).mp hValue
      simp [hFault]

/-- A call reads no byte out of range exactly when the bytes held and the chunk
come to no bare header. -/
theorem inRange_iff {n : Nat} (hReach : Reachable n ep) (hDone : ep.wsHandshakeCompleted = true)
    (d : Delivery) :
    (ep.deliver d).value ≠ .error .outOfRange ↔ bareHeader ep d.readbuf = false := by
  obtain ⟨hSettled, -, hRange⟩ := hReach.invariant
  have hFault := deliver_fault_iff hSettled hRange d (e := .outOfRange) (.inr (.inl rfl))
  rw [callFault, if_pos hDone] at hFault
  rw [ne_eq, hFault, bareHeader, decide_eq_false_iff_not]

/-- Half a frame, and then the rest of it with an unmasked frame that has a
payload. -/
theorem inRange_iff_letters :
    (openEndpoint.deliver (.zeroed [129, 1, 65, 137, 1] (by decide))).value ≠
      .error .outOfRange :=
  (inRange_iff openEndpoint_reachable rfl _).mpr (by decide +kernel)

/-- An empty unmasked text frame. -/
def emptyTextFrame : Delivery :=
  .zeroed [129, 0] (by decide)

/-- There is no byte behind the header to take the address of. -/
theorem emptyTextFrame_outOfRange :
    Reachable openingRequest.length openEndpoint ∧
      (openEndpoint.deliver emptyTextFrame).value = .error .outOfRange :=
  ⟨openEndpoint_reachable, by decide +kernel⟩

end WebSocketEndpoint

end WebSocketFiles
