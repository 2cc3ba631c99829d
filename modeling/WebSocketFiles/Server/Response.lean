import WebSocketFiles.Model.Server
import WebSocketFiles.Receive.Bounds

/-!
# One response for each work item

A work item has room for one response, and `on_write_response` ends the process
when it is called for a second one.  The receive loop answers everything that
the bytes it holds complete, so a peer that sends two answerable things in one
chunk stops the server.

`answersOwed` counts from the bytes alone what a call has to answer.  The write
callback is called exactly that often (`callbacks_deliver`), so the exit is
reached exactly when more than one answer is owed.
-/

namespace WebSocketFiles

open MachineInt FrameFormat Fallible WebSocketEndpoint

/-! ## What a buffer owes -/

/-- The number of bytes of the reply to a message of `n` bytes. -/
def replyLength (n : Nat) : Nat :=
  2 + (LengthForm.shortest n).extra + n

theorem reply_length (opcode : UInt8) (M : Bytes) :
    (reply opcode M).length = replyLength M.length := by
  rw [reply, Frame.encode_length]
  rfl

/-- Whether a message of `m` bytes gets a reply that the write callback sees: the
reply is shorter than `2^31` bytes. -/
def repliesTo (m : Nat) : Nat :=
  if replyLength (toInt32 m).toNat < 2147483648 then 1 else 0

/-- The replies owed for the frames at the front of `d`, when `m` bytes of an
unfinished message are held: one for each frame with FIN = 1 and a known
opcode, until a frame is incomplete or makes the process stop. -/
def repliesOwed : Nat → Nat → Bytes → Nat
  | 0, _, _ => 0
  | fuel + 1, m, d =>
      let h := scanHeader Uninit.zeroed.maskingKey d
      if Waits Uninit.zeroed.maskingKey d ∨ Raises Uninit.zeroed.maskingKey d then 0
      else
        let message := m + min h.length (d.length - h.size)
        let rest := remaining h.total d
        if h.fin ≠ 1 then repliesOwed fuel message rest
        else if h.opcode ∉ knownOpcodes then repliesOwed fuel (flushedLength message) rest
        else if toInt32 message < 0 then 0
        else repliesTo message + repliesOwed fuel (flushedLength message) rest

/-- The answers owed by a call of `from_wire` with the bytes `readbuf`: the
response to the handshake, if this call completes it, and the replies to the
frames behind it. -/
def answersOwed (ep : WebSocketEndpoint) (readbuf : Bytes) (mem : PassMem) : Nat :=
  let d := ep.fromwireBuf.data ++ readbuf
  let m := ep.messageData.data.length
  if ep.wsHandshakeCompleted then repliesOwed (d.length + 2) m d
  else
    match verdict d with
    | .accepted n _ => 1 + repliesOwed (d.length + 1) m (d.drop n)
    | .undecided =>
        if mem.wspacket.hsLength = 0 then 0
        else 1 + repliesOwed (d.length + 1) m (d.drop (garbageUsed mem.wspacket.hsLength))
    | _ => 0

theorem repliesOwed_nil (fuel m : Nat) : repliesOwed fuel m [] = 0 := by
  cases fuel with
  | zero => rfl
  | succ fuel => rw [repliesOwed, if_pos (.inl (.inl rfl))]

theorem repliesOwed_stops {fuel m : Nat} {d : Bytes}
    (hStops : Waits Uninit.zeroed.maskingKey d ∨ Raises Uninit.zeroed.maskingKey d) :
    repliesOwed fuel m d = 0 := by
  cases fuel with
  | zero => rfl
  | succ fuel => rw [repliesOwed, if_pos hStops]

/-! ## The front of the buffer -/

/-- The frame at the front, read with any key. -/
theorem repliesOwed_frame (fuel m : Nat) {key : MaskingKey} {d : Bytes} {h : Header}
    (hScan : scanHeader key d = h) (hWaits : ¬ Waits key d) (hRaises : ¬ Raises key d) :
    repliesOwed (fuel + 1) m d =
      if h.fin ≠ 1 then
        repliesOwed fuel (m + (h.payload d).length) (remaining h.total d)
      else if h.opcode ∉ knownOpcodes then
        repliesOwed fuel (flushedLength (m + (h.payload d).length)) (remaining h.total d)
      else if toInt32 ↑(m + (h.payload d).length) < 0 then 0
      else repliesTo (m + (h.payload d).length) +
        repliesOwed fuel (flushedLength (m + (h.payload d).length)) (remaining h.total d) := by
  obtain ⟨hFin, hOpcode, -, hLength, hSize⟩ := scanHeader_any_key Uninit.zeroed.maskingKey d key
  have hTotal := scanHeader_total_eq Uninit.zeroed.maskingKey d key
  rw [hScan] at hFin hOpcode hLength hSize hTotal
  have hGo : ¬ (Waits Uninit.zeroed.maskingKey d ∨ Raises Uninit.zeroed.maskingKey d) := by
    rw [waits_any_key _ key, raises_any_key _ key]
    exact not_or.mpr ⟨hWaits, hRaises⟩
  rw [repliesOwed, if_neg hGo, payload_length]
  simp only [hFin, hOpcode, hLength, hSize, hTotal]

/-! ## The calls of the write callback -/

namespace WebSocketEndpoint

variable {ep : WebSocketEndpoint}

/-- A callback and its data are registered, as `process` leaves them. -/
structure Registered (ep : WebSocketEndpoint) : Prop where
  cb : ep.ntWriteCb.isSome
  workData : ep.ntWorkData.isSome

theorem callbacks_wireEvents (hReg : Registered ep) (buf : Bytes) (size : Int) :
    Event.callbacks (ep.wireEvents (some buf) size) =
      if size ≤ 0 then [] else [buf.take size.toNat] := by
  obtain ⟨cb, hCb⟩ := Option.isSome_iff_exists.mp hReg.cb
  obtain ⟨wd, hWd⟩ := Option.isSome_iff_exists.mp hReg.workData
  unfold wireEvents
  rw [hCb, hWd]
  by_cases hSize : size ≤ 0
  · simp [Event.callbacks, hSize]
  · simp [Event.callbacks, hSize]

theorem callbacks_rspEvents (hReg : Registered ep) (p : WebSocketPacket) :
    Event.callbacks (ep.rspEvents p) = [p.packHandshakeRsp] := by
  have hLength := p.packHandshakeRsp_length
  rw [rspEvents, callbacks_wireEvents hReg, if_neg (by omega), Int.toNat_natCast,
    List.take_length]

/-- A message that is not overlong gets one reply, unless the reply is too
long. -/
theorem callbacks_dispatched (hReg : Registered ep) {opcode : UInt8}
    (hKnown : opcode ∈ knownOpcodes) {M : Bytes} (hNonneg : 0 ≤ toInt32 M.length) :
    (Event.callbacks (ep.dispatched opcode M)).length = repliesTo M.length ∧
      ∀ b ∈ Event.callbacks (ep.dispatched opcode M), b.length < 2147483648 := by
  have hCovered : (covered M).length = (toInt32 M.length).toNat := by
    have hLength := length_covered hNonneg
    change toInt32 M.length = _ at hLength
    omega
  have hLt := covered_length_lt M
  have hReply := reply_length opcode (covered M)
  have hBound := reply_length_le opcode (covered M)
  have hEvents : Event.callbacks (ep.dispatched opcode M) =
      if toInt32 (reply opcode (covered M)).length ≤ 0 then []
      else [(reply opcode (covered M)).take (toInt32 (reply opcode (covered M)).length).toNat] := by
    rw [dispatched, if_pos hKnown]
    exact callbacks_wireEvents hReg _ _
  rw [hEvents, repliesTo, ← hCovered, ← hReply]
  by_cases hFits : (reply opcode (covered M)).length < 2147483648
  · rw [toInt32_of_lt (by omega) (by omega), if_neg (by omega), if_pos hFits,
      Int.toNat_natCast, List.take_length]
    exact ⟨rfl, fun b hb => by rw [List.mem_singleton.mp hb]; exact hFits⟩
  · rw [toInt32_neg (by omega) (by omega), if_pos (by omega), if_neg hFits]
    exact ⟨rfl, fun b hb => absurd hb (by simp)⟩

/-- The write callback is called for what is owed, with buffers below `2^31`
bytes. -/
def Answers (owed : Nat) (es : List Event) : Prop :=
  (Event.callbacks es).length = owed ∧ ∀ b ∈ Event.callbacks es, b.length < 2147483648

theorem answers_nil : Answers 0 [] :=
  ⟨rfl, fun _ hb => absurd hb (by simp)⟩

theorem Answers.append {m n : Nat} {es fs : List Event} (hFirst : Answers m es)
    (hSecond : Answers n fs) : Answers (m + n) (es ++ fs) := by
  constructor
  · rw [Event.callbacks_append, List.length_append, hFirst.1, hSecond.1]
  · intro b hb
    rw [Event.callbacks_append] at hb
    rcases List.mem_append.mp hb with hEarly | hLate
    · exact hFirst.2 b hEarly
    · exact hSecond.2 b hLate

/-- What is owed for the frame at the front of the buffer. -/
theorem repliesOwed_front (ep : WebSocketEndpoint) (mem : PassMem) (fuel : Nat)
    (hWaits : ¬ Waits mem.wspacket.maskingKey ep.fromwireBuf.data)
    (hRaises : ¬ Raises mem.wspacket.maskingKey ep.fromwireBuf.data) :
    let rest := remaining (ep.frontHeader mem).total ep.fromwireBuf.data
    repliesOwed (fuel + 1) ep.messageData.data.length ep.fromwireBuf.data =
      if (ep.frontHeader mem).fin ≠ 1 then repliesOwed fuel (ep.frontMessage mem).length rest
      else if (ep.frontHeader mem).opcode ∉ knownOpcodes then
        repliesOwed fuel (flushed (ep.frontMessage mem)).length rest
      else if toInt32 (ep.frontMessage mem).length < 0 then 0
      else repliesTo (ep.frontMessage mem).length +
        repliesOwed fuel (flushed (ep.frontMessage mem)).length rest := by
  have hFrame := repliesOwed_frame fuel ep.messageData.data.length (h := ep.frontHeader mem) rfl
    hWaits hRaises
  have hLength : (ep.frontMessage mem).length = ep.messageData.data.length +
      ((ep.frontHeader mem).payload ep.fromwireBuf.data).length := by
    rw [frontMessage, List.length_append]
  rw [← hLength, ← flushed_length] at hFrame
  exact hFrame

/-- After the handshake the loop answers the frames, by induction on its
passes. -/
theorem answers_fromWireLoop (fuel : Nat) :
    ∀ (ep : WebSocketEndpoint) (mem : Nat → PassMem), ep.wsHandshakeCompleted = true →
      Settled ep → Registered ep → ep.fromwireBuf.data.length < 4294967296 →
      Answers (repliesOwed fuel ep.messageData.data.length ep.fromwireBuf.data)
        (fromWireLoop fuel ep mem).events := by
  induction fuel with
  | zero =>
      intro ep mem _ _ _ _
      exact answers_nil
  | succ fuel ih =>
      intro ep mem hDone hSettled hReg hSize
      have hCall := openPass hDone hSettled hSize (mem 0)
      -- the loop after a frame: the buffer is used up, or another pass follows
      have hRest : ∀ (es : List Event) (result : Int) (M rest : Bytes),
          rest.length < 2147483648 →
          ep.wirePass (mem 0) = ⟨es, .ok (ep.consumedPass result M rest)⟩ →
          ∃ fs, (fromWireLoop (fuel + 1) ep mem).events = es ++ fs ∧
            Answers (repliesOwed fuel M.length rest) fs := by
        intro es result M rest hLt hPass
        by_cases hNil : rest = []
        · rw [consumedPass, if_pos hNil] at hPass
          rw [fromWireLoop_done hPass, hNil, repliesOwed_nil]
          exact ⟨[], (List.append_nil es).symm, answers_nil⟩
        · rw [consumedPass, if_neg hNil] at hPass
          rw [fromWireLoop_again hPass]
          exact ⟨_, rfl, ih (ep.holding M rest) _ hDone (settled_holding ep M rest)
            ⟨hReg.cb, hReg.workData⟩ (lt_trans hLt (by decide))⟩
      generalize hPass : ep.wirePass (mem 0) = call at hCall
      rw [hPass] at hRest
      cases hCall with
      | waits hWaits =>
          rw [fromWireLoop_done hPass, repliesOwed_stops (.inl ((waits_any_key _ _ _).mp hWaits))]
          exact answers_nil
      | raises hWaits hRaises =>
          rw [fromWireLoop_stops hPass,
            repliesOwed_stops (.inr ((raises_any_key _ _ _).mp hRaises))]
          exact answers_nil
      | overlong hWaits hRaises hFin hOver =>
          rw [fromWireLoop_stops hPass, repliesOwed_front ep (mem 0) fuel hWaits hRaises,
            if_neg (not_not.mpr hFin), if_neg (not_not.mpr hOver.1), if_pos hOver.2]
          exact ⟨rfl, fun _ hb => absurd hb (by simp [Event.callbacks])⟩
      | consumes hWaits hRaises hFits =>
          obtain ⟨fs, hEvents, hAnswers⟩ := hRest _ _ _ _ (remaining_length _ _).2 rfl
          rw [hEvents, repliesOwed_front ep (mem 0) fuel hWaits hRaises]
          unfold kept at hAnswers
          by_cases hFin : (ep.frontHeader (mem 0)).fin = 1
          · rw [if_pos hFin] at hAnswers
            rw [if_pos hFin, if_neg (not_not.mpr hFin)]
            by_cases hKnown : (ep.frontHeader (mem 0)).opcode ∈ knownOpcodes
            · have hNonneg : ¬ toInt32 (ep.frontMessage (mem 0)).length < 0 := fun hNeg =>
                hFits hFin ⟨hKnown, hNeg⟩
              rw [if_neg (not_not.mpr hKnown), if_neg hNonneg]
              exact Answers.append (callbacks_dispatched hReg hKnown (by omega)) hAnswers
            · rw [if_pos hKnown, dispatched, if_neg hKnown]
              exact hAnswers
          · rw [if_neg hFin] at hAnswers
            rw [if_neg hFin, if_pos hFin]
            exact hAnswers

/-- The pass that opens the connection, then the loop. -/
theorem answers_opening (hSettled : Settled ep) (hReg : Registered ep) (fuel : Nat)
    {mem : Nat → PassMem} {p : WebSocketPacket} {result : Int} {rest : Bytes}
    (hLt : rest.length < 4294967296)
    (hPass : ep.wirePass (mem 0) = ⟨ep.rspEvents p, .ok (ep.openingPass result rest)⟩) :
    Answers (1 + repliesOwed fuel ep.messageData.data.length rest)
      (fromWireLoop (fuel + 1) ep mem).events := by
  have hRsp : Answers 1 (ep.rspEvents p) := by
    unfold Answers
    rw [callbacks_rspEvents hReg]
    have hLength := p.packHandshakeRsp_length
    exact ⟨rfl, fun b hb => by rw [List.mem_singleton.mp hb]; omega⟩
  by_cases hNil : rest = []
  · rw [openingPass, if_pos hNil] at hPass
    rw [fromWireLoop_done hPass, hNil, repliesOwed_nil]
    exact hRsp
  · rw [openingPass, if_neg hNil] at hPass
    rw [fromWireLoop_again hPass, Traced.events_prepend]
    exact hRsp.append (answers_fromWireLoop fuel (ep.opened rest) _ rfl
      ⟨rfl, hSettled.message_oft⟩ ⟨hReg.cb, hReg.workData⟩ hLt)

/-- A call invokes the write callback once for each answer it owes. -/
theorem answers_deliver (hSettled : Settled ep) (hReg : Registered ep)
    (hRange : ep.fromwireBuf.data.length < 2147483648) (d : Delivery) :
    Answers (answersOwed ep d.readbuf (d.mem 0)) (ep.deliver d).events := by
  have hStart := gathered_settled hSettled d
  have hSize := gathered_size hRange d
  have hReg' : Registered (ep.gathered d) := ⟨hReg.cb, hReg.workData⟩
  rw [deliver_eq hSettled]
  unfold answersOwed
  cases hDone : ep.wsHandshakeCompleted with
  | true =>
      simp only [if_true]
      exact answers_fromWireLoop _ (ep.gathered d) _ hDone hStart hReg' hSize
  | false =>
      simp only [Bool.false_eq_true, if_false]
      have hClosed : (ep.gathered d).wsHandshakeCompleted = false := hDone
      have hCall := closedPass hClosed hStart hSize (d.mem 0)
      have hBuf : ep.fromwireBuf.data ++ d.readbuf = (ep.gathered d).fromwireBuf.data := rfl
      rw [hBuf]
      generalize hPass : (ep.gathered d).wirePass (d.mem 0) = call at hCall
      cases hCall with
      | overflow hLow =>
          have hLong : verdict (ep.gathered d).fromwireBuf.data = .rejected := by
            rw [verdict, if_pos]
            unfold wsMaxHandshakeFrameSize
            omega
          rw [fromWireLoop_stops hPass, hLong]
          exact answers_nil
      | stops hVerdict =>
          rw [fromWireLoop_stops hPass, hVerdict]
          exact answers_nil
      | rejected hSmall hVerdict =>
          rw [fromWireLoop_done hPass, hVerdict]
          exact answers_nil
      | undecided hVerdict hZero =>
          rw [fromWireLoop_done hPass, hVerdict]
          simp only [if_pos hZero]
          exact answers_nil
      | garbage hVerdict hJunk =>
          rw [hVerdict]
          simp only [if_neg hJunk]
          exact answers_opening hStart hReg' _
            (lt_of_le_of_lt (List.drop_suffix _ _).length_le hSize) hPass
      | accepted hVerdict =>
          rw [hVerdict]
          exact answers_opening hStart hReg' _
            (lt_of_le_of_lt (List.drop_suffix _ _).length_le hSize) hPass

end WebSocketEndpoint

/-! ## The response slot -/

/-- The first response fills the slot. -/
theorem onWriteResponse_empty {workData : PeerWorkData} (hEmpty : workData.response.base = none)
    {buf : Bytes} (hLt : buf.length < 2147483648) :
    onWriteResponse workData buf =
      .ok { workData with response := ⟨some buf, buf.length⟩ } := by
  have hLen : toUInt32 buf.length = buf.length := by
    rw [toUInt32_of_lt (by omega) (by omega), Int.toNat_natCast]
  have hSize : toUInt64 (toInt32 buf.length) = buf.length := by
    rw [toInt32_of_lt (by omega) (by omega), toUInt64_of_lt (by omega) (by omega),
      Int.toNat_natCast]
  have hCopy : uvBufAllocCpy .null ⟨some buf, buf.length⟩ (toInt32 buf.length) 0 =
      .ok (0, ⟨some buf, buf.length⟩) := by
    unfold uvBufAllocCpy
    simp only [hSize, lt_irrefl, if_false, Option.getD_some, List.take_length]
  unfold onWriteResponse
  rw [if_neg (not_not.mpr hEmpty)]
  simp only [hLen, hCopy, ok_bind]
  rfl

/-- A second one is fatal. -/
theorem onWriteResponse_taken {workData : PeerWorkData}
    (hTaken : workData.response.base ≠ none) (buf : Bytes) :
    onWriteResponse workData buf = .error .exitFailure := by
  rw [onWriteResponse, if_pos hTaken]

/-- The item with the first of the responses, if there is one. -/
def PeerWorkData.respond (workData : PeerWorkData) : List Bytes → PeerWorkData
  | [] => workData
  | b :: _ => { workData with response := ⟨some b, b.length⟩ }

theorem foldlM_onWriteResponse {workData : PeerWorkData}
    (hEmpty : workData.response.base = none) {bufs : List Bytes}
    (hLt : ∀ b ∈ bufs, b.length < 2147483648) :
    (bufs.length ≤ 1 ∧ bufs.foldlM onWriteResponse workData = .ok (workData.respond bufs)) ∨
      (2 ≤ bufs.length ∧ bufs.foldlM onWriteResponse workData = .error .exitFailure) := by
  match bufs with
  | [] => exact .inl ⟨Nat.zero_le _, rfl⟩
  | [b] =>
      refine .inl ⟨le_refl _, ?_⟩
      rw [List.foldlM_cons, onWriteResponse_empty hEmpty (hLt b List.mem_cons_self), ok_bind]
      rfl
  | b :: b' :: rest =>
      refine .inr ⟨Nat.le_add_left 2 rest.length, ?_⟩
      rw [List.foldlM_cons, onWriteResponse_empty hEmpty (hLt b List.mem_cons_self), ok_bind,
        List.foldlM_cons, onWriteResponse_taken (by simp), error_bind]

/-- The work item of a chunk, as `on_peer_read` queues it. -/
structure Chunk (workData : PeerWorkData) (readbuf : Bytes) : Prop where
  request : workData.request = ⟨some readbuf, readbuf.length⟩
  response : workData.response.base = none

namespace WebSocketEndpoint

variable {ep : WebSocketEndpoint}

/-- The endpoint with the callback that `process` sets for a work item. -/
def registered (ep : WebSocketEndpoint) : WebSocketEndpoint :=
  { ep with ntWriteCb := some onWriteResponseAddr, ntWorkData := some workDataAddr }

theorem registered_settled (hSettled : Settled ep) : Settled ep.registered :=
  ⟨hSettled.fromwire_oft, hSettled.message_oft⟩

/-- Processing a chunk delivers its bytes and stores the responses. -/
theorem onWorkSubmitted_eq (ep : WebSocketEndpoint) (d : Delivery) {workData : PeerWorkData}
    (hChunk : Chunk workData d.readbuf) :
    onWorkSubmitted ep workData d.mem =
      ((Event.callbacks (ep.registered.deliver d).events).foldlM onWriteResponse workData >>=
        fun workData => (ep.registered.deliver d).value >>= fun r =>
          pure (r.1, r.2, workData)) := by
  unfold onWorkSubmitted
  rw [hChunk.request]
  simp only [Option.getD_some, List.take_length]
  rfl

/-- What processing a chunk comes to: with at most one answer owed, the call of
`from_wire` decides; with more, the second one ends the process. -/
theorem onWorkSubmitted_cases (hSettled : Settled ep)
    (hRange : ep.fromwireBuf.data.length < 2147483648) (d : Delivery) {workData : PeerWorkData}
    (hChunk : Chunk workData d.readbuf) :
    (answersOwed ep d.readbuf (d.mem 0) ≤ 1 ∧
        (Event.callbacks (ep.registered.deliver d).events).length ≤ 1 ∧
        onWorkSubmitted ep workData d.mem = ((ep.registered.deliver d).value >>= fun r =>
          pure (r.1, r.2,
            workData.respond (Event.callbacks (ep.registered.deliver d).events)))) ∨
      (2 ≤ answersOwed ep d.readbuf (d.mem 0) ∧
        onWorkSubmitted ep workData d.mem = .error .exitFailure) := by
  obtain ⟨hCount, hLt⟩ := answers_deliver (registered_settled hSettled) ⟨rfl, rfl⟩ hRange d
  have hOwed : answersOwed ep.registered d.readbuf (d.mem 0) =
      answersOwed ep d.readbuf (d.mem 0) := rfl
  rw [hOwed] at hCount
  rw [onWorkSubmitted_eq ep d hChunk]
  rcases foldlM_onWriteResponse hChunk.response hLt with ⟨hFew, hFold⟩ | ⟨hMany, hFold⟩
  · rw [hFold, ok_bind]
    exact .inl ⟨hCount ▸ hFew, hFew, rfl⟩
  · rw [hFold, error_bind]
    exact .inr ⟨hCount ▸ hMany, rfl⟩

/-- Processing a chunk stays clear of the exit of `on_write_response` exactly
when it owes the peer at most one answer. -/
theorem fail_unreached_iff {n : Nat} (hReach : Reachable n ep) (d : Delivery)
    {workData : PeerWorkData} (hChunk : Chunk workData d.readbuf) :
    onWorkSubmitted ep workData d.mem ≠ .error .exitFailure ↔
      answersOwed ep d.readbuf (d.mem 0) ≤ 1 := by
  obtain ⟨hSettled, -, hRange⟩ := hReach.invariant
  rcases onWorkSubmitted_cases hSettled hRange d hChunk with ⟨hFew, -, hWork⟩ | ⟨hMany, hWork⟩
  · refine ⟨fun _ => hFew, fun _ hExit => ?_⟩
    rw [hWork] at hExit
    -- the call itself ends by a fault of the library or not at all
    cases hValue : (ep.registered.deliver d).value with
    | error e =>
        rw [hValue, error_bind, Except.error.injEq] at hExit
        have hFault := deliver_faults (registered_settled hSettled) hRange d hValue
        rw [hExit] at hFault
        exact absurd hFault (by simp [Faults])
    | ok r =>
        rw [hValue, ok_bind] at hExit
        exact absurd hExit (by simp [Fallible.pure_eq])
  · exact ⟨fun hNot => absurd hWork hNot, fun hFew => absurd hMany (by omega)⟩

/-- Processing a chunk returns exactly when it owes the peer at most one answer and
its bytes come to no fault. -/
theorem onWorkSubmitted_returns_iff (hSettled : Settled ep)
    (hRange : ep.fromwireBuf.data.length < 2147483648) (d : Delivery) {workData : PeerWorkData}
    (hChunk : Chunk workData d.readbuf) :
    (∃ r, onWorkSubmitted ep workData d.mem = .ok r) ↔
      answersOwed ep d.readbuf (d.mem 0) ≤ 1 ∧ callFault ep d.readbuf (d.mem 0) = none := by
  have hFault : callFault ep.registered d.readbuf (d.mem 0) =
      callFault ep d.readbuf (d.mem 0) := rfl
  rw [← hFault, ← deliver_returns_iff (registered_settled hSettled) hRange d]
  rcases onWorkSubmitted_cases hSettled hRange d hChunk with ⟨hFew, -, hWork⟩ | ⟨hMany, hWork⟩
  · rw [hWork]
    cases hValue : (ep.registered.deliver d).value with
    | error e => simp
    | ok r => simp [ok_bind, pure_eq, hFew]
  · rw [hWork]
    simp only [reduceCtorEq, exists_false, false_iff, not_and]
    omega

/-- The work item of a chunk of the first client. -/
def chunkWork (readbuf : Bytes) : PeerWorkData where
  uvclient := 0
  request := ⟨some readbuf, readbuf.length⟩
  response := .null
  type := 1

/-- A request alone is answered. -/
theorem fail_unreached_request :
    onWorkSubmitted (.new none) (chunkWork openingRequest) (fun _ => ⟨.zeroed, .zeroed⟩) ≠
      .error .exitFailure :=
  (fail_unreached_iff (.fresh (fresh_new none))
    (.zeroed openingRequest (by rw [length_openingRequest]; decide))
    (⟨rfl, rfl⟩ : Chunk (chunkWork openingRequest) openingRequest)).mpr (by decide +kernel)

/-- A request and a text frame in one chunk. -/
def pipelinedChunk : Bytes :=
  openingRequest ++ [129, 129, 1, 2, 3, 4, 64]

/-- The pipelined chunk, as the first one of a connection, ends the process. -/
theorem pipelinedChunk_fails :
    Reachable 0 (.new none) ∧
      onWorkSubmitted (.new none) (chunkWork pipelinedChunk) (fun _ => ⟨.zeroed, .zeroed⟩) =
        .error .exitFailure := by
  constructor
  · exact .fresh (fresh_new none)
  · decide +kernel

end WebSocketEndpoint

end WebSocketFiles
