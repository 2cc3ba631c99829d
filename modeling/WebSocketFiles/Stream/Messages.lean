import WebSocketFiles.Stream.FrameReader

/-!
# Messages

A message is what a client means by its frames: a data message, possibly in
fragments, or a control frame.  When whole frames arrive, the endpoint refines
the specification that knows only messages: each finished message is handed on
once, in order, with the payloads of its frames put together, and one frame is
sent back for it (`echo_refines_messages`).

Two things a message should keep are lost.  Every frame is read into a fresh
packet and the message is handed on with the packet of its last frame, so a
fragmented message never has its own type (`fragmented_message_loses_type`).
And all frames share one accumulator, so a control frame between two fragments
takes the first fragments with it (`control_frame_undisturbed_iff`).
-/

namespace WebSocketFiles

open FrameFormat Segmentation

/-! ## The specification -/

/-- The payloads of some frames, put together. -/
def payloadOf (fs : List ClientFrame) : Bytes :=
  fs.flatMap ClientFrame.payload

/-- A text or binary frame, then continuation frames. -/
def DataOpcodes : List ClientFrame → Prop
  | [] => True
  | f :: fs => (f.opcode = 1 ∨ f.opcode = 2) ∧ ∀ g ∈ fs, g.opcode = 0

/-- A close, ping or pong frame. -/
def ControlOpcode (f : ClientFrame) : Prop :=
  f.opcode = 8 ∨ f.opcode = 9 ∨ f.opcode = 10

/-- A finished message: a data message, or a control frame. -/
structure Message where
  front : List ClientFrame
  last : ClientFrame
  front_fin : ∀ f ∈ front, f.fin = false
  last_fin : last.fin = true
  opcodes : DataOpcodes (front ++ [last]) ∨ front = [] ∧ ControlOpcode last

/-- A data message whose last frame has not come yet; it may have no frame at
all. -/
structure UnfinishedMessage where
  frames : List ClientFrame
  fin_zero : ∀ f ∈ frames, f.fin = false
  opcodes : DataOpcodes frames

namespace Message

def frames (m : Message) : List ClientFrame :=
  m.front ++ [m.last]

def payload (m : Message) : Bytes :=
  payloadOf m.frames

/-- The frame that answers a message. -/
def echo (m : Message) : Frame where
  fin := true
  rsv1 := false
  rsv2 := false
  rsv3 := false
  opcode := m.last.opcode
  key := none
  payload := m.payload

/-- The last frame of a message has an opcode that is handed on. -/
theorem last_known (m : Message) :
    m.last.opcodeByte ∈ WebSocketEndpoint.knownOpcodes := by
  have hOpcode : m.last.opcode = 0 ∨ m.last.opcode = 1 ∨ m.last.opcode = 2 ∨
      ControlOpcode m.last := by
    rcases m.opcodes with hData | ⟨-, hControl⟩
    · cases hFront : m.front with
      | nil =>
          rw [hFront] at hData
          exact .inr (hData.1.elim .inl fun h => .inr (.inl h))
      | cons f fs =>
          rw [hFront] at hData
          exact .inl (hData.2 m.last (by simp))
    · exact .inr (.inr (.inr hControl))
  unfold ClientFrame.opcodeByte
  rcases hOpcode with h | h | h | h | h | h <;> rw [h] <;> decide

theorem replyFrame_eq_echo (m : Message) :
    replyFrame m.last.opcodeByte m.payload = m.echo := by
  have hOpcode : Fin.ofNat 16 m.last.opcodeByte.toNat = m.last.opcode := by
    have hLt := m.last.opcode.isLt
    apply Fin.ext
    rw [Fin.val_ofNat, ClientFrame.opcodeByte, UInt8.toNat_ofNat']
    omega
  unfold replyFrame echo
  rw [hOpcode]

end Message

theorem payloadOf_append (fs gs : List ClientFrame) :
    payloadOf (fs ++ gs) = payloadOf fs ++ payloadOf gs := by
  simp [payloadOf]

theorem payloadOf_length_le (fs : List ClientFrame) :
    (payloadOf fs).length ≤ (clientStream fs).length := by
  induction fs with
  | nil => exact le_refl _
  | cons f fs ih =>
      have hLen := f.bytes_length
      have hPayload : payloadOf (f :: fs) = f.payload ++ payloadOf fs := rfl
      have hStream : clientStream (f :: fs) = f.bytes ++ clientStream fs := rfl
      rw [hPayload, hStream, List.length_append, List.length_append]
      omega

namespace WebSocketEndpoint

variable {ep : WebSocketEndpoint}

/-! ## Whole frames, grouped into calls -/

section Reader

variable (hDone : ep.wsHandshakeCompleted = true)

/-- Frames without FIN are only accumulated. -/
theorem outs_unfinished (M : Bytes) {fs : List ClientFrame} (hFin : ∀ f ∈ fs, f.fin = false) :
    (ep.frameReader hDone).outs M fs = [] ∧
      (ep.frameReader hDone).after M fs = M ++ payloadOf fs := by
  induction fs generalizing M with
  | nil => exact ⟨rfl, (List.append_nil M).symm⟩
  | cons f fs ih =>
      have hHead : f.fin = false := hFin f (by simp)
      have hOut : (ep.frameReader hDone).out M f = [] := by
        show ep.frameEvents M f = []
        rw [frameEvents, hHead]
        rfl
      have hNext : (ep.frameReader hDone).next M f = M ++ f.payload := by
        show afterFrame M f = M ++ f.payload
        rw [afterFrame, hHead]
        rfl
      obtain ⟨hOuts, hAfter⟩ := ih (M ++ f.payload) fun g hg => hFin g (by simp [hg])
      rw [Reader.outs_cons, Reader.after_cons, hOut, hNext, hOuts, hAfter]
      exact ⟨rfl, by simp [payloadOf]⟩

/-- The frames of a message make the endpoint hand it on, once, and leave
nothing of it behind. -/
theorem outs_message (m : Message) :
    (ep.frameReader hDone).outs [] m.frames = ep.dispatched m.last.opcodeByte m.payload ∧
      (ep.frameReader hDone).after [] m.frames = [] := by
  obtain ⟨hOuts, hAfter⟩ := outs_unfinished hDone [] m.front_fin
  have hOut : (ep.frameReader hDone).out (payloadOf m.front) m.last =
      ep.dispatched m.last.opcodeByte m.payload := by
    show ep.frameEvents (payloadOf m.front) m.last = _
    rw [frameEvents, m.last_fin, Message.payload, Message.frames, payloadOf_append]
    simp [payloadOf]
  have hNext : (ep.frameReader hDone).next (payloadOf m.front) m.last = [] := by
    show afterFrame (payloadOf m.front) m.last = []
    rw [afterFrame, m.last_fin]
    rfl
  rw [Message.frames, Reader.outs_append, Reader.after_append, hOuts, hAfter, List.nil_append,
    List.nil_append, Reader.outs_cons, Reader.after_cons, hOut, hNext]
  exact ⟨List.append_nil _, rfl⟩

/-- A sequence of messages, by induction, and the beginning of one more. -/
theorem outs_messages (msgs : List Message) (u : UnfinishedMessage) :
    (ep.frameReader hDone).outs [] (msgs.flatMap Message.frames ++ u.frames) =
        msgs.flatMap (fun m => ep.dispatched m.last.opcodeByte m.payload) ∧
      (ep.frameReader hDone).after [] (msgs.flatMap Message.frames ++ u.frames) =
        payloadOf u.frames := by
  induction msgs with
  | nil => exact outs_unfinished hDone [] u.fin_zero
  | cons m msgs ih =>
      obtain ⟨hOuts, hAfter⟩ := outs_message hDone m
      rw [List.flatMap_cons, List.flatMap_cons, List.append_assoc, Reader.outs_append,
        Reader.after_append, hOuts, hAfter, ih.1, ih.2]
      exact ⟨rfl, rfl⟩

end Reader

/-- The events of an answered message, when a write callback is set and the
reply is shorter than `2^31` bytes. -/
theorem dispatched_eq {cb wd : Addr} (hCb : ep.ntWriteCb = some cb)
    (hWd : ep.ntWorkData = some wd) {opcode : UInt8} {M : Bytes}
    (hKnown : opcode ∈ knownOpcodes) (hLt : M.length + 10 < 2147483648) :
    ep.dispatched opcode M =
      [.userDefinedProcess opcode M, .toWire (reply opcode M),
        .ntWriteCb cb (reply opcode M) wd] := by
  have hReply := reply_length_le opcode M
  have hInt : MachineInt.toInt32 ((reply opcode M).length : Int) = (reply opcode M).length :=
    MachineInt.toInt32_of_lt (by omega) (by omega)
  have hNe : reply opcode M ≠ [] := by
    rw [← List.length_pos_iff]
    omega
  simp [dispatched, covered_eq (show M.length < 2147483648 by omega), hKnown, wireEvents, hCb,
    hWd, hInt, hNe]

/-- What the answers to a sequence of messages look like from outside. -/
theorem dispatched_messages {cb wd : Addr} (hCb : ep.ntWriteCb = some cb)
    (hWd : ep.ntWorkData = some wd) (msgs : List Message)
    (hSize : (clientStream (msgs.flatMap Message.frames)).length < 2147483634) :
    let es := msgs.flatMap fun m => ep.dispatched m.last.opcodeByte m.payload
    Event.users es = msgs.map (fun m => (m.last.opcodeByte, m.payload)) ∧
      List.Forall₂ (fun m w => decode w = some (m.echo, [])) msgs (Event.wires es) ∧
      Event.callbacks es = Event.wires es := by
  induction msgs with
  | nil => exact ⟨rfl, .nil, rfl⟩
  | cons m msgs ih =>
      rw [List.flatMap_cons, clientStream_append, List.length_append] at hSize
      have hPayload : m.payload.length ≤ (clientStream m.frames).length :=
        payloadOf_length_le m.frames
      obtain ⟨hUsers, hWires, hCallbacks⟩ := ih (by omega)
      have hHead := dispatched_eq hCb hWd m.last_known
        (show m.payload.length + 10 < 2147483648 by omega)
      have hDecode := decode_reply m.last.opcodeByte
        (show m.payload.length < 2147483648 by omega)
      rw [m.replyFrame_eq_echo] at hDecode
      simp only [List.flatMap_cons, Event.users_append, Event.wires_append,
        Event.callbacks_append, hUsers, hCallbacks, hHead]
      exact ⟨rfl, .cons hDecode hWires, rfl⟩

/-- The endpoint refines the message specification.  However the whole frames
of some messages are grouped into `from_wire` calls, each message is handed on
once, in order and complete; for each one exactly one frame is written, and
given to the write callback, that a reference decoder reads as the echo of the
message; and only the unfinished message at the end is kept. -/
theorem echo_refines_messages (hDone : ep.wsHandshakeCompleted = true)
    (hFrom : ep.fromwireBuf = ByteBuffer.empty) (hMessage : ep.messageData = ByteBuffer.empty)
    {cb wd : Addr} (hCb : ep.ntWriteCb = some cb) (hWd : ep.ntWorkData = some wd)
    (msgs : List Message) (u : UnfinishedMessage) (groups : List (List ClientFrame))
    {ds : List Delivery} (hFrames : groups.flatten = msgs.flatMap Message.frames ++ u.frames)
    (hGroups : ds.map Delivery.readbuf = groups.map clientStream)
    (hSize : (clientStream groups.flatten).length < 2147483634) :
    ∃ rs es ep', ep.deliverAll ds = ⟨es, .ok (rs, ep')⟩ ∧
      Event.users es = msgs.map (fun m => (m.last.opcodeByte, m.payload)) ∧
      List.Forall₂ (fun m w => decode w = some (m.echo, [])) msgs (Event.wires es) ∧
      Event.callbacks es = Event.wires es ∧
      ep'.fromwireBuf = ByteBuffer.empty ∧ ep'.messageData = ⟨payloadOf u.frames, 0⟩ := by
  have hStart := eq_holding_nil hFrom hMessage
  have hFeed := (ep.frameReader hDone).feed_groups groups []
  obtain ⟨hOuts, hAfter⟩ := outs_messages hDone msgs u
  rw [hFrames, hOuts, hAfter] at hFeed
  have hBytes : (groups.map clientStream).flatten = clientStream groups.flatten :=
    (ep.frameReader hDone).flatten_map_stream groups
  obtain ⟨rs, hRun⟩ := deliverAll_of_feed hDone hFeed ds hGroups (by
    show 0 + 0 + (groups.map clientStream).flatten.length < 2147483648
    rw [hBytes]
    omega)
  rw [hFrames, clientStream_append, List.length_append] at hSize
  obtain ⟨hUsers, hWires, hCallbacks⟩ := dispatched_messages hCb hWd msgs (by omega)
  rw [hStart]
  exact ⟨rs, _, _, hRun, hUsers, hWires, hCallbacks, rfl, rfl⟩

/-- The text message `Hi` in two frames. -/
def hiMessage : Message where
  front := [.short false 1 [72] (by decide)]
  last := .short true 0 [105] (by decide)
  front_fin := by simp [ClientFrame.short]
  last_fin := rfl
  opcodes := .inl ⟨.inl rfl, by simp [ClientFrame.short]⟩

/-- A ping. -/
def pingMessage : Message where
  front := []
  last := .short true 9 [80] (by decide)
  front_fin := by simp
  last_fin := rfl
  opcodes := .inr ⟨rfl, .inr (.inl rfl)⟩

/-- The beginning of a binary message. -/
def unfinishedBinary : UnfinishedMessage where
  frames := [.short false 2 [7] (by decide)]
  fin_zero := by simp [ClientFrame.short]
  opcodes := ⟨.inr rfl, by simp⟩

/-- The fragments arrive in two calls, the second of which brings more. -/
theorem echo_refines_messages_hi :
    let frames := hiMessage.frames ++ (pingMessage.frames ++ unfinishedBinary.frames)
    ∃ rs es ep', WebSocketEndpoint.deliverAll
        { openEndpoint with ntWriteCb := some 1, ntWorkData := some 2 }
        [.zeroed (clientStream (frames.take 1)) (by decide),
          .zeroed (clientStream (frames.drop 1)) (by decide)] = ⟨es, .ok (rs, ep')⟩ ∧
      Event.users es = [(0, [72, 105]), (9, [80])] ∧
      List.Forall₂ (fun m w => decode w = some (m.echo, [])) [hiMessage, pingMessage]
        (Event.wires es) ∧
      Event.callbacks es = Event.wires es ∧
      ep'.fromwireBuf = ByteBuffer.empty ∧ ep'.messageData = ⟨[7], 0⟩ :=
  echo_refines_messages rfl rfl rfl rfl rfl [hiMessage, pingMessage] unfinishedBinary
    [hiMessage.front, hiMessage.last :: (pingMessage.frames ++ unfinishedBinary.frames)]
    rfl rfl (by decide)

/-! ## Frames of a message of any length

A message is not bounded: its frames may come in any number of calls.  The two
results below need what the loop does whatever the length of the data held. -/

/-- Frames without FIN in front of more bytes. -/
theorem fromWireLoop_unfinished (hDone : ep.wsHandshakeCompleted = true) {fs : List ClientFrame}
    (hFin : ∀ f ∈ fs, f.fin = false) (M : Bytes) {t : Bytes} (hTail : t ≠ []) (fuel : Nat)
    (mem : Nat → PassMem) (hSize : (clientStream fs ++ t).length < 2147483648) :
    fromWireLoop (fuel + fs.length) (ep.holding M (clientStream fs ++ t)) mem =
      fromWireLoop fuel (ep.holding (M ++ payloadOf fs) t) fun i => mem (i + fs.length) := by
  induction fs generalizing M mem with
  | nil => simp [clientStream, payloadOf]
  | cons f fs ih =>
      have hHead : f.fin = false := hFin f (by simp)
      have hShape : clientStream (f :: fs) ++ t = f.bytes ++ (clientStream fs ++ t) := by
        simp [clientStream]
      have hMore : clientStream fs ++ t ≠ [] := by simp [hTail]
      rw [hShape] at hSize ⊢
      rw [List.length_append] at hSize
      rw [List.length_cons, ← Nat.add_assoc,
        fromWireLoop_clientFrame hDone M _ f mem (fuel + fs.length)
          (by rw [List.length_append]; exact hSize) (by simp [hHead]),
        if_neg hMore, frameEvents, afterFrame, hHead]
      simp only [Bool.false_eq_true, if_false, Traced.prepend_nil]
      rw [ih (fun g hg => hFin g (by simp [hg])) (M ++ f.payload) _ (by omega)]
      simp only [payloadOf, List.flatMap_cons, List.append_assoc, Nat.add_assoc]

/-- Every frame has a byte, so the fuel of a call covers its frames. -/
theorem fuel_split (fs : List ClientFrame) (t : Bytes) :
    ∃ fuel, (clientStream fs ++ t).length + 2 = fuel + 1 + fs.length := by
  have hLe : fs.length ≤ (clientStream fs).length := by
    induction fs with
    | nil => exact le_refl _
    | cons f fs ih =>
        have hPos := List.length_pos_iff.mpr f.bytes_ne_nil
        have hShape : clientStream (f :: fs) = f.bytes ++ clientStream fs := rfl
        rw [hShape, List.length_append, List.length_cons]
        omega
  refine ⟨(clientStream fs ++ t).length + 1 - fs.length, ?_⟩
  rw [List.length_append]
  omega

/-- One call with frames none of which has FIN. -/
theorem deliver_unfinished (hDone : ep.wsHandshakeCompleted = true) (fs : List ClientFrame)
    (hFin : ∀ f ∈ fs, f.fin = false) (M : Bytes) (d : Delivery)
    (hBytes : d.readbuf = clientStream fs) :
    ∃ n, (ep.holding M []).deliver d = ⟨[], .ok (n, ep.holding (M ++ payloadOf fs) [])⟩ := by
  have hSize := d.sizeLt
  rw [deliver, fromWire_eq, List.nil_append]
  rw [hBytes] at hSize ⊢
  rcases List.eq_nil_or_concat fs with rfl | ⟨fs, f, rfl⟩
  · refine ⟨0, ?_⟩
    rw [payloadOf, List.flatMap_nil, List.append_nil]
    exact fromWireLoop_waits hDone d.mem (lt_trans hSize (by decide)) (Or.inl rfl)
  · have hHead : f.fin = false := hFin f (by simp)
    have hLast : clientStream [f] = f.bytes := by simp [clientStream]
    rw [List.concat_eq_append, clientStream_append, hLast] at hSize ⊢
    obtain ⟨fuel, hFuel⟩ := fuel_split fs f.bytes
    refine ⟨f.bytes.length, ?_⟩
    rw [hFuel, fromWireLoop_unfinished hDone (fun g hg => hFin g (by simp [hg])) M
      f.bytes_ne_nil _ _ hSize]
    have hFrame := fromWireLoop_clientFrame hDone (M ++ payloadOf fs) [] f
      (fun i => d.mem (i + fs.length)) fuel
    rw [List.append_nil] at hFrame
    rw [hFrame (by rw [List.length_append] at hSize; omega) (by simp [hHead]), if_pos rfl,
      frameEvents, afterFrame, hHead, payloadOf_append]
    simp [payloadOf]

/-- The last frame of a message, whatever the length of the message. -/
theorem fromWireLoop_final (hDone : ep.wsHandshakeCompleted = true) {f : ClientFrame}
    (hLast : f.fin = true) (hKnown : f.opcodeByte ∈ knownOpcodes) (M : Bytes) (fuel : Nat)
    (mem : Nat → PassMem) (hSize : f.bytes.length < 2147483648) :
    Event.users (fromWireLoop (fuel + 1) (ep.holding M f.bytes) mem).events =
        [(f.opcodeByte, M ++ f.payload)] ∧
      ∀ n ep', (fromWireLoop (fuel + 1) (ep.holding M f.bytes) mem).value = .ok (n, ep') →
        ∃ M', ep' = ep.holding M' [] := by
  have hReads := readsFrame (mem 0).wspacket.maskingKey f []
  rw [List.append_nil] at hReads
  have hFin := hReads.fin.mpr hLast
  have hOpcode := hReads.opcode
  have hPayload := hReads.payload
  by_cases hOver : Overlong f.opcodeByte (M ++ f.payload)
  · have hPass := wirePass_overlong (M := M) hDone (mem 0) (lt_trans hSize (by decide))
      hReads.scan hReads.not_waits hReads.not_raises hFin (by rwa [hOpcode, hPayload])
    rw [fromWireLoop, hPass, hOpcode, hPayload]
    exact ⟨rfl, fun _ _ hBad => by simp at hBad⟩
  · have hPass := wirePass_consumes (M := M) hDone (mem 0) (lt_trans hSize (by decide))
      hReads.scan hReads.not_waits hReads.not_raises (fun _ => by rwa [hOpcode, hPayload])
    have hRest : remaining f.bytes.length f.bytes = [] := by
      rw [remaining, if_pos hSize, List.drop_length]
    have hUsers : Event.users (ep.dispatched f.opcodeByte (M ++ f.payload)) =
        [(f.opcodeByte, M ++ f.payload)] := by
      unfold dispatched
      rw [if_pos hKnown]
      exact congrArg (_ :: ·) (users_wireEvents ep _ _)
    rw [fromWireLoop, hPass, if_pos hFin, hOpcode, hPayload, hReads.total, hRest, consumedPass,
      if_pos rfl, Traced.mk_ok_bind]
    simp only [Traced.pure_eq, Traced.prepend_mk, List.append_nil, Except.ok.injEq,
      Prod.mk.injEq]
    refine ⟨hUsers, ?_⟩
    rintro n ep' ⟨-, rfl⟩
    exact ⟨_, rfl⟩

/-- One call that ends with the last frame of a message: the message is handed
on with the last frame's opcode, whatever happens afterwards. -/
theorem deliver_final (hDone : ep.wsHandshakeCompleted = true) (fs : List ClientFrame)
    (hFin : ∀ f ∈ fs, f.fin = false) {f : ClientFrame} (hLast : f.fin = true)
    (hKnown : f.opcodeByte ∈ knownOpcodes) (M : Bytes) (d : Delivery)
    (hBytes : d.readbuf = clientStream (fs ++ [f])) :
    Event.users ((ep.holding M []).deliver d).events =
        [(f.opcodeByte, M ++ payloadOf (fs ++ [f]))] ∧
      ∀ n ep', ((ep.holding M []).deliver d).value = .ok (n, ep') →
        ∃ M', ep' = ep.holding M' [] := by
  have hSize := d.sizeLt
  have hOne : clientStream [f] = f.bytes := by simp [clientStream]
  rw [hBytes, clientStream_append, hOne] at hSize
  obtain ⟨fuel, hFuel⟩ := fuel_split fs f.bytes
  rw [deliver, fromWire_eq, List.nil_append, hBytes, clientStream_append, hOne, hFuel,
    fromWireLoop_unfinished hDone hFin M f.bytes_ne_nil _ _ hSize, payloadOf_append,
    ← List.append_assoc]
  have hOnePayload : payloadOf [f] = f.payload := by simp [payloadOf]
  rw [hOnePayload]
  rw [List.length_append] at hSize
  exact fromWireLoop_final hDone hLast hKnown _ fuel _ (by omega)

/-! ## Fragmented messages -/

/-- Calls that bring no bytes do nothing. -/
theorem users_deliverAll_nil (hDone : ep.wsHandshakeCompleted = true) (M : Bytes)
    {ds : List Delivery} (hEmpty : ∀ d ∈ ds, d.readbuf = []) :
    Event.users ((ep.holding M []).deliverAll ds).events = [] := by
  induction ds with
  | nil => rfl
  | cons d ds ih =>
      obtain ⟨n, hCall⟩ := deliver_unfinished hDone [] (by simp) M d
        (hEmpty d (by simp))
      rw [payloadOf, List.flatMap_nil, List.append_nil] at hCall
      have hRest := ih fun e he => hEmpty e (by simp [he])
      rw [deliverAll, Traced.runAll_cons_events ds hCall]
      exact hRest

/-- A message is handed on once, with the opcode of its last frame and all its
payloads, for any length and any grouping of its frames into calls.  By
induction on the calls; the frames still to come are some without FIN and the
last one. -/
theorem users_deliverAll_message (hDone : ep.wsHandshakeCompleted = true) {last : ClientFrame}
    (hLast : last.fin = true) (hKnown : last.opcodeByte ∈ knownOpcodes)
    (groups : List (List ClientFrame)) :
    ∀ (front : List ClientFrame) (M : Bytes) (ds : List Delivery),
      (∀ f ∈ front, f.fin = false) → groups.flatten = front ++ [last] →
      ds.map Delivery.readbuf = groups.map clientStream →
      Event.users ((ep.holding M []).deliverAll ds).events =
        [(last.opcodeByte, M ++ payloadOf (front ++ [last]))] := by
  induction groups with
  | nil =>
      intro front M ds _ hFlat _
      simp at hFlat
  | cons g groups ih =>
      intro front M ds hFin hFlat hPieces
      obtain ⟨d, ds, rfl, hBytes, hTail⟩ := List.map_eq_cons_iff.mp hPieces
      rw [List.flatten_cons] at hFlat
      by_cases hRest : groups.flatten = []
      · -- the last frame is in this call; the calls after it bring nothing
        rw [hRest, List.append_nil] at hFlat
        subst hFlat
        have hEmpty : ∀ e ∈ ds, e.readbuf = [] := by
          intro e he
          have hMem : e.readbuf ∈ groups.map clientStream := hTail ▸ List.mem_map_of_mem he
          obtain ⟨g, hg, hStream⟩ := List.mem_map.mp hMem
          rw [← hStream, List.flatten_eq_nil_iff.mp hRest g hg]
          rfl
        obtain ⟨hUsers, hNext⟩ := deliver_final hDone front hFin hLast hKnown M d hBytes
        cases hCall : (ep.holding M []).deliver d with
        | mk es v =>
            rw [hCall] at hUsers hNext
            cases v with
            | error e =>
                rw [deliverAll, Traced.runAll_cons_error ds hCall]
                exact hUsers
            | ok r =>
                obtain ⟨n, ep'⟩ := r
                obtain ⟨M', rfl⟩ := hNext n ep' rfl
                have hQuiet := users_deliverAll_nil hDone M' hEmpty
                rw [deliverAll, Traced.runAll_cons_events ds hCall, Event.users_append, hUsers]
                rw [deliverAll] at hQuiet
                rw [hQuiet]
                rfl
      · -- this call brings some of the frames without FIN
        obtain ⟨mid, hMid⟩ : ∃ mid, front = g ++ mid ∧ groups.flatten = mid ++ [last] := by
          rcases List.append_eq_append_iff.mp hFlat with ⟨mid, hFront, hGroups⟩ | ⟨c, hg, hc⟩
          · exact ⟨mid, hFront, hGroups⟩
          · have hNil : c = [] := by
              cases c with
              | nil => rfl
              | cons x xs =>
                  simp only [List.cons_append, List.cons.injEq] at hc
                  exact absurd (List.append_eq_nil_iff.mp hc.2.symm).2 hRest
            subst hNil
            exact ⟨[], by simpa using hg.symm, by simpa using hc.symm⟩
        obtain ⟨rfl, hGroups⟩ := hMid
        obtain ⟨n, hCall⟩ := deliver_unfinished hDone g
          (fun f hf => hFin f (List.mem_append_left mid hf)) M d hBytes
        have hUsers := ih mid (M ++ payloadOf g) ds
          (fun f hf => hFin f (List.mem_append_right g hf)) hGroups hTail
        rw [deliverAll, Traced.runAll_cons_events ds hCall, List.nil_append]
        rw [deliverAll] at hUsers
        rw [hUsers, List.append_assoc g, payloadOf_append g, List.append_assoc]

/-- A run keeps the type of a message: it is handed on under the given opcode,
and the frame sent back has FIN and this opcode. -/
def KeepsType (opcode : Fin 16) (message : Bytes) (run : Call (List Int × WebSocketEndpoint)) :
    Prop :=
  Event.users run.events = [(UInt8.ofNat opcode.val, message)] ∧
    ∃ w f, Event.wires run.events = [w] ∧ decode w = some (f, []) ∧ f.fin = true ∧
      f.opcode = opcode

/-- No fragmented message keeps its type: it is handed on as a continuation. -/
theorem fragmented_message_loses_type (hDone : ep.wsHandshakeCompleted = true)
    (hFrom : ep.fromwireBuf = ByteBuffer.empty) (hMessage : ep.messageData = ByteBuffer.empty)
    (m : Message) {first : ClientFrame} {middle : List ClientFrame}
    (hFragmented : m.front = first :: middle) (groups : List (List ClientFrame))
    {ds : List Delivery} (hFrames : groups.flatten = m.frames)
    (hGroups : ds.map Delivery.readbuf = groups.map clientStream) :
    ¬ KeepsType first.opcode m.payload (ep.deliverAll ds) := by
  have hOpcodes : (first.opcode = 1 ∨ first.opcode = 2) ∧ m.last.opcode = 0 := by
    rcases m.opcodes with hData | ⟨hNil, -⟩
    · rw [hFragmented] at hData
      exact ⟨hData.1, hData.2 m.last (by simp)⟩
    · rw [hFragmented] at hNil
      exact absurd hNil (by simp)
  have hStart := eq_holding_nil hFrom hMessage
  have hUsers := users_deliverAll_message hDone m.last_fin m.last_known groups m.front [] ds
    m.front_fin hFrames hGroups
  rintro ⟨hKept, -⟩
  rw [hStart, hUsers] at hKept
  simp only [List.cons.injEq, Prod.mk.injEq, and_true] at hKept
  have hZero := hKept.1
  rw [ClientFrame.opcodeByte, hOpcodes.2] at hZero
  rcases hOpcodes.1 with h | h <;> rw [h] at hZero <;> exact absurd hZero (by decide)

theorem hiMessage_loses_type_grouped :
    ¬ KeepsType 1 [72, 105] (openEndpoint.deliverAll
      [.zeroed (clientStream hiMessage.front) (by decide),
        .zeroed (clientStream [hiMessage.last]) (by decide)]) :=
  fragmented_message_loses_type rfl rfl rfl hiMessage rfl [hiMessage.front, [hiMessage.last]]
    rfl rfl

/-- The text message `Hi`, sent in two frames that arrive together. -/
theorem hiMessage_loses_type :
    ¬ KeepsType 1 hiMessage.payload
      (openEndpoint.deliverAll [.zeroed (clientStream hiMessage.frames) (by decide)]) := by
  rintro ⟨hUsers, -⟩
  exact absurd hUsers (by decide +kernel)

/-! ## Control frames between fragments -/

/-- A complete control frame as a client sends it. -/
structure ControlFrame extends ClientFrame where
  fin_one : fin = true
  control : ControlOpcode toClientFrame
  short : payload.length ≤ 125

/-- Receiving the control frame hands on its payload alone, keeps the message
data, and changes nothing for whatever comes later. -/
def Undisturbed (ep : WebSocketEndpoint) (f : ControlFrame) : Prop :=
  ∀ d : Delivery, d.readbuf = f.bytes →
    Event.users (ep.deliver d).events = [(f.opcodeByte, f.payload)] ∧
      ∃ n ep', (ep.deliver d).value = .ok (n, ep') ∧ ep'.messageData = ep.messageData ∧
        ∀ later, ep'.deliverAll later = ep.deliverAll later

theorem ControlFrame.known (f : ControlFrame) : f.opcodeByte ∈ knownOpcodes := by
  unfold ClientFrame.opcodeByte
  rcases f.control with h | h | h <;> rw [h] <;> decide

/-- A control frame leaves a fragmented message undisturbed exactly when no byte of the
message is in `message_data_`. -/
theorem control_frame_undisturbed_iff (hDone : ep.wsHandshakeCompleted = true)
    (hFrom : ep.fromwireBuf = ByteBuffer.empty) (hCursor : ep.messageData.oft = 0)
    (f : ControlFrame) : Undisturbed ep f ↔ ep.messageData.data = [] := by
  have hLen := f.bytes_length
  have hExtra : f.form.extra ≤ 8 := by
    cases f.form <;> decide
  have hShort := f.short
  have hStart : ep = ep.holding ep.messageData.data [] := by
    have hHold := eq_holding (by rw [hFrom]; rfl : ep.fromwireBuf.oft = 0) hCursor
    rwa [hFrom] at hHold
  have hOne : clientStream [f.toClientFrame] = f.bytes := by simp [clientStream]
  constructor
  · intro hUndisturbed
    obtain ⟨hUsers, -⟩ := hUndisturbed (.zeroed f.bytes (by omega)) rfl
    have hFinal := (deliver_final hDone [] (by simp) f.fin_one f.known
      ep.messageData.data (.zeroed f.bytes (by omega)) hOne.symm).1
    rw [← hStart, hUsers] at hFinal
    simpa [payloadOf] using hFinal
  · intro hNil d hBytes
    rw [hNil] at hStart
    have hCall : ep.deliver d =
        ⟨ep.frameEvents [] f.toClientFrame, .ok ((f.bytes.length : Int), ep)⟩ := by
      have hFrame := fromWireLoop_clientFrame hDone [] [] f.toClientFrame d.mem
        (f.bytes.length + 1) (by rw [List.append_nil]; omega)
        (fun _ => by rw [List.append_nil, List.length_nil]; omega)
      have hAfter : afterFrame [] f.toClientFrame = [] := by
        rw [afterFrame, f.fin_one]
        rfl
      rw [List.append_nil, if_pos rfl, hAfter, ← hStart, Traced.prepend_mk,
        List.append_nil] at hFrame
      rw [deliver]
      conv_lhs => rw [hStart]
      rw [fromWire_eq, List.nil_append, hBytes]
      exact hFrame
    refine ⟨?_, f.bytes.length, ep, by rw [hCall], rfl, fun _ => rfl⟩
    rw [hCall, frameEvents, f.fin_one, dispatched, if_pos rfl, if_pos f.known]
    simpa [Event.users] using users_wireEvents ep _ _

/-- A ping with one byte of payload. -/
def pingFrame : ControlFrame where
  toClientFrame := .short true 9 [80] (by decide)
  fin_one := rfl
  control := .inr (.inl rfl)
  short := by decide

theorem control_frame_undisturbed_iff_ping :
    Undisturbed openEndpoint pingFrame ↔ openEndpoint.messageData.data = [] :=
  control_frame_undisturbed_iff rfl rfl rfl pingFrame

/-- A ping after the first frame of `Hi` is handed on with the `H`. -/
theorem pingFrame_disturbs :
    ¬ Undisturbed (openEndpoint.holding [72] []) pingFrame := by
  intro hUndisturbed
  obtain ⟨hUsers, -⟩ := hUndisturbed (.zeroed pingFrame.bytes (by decide)) rfl
  exact absurd hUsers (by decide +kernel)

end WebSocketEndpoint

end WebSocketFiles
