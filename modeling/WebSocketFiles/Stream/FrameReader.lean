import WebSocketFiles.Stream.ClientFrames

/-!
# The receive loop reads client frames

The loop of `from_wire`, from the handshake on, is an instance of
`Segmentation.Reader`: its state is the part of a message received so far, its
packets are client frames, and its cut-off beginnings wait at the positions of
`ClientFrame.SafeCut`.  The library's run lemma then says what any sequence of
`from_wire` calls does whose pieces end at safe positions.
-/

namespace WebSocketFiles

open FrameFormat Segmentation

namespace WebSocketEndpoint

/-- The message received so far, after one more frame. -/
def afterFrame (M : Bytes) (f : ClientFrame) : Bytes :=
  if f.fin then [] else M ++ f.payload

/-- What the endpoint emits when a frame is consumed. -/
def frameEvents (ep : WebSocketEndpoint) (M : Bytes) (f : ClientFrame) : List Event :=
  if f.fin then ep.dispatched f.opcodeByte (M ++ f.payload) else []

/-- From message data `M` and buffer `buf`, the loop of `from_wire` emits `es`
and returns with message data `M'` and buffer `rest`.  Nothing grows, and the
loop needs no more passes than there are bytes. -/
def Drains (ep : WebSocketEndpoint) (M buf : Bytes) (es : List Event) (M' rest : Bytes) : Prop :=
  M'.length + rest.length ≤ M.length + buf.length ∧
    (M.length + buf.length < 2147483648 → ∀ (fuel : Nat) (mem : Nat → PassMem),
      buf.length < fuel → ∃ n, fromWireLoop fuel (ep.holding M buf) mem =
        ⟨es, .ok (n, ep.holding M' rest)⟩)

variable {ep : WebSocketEndpoint}

theorem drains_waiting (hDone : ep.wsHandshakeCompleted = true) (M buf : Bytes)
    (hWaits : ∀ key, Waits key buf) : ep.Drains M buf [] M buf := by
  refine ⟨le_refl _, fun hSize fuel mem hFuel => ?_⟩
  obtain ⟨n, rfl⟩ : ∃ n, fuel = n + 1 := ⟨fuel - 1, by omega⟩
  exact ⟨0, fromWireLoop_waits hDone mem (by omega) (hWaits _)⟩

/-- What the header reader and the payload reader make of a client frame in
front of other bytes. -/
structure ReadsFrame (key : MaskingKey) (f : ClientFrame) (d : Bytes) (h : Header) : Prop where
  scan : scanHeader key d = h
  total : h.total = f.bytes.length
  payload : h.payload d = f.payload
  opcode : h.opcode = f.opcodeByte
  fin : h.fin = 1 ↔ f.fin = true
  not_waits : ¬ Waits key d
  not_raises : ¬ Raises key d

theorem readsFrame (key : MaskingKey) (f : ClientFrame) (t : Bytes) :
    ReadsFrame key f (f.bytes ++ t) (readHeader key f.form f.frame) := by
  have hScan := f.scanHeader_bytes key t
  have hTotal : (readHeader key f.form f.frame).total = f.bytes.length :=
    readHeader_total f.form_ne _ f.frame
  refine ⟨hScan, hTotal, readHeader_payload f.form_ne _ f.frame t, ?_, ?_, ?_, ?_⟩
  · show UInt8.ofNat (lowFirst f.frame) = f.opcodeByte
    rw [f.lowFirst_frame]
    rfl
  · show UInt8.ofNat f.fin.toNat = 1 ↔ f.fin = true
    cases f.fin <;> decide
  · rintro (hNil | hShort)
    · exact f.bytes_ne_nil (List.append_eq_nil_iff.mp hNil).1
    · rw [hScan, hTotal, List.length_append] at hShort
      omega
  · rintro ⟨hMask, -⟩
    rw [hScan] at hMask
    exact hMask rfl

/-- A client frame in front of the buffer is consumed. -/
theorem fromWireLoop_clientFrame (hDone : ep.wsHandshakeCompleted = true) (M t : Bytes)
    (f : ClientFrame) (mem : Nat → PassMem) (fuel : Nat)
    (hSize : (f.bytes ++ t).length < 2147483648)
    (hHeld : f.fin = true → M.length + (f.bytes ++ t).length < 2147483648) :
    fromWireLoop (fuel + 1) (ep.holding M (f.bytes ++ t)) mem =
      Traced.prepend (ep.frameEvents M f)
        (if t = [] then ⟨[], .ok ((f.bytes.length : Int), ep.holding (afterFrame M f) [])⟩
        else fromWireLoop fuel (ep.holding (afterFrame M f) t) fun i => mem (i + 1)) := by
  have hReads := readsFrame (mem 0).wspacket.maskingKey f t
  rw [fromWireLoop_frame hDone mem hReads.scan hReads.not_waits hReads.not_raises hSize
    (fun hFin => hHeld (hReads.fin.mp hFin)), hReads.total, hReads.payload, hReads.opcode,
    List.drop_left]
  simp only [hReads.fin]
  rfl

theorem drains_frame (hDone : ep.wsHandshakeCompleted = true) (M : Bytes) (f : ClientFrame)
    (t : Bytes) (es : List Event) (M' rest : Bytes)
    (hRest : ep.Drains (afterFrame M f) t es M' rest) :
    ep.Drains M (f.bytes ++ t) (ep.frameEvents M f ++ es) M' rest := by
  have hShrink : (afterFrame M f).length + t.length ≤ M.length + (f.bytes ++ t).length := by
    have hLen := f.bytes_length
    unfold afterFrame
    rw [List.length_append]
    split
    · simp only [List.length_nil]
      omega
    · rw [List.length_append]
      omega
  refine ⟨hRest.1.trans hShrink, fun hSize fuel mem hFuel => ?_⟩
  obtain ⟨n, rfl⟩ : ∃ n, fuel = n + 1 := ⟨fuel - 1, by omega⟩
  rw [fromWireLoop_clientFrame hDone M t f mem n (by omega) fun _ => hSize]
  have hPos := List.length_pos_iff.mpr f.bytes_ne_nil
  rw [List.length_append] at hFuel
  by_cases hNil : t = []
  · -- the buffer is used up: the loop returns here, and one more pass would do nothing
    subst hNil
    obtain ⟨r, hLoop⟩ := hRest.2 (by omega) 1 mem Nat.one_pos
    rw [fromWireLoop_waits hDone mem (by decide) (Or.inl rfl)] at hLoop
    simp only [Traced.mk.injEq, Except.ok.injEq, Prod.mk.injEq] at hLoop
    obtain ⟨rfl, -, hSame⟩ := hLoop
    refine ⟨f.bytes.length, ?_⟩
    rw [if_pos rfl, Traced.prepend_mk, hSame]
  · obtain ⟨r, hLoop⟩ := hRest.2 (by omega) n (fun i => mem (i + 1)) (by omega)
    refine ⟨r, ?_⟩
    rw [if_neg hNil, hLoop, Traced.prepend_mk]

/-- The receive loop of an endpoint whose handshake is completed. -/
def frameReader (ep : WebSocketEndpoint) (hDone : ep.wsHandshakeCompleted = true) :
    Reader UInt8 ClientFrame Bytes Event where
  bytes := ClientFrame.bytes
  out := ep.frameEvents
  next := afterFrame
  Drain := ep.Drains
  SafeCut := ClientFrame.SafeCut
  bytes_ne_nil := ClientFrame.bytes_ne_nil
  drain_nil := fun M => drains_waiting hDone M [] fun _ => Or.inl rfl
  drain_packet := fun M f t es M' rest hRest => drains_frame hDone M f t es M' rest hRest
  drain_cut := fun M f _ hPos hLt hSafe =>
    drains_waiting hDone M _ fun key => (f.waits_cut_iff key hPos hLt).mpr hSafe

/-- Calls of `from_wire` do what feeding their pieces to the reader does.  By
induction on the calls; that message data and buffer never grow beyond the
bytes received keeps every pass in range. -/
theorem deliverAll_of_feed (hDone : ep.wsHandshakeCompleted = true) {M p M' p' : Bytes}
    {cs : List Bytes} {es : List Event} (hFeed : (ep.frameReader hDone).Feed M p cs es M' p') :
    ∀ ds : List Delivery, ds.map Delivery.readbuf = cs →
      M.length + p.length + cs.flatten.length < 2147483648 →
      ∃ rs, (ep.holding M p).deliverAll ds = ⟨es, .ok (rs, ep.holding M' p')⟩ := by
  induction hFeed with
  | nil M p =>
      intro ds hPieces _
      obtain rfl : ds = [] := List.map_eq_nil_iff.mp hPieces
      exact ⟨[], rfl⟩
  | @cons M M' M'' p p' p'' c cs es es' hDrain _ ih =>
      intro ds hPieces hSize
      obtain ⟨d, ds, rfl, rfl, hTail⟩ := List.map_eq_cons_iff.mp hPieces
      obtain ⟨hShrink, hLoop⟩ := hDrain
      rw [List.flatten_cons, List.length_append] at hSize
      rw [List.length_append] at hShrink hLoop
      obtain ⟨r, hCall⟩ := hLoop (by omega) ((p ++ d.readbuf).length + 2) d.mem
        (by rw [List.length_append]; omega)
      obtain ⟨rs, hRest⟩ := ih ds hTail (by omega)
      have hDeliver : (ep.holding M p).deliver d = ⟨es, .ok (r, ep.holding M' p')⟩ := by
        rw [deliver, fromWire_eq]
        exact hCall
      exact ⟨r :: rs, Traced.runAll_cons_eq hDeliver hRest⟩

/-! ## Cutting the stream -/

/-- Position `n` of the stream is a frame boundary or a safe cut of the frame
it falls into. -/
def SafePosition : List ClientFrame → Nat → Prop
  | [], _ => True
  | f :: fs, n =>
      if n < f.bytes.length then n = 0 ∨ f.SafeCut n else SafePosition fs (n - f.bytes.length)

theorem safeAt_iff (hDone : ep.wsHandshakeCompleted = true) (fs : List ClientFrame) (n : Nat) :
    (ep.frameReader hDone).SafeAt fs n ↔ SafePosition fs n := by
  induction fs generalizing n with
  | nil => exact Iff.rfl
  | cons f fs ih =>
      unfold Reader.SafeAt SafePosition
      by_cases hInside : n < f.bytes.length
      · have hInside' : n < ((ep.frameReader hDone).bytes f).length := hInside
        rw [if_pos hInside, if_pos hInside']
        exact Iff.rfl
      · have hInside' : ¬ n < ((ep.frameReader hDone).bytes f).length := hInside
        rw [if_neg hInside, if_neg hInside']
        exact ih _

/-- Calls whose pieces end at safe positions read the stream frame by frame and
leave nothing in the buffer. -/
theorem deliverAll_stream (hDone : ep.wsHandshakeCompleted = true) (M : Bytes)
    (fs : List ClientFrame) (ds : List Delivery)
    (hCut : (ds.map Delivery.readbuf).flatten = clientStream fs)
    (hSafe : ∀ i, SafePosition fs ((ds.take i).map Delivery.readbuf).flatten.length)
    (hSize : M.length + (clientStream fs).length < 2147483648) :
    ∃ rs, (ep.holding M []).deliverAll ds =
      ⟨(ep.frameReader hDone).outs M fs,
        .ok (rs, ep.holding ((ep.frameReader hDone).after M fs) [])⟩ := by
  have hWait : (ep.frameReader hDone).Waiting [] fs := by
    cases fs with
    | nil => rfl
    | cons f fs => exact List.length_pos_iff.mpr f.bytes_ne_nil
  have hFeed := (ep.frameReader hDone).feed_safe (ds.map Delivery.readbuf) M [] fs hCut hWait
    (fun i => by
      rw [safeAt_iff, ← List.map_take, List.length_nil, Nat.zero_add]
      exact hSafe i)
  refine deliverAll_of_feed hDone hFeed ds rfl ?_
  rw [hCut, List.length_nil]
  omega

/-- What is left in the two buffers when a run returns. -/
def finalBuffers (run : Call (List Int × WebSocketEndpoint)) : Except Abort (Bytes × Bytes) :=
  run.value.map fun r => (r.2.fromwireBuf.data, r.2.messageData.data)

/-- Two runs hand on the same messages, write the same buffers and end with the
same bytes in `fromwire_buf_` and `message_data_`. -/
structure SameOutcome (run run' : Call (List Int × WebSocketEndpoint)) : Prop where
  users : Event.users run.events = Event.users run'.events
  wires : Event.wires run.events = Event.wires run'.events
  buffers : finalBuffers run = finalBuffers run'

/-- A stream of client frames cut into pieces at safe positions is read as if
it had come in a single call. -/
theorem segmentation_independent (hDone : ep.wsHandshakeCompleted = true)
    (hFrom : ep.fromwireBuf = ByteBuffer.empty) (hMessage : ep.messageData = ByteBuffer.empty)
    (fs : List ClientFrame) {ds : List Delivery} {one : Delivery}
    (hCut : (ds.map Delivery.readbuf).flatten = clientStream fs)
    (hOne : one.readbuf = clientStream fs)
    (hSafe : ∀ i, SafePosition fs ((ds.take i).map Delivery.readbuf).flatten.length) :
    SameOutcome (ep.deliverAll ds) (ep.deliverAll [one]) := by
  have hSize : ([] : Bytes).length + (clientStream fs).length < 2147483648 := by
    rw [← hOne, List.length_nil, Nat.zero_add]
    exact one.sizeLt
  have hStart := eq_holding_nil hFrom hMessage
  have hWhole : ∀ i, SafePosition fs (([one].take i).map Delivery.readbuf).flatten.length := by
    intro i
    have hSafeAt := fun n => (safeAt_iff hDone fs n).mp
    cases i with
    | zero =>
        have hBoundary := (ep.frameReader hDone).safeAt_boundary [] fs
        exact hSafeAt 0 hBoundary
    | succ i =>
        have hBoundary := (ep.frameReader hDone).safeAt_boundary fs []
        rw [List.append_nil] at hBoundary
        have hAll : (([one].take (i + 1)).map Delivery.readbuf).flatten = clientStream fs := by
          simp [hOne]
        rw [hAll]
        exact hSafeAt _ hBoundary
  obtain ⟨rs, hRun⟩ := deliverAll_stream hDone [] fs ds hCut hSafe hSize
  obtain ⟨rs', hRun'⟩ := deliverAll_stream hDone [] fs [one] (by simp [hOne]) hWhole hSize
  rw [hStart, hRun, hRun']
  exact ⟨rfl, rfl, rfl⟩

/-- A fresh endpoint whose handshake is done; it has no write callback. -/
def openEndpoint : WebSocketEndpoint :=
  { WebSocketEndpoint.new none with wsHandshakeCompleted := true }

/-- The text message `A`, masked. -/
def letterFrame : ClientFrame :=
  .short true 1 [65] (by decide)

/-- A stream cut inside its last frame, behind the masking key. -/
theorem segmentation_independent_letter :
    SafePosition [letterFrame] 6 ∧
      SameOutcome
        (openEndpoint.deliverAll [.zeroed (letterFrame.bytes.take 6) (by decide),
          .zeroed (letterFrame.bytes.drop 6) (by decide)])
        (openEndpoint.deliverAll [.zeroed letterFrame.bytes (by decide)]) := by
  have hSafe : SafePosition [letterFrame] 6 := Or.inr (by decide)
  have hEnd : SafePosition [letterFrame] 7 := trivial
  refine ⟨hSafe, segmentation_independent rfl rfl rfl [letterFrame] rfl rfl fun i => ?_⟩
  match i with
  | 0 => exact Or.inl rfl
  | 1 => exact hSafe
  | n + 2 =>
      rw [List.take_of_length_le (by simp)]
      exact hEnd

/-- Cut inside the masking key, the message is handed on with the third byte of
the frame for a payload, and the rest stays in the buffer as the beginning of another
frame. -/
theorem letterFrame_cut_in_key :
    let pieces := [Delivery.zeroed (letterFrame.bytes.take 3) (by decide),
      Delivery.zeroed (letterFrame.bytes.drop 3) (by decide)]
    (∀ d ∈ pieces, d.readbuf ≠ []) ∧
      (pieces.map Delivery.readbuf).flatten = clientStream [letterFrame] ∧
      ¬ SameOutcome (openEndpoint.deliverAll pieces)
        (openEndpoint.deliverAll [.zeroed (clientStream [letterFrame]) (by decide)]) := by
  refine ⟨by decide, by decide, fun hSame => ?_⟩
  exact absurd hSame.users (by decide +kernel)

/-- The final frame of a fragmented message, with a 16-bit length. -/
def craftedFrame : ClientFrame where
  fin := true
  opcode := 0
  key := ![1, 0, 131, 128]
  form := .sixteen
  payload := []
  form_ne := by decide
  fits := by decide

/-- An unsafe cut can go unnoticed: the bytes of this frame are such that what
the loop makes of the two pieces is what it makes of the whole. -/
example :
    ¬ craftedFrame.SafeCut 1 ∧
      SameOutcome
        (openEndpoint.deliverAll [.zeroed (craftedFrame.bytes.take 1) (by decide),
          .zeroed (craftedFrame.bytes.drop 1) (by decide)])
        (openEndpoint.deliverAll [.zeroed craftedFrame.bytes (by decide)]) :=
  ⟨by decide, by decide +kernel, by decide +kernel, by decide +kernel⟩

end WebSocketEndpoint

end WebSocketFiles
