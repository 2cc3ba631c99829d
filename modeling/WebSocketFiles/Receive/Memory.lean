import WebSocketFiles.Receive.Passes

/-!
# Uninitialised key bytes

A packet is constructed with whatever its `masking_key_` happens to hold, and
`fetch_frame_info` overwrites the four bytes only when the buffer reaches to the
end of the key.  The length check that follows does not see a missing key, so a
cut-off frame with a payload of up to three bytes is unmasked with the memory's
bytes and sent back.

A run in which this does not happen is the same in every memory
(`wires_any_memory`).
-/

namespace WebSocketFiles

open MachineInt FrameFormat Fallible

/-- Where the masking key of the frame at the front of `d` begins. -/
def keyOffset (d : Bytes) : Nat :=
  (lengthField (d.getD 1 (d.headD 0) &&& 0x7F) d (min 2 d.length)).2

/-- The header at the front of `d` has a masking key if its payload is masked and
not empty. -/
def KeyRead (d : Bytes) : Prop :=
  (scanHeader Uninit.zeroed.maskingKey d).mask = 1 →
    (scanHeader Uninit.zeroed.maskingKey d).length ≠ 0 → keyOffset d + 4 ≤ d.length

instance (d : Bytes) : Decidable (KeyRead d) :=
  inferInstanceAs (Decidable (_ → _ → _))

/-- The bytes wait, or no key that is not read is used on them. -/
def KeyCertain (d : Bytes) : Prop :=
  WebSocketEndpoint.Waits Uninit.zeroed.maskingKey d ∨ KeyRead d

instance (d : Bytes) : Decidable (KeyCertain d) :=
  inferInstanceAs (Decidable (_ ∨ _))

section Key

variable (key key' : MaskingKey) {d : Bytes}

/-- A key that is there replaces what the memory holds. -/
theorem scanHeader_key_read (hMask : (scanHeader key d).mask = 1)
    (hThere : keyOffset d + 4 ≤ d.length) :
    (scanHeader key d).key = keyOfBytes ((d.drop (keyOffset d)).take 4) := by
  have hBoth : (scanHeader key d).mask = 1 ∧ keyOffset d + 4 ≤ d.length := ⟨hMask, hThere⟩
  show (keyFieldAt key (scanHeader key d).mask d (keyOffset d)).1 = _
  rw [keyFieldAt, if_pos hBoth]

/-- A key that is not there leaves the memory's bytes in place. -/
theorem scanHeader_key_unread (hShort : ¬ keyOffset d + 4 ≤ d.length) :
    (scanHeader key d).key = key := by
  show (keyFieldAt key (scanHeader key d).mask d (keyOffset d)).1 = _
  rw [keyFieldAt, if_neg fun hBoth => hShort hBoth.2]

/-- The payload does not depend on the memory when the key is read or not
needed. -/
theorem payload_any_key (hRead : KeyRead d) :
    (scanHeader key d).payload d = (scanHeader key' d).payload d := by
  obtain ⟨-, -, hMask, hLength, hSize⟩ := scanHeader_any_key key d key'
  obtain ⟨-, -, hMask₀, hLength₀, -⟩ := scanHeader_any_key Uninit.zeroed.maskingKey d key'
  rw [KeyRead, hMask₀, hLength₀] at hRead
  unfold Header.payload
  rw [hMask, hSize, hLength]
  by_cases hMasked : (scanHeader key' d).mask = 1
  · rw [if_pos hMasked, if_pos hMasked]
    by_cases hNone : (scanHeader key' d).length = 0
    · rw [hNone, List.take_zero]
      rfl
    · have hThere := hRead hMasked hNone
      rw [scanHeader_key_read key (hMask.trans hMasked) hThere,
        scanHeader_key_read key' hMasked hThere]
  · rw [if_neg hMasked, if_neg hMasked]

/-- An unread key shows in the first byte of the payload. -/
theorem payload_unread_key (hRead : ¬ KeyRead d) (hWaits : ¬ WebSocketEndpoint.Waits key d)
    (hKeys : key 0 ≠ key' 0) : (scanHeader key d).payload d ≠ (scanHeader key' d).payload d := by
  obtain ⟨-, -, hMask, hLength, hSize⟩ := scanHeader_any_key key d key'
  obtain ⟨-, -, hMask₀, hLength₀, -⟩ := scanHeader_any_key Uninit.zeroed.maskingKey d key'
  rw [KeyRead, hMask₀, hLength₀] at hRead
  obtain ⟨hMasked, hRest⟩ := Classical.not_imp.mp hRead
  obtain ⟨hSome, hShort⟩ := Classical.not_imp.mp hRest
  have hEnough := Nat.le_of_not_lt (not_or.mp hWaits).2
  unfold Header.total at hEnough
  rw [hSize, hLength] at hEnough
  unfold Header.payload
  rw [hMask, hSize, hLength, if_pos hMasked, if_pos hMasked, scanHeader_key_unread key hShort,
    scanHeader_key_unread key' hShort]
  cases hBytes : (d.drop (scanHeader key' d).size).take (scanHeader key' d).length with
  | nil =>
      have hLen := congrArg List.length hBytes
      rw [List.length_take, List.length_drop, List.length_nil] at hLen
      omega
  | cons x xs =>
      -- the first byte of the payload is unmasked with the first byte of the key
      intro hSame
      rw [maskFrom, maskFrom, List.cons.injEq] at hSame
      exact hKeys ((UInt8.xor_right_inj x).mp hSame.1)

end Key

/-- A payload is the same in every memory exactly when no unread key is used. -/
theorem keyCertain_iff {d : Bytes} :
    KeyCertain d ↔ ∀ key key', ¬ WebSocketEndpoint.Waits key d →
      (scanHeader key d).payload d = (scanHeader key' d).payload d := by
  constructor
  · rintro (hWaits | hRead) key key' hWhole
    · exact absurd ((WebSocketEndpoint.waits_any_key _ _ d).mp hWaits) hWhole
    · exact payload_any_key key key' hRead
  · intro hSame
    by_contra hNot
    obtain ⟨hWhole, hRead⟩ := not_or.mp hNot
    refine payload_unread_key Uninit.zeroed.maskingKey (fun _ => 1) hRead hWhole (by decide) ?_
    exact hSame _ _ hWhole

namespace WebSocketEndpoint

variable {ep : WebSocketEndpoint}

/-- A pass over a frame whose key is read is the same in every memory. -/
theorem wirePass_any_memory (hDone : ep.wsHandshakeCompleted = true) (hSettled : Settled ep)
    (hSize : ep.fromwireBuf.data.length < 4294967296) {mem mem' : PassMem}
    (hRead : KeyCertain ep.fromwireBuf.data) : ep.wirePass mem = ep.wirePass mem' := by
  have hHold := hSettled.eq_holding
  generalize ep.messageData.data = M at hHold
  generalize ep.fromwireBuf.data = d at hHold hSize hRead
  generalize hKey : mem.wspacket.maskingKey = key
  generalize hKey' : mem'.wspacket.maskingKey = key'
  -- of the header only the key depends on the memory
  obtain ⟨hFin, hOpcode, -, -, -⟩ := scanHeader_any_key key d key'
  have hTotal := scanHeader_total_eq key d key'
  subst hKey hKey'
  rw [hHold]
  by_cases hWaits : Waits mem.wspacket.maskingKey d
  · rw [wirePass_waits hDone mem hSize M hWaits,
      wirePass_waits hDone mem' hSize M ((waits_any_key _ _ d).mp hWaits)]
  · have hWaits' := mt (waits_any_key mem'.wspacket.maskingKey _ d).mp hWaits
    by_cases hRaises : Raises mem.wspacket.maskingKey d
    · rw [wirePass_raises hDone mem hSize M hWaits hRaises,
        wirePass_raises hDone mem' hSize M hWaits' ((raises_any_key _ _ d).mp hRaises)]
    · have hRaises' := mt (raises_any_key mem'.wspacket.maskingKey _ d).mp hRaises
      have hPayload := keyCertain_iff.mp hRead mem.wspacket.maskingKey mem'.wspacket.maskingKey
        hWaits
      by_cases hOver : (scanHeader mem.wspacket.maskingKey d).fin = 1 ∧
          Overlong (scanHeader mem.wspacket.maskingKey d).opcode
            (M ++ (scanHeader mem.wspacket.maskingKey d).payload d)
      · rw [wirePass_overlong hDone mem hSize rfl hWaits hRaises hOver.1 hOver.2]
        rw [hFin, hOpcode, hPayload] at hOver
        rw [wirePass_overlong hDone mem' hSize rfl hWaits' hRaises' hOver.1 hOver.2,
          hOpcode, hPayload]
      · rw [wirePass_consumes hDone mem hSize rfl hWaits hRaises (not_and.mp hOver)]
        rw [hFin, hOpcode, hPayload] at hOver
        rw [wirePass_consumes hDone mem' hSize rfl hWaits' hRaises' (not_and.mp hOver),
          kept, kept, hFin, hOpcode, hPayload, hTotal]

/-- A loop whose passes all read their keys is the same in every memory. -/
theorem fromWireLoop_any_memory (fuel : Nat) :
    ∀ (ep : WebSocketEndpoint) (mem mem' : Nat → PassMem), ep.wsHandshakeCompleted = true →
      Settled ep → ep.fromwireBuf.data.length < 4294967296 →
      (∀ q ∈ loopPasses fuel ep mem, KeyCertain q.buffer) →
      fromWireLoop fuel ep mem = fromWireLoop fuel ep mem' := by
  induction fuel with
  | zero =>
      intro ep mem mem' _ _ _ _
      rfl
  | succ fuel ih =>
      intro ep mem mem' hDone hSettled hSize hCertain
      have hHere := hCertain ⟨ep, mem 0⟩ (by rw [loopPasses]; exact List.mem_cons_self)
      have hSame : ep.wirePass (mem 0) = ep.wirePass (mem' 0) :=
        wirePass_any_memory hDone hSettled hSize hHere
      have hLater : ∀ ep', (ep.wirePass (mem 0)).value = .ok (.again ep') →
          ∀ q ∈ loopPasses fuel ep' fun i => mem (i + 1), KeyCertain q.buffer := by
        intro ep' hAgain q hq
        refine hCertain q ?_
        rw [loopPasses, hAgain]
        exact List.mem_cons_of_mem _ hq
      have hKeeps : ∀ pass, (ep.wirePass (mem 0)).value = .ok pass → PassKeeps ep pass :=
        fun pass => wirePass_keeps hSettled (mem 0) hSize
      rw [fromWireLoop_succ, fromWireLoop_succ, ← hSame]
      cases hPass : ep.wirePass (mem 0) with
      | mk es v =>
          rw [hPass] at hLater hKeeps
          cases v with
          | error e => rw [Traced.mk_error_bind, Traced.mk_error_bind]
          | ok pass =>
              rw [Traced.mk_ok_bind, Traced.mk_ok_bind]
              cases pass with
              | done result ep' => rfl
              | again ep' =>
                  -- both loops go on with the same endpoint
                  obtain ⟨hOpen, -⟩ := (hKeeps _ rfl).progress ep' rfl
                  simp only
                  rw [ih ep' _ (fun i => mem' (i + 1)) hOpen (hKeeps _ rfl).settled
                    (lt_trans (hKeeps _ rfl).in_range (by decide)) (hLater ep' rfl)]

/-- The calls get the same bytes. -/
def SameChunks (ds ds' : List Delivery) : Prop :=
  ds.map Delivery.readbuf = ds'.map Delivery.readbuf

/-- Two runs on the same chunks are the same run, as long as every pass of one of
them reads the key it needs. -/
theorem deliverAll_any_memory (ds : List Delivery) :
    ∀ (ep : WebSocketEndpoint) (ds' : List Delivery), ep.wsHandshakeCompleted = true →
      Settled ep → ep.fromwireBuf.data.length < 2147483648 → SameChunks ds ds' →
      (∀ q ∈ ep.runPasses ds, KeyCertain q.buffer) → ep.deliverAll ds = ep.deliverAll ds' := by
  induction ds with
  | nil =>
      intro ep ds' _ _ _ hSame _
      have hNil : ds' = [] := by simpa [SameChunks] using hSame.symm
      rw [hNil]
  | cons d ds ih =>
      intro ep ds' hDone hSettled hRange hSame hCertain
      cases ds' with
      | nil => exact absurd hSame (by simp [SameChunks])
      | cons d' ds' =>
          obtain ⟨hBytes, hRest⟩ := List.cons.inj hSame
          have hGathered : ep.gathered d = ep.gathered d' := by
            rw [gathered, hBytes, gathered]
          have hCall : ep.deliver d = ep.deliver d' := by
            rw [deliver_eq hSettled, deliver_eq hSettled, ← hGathered]
            refine fromWireLoop_any_memory _ _ _ _ hDone (gathered_settled hSettled d)
              (gathered_size hRange d) fun q hq => hCertain q ?_
            rw [runPasses, deliverPasses_gathered hSettled]
            exact List.mem_append_left _ hq
          have hLater : ∀ r ep', (ep.deliver d).value = .ok (r, ep') →
              ∀ q ∈ ep'.runPasses ds, KeyCertain q.buffer := by
            intro r ep' hOk q hq
            refine hCertain q ?_
            rw [runPasses, hOk]
            exact List.mem_append_right _ hq
          have hKeeps : ∀ r ep', (ep.deliver d).value = .ok (r, ep') → _ :=
            fun r ep' => deliver_keeps hSettled hRange d
          unfold deliverAll Traced.runAll
          rw [← hCall]
          cases hOutcome : ep.deliver d with
          | mk es v =>
              rw [hOutcome] at hLater hKeeps
              cases v with
              | error e => rw [Traced.mk_error_bind, Traced.mk_error_bind]
              | ok r =>
                  obtain ⟨result, ep'⟩ := r
                  obtain ⟨hSettled', -, hRange', hOpen⟩ := hKeeps result ep' rfl
                  have hTail := ih ep' ds' (hOpen hDone) hSettled' hRange' hRest
                    (hLater result ep' rfl)
                  unfold deliverAll at hTail
                  rw [Traced.mk_ok_bind, Traced.mk_ok_bind]
                  simp only
                  rw [hTail]

/-- What is written does not depend on the uninitialised memory, as long as every
pass reads the key it needs. -/
theorem wires_any_memory {n : Nat} (hReach : Reachable n ep)
    (hDone : ep.wsHandshakeCompleted = true) {ds ds' : List Delivery} (hSame : SameChunks ds ds')
    (hCertain : ∀ q ∈ ep.runPasses ds, KeyCertain q.buffer) :
    Event.wires (ep.deliverAll ds).events = Event.wires (ep.deliverAll ds').events := by
  obtain ⟨hSettled, -, hRange⟩ := hReach.invariant
  rw [deliverAll_any_memory ds ep ds' hDone hSettled hRange hSame hCertain]

/-- The bytes of a call, with `b` in all of the memory. -/
def filled (b : UInt8) (readbuf : Bytes) (sizeLt : readbuf.length < 2147483648) : Delivery where
  readbuf := readbuf
  sizeLt := sizeLt
  mem := fun _ => ⟨⟨fun _ => b, 0⟩, ⟨fun _ => b, 0⟩⟩

/-- A frame cut behind its first byte. -/
theorem wires_any_memory_letter :
    Event.wires (openEndpoint.deliverAll
        [filled 0 (letterFrame.bytes.take 1) (by decide),
          filled 0 (letterFrame.bytes.drop 1) (by decide)]).events =
      Event.wires (openEndpoint.deliverAll
        [filled 255 (letterFrame.bytes.take 1) (by decide),
          filled 255 (letterFrame.bytes.drop 1) (by decide)]).events :=
  wires_any_memory openEndpoint_reachable rfl rfl (by decide +kernel)

/-- A frame cut inside its key: the byte behind the header is unmasked with the
memory and sent back. -/
theorem letterFrame_leaks_memory :
    Reachable openingRequest.length openEndpoint ∧
      letterFrame.bytes.take 3 ++ letterFrame.bytes.drop 3 = clientStream [letterFrame] ∧
      Event.wires (openEndpoint.deliverAll
          [filled 0 (letterFrame.bytes.take 3) (by decide),
            filled 0 (letterFrame.bytes.drop 3) (by decide)]).events ≠
        Event.wires (openEndpoint.deliverAll
          [filled 255 (letterFrame.bytes.take 3) (by decide),
            filled 255 (letterFrame.bytes.drop 3) (by decide)]).events :=
  ⟨openEndpoint_reachable, by decide, by decide +kernel⟩

end WebSocketEndpoint

end WebSocketFiles
