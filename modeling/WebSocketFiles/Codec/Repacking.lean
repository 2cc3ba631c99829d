import WebSocketFiles.Codec.FrameEncoder

/-!
# Packing a packet twice

`pack_dataframe` copies the payload of an unmasked packet, but reads that of a
masked one through the payload cursor and leaves the cursor at the end.  The next
call finds nothing to read, does not look at the result of the failed reads, and
masks the value of its local over and over.  A masked packet is packed alike twice
exactly when its payload is what this gives, the running XOR of the key
(`packsAlike_iff`).
-/

namespace WebSocketFiles

open MachineInt FrameFormat Fallible

/-! ## What a call of `set_payload` leaves -/

/-- The payload is as `set_payload` leaves it, its cursor not beyond the end. -/
structure Loaded (p : WebSocketPacket) : Prop where
  cursor : p.payload.oft ≤ p.payload.data.length
  length_eq : p.payloadLength = p.payload.data.length
  length_lt : p.payload.data.length < 2147483634

/-- Appending adds bytes at the end and keeps the cursor. -/
theorem ByteBuffer.append_ok {b b' : ByteBuffer} {bytes : Option Bytes} {size : Int}
    (hCall : b.append bytes size = .ok b') : ∃ t, b' = { b with data := b.data ++ t } := by
  unfold append at hCall
  split at hCall
  · exact ⟨[], by rw [← Except.ok.inj hCall, List.append_nil]⟩
  · split at hCall
    · exact absurd hCall (by simp)
    · split at hCall
      · exact absurd hCall (by simp)
      · exact ⟨_, (Except.ok.inj hCall).symm⟩

theorem setPayload_loaded {p q : WebSocketPacket} {buf : Option Bytes} {size : Nat}
    (hCursor : p.payload.oft ≤ p.payload.data.length) (hSet : p.setPayload buf size = .ok q)
    (hLt : q.payload.data.length < 2147483634) : Loaded q := by
  obtain ⟨payload, hAppend, hRest⟩ := bind_ok_iff.mp hSet
  obtain ⟨t, rfl⟩ := ByteBuffer.append_ok hAppend
  obtain rfl := Except.ok.inj hRest
  simp only [List.length_append] at hLt
  have hLength := ByteBuffer.length_eq
    (b := { p.payload with data := p.payload.data ++ t }) (by simp only [List.length_append]; omega)
  refine ⟨?_, ?_, ?_⟩
  · simp only [List.length_append]
    omega
  · show toUInt64 (ByteBuffer.length _) = _
    rw [hLength, toUInt64_of_lt (by omega) (by simp only [List.length_append]; omega),
      Int.toNat_natCast]
  · simp only [List.length_append]
    omega

theorem Loaded.sendable {p : WebSocketPacket} (hLoaded : Loaded p) (hBits : HeaderBits p) :
    Sendable (p.withCursor 0) where
  fin_bit := hBits.fin_bit
  rsv1_bit := hBits.rsv1_bit
  rsv2_bit := hBits.rsv2_bit
  rsv3_bit := hBits.rsv3_bit
  opcode_lt := hBits.opcode_lt
  mask_bit := hBits.mask_bit
  cursor := rfl
  length_eq := hLoaded.length_eq
  length_lt := lt_trans hLoaded.length_lt (by decide)

/-! ## Rounds that read nothing -/

/-- The running XOR of the key, from index `i` on: what masking without reading
turns into itself. -/
def keyRun (key : MaskingKey) : Nat → Nat → UInt8 → Bytes
  | 0, _, _ => []
  | n + 1, i, value => value :: keyRun key n (i + 1) (value ^^^ key (Fin.ofNat 4 i))

/-- Masking writes the same as rounds without a byte to read exactly when each
byte is the value that the round before wrote. -/
theorem maskRounds_eq_iff (key : MaskingKey) (n : Nat) :
    ∀ (i : Nat) (value : UInt8) (d : Bytes), d.length ≤ n →
      (maskRounds key n i value d = maskRounds key n i value [] ↔
        d = keyRun key d.length i value) := by
  induction n with
  | zero =>
      intro i value d hLe
      obtain rfl := List.length_eq_zero_iff.mp (Nat.le_zero.mp hLe)
      exact iff_of_true rfl rfl
  | succ n ih =>
      intro i value d hLe
      cases d with
      | nil => exact iff_of_true rfl rfl
      | cons b d =>
          rw [List.length_cons] at hLe
          rw [maskRounds, maskRounds, List.length_cons, keyRun, List.cons.injEq, List.cons.injEq,
            List.headD_cons, List.headD_nil, List.drop_one, List.tail_cons, List.drop_nil,
            UInt8.xor_left_inj]
          refine and_congr_right fun hSame => ?_
          rw [hSame]
          exact ih (i + 1) _ d (by omega)

/-! ## Packing twice -/

/-- Two calls, each into an empty buffer, succeed and write the same bytes. -/
def PacksAlike (p : WebSocketPacket) : Prop :=
  ∃ p₁ p₂ f, p.packDataframe ByteBuffer.empty = .ok (0, p₁, f) ∧
    p₁.packDataframe ByteBuffer.empty = .ok (0, p₂, f)

/-- A packet is packed alike twice exactly when it is not masked, or the payload
ahead of its cursor is the running XOR of its key. -/
theorem packsAlike_iff {p : WebSocketPacket} (hBits : HeaderBits p) (hLoaded : Loaded p) :
    PacksAlike p ↔ p.mask = 0 ∨
      p.payload.data.drop p.payload.oft =
        keyRun p.maskingKey (p.payload.data.length - p.payload.oft) 0 0 := by
  have hSendable := hLoaded.sendable hBits
  have hSame : (p.withCursor 0).withCursor p.payload.oft = p := rfl
  rcases hBits.mask_bit with hZero | hOne
  · have hMask : (p.withCursor 0).mask ≠ 1 := by
      rw [show (p.withCursor 0).mask = 0 from hZero]
      decide
    have hPack := packDataframe_unmasked hSendable hMask p.payload.oft ByteBuffer.empty
    rw [hSame] at hPack
    exact iff_of_true ⟨p, p, _, hPack, hPack⟩ (.inl hZero)
  · have hNot : p.mask ≠ 0 := by
      rw [hOne]
      decide
    have hFirst := packDataframe_masked hSendable hOne hLoaded.cursor ByteBuffer.empty
    have hAgain := packDataframe_masked hSendable hOne (le_refl p.payload.data.length)
      ByteBuffer.empty
    rw [hSame] at hFirst
    have hData : (p.withCursor 0).payload.data = p.payload.data := rfl
    have hKey : (p.withCursor 0).maskingKey = p.maskingKey := rfl
    rw [hData, hKey] at hFirst hAgain
    rw [List.drop_length] at hAgain
    have hRounds := maskRounds_eq_iff p.maskingKey p.payload.data.length 0 0
      (p.payload.data.drop p.payload.oft) (by rw [List.length_drop]; omega)
    rw [List.length_drop] at hRounds
    simp only [hNot, false_or]
    rw [← hRounds]
    constructor
    · rintro ⟨p₁, p₂, f, hOut, hOut'⟩
      rw [hFirst] at hOut
      obtain ⟨-, hOut⟩ := Prod.mk.inj (Except.ok.inj hOut)
      obtain ⟨rfl, rfl⟩ := Prod.mk.inj hOut
      rw [hAgain] at hOut'
      simp only [Except.ok.injEq, Prod.mk.injEq, ByteBuffer.mk.injEq, true_and,
        and_true] at hOut'
      exact (List.append_cancel_left hOut'.2).symm
    · intro hEq
      rw [hEq] at hFirst
      exact ⟨_, _, _, hFirst, hAgain⟩

/-- A masked packet with this payload. -/
def maskedPacket (payload : Bytes) : WebSocketPacket :=
  { WebSocketPacket.new ⟨keyOfBytes [1, 2, 3, 4], 0⟩ with
    fin := 1, opcode := 1, mask := 1, payload := ⟨payload, 0⟩, payloadLength := payload.length }

theorem maskedPacket_bits (payload : Bytes) : HeaderBits (maskedPacket payload) :=
  ⟨.inr rfl, .inl rfl, .inl rfl, .inl rfl, show (1 : UInt8) < 16 by decide, .inr rfl⟩

/-- The running XOR of the key `1, 2, 3, 4`. -/
theorem packsAlike_iff_keyRun : PacksAlike (maskedPacket [0, 1, 3]) :=
  (packsAlike_iff (maskedPacket_bits _) ⟨by decide, rfl, by decide⟩).mpr (.inr (by decide))

/-- The letter `A` is sent masked, and then the bare key byte. -/
theorem maskedPacket_letter_not_alike : ¬ PacksAlike (maskedPacket [65]) := by
  have hLoaded : Loaded (maskedPacket [65]) := ⟨by decide, rfl, by decide⟩
  have hSendable := hLoaded.sendable (maskedPacket_bits _)
  have hFirst : ∃ p₁, (maskedPacket [65]).packDataframe ByteBuffer.empty =
      .ok (0, p₁, ⟨[0x81, 0x81, 1, 2, 3, 4, 64], 0⟩) ∧
      p₁.packDataframe ByteBuffer.empty = .ok (0, p₁, ⟨[0x81, 0x81, 1, 2, 3, 4, 1], 0⟩) :=
    ⟨_, packDataframe_masked hSendable rfl (Nat.zero_le _) _,
      packDataframe_masked hSendable rfl (le_refl 1) _⟩
  obtain ⟨p₁, hOnce, hTwice⟩ := hFirst
  rintro ⟨q₁, q₂, f, hOut, hOut'⟩
  obtain ⟨rfl, rfl⟩ := Prod.mk.inj (Prod.mk.inj (Except.ok.inj (hOnce.symm.trans hOut))).2
  have hBytes := (Prod.mk.inj (Prod.mk.inj (Except.ok.inj (hTwice.symm.trans hOut'))).2).2
  exact absurd hBytes (by decide)

end WebSocketFiles
