import WebSocketFiles.Library.Segmentation
import WebSocketFiles.Stream.FramePass

/-!
# A stream of client frames, cut into pieces

The frames a client sends are masked and use the 7-bit or 16-bit length form.
The receive loop after the handshake is a `Segmentation.Reader` for them: whole
frames are consumed one by one, and a cut-off frame is left in the buffer when
the header reader can tell that bytes are missing.

It cannot always tell.  `fetch_frame_info` completes a header that is cut off
from stale values, and the only guard is the sum of header size and payload
length.  `SafeCut` lists the positions at which this guard holds, and
`waits_cut_iff` proves that the list is exact.
-/

namespace WebSocketFiles

open FrameFormat Segmentation

/-- A frame as a client sends it: masked, RSV bits zero, with a 7-bit or 16-bit
length. -/
structure ClientFrame where
  fin : Bool
  opcode : Fin 16
  key : MaskingKey
  form : LengthForm
  payload : Bytes
  form_ne : form ≠ .sixtyFour
  fits : payload.length < form.limit

namespace ClientFrame

/-- A frame with a 7-bit length under a fixed key. -/
def short (fin : Bool) (opcode : Fin 16) (payload : Bytes) (hShort : payload.length < 126) :
    ClientFrame where
  fin := fin
  opcode := opcode
  key := ![1, 2, 3, 4]
  form := .seven
  payload := payload
  form_ne := by decide
  fits := hShort

/-- The frame of the reference format. -/
def frame (f : ClientFrame) : Frame where
  fin := f.fin
  rsv1 := false
  rsv2 := false
  rsv3 := false
  opcode := f.opcode
  key := some f.key
  payload := f.payload

/-- The frame on the wire. -/
def bytes (f : ClientFrame) : Bytes :=
  f.frame.encode f.form

/-- The opcode as the byte that `process_message_data` switches on. -/
def opcodeByte (f : ClientFrame) : UInt8 :=
  UInt8.ofNat f.opcode.val

theorem bytes_length (f : ClientFrame) :
    f.bytes.length = 6 + f.form.extra + f.payload.length := by
  rw [bytes, Frame.encode_length]
  show 2 + f.form.extra + 4 * 1 + f.payload.length = _
  omega

theorem bytes_ne_nil (f : ClientFrame) : f.bytes ≠ [] := by
  intro hNil
  have hLen := f.bytes_length
  rw [hNil, List.length_nil] at hLen
  omega

theorem lowFirst_frame (f : ClientFrame) : lowFirst f.frame = f.opcode.val := by
  simp [lowFirst, frame]

theorem scanHeader_bytes (f : ClientFrame) (key : MaskingKey) (t : Bytes) :
    scanHeader key (f.bytes ++ t) = readHeader key f.form f.frame :=
  scanHeader_encode key f.fits t

/-! ## Where a frame can be cut -/

/-- The positions inside a frame at which the bytes so far are left in the
buffer.  After one byte the second header byte is taken to be the first, so its
low bits, the opcode, pass for a length.  Inside the masking key the key is
taken to be missing, and inside a 16-bit length the length is taken to be
zero. -/
def SafeCut (f : ClientFrame) (k : Nat) : Prop :=
  if k = 1 then f.opcode ≠ 0
  else if f.form = .sixteen then 8 ≤ k ∨ (4 ≤ k ∧ k < 4 + f.payload.length)
  else 6 ≤ k ∨ k < 2 + f.payload.length

instance (f : ClientFrame) (k : Nat) : Decidable (f.SafeCut k) := by
  unfold SafeCut
  infer_instance

variable (f : ClientFrame) (key : MaskingKey)

private theorem ofNat_toNat_of_lt {n : Nat} (hn : n < 256) : (UInt8.ofNat n).toNat = n := by
  rw [UInt8.toNat_ofNat', Nat.mod_eq_of_lt hn]

/-- A length code below 126 is the length itself. -/
private theorem lengthField_seven {n : Nat} (hn : n < 126) (d : Bytes) (o : Nat) :
    lengthField (UInt8.ofNat n) d o = (n, o) := by
  have hNat := ofNat_toNat_of_lt (show n < 256 by omega)
  have hLt : UInt8.ofNat n < 126 := by
    rw [UInt8.lt_iff_toNat_lt, hNat]
    exact hn
  rw [lengthField, if_pos hLt, hNat]

/-- One byte of a frame: the opcode is read as the payload length. -/
theorem scanHeader_one : (scanHeader key (f.bytes.take 1)).total = 1 + f.opcode.val := by
  have hOne : f.bytes.take 1 = [f.frame.firstByte] := rfl
  have hLow := firstByte_low f.frame
  rw [lowFirst_frame] at hLow
  have hLt := f.opcode.isLt
  rw [hOne]
  simp only [scanHeader, Header.total, List.headD_cons, List.getD_cons_succ, List.getD_nil,
    List.length_singleton, hLow, lengthField_seven (show f.opcode.val < 126 by omega),
    keyFieldAt]
  rw [if_neg (fun hKey => absurd hKey.2 (by decide))]
  rfl

/-- The header of a masked frame of which at least two bytes are there. -/
theorem scanHeader_two {k : Nat} (hk : 2 ≤ k) (hLen : k ≤ f.bytes.length) :
    let len := lengthField (UInt8.ofNat (f.form.code f.payload.length)) (f.bytes.take k) 2
    (scanHeader key (f.bytes.take k)).total =
      (if len.2 + 4 ≤ k then len.2 + 4 else len.2) + len.1 := by
  obtain ⟨n, rfl⟩ : ∃ n, k = n + 2 := ⟨k - 2, by omega⟩
  have hLength : (f.bytes.take (n + 2)).length = n + 2 := by
    rw [List.length_take]
    omega
  have hHead : (f.bytes.take (n + 2)).headD 0 = f.frame.firstByte := rfl
  have hSecond : (f.bytes.take (n + 2)).getD 1 f.frame.firstByte = f.frame.secondByte f.form :=
    rfl
  have hLow : f.frame.secondByte f.form &&& 0x7F =
      UInt8.ofNat (f.form.code f.payload.length) := secondByte_low f.fits
  have hTop : (f.frame.secondByte f.form >>> 7) &&& 0x01 = 1 := secondByte_top f.fits
  simp only [scanHeader, Header.total, hHead, hSecond, hLow, hTop, hLength, keyFieldAt,
    Nat.min_eq_left (show 2 ≤ n + 2 by omega), true_and]
  split <;> rfl

/-- The 16-bit length, once its two bytes are there. -/
private theorem lengthField_sixteen {k : Nat} (hForm : f.form = .sixteen) (hk : 4 ≤ k)
    (hLen : k ≤ f.bytes.length) :
    lengthField 126 (f.bytes.take k) 2 = (f.payload.length, 4) := by
  have hFits := f.fits
  rw [hForm] at hFits
  have hRead : ofBigEndian (bigEndian 2 f.payload.length) = f.payload.length :=
    ofBigEndian_bigEndian hFits
  have hShape : f.bytes = [f.frame.firstByte, f.frame.secondByte .sixteen] ++
      (bigEndian 2 f.payload.length ++ (keyBytes f.key ++ f.frame.wirePayload)) := by
    simp only [bytes, hForm, Frame.encode, Frame.header, Frame.keyField, frame,
      LengthForm.extended, List.cons_append, List.nil_append, List.append_assoc]
  have hTake : ((f.bytes.take k).drop 2).take 2 = bigEndian 2 f.payload.length := by
    have hTwo : f.bytes.drop 2 =
        bigEndian 2 f.payload.length ++ (keyBytes f.key ++ f.frame.wirePayload) := by
      rw [hShape]
      rfl
    rw [List.drop_take, List.take_take, Nat.min_eq_left (by omega), hTwo]
    exact List.take_left' (bigEndian_length 2 _)
  have hThere : 2 + 2 ≤ (f.bytes.take k).length := by
    rw [List.length_take]
    omega
  rw [lengthField, if_neg (by decide), if_pos rfl, if_pos hThere, hTake, hRead]

/-- A proper beginning of a frame is left in the buffer exactly when it ends at
a safe cut. -/
theorem waits_cut_iff {k : Nat} (hPos : 0 < k) (hLt : k < f.bytes.length) :
    WebSocketEndpoint.Waits key (f.bytes.take k) ↔ f.SafeCut k := by
  have hLength : (f.bytes.take k).length = k := by
    rw [List.length_take]
    omega
  have hNe : f.bytes.take k ≠ [] := by
    rw [← List.length_pos_iff, hLength]
    exact hPos
  have hBytes := f.bytes_length
  rw [WebSocketEndpoint.Waits, or_iff_right hNe, hLength]
  unfold SafeCut
  by_cases hOne : k = 1
  · subst hOne
    rw [if_pos rfl, scanHeader_one, ← Fin.val_ne_zero_iff]
    omega
  · have hTwo : 2 ≤ k := by omega
    have hScan := f.scanHeader_two key hTwo hLt.le
    rw [if_neg hOne]
    cases hForm : f.form with
    | seven =>
        have hFits := f.fits
        rw [hForm] at hFits hScan hBytes
        have hField := lengthField_seven hFits (f.bytes.take k) 2
        simp only [LengthForm.code, hField] at hScan
        simp only [LengthForm.extra] at hBytes
        rw [hScan, if_neg (show ¬ LengthForm.seven = .sixteen by decide)]
        split <;> omega
    | sixteen =>
        rw [hForm] at hScan hBytes
        have hCode : UInt8.ofNat (LengthForm.sixteen.code f.payload.length) = 126 := rfl
        simp only [LengthForm.extra] at hBytes
        rw [if_pos rfl]
        by_cases hFour : 4 ≤ k
        · simp only [hCode, f.lengthField_sixteen hForm hFour hLt.le] at hScan
          rw [hScan]
          split <;> omega
        · have hMissing : lengthField 126 (f.bytes.take k) 2 = (0, 2) := by
            rw [lengthField, if_neg (by decide), if_pos rfl, if_neg (by rw [hLength]; omega)]
          simp only [hCode, hMissing] at hScan
          rw [hScan]
          split <;> omega
    | sixtyFour => exact absurd hForm f.form_ne

end ClientFrame

/-- The bytes of a sequence of client frames. -/
def clientStream (fs : List ClientFrame) : Bytes :=
  fs.flatMap ClientFrame.bytes

theorem clientStream_append (fs gs : List ClientFrame) :
    clientStream (fs ++ gs) = clientStream fs ++ clientStream gs := by
  simp [clientStream]

end WebSocketFiles
