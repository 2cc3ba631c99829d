import WebSocketFiles.Library.Sha1
import WebSocketFiles.Model.Digest

/-!
# `SHA1HashString` is SHA-1

The class of `sha1_portable.cpp` computes the hash of FIPS 180, except that its bit
count is 32 bits wide: the length field of a message of half a gibibyte or more is
the count modulo `2^32` (`SHA1HashString_eq`).
-/

namespace WebSocketFiles

namespace SHA1

open Sha1 FrameFormat Blocks

/-! ## Words and bytes -/

theorem S_one (X : UInt32) : S 1 X = rotl 1 X := rfl

theorem S_five (X : UInt32) : S 5 X = rotl 5 X := rfl

theorem S_thirty (X : UInt32) : S 30 X = rotl 30 X := rfl

/-- Disjunction in place of exclusive or, where no bit comes from both sides. -/
theorem ch_eq (x y z : UInt32) : (x &&& y) ||| (~~~x &&& z) = ch x y z := by
  apply UInt32.toBitVec_inj.mp
  apply BitVec.eq_of_getLsbD_eq
  intro i _
  simp only [ch, UInt32.toBitVec_or, UInt32.toBitVec_and, UInt32.toBitVec_xor,
    UInt32.toBitVec_not, BitVec.getLsbD_or, BitVec.getLsbD_and, BitVec.getLsbD_xor,
    BitVec.getLsbD_not]
  cases x.toBitVec.getLsbD i <;> simp

/-- The same for the majority. -/
theorem maj_eq (x y z : UInt32) : (x &&& y) ||| (x &&& z) ||| (y &&& z) = maj x y z := by
  apply UInt32.toBitVec_inj.mp
  apply BitVec.eq_of_getLsbD_eq
  intro i _
  simp only [maj, UInt32.toBitVec_or, UInt32.toBitVec_and, UInt32.toBitVec_xor,
    BitVec.getLsbD_or, BitVec.getLsbD_and, BitVec.getLsbD_xor]
  generalize x.toBitVec.getLsbD i = a
  generalize y.toBitVec.getLsbD i = b
  generalize z.toBitVec.getLsbD i = c
  revert a b c
  decide

theorem f_eq (t : Nat) (x y z : UInt32) : f t x y z = roundFunction t x y z := by
  unfold f roundFunction
  rw [ch_eq, maj_eq]
  split_ifs
  iterate 4 rfl

theorem K_eq (t : Nat) : K t = roundConstant t := rfl

/-- The bytes of a word, as the source cuts them off. -/
theorem bigEndian_word (h : UInt32) :
    bigEndian 4 h.toNat =
      [(h >>> 24).toUInt8, (h >>> 16).toUInt8, (h >>> 8).toUInt8, h.toUInt8] := by
  have hByte : ∀ k : UInt32, k.toNat < 32 →
      UInt8.ofNat (h.toNat / 2 ^ k.toNat) = (h >>> k).toUInt8 := by
    intro k hLt
    apply UInt8.toNat_inj.mp
    rw [UInt32.toNat_toUInt8, UInt32.toNat_shiftRight, Nat.mod_eq_of_lt hLt,
      Nat.shiftRight_eq_div_pow]
    exact UInt8.toNat_ofNat'
  have hLast : UInt8.ofNat (h.toNat / 256 ^ 0) = h.toUInt8 := by
    rw [Nat.pow_zero, Nat.div_one]
    rfl
  simp only [bigEndian]
  rw [← hByte 24 (by decide), ← hByte 16 (by decide), ← hByte 8 (by decide), hLast]
  rfl

/-- A word put together from its bytes, as the source does it. -/
theorem word_bytes (a b c d : UInt8) :
    (a.toUInt32 <<< 24) ||| (b.toUInt32 <<< 16) ||| (c.toUInt32 <<< 8) ||| d.toUInt32 =
      UInt32.ofNat (ofBigEndian [a, b, c, d]) := by
  have ha := a.toNat_lt
  have hb := b.toNat_lt
  have hc := c.toNat_lt
  have hd := d.toNat_lt
  have hShift : ∀ (x : UInt8) (k : UInt32), k.toNat ≤ 24 →
      (x.toUInt32 <<< k).toNat = x.toNat <<< k.toNat := by
    intro x k hLe
    have hx := x.toNat_lt
    have hSmall : x.toNat <<< k.toNat < 2 ^ 32 := by
      rw [Nat.shiftLeft_eq]
      calc x.toNat * 2 ^ k.toNat ≤ 255 * 2 ^ 24 :=
            Nat.mul_le_mul (by omega) (Nat.pow_le_pow_right (by decide) hLe)
        _ < 2 ^ 32 := by decide
    rw [UInt32.toNat_shiftLeft, UInt8.toNat_toUInt32, Nat.mod_eq_of_lt (show k.toNat < 32 by omega),
      Nat.mod_eq_of_lt hSmall]
  have hTail : c.toNat <<< 8 ||| d.toNat = c.toNat * 256 + d.toNat := by
    rw [← Nat.shiftLeft_add_eq_or_of_lt hd, Nat.shiftLeft_eq]
  have hMiddle : b.toNat <<< 16 ||| (c.toNat * 256 + d.toNat) =
      b.toNat * 65536 + (c.toNat * 256 + d.toNat) := by
    rw [← Nat.shiftLeft_add_eq_or_of_lt (by omega), Nat.shiftLeft_eq]
  have hAll : a.toNat <<< 24 ||| (b.toNat * 65536 + (c.toNat * 256 + d.toNat)) =
      a.toNat * 16777216 + (b.toNat * 65536 + (c.toNat * 256 + d.toNat)) := by
    rw [← Nat.shiftLeft_add_eq_or_of_lt (by omega), Nat.shiftLeft_eq]
  have hNumber : ofBigEndian [a, b, c, d] =
      a.toNat * 16777216 + (b.toNat * 65536 + (c.toNat * 256 + d.toNat)) := by
    simp only [ofBigEndian, List.foldl_cons, List.foldl_nil]
    omega
  apply UInt32.toNat_inj.mp
  rw [hNumber, UInt32.toNat_ofNat_of_lt' (by simp only [UInt32.size]; omega), UInt32.toNat_or,
    UInt32.toNat_or, UInt32.toNat_or, hShift a 24 (by decide), hShift b 16 (by decide),
    hShift c 8 (by decide), UInt8.toNat_toUInt32, Nat.or_assoc, Nat.or_assoc]
  exact (congrArg _ ((congrArg _ hTail).trans hMiddle)).trans hAll

/-! ## One block -/

theorem words_eq (M : Bytes) (n : Nat) :
    M.length = 4 * n → words M = (List.range n).map (word M) := by
  induction n generalizing M with
  | zero =>
      intro hLength
      rw [List.length_eq_zero_iff.mp hLength]
      rfl
  | succ n ih =>
      intro hLength
      rcases M with _ | ⟨a, _ | ⟨b, _ | ⟨c, _ | ⟨d, M⟩⟩⟩⟩
      iterate 4 exact absurd hLength (by simp only [List.length_cons, List.length_nil]; omega)
      have hRest : M.length = 4 * n := by
        simp only [List.length_cons] at hLength
        omega
      rw [words, word_bytes, ih M hRest, List.range_succ_eq_map, List.map_cons, List.map_map]
      congr 1

/-- The list that steps a and b fill is the schedule. -/
theorem schedule_eq {M : Bytes} (hBlock : M.length = 64) :
    SHA1.schedule M = (List.range 80).map (Sha1.schedule M) := by
  have hPrefix : ∀ k, (List.range k).foldl
      (fun W i => W ++ [S 1 (W.getD (i + 16 - 3) 0 ^^^ W.getD (i + 16 - 8) 0 ^^^
        W.getD (i + 16 - 14) 0 ^^^ W.getD (i + 16 - 16) 0)]) (words M) =
      (List.range (16 + k)).map (Sha1.schedule M) := by
    intro k
    induction k with
    | zero =>
        rw [List.range_zero, List.foldl_nil, words_eq M 16 hBlock]
        exact List.map_congr_left fun t hMem => (schedule_of_lt M (List.mem_range.mp hMem)).symm
    | succ k ih =>
        have hGet : ∀ t, t < 16 + k →
            ((List.range (16 + k)).map (Sha1.schedule M)).getD t 0 = Sha1.schedule M t := by
          intro t hLt
          rw [List.getD_eq_getElem?_getD, List.getElem?_map, List.getElem?_range hLt]
          rfl
        rw [List.range_succ, List.foldl_append, ih, List.foldl_cons, List.foldl_nil,
          hGet _ (by omega), hGet _ (by omega), hGet _ (by omega), hGet _ (by omega), S_one,
          ← schedule_add, ← Nat.add_assoc, List.range_succ, List.map_append, Nat.add_comm 16 k]
        rfl
  exact hPrefix 64

/-- The schedule with the numbers of the rounds. -/
theorem zipIdx_schedule {M : Bytes} (hBlock : M.length = 64) :
    (SHA1.schedule M).zipIdx = (List.range 80).map fun t => (Sha1.schedule M t, t) := by
  rw [schedule_eq hBlock]
  refine List.ext_getElem (by simp) fun t _ _ => ?_
  simp

theorem round_words (v : Chain) (t : Nat) (w : UInt32) :
    SHA1.round v.words t w = (Sha1.round t w v).words := by
  have hSum : S 5 v.a + f t v.b v.c v.d + v.e + w + K t =
      rotl 5 v.a + roundFunction t v.b v.c v.d + v.e + roundConstant t + w := by
    rw [S_five, f_eq, K_eq, UInt32.add_assoc, UInt32.add_comm w, ← UInt32.add_assoc]
  show [S 5 v.a + f t v.b v.c v.d + v.e + w + K t, v.a, S 30 v.b, v.c, v.d] = _
  rw [hSum, S_thirty]
  rfl

/-- `Process` compresses the block in the buffer. -/
theorem process_eq (h : Chain) {M : Bytes} (l : UInt32) (hBlock : M.length = 64) :
    process ⟨h.words, M, l⟩ = ⟨(compress h M).words, [], l⟩ := by
  have hRounds : ∀ (ts : List Nat) (v : Chain),
      (ts.map fun t => (Sha1.schedule M t, t)).foldl (fun v q => SHA1.round v q.2 q.1) v.words =
        (ts.foldl (fun v t => Sha1.round t (Sha1.schedule M t) v) v).words := by
    intro ts
    induction ts with
    | nil => exact fun v => rfl
    | cons t ts ih =>
        intro v
        rw [List.map_cons, List.foldl_cons, List.foldl_cons]
        show List.foldl _ (SHA1.round v.words t (Sha1.schedule M t)) _ = _
        rw [round_words, ih]
  show (⟨List.zipWith (· + ·) h.words ((SHA1.schedule M).zipIdx.foldl
    (fun v q => SHA1.round v q.2 q.1) h.words), [], l⟩ : SecureHashAlgorithm) = _
  rw [zipIdx_schedule hBlock, hRounds]
  rfl

/-! ## Messages -/

/-- `Update` buffers the data and compresses the blocks. -/
theorem update_eq_foldl (data : Bytes) :
    ∀ (h : Chain) (M : Bytes) (l : UInt32), M.length < 64 →
      ∃ h' M', data.foldl (absorb 64 compress) (h, M) = (h', M') ∧
        update ⟨h.words, M, l⟩ data = ⟨h'.words, M', l + UInt32.ofNat (8 * data.length)⟩ := by
  induction data with
  | nil =>
      intro h M l _
      refine ⟨h, M, rfl, ?_⟩
      show (⟨h.words, M, l⟩ : SecureHashAlgorithm) = _
      have hZero : l + UInt32.ofNat (8 * ([] : Bytes).length) = l := UInt32.add_zero l
      rw [hZero]
  | cons d data ih =>
      intro h M l hShort
      have hCount : l + 8 + UInt32.ofNat (8 * data.length) =
          l + UInt32.ofNat (8 * (d :: data).length) := by
        rw [List.length_cons, Nat.mul_succ, UInt32.ofNat_add, UInt32.add_assoc]
        exact congrArg (l + ·) (UInt32.add_comm _ _)
      have hLength : (M ++ [d]).length = M.length + 1 := by simp
      have hUpdate : update ⟨h.words, M, l⟩ (d :: data) =
          update { (if 64 ≤ (M ++ [d]).length then process ⟨h.words, M ++ [d], l⟩
            else ⟨h.words, M ++ [d], l⟩) with l := l + 8 } data := by
        rw [update]
        split
        · rfl
        · rfl
      rw [List.foldl_cons, hUpdate, absorb, ← hCount]
      simp only
      by_cases hFull : 64 ≤ (M ++ [d]).length
      · rw [if_pos hFull, if_pos hFull, process_eq h l (by omega)]
        exact ih _ _ _ (by decide)
      · rw [if_neg hFull, if_neg hFull]
        exact ih _ _ _ (by omega)

/-- What `Update` leaves of a message: the chaining value of its blocks, the rest in
the buffer, and the bit count. -/
theorem update_eq (h : Chain) {M : Bytes} (l : UInt32) (hShort : M.length < 64) (data : Bytes) :
    update ⟨h.words, M, l⟩ data =
      ⟨((blocks 64 (M ++ data)).foldl compress h).words, rest 64 (M ++ data),
        l + UInt32.ofNat (8 * data.length)⟩ := by
  obtain ⟨h', M', hFold, hUpdate⟩ := update_eq_foldl data h M l hShort
  rw [foldl_absorb compress data hShort] at hFold
  obtain ⟨hChain, hRest⟩ := Prod.mk.inj hFold
  rw [hUpdate, hChain, hRest]

/-- The four bytes of the bit count. -/
def countBytes (l : UInt32) : Bytes :=
  [(l >>> 24).toUInt8, (l >>> 16).toUInt8, (l >>> 8).toUInt8, l.toUInt8]

/-- The length field of a count of 32 bits. -/
theorem bigEndian_count (l : UInt32) :
    bigEndian 8 l.toNat = List.replicate 4 (0 : UInt8) ++ countBytes l := by
  have hSmall := l.toNat_lt
  rw [countBytes, ← bigEndian_word]
  simp only [bigEndian]
  rw [Nat.div_eq_of_lt (show l.toNat < 256 ^ 7 by omega),
    Nat.div_eq_of_lt (show l.toNat < 256 ^ 6 by omega),
    Nat.div_eq_of_lt (show l.toNat < 256 ^ 5 by omega),
    Nat.div_eq_of_lt (show l.toNat < 256 ^ 4 by omega)]
  rfl

/-- The rest of a message, when the length field fits behind it. -/
theorem process_pad_one (h : Chain) {M : Bytes} (l : UInt32) (hRoom : M.length < 56) :
    process (pad ⟨h.words, M, l⟩) =
      ⟨((blocks 64 (padded l.toNat M)).foldl compress h).words, [], l⟩ := by
  have hLength : (M ++ [0x80]).length = M.length + 1 := by simp
  have hZeros : List.replicate (60 - (M ++ [0x80]).length) (0 : UInt8) =
      List.replicate (zeros M.length) 0 ++ List.replicate 4 0 := by
    rw [List.replicate_append_replicate, zeros]
    congr 1
    omega
  have hPad : pad ⟨h.words, M, l⟩ = ⟨h.words, padded l.toNat M, l⟩ := by
    unfold pad padded
    simp only
    rw [if_neg (by omega), bigEndian_count, hZeros]
    simp only [List.append_assoc]
    rfl
  have hBlock : (padded l.toNat M).length = 64 := by
    simp only [padded, zeros, List.length_append, List.length_singleton,
      List.length_replicate, bigEndian_length]
    omega
  rw [hPad, process_eq h l hBlock, blocks_of_length (by decide) hBlock]
  rfl

/-- The rest of a message, when it is filled up with zeros and the length field gets a
block of its own. -/
theorem process_pad_two (h : Chain) {M : Bytes} (l : UInt32) (hShort : M.length < 64)
    (hFull : 56 ≤ M.length) :
    process (pad ⟨h.words, M, l⟩) =
      ⟨((blocks 64 (padded l.toNat M)).foldl compress h).words, [], l⟩ := by
  have hLength : (M ++ [0x80]).length = M.length + 1 := by simp
  obtain ⟨first, hFirst⟩ : ∃ first : Bytes,
      first = M ++ [0x80] ++ List.replicate (64 - (M ++ [0x80]).length) 0 := ⟨_, rfl⟩
  obtain ⟨second, hSecond⟩ : ∃ second : Bytes,
      second = List.replicate 60 0 ++ countBytes l := ⟨_, rfl⟩
  have hFirstLength : first.length = 64 := by
    rw [hFirst, List.length_append, List.length_replicate]
    omega
  have hSecondLength : second.length = 64 := by
    rw [hSecond, List.length_append, List.length_replicate]
    rfl
  have hPadded : padded l.toNat M = first ++ second := by
    have hZeros : List.replicate (64 - (M ++ [0x80]).length) (0 : UInt8) ++
        List.replicate 60 0 = List.replicate (zeros M.length) 0 ++ List.replicate 4 0 := by
      rw [List.replicate_append_replicate, List.replicate_append_replicate, zeros]
      congr 1
      omega
    have hMiddle := congrArg (fun z => M ++ [0x80] ++ z ++ countBytes l) hZeros
    simp only [List.append_assoc] at hMiddle
    rw [padded, bigEndian_count, hFirst, hSecond]
    simp only [List.append_assoc]
    exact hMiddle.symm
  have hPad : pad ⟨h.words, M, l⟩ = ⟨(compress h first).words, second, l⟩ := by
    unfold pad
    simp only
    rw [if_pos (by omega), ← hFirst, process_eq h l hFirstLength, hSecond]
    rfl
  rw [hPad, process_eq _ l hSecondLength, hPadded, blocks_append (by decide) hFirstLength,
    blocks_of_length (by decide) hSecondLength]
  rfl

/-- What `Pad` makes of the rest of a message is the end of the padded message. -/
theorem process_pad (h : Chain) {M : Bytes} (l : UInt32) (hShort : M.length < 64) :
    process (pad ⟨h.words, M, l⟩) =
      ⟨((blocks 64 (padded l.toNat M)).foldl compress h).words, [], l⟩ := by
  by_cases hRoom : M.length < 56
  · exact process_pad_one h l hRoom
  · exact process_pad_two h l hShort (not_lt.mp hRoom)

/-- The whole blocks of a message, and the padded rest of it, are the blocks of the
padded message. -/
theorem blocks_padded (bits : Nat) (message : Bytes) :
    blocks 64 (padded bits message) =
      blocks 64 message ++ blocks 64 (padded bits (rest 64 message)) := by
  have hSplit := flatten_blocks (n := 64) (by decide) message
  have hDvd : 64 ∣ (blocks 64 message).flatten.length := by
    have hLength := congrArg List.length hSplit
    rw [List.length_append, rest_length] at hLength
    omega
  have hZeros : zeros (rest 64 message).length = zeros message.length := by
    rw [rest_length, zeros, zeros, Nat.mod_mod]
  have hPadded : padded bits message =
      (blocks 64 message).flatten ++ padded bits (rest 64 message) := by
    rw [padded, padded, hZeros]
    simp only [← List.append_assoc]
    rw [hSplit]
  have hBlocks : blocks 64 (blocks 64 message).flatten = blocks 64 message := by
    have hAll := blocks_flatten_append (n := 64) (t := []) (by decide)
      (length_of_mem_blocks (by decide) message) (by decide)
    rw [List.append_nil] at hAll
    exact hAll.1
  rw [hPadded, (blocks_append_of_dvd (by decide) _ _ hDvd).1, hBlocks]

/-- `Pad` and `Process` after any data, from a chaining value on. -/
theorem process_pad_update (data : Bytes) :
    process (pad (update .init data)) =
      ⟨((blocks 64 (padded (8 * data.length % 4294967296) data)).foldl compress initial).words, [],
        UInt32.ofNat (8 * data.length)⟩ := by
  have hUpdate := update_eq initial (M := []) 0 (by decide) data
  rw [List.nil_append, UInt32.zero_add] at hUpdate
  have hCount : (UInt32.ofNat (8 * data.length)).toNat = 8 * data.length % 4294967296 :=
    UInt32.toNat_ofNat'
  show process (pad (update ⟨initial.words, [], 0⟩ data)) = _
  rw [hUpdate, process_pad _ _ (rest_length_lt (by decide) data), hCount, ← List.foldl_append,
    ← blocks_padded]

theorem SHA1HashString_counted (str : Bytes) :
    SHA1HashString str = sha1Counted (8 * str.length % 4294967296) str := by
  unfold SHA1HashString sha1Counted Chain.bytes
  rw [process_pad_update]
  exact congrArg (List.flatMap · _) (funext fun h => (bigEndian_word h).symm)

theorem SHA1HashString_length (str : Bytes) : (SHA1HashString str).length = 20 := by
  rw [SHA1HashString_counted]
  exact Chain.bytes_length _

/-- The hash of a string that is not too long is SHA-1. -/
theorem SHA1HashString_sha1 {str : Bytes} (hSize : str.length < 536870912) :
    SHA1HashString str = sha1 str := by
  rw [SHA1HashString_counted, Nat.mod_eq_of_lt (show 8 * str.length < 4294967296 by omega)]
  rfl

/-- `SHA1HashString` is SHA-1 with the bit count modulo `2^32` in the length field, and
so SHA-1 itself below half a gibibyte. -/
theorem SHA1HashString_eq (str : Bytes) :
    SHA1HashString str = sha1Counted (8 * str.length % 4294967296) str ∧
      (str.length < 536870912 → SHA1HashString str = sha1 str) :=
  ⟨SHA1HashString_counted str, SHA1HashString_sha1⟩

end SHA1

end WebSocketFiles
