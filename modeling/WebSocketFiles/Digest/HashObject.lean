import WebSocketFiles.Digest.Sha1
import WebSocketFiles.Model.Sha1

/-!
# The hash object and its storage

The object with the union computes what the list model computes on the filled part
of the block: `HashObject.view` forgets the rest of the union, and every method
commutes with it.  No byte is written outside the block, and nothing that the memory
held before shows in the digest (`SHA1HashBytes_eq`).
-/

namespace WebSocketFiles

namespace SHA1

open MachineInt Sha1 FrameFormat

/-! ## Words in memory -/

theorem leWord_eq (a b c d : UInt8) :
    leWord a b c d = UInt32.ofNat (ofBigEndian [d, c, b, a]) := by
  rw [← word_bytes, leWord, UInt32.or_comm _ (d.toUInt32 <<< 24),
    UInt32.or_comm _ (c.toUInt32 <<< 16), UInt32.or_comm a.toUInt32, UInt32.or_assoc,
    UInt32.or_assoc]

theorem leBytes_eq (w : UInt32) : leBytes w = (bigEndian 4 w.toNat).reverse := by
  rw [bigEndian_word]
  rfl

/-- The bytes of a word that was put together from bytes. -/
theorem leBytes_leWord (a b c d : UInt8) : leBytes (leWord a b c d) = [a, b, c, d] := by
  have hLt : ofBigEndian [d, c, b, a] < 2 ^ 32 :=
    lt_of_lt_of_le (ofBigEndian_lt [d, c, b, a]) (by simp)
  have hBytes : bigEndian 4 (ofBigEndian [d, c, b, a]) = [d, c, b, a] :=
    bigEndian_ofBigEndian [d, c, b, a]
  rw [leBytes_eq, leWord_eq, UInt32.toNat_ofNat_of_lt' hLt, hBytes]
  rfl

theorem leWord_leBytes (w : UInt32) :
    leWord w.toUInt8 (w >>> 8).toUInt8 (w >>> 16).toUInt8 (w >>> 24).toUInt8 = w := by
  rw [leWord_eq, ← bigEndian_word,
    ofBigEndian_bigEndian (lt_of_lt_of_le w.toNat_lt (by decide)), UInt32.ofNat_toNat]

private theorem or_pairs (p p' q q' r r' s s' : UInt32) :
    (p ||| p') ||| (q ||| q') ||| (r ||| r') ||| (s ||| s') =
      (p ||| q ||| r ||| s) ||| (p' ||| q' ||| r' ||| s') := by
  ac_rfl

/-- `swapends` acts on the bytes of a word one by one. -/
theorem swapends_or (x y : UInt32) : swapends (x ||| y) = swapends x ||| swapends y := by
  have hAnd : ∀ m : UInt32, (x ||| y) &&& m = (x &&& m) ||| (y &&& m) := by
    intro m
    apply UInt32.toBitVec_inj.mp
    simp only [UInt32.toBitVec_or, UInt32.toBitVec_and, BitVec.and_or_distrib_right]
  unfold swapends
  rw [hAnd, hAnd, hAnd, hAnd, UInt32.shiftRight_or, UInt32.shiftRight_or, UInt32.shiftLeft_or,
    UInt32.shiftLeft_or]
  exact or_pairs _ _ _ _ _ _ _ _

/-- `swapends` reverses the bytes of a word. -/
theorem swapends_leWord (a b c d : UInt8) : swapends (leWord a b c d) = leWord d c b a := by
  have hFst : swapends a.toUInt32 = a.toUInt32 <<< 24 := by
    revert a
    exact forall_byte (by decide +kernel)
  have hSnd : swapends (b.toUInt32 <<< 8) = b.toUInt32 <<< 16 := by
    revert b
    exact forall_byte (by decide +kernel)
  have hTrd : swapends (c.toUInt32 <<< 16) = c.toUInt32 <<< 8 := by
    revert c
    exact forall_byte (by decide +kernel)
  have hFth : swapends (d.toUInt32 <<< 24) = d.toUInt32 := by
    revert d
    exact forall_byte (by decide +kernel)
  rw [leWord, swapends_or, swapends_or, swapends_or, hFst, hSnd, hTrd, hFth, leWord_eq,
    ← word_bytes, UInt32.or_assoc, UInt32.or_assoc]

/-- Swapping the words of the digest turns the machine's byte order into the
standard's. -/
theorem leBytes_swapends (w : UInt32) : leBytes (swapends w) = bigEndian 4 w.toNat := by
  have hSwap : swapends w =
      leWord (w >>> 24).toUInt8 (w >>> 16).toUInt8 (w >>> 8).toUInt8 w.toUInt8 := by
    rw [← swapends_leWord, leWord_leBytes]
  rw [hSwap, leBytes_leWord, bigEndian_word]

namespace Block

/-- A word that is written is read back, and the others stay. -/
theorem W_setW (u : Block) (t s : Nat) (w : UInt32) :
    (u.setW t w).W s = if s = t then w else u.W s := by
  have hByte : ∀ k < 4, (u.setW t w).M (4 * s + k) =
      if s = t then (leBytes w).getD k 0 else u.M (4 * s + k) := by
    intro k hLt
    have hDiv : (4 * s + k) / 4 = s := by omega
    have hMod : (4 * s + k) % 4 = k := by omega
    show (if (4 * s + k) / 4 = t then (leBytes w).getD ((4 * s + k) % 4) 0
      else u.M (4 * s + k)) = _
    rw [hDiv, hMod]
  have hFirst : (u.setW t w).M (4 * s) = if s = t then (leBytes w).getD 0 0 else u.M (4 * s) :=
    hByte 0 (by decide)
  rw [W, hFirst, hByte 1 (by decide), hByte 2 (by decide), hByte 3 (by decide)]
  by_cases hSame : s = t
  · simp only [if_pos hSame]
    exact leWord_leBytes w
  · simp only [if_neg hSame]
    rfl

/-- Step a of `Process`: the first `n` words are swapped. -/
theorem W_swapped (u : Block) (n t : Nat) :
    ((List.range n).foldl (fun W t => W.setW t (swapends (W.W t))) u).W t =
      if t < n then swapends (u.W t) else u.W t := by
  induction n generalizing t with
  | zero => rfl
  | succ n ih =>
      rw [List.range_succ, List.foldl_append, List.foldl_cons, List.foldl_nil, W_setW]
      by_cases hSame : t = n
      · rw [if_pos hSame, ih n, if_neg (Nat.lt_irrefl n), if_pos (by omega), hSame]
      · rw [if_neg hSame, ih t]
        by_cases hLt : t < n
        · rw [if_pos hLt, if_pos (by omega)]
        · rw [if_neg hLt, if_neg (by omega)]

/-- The first 64 bytes, as the block they hold. -/
def bytes (u : Block) : Bytes :=
  (List.range 64).map u.M

theorem bytes_length (u : Block) : u.bytes.length = 64 := by
  rw [bytes, List.length_map, List.length_range]

/-- A swapped word is a word of the block. -/
theorem swapends_W (u : Block) {t : Nat} (hLt : t < 16) : swapends (u.W t) = word u.bytes t := by
  have hFour : (u.bytes.drop (4 * t)).take 4 =
      [u.M (4 * t), u.M (4 * t + 1), u.M (4 * t + 2), u.M (4 * t + 3)] := by
    refine List.ext_getElem ?_ fun i hLeft hRight => ?_
    · simp only [List.length_take, List.length_drop, bytes_length, List.length_cons,
        List.length_nil]
      omega
    · have hByte : ((u.bytes.drop (4 * t)).take 4)[i] = u.M (4 * t + i) := by
        simp [bytes]
      rw [hByte]
      simp only [List.length_cons, List.length_nil] at hRight
      interval_cases i
      all_goals rfl
  rw [word, hFour, W, swapends_leWord, leWord_eq]

/-- Step b of `Process` fills in the schedule of the block. -/
theorem W_expanded {u V : Block} (hWords : ∀ t < 16, V.W t = word u.bytes t) (n : Nat) :
    ∀ t < 16 + n,
      ((List.range n).foldl
        (fun W i =>
          let t := i + 16
          W.setW t (S 1 (W.W (t - 3) ^^^ W.W (t - 8) ^^^ W.W (t - 14) ^^^ W.W (t - 16)))) V).W t =
        Sha1.schedule u.bytes t := by
  induction n with
  | zero =>
      intro t hLt
      rw [schedule_of_lt _ hLt]
      exact hWords t hLt
  | succ n ih =>
      intro t hLt
      rw [List.range_succ, List.foldl_append, List.foldl_cons, List.foldl_nil, W_setW,
        ih _ (by omega), ih _ (by omega), ih _ (by omega), ih _ (by omega)]
      by_cases hSame : t = n + 16
      · rw [if_pos hSame, hSame, schedule_add, S_one]
      · rw [if_neg hSame]
        exact ih t (by omega)

end Block

namespace HashObject

/-- The object as the list model keeps it: the part of the block in front of the
cursor, and nothing of the rest of the union. -/
def view (sha : HashObject) : SecureHashAlgorithm :=
  ⟨sha.H, (List.range sha.cursor).map sha.block.M, sha.l⟩

@[simp] theorem view_M_length (sha : HashObject) : sha.view.M.length = sha.cursor := by
  simp [view]

@[simp] theorem process_cursor (sha : HashObject) : sha.process.cursor = 0 := rfl

/-- `Process` works on the first 64 bytes of the union, and leaves an empty block. -/
theorem process_view (sha : HashObject) :
    sha.process.view = SHA1.process ⟨sha.H, sha.block.bytes, sha.l⟩ := by
  obtain ⟨V, hV⟩ : ∃ V : Block, V =
      (List.range 16).foldl (fun W t => W.setW t (swapends (W.W t))) sha.block := ⟨_, rfl⟩
  have hSwapped : ∀ t < 16, V.W t = word sha.block.bytes t := by
    intro t hLt
    rw [hV, Block.W_swapped, if_pos hLt, Block.swapends_W _ hLt]
  have hExpanded := Block.W_expanded hSwapped 64
  have hRounds : (List.range 80).foldl (fun v t => SHA1.round v t (((List.range 64).foldl
        (fun W i =>
          let t := i + 16
          W.setW t (S 1 (W.W (t - 3) ^^^ W.W (t - 8) ^^^ W.W (t - 14) ^^^ W.W (t - 16)))) V).W t))
        sha.H =
      (SHA1.schedule sha.block.bytes).zipIdx.foldl (fun v q => SHA1.round v q.2 q.1) sha.H := by
    rw [zipIdx_schedule sha.block.bytes_length, List.foldl_map]
    exact List.foldl_ext _ _ _ fun v t hMem =>
      congrArg (SHA1.round v t) (hExpanded t (List.mem_range.mp hMem))
  show (⟨List.zipWith (· + ·) sha.H ((List.range 80).foldl (fun v t => SHA1.round v t
    (((List.range 64).foldl _ ((List.range 16).foldl _ sha.block)).W t)) sha.H), [], sha.l⟩ :
      SecureHashAlgorithm) = _
  rw [← hV, hRounds]
  rfl

/-- A byte is put behind the others, as long as it fits the block. -/
theorem put_view {sha : HashObject} (hRoom : sha.cursor < 64) (d : UInt8) :
    ∃ sha', sha.put d = .ok sha' ∧ sha'.cursor = sha.cursor + 1 ∧
      sha'.view = { sha.view with M := sha.view.M ++ [d] } := by
  refine ⟨{ sha with block := sha.block.setM sha.cursor d, cursor := sha.cursor + 1 },
    if_pos hRoom, rfl, ?_⟩
  have hBefore : (List.range sha.cursor).map (sha.block.setM sha.cursor d).M =
      (List.range sha.cursor).map sha.block.M := by
    refine List.map_congr_left fun i hMem => ?_
    exact if_neg (Nat.ne_of_lt (List.mem_range.mp hMem))
  have hLast : (sha.block.setM sha.cursor d).M sha.cursor = d := if_pos rfl
  show (⟨sha.H, (List.range (sha.cursor + 1)).map (sha.block.setM sha.cursor d).M, sha.l⟩ :
    SecureHashAlgorithm) = ⟨sha.H, (List.range sha.cursor).map sha.block.M ++ [d], sha.l⟩
  rw [List.range_succ, List.map_append, hBefore, List.map_singleton, hLast]

theorem putZeros_view (n : Nat) :
    ∀ {sha : HashObject}, sha.cursor + n ≤ 64 →
      ∃ sha', putZeros n sha = .ok sha' ∧ sha'.cursor = sha.cursor + n ∧
        sha'.view = { sha.view with M := sha.view.M ++ List.replicate n 0 } := by
  induction n with
  | zero =>
      intro sha _
      exact ⟨sha, rfl, rfl, by rw [List.replicate_zero, List.append_nil]⟩
  | succ n ih =>
      intro sha hRoom
      obtain ⟨sha₁, hPut, hCursor, hView⟩ := put_view (show sha.cursor < 64 by omega) 0
      obtain ⟨sha₂, hZeros, hCursor', hView'⟩ := ih (show sha₁.cursor + n ≤ 64 by omega)
      refine ⟨sha₂, ?_, by omega, ?_⟩
      · show (sha.put 0 >>= putZeros n) = _
        rw [hPut]
        exact hZeros
      · rw [hView', hView, List.replicate_succ]
        simp only [List.append_assoc]
        rfl

/-- A block that is full to the last byte is what the list model processes. -/
theorem process_view_full {sha : HashObject} (hFull : sha.cursor = 64) :
    sha.process.view = SHA1.process sha.view := by
  rw [process_view, view, hFull]
  rfl

/-- `Update` never leaves the block, and does what the list model does. -/
theorem update_view (data : Bytes) :
    ∀ {sha : HashObject}, sha.cursor < 64 →
      ∃ sha', sha.update data = .ok sha' ∧ sha'.cursor < 64 ∧
        sha'.view = SHA1.update sha.view data := by
  induction data with
  | nil => exact fun {sha} hRoom => ⟨sha, rfl, hRoom, rfl⟩
  | cons d data ih =>
      intro sha hRoom
      obtain ⟨sha₁, hPut, hCursor, hView⟩ := put_view hRoom d
      have hUpdate : sha.update (d :: data) =
          update { (if 64 ≤ sha₁.cursor then sha₁.process else sha₁) with
            l := (if 64 ≤ sha₁.cursor then sha₁.process else sha₁).l + 8 } data := by
        rw [update, hPut]
        rfl
      have hModel : SHA1.update sha.view (d :: data) =
          SHA1.update { (if 64 ≤ sha₁.view.M.length then SHA1.process sha₁.view else sha₁.view) with
            l := (if 64 ≤ sha₁.view.M.length then SHA1.process sha₁.view else sha₁.view).l + 8 }
            data := by
        rw [hView]
        rfl
      rw [hUpdate, hModel, view_M_length]
      by_cases hFull : 64 ≤ sha₁.cursor
      · rw [if_pos hFull, if_pos hFull, ← process_view_full (show sha₁.cursor = 64 by omega)]
        exact ih (by simp)
      · rw [if_neg hFull, if_neg hFull]
        exact ih (show sha₁.cursor < 64 by omega)

/-- The four bytes of the bit count, as `Pad` masks and shifts them. -/
theorem masked_count (l : UInt32) :
    [((l &&& 0xff000000) >>> 24).toUInt8, ((l &&& 0xff0000) >>> 16).toUInt8,
      ((l &&& 0xff00) >>> 8).toUInt8, (l &&& 0xff).toUInt8] = countBytes l := by
  have hMask : ∀ b : UInt8, b &&& 0xff = b := by
    intro b
    have hLow : (b &&& 0xff).toNat = b.toNat % 256 := toNat_and_low b (k := 8) (by decide)
    rw [Nat.mod_eq_of_lt b.toNat_lt] at hLow
    exact UInt8.toNat_inj.mp hLow
  have hByte : ∀ x m : UInt32, m.toUInt8 = 0xff → (x &&& m).toUInt8 = x.toUInt8 := by
    intro x m hOnes
    rw [UInt32.toUInt8_and, hOnes, hMask]
  rw [UInt32.shiftRight_and, UInt32.shiftRight_and, UInt32.shiftRight_and,
    hByte _ ((0xff000000 : UInt32) >>> 24) (by decide),
    hByte _ ((0xff0000 : UInt32) >>> 16) (by decide),
    hByte _ ((0xff00 : UInt32) >>> 8) (by decide), hByte _ 0xff (by decide)]
  rfl

/-- The end of `Pad` fills the block. -/
theorem putCount_bytes {sha : HashObject} (hRoom : sha.cursor ≤ 60) :
    ∃ sha', sha.putCount = .ok sha' ∧ sha'.H = sha.H ∧ sha'.l = sha.l ∧
      sha'.block.bytes =
        sha.view.M ++ List.replicate (60 - sha.cursor) 0 ++ countBytes sha.l := by
  obtain ⟨sha₁, hZeros, hCursor, hView⟩ :=
    putZeros_view (60 - sha.cursor) (show sha.cursor + (60 - sha.cursor) ≤ 64 by omega)
  obtain ⟨hH, hM, hCount⟩ := SecureHashAlgorithm.mk.inj hView
  have hl : sha₁.l = sha.l := hCount
  have hCursor' : sha₁.cursor = 60 := by omega
  obtain ⟨block, hBlock⟩ : ∃ block : Block, block =
      (((sha₁.block.setM 60 ((sha₁.l &&& 0xff000000) >>> 24).toUInt8).setM 61
        ((sha₁.l &&& 0xff0000) >>> 16).toUInt8).setM 62
        ((sha₁.l &&& 0xff00) >>> 8).toUInt8).setM 63 (sha₁.l &&& 0xff).toUInt8 := ⟨_, rfl⟩
  refine ⟨{ sha₁ with block := block }, ?_, hH, hl, ?_⟩
  · rw [putCount, hZeros, hBlock]
    rfl
  · have hFront : (List.range 60).map block.M = (List.range 60).map sha₁.block.M := by
      refine List.map_congr_left fun i hMem => ?_
      have hLt := List.mem_range.mp hMem
      rw [hBlock]
      show (if i = 63 then _ else if i = 62 then _ else if i = 61 then _ else
        if i = 60 then _ else sha₁.block.M i) = _
      rw [if_neg (by omega), if_neg (by omega), if_neg (by omega), if_neg (by omega)]
    have hBack : [60, 61, 62, 63].map block.M = countBytes sha.l := by
      rw [hBlock, ← hl, ← masked_count]
      rfl
    have hRange : List.range 64 = List.range 60 ++ [60, 61, 62, 63] := by decide
    rw [hCursor'] at hM
    show (List.range 64).map block.M = _
    rw [hRange, List.map_append, hFront, hBack, hM]

/-- The last step of `Pad` in the list model. -/
def filled (sha : SecureHashAlgorithm) : SecureHashAlgorithm :=
  { sha with M := sha.M ++ List.replicate (60 - sha.M.length) 0 ++ countBytes sha.l }

theorem putCount_view {sha : HashObject} (hRoom : sha.cursor ≤ 60) :
    ∃ sha', sha.putCount = .ok sha' ∧ filled sha.view = ⟨sha'.H, sha'.block.bytes, sha'.l⟩ := by
  obtain ⟨sha', hPut, hH, hl, hBytes⟩ := putCount_bytes hRoom
  refine ⟨sha', hPut, ?_⟩
  rw [filled, view_M_length, hH, hl, hBytes]
  rfl

/-- `Pad` never leaves the block, and fills it as the list model does. -/
theorem pad_view {sha : HashObject} (hRoom : sha.cursor < 64) :
    ∃ sha', sha.pad = .ok sha' ∧ SHA1.pad sha.view = ⟨sha'.H, sha'.block.bytes, sha'.l⟩ := by
  obtain ⟨sha₁, hPut, hCursor, hView⟩ := put_view hRoom 0x80
  have hModel : SHA1.pad sha.view =
      filled (if 56 < sha₁.view.M.length then
        SHA1.process { sha₁.view with
          M := sha₁.view.M ++ List.replicate (64 - sha₁.view.M.length) 0 }
        else sha₁.view) := by
    rw [hView]
    rfl
  rw [hModel, pad, hPut, view_M_length]
  show ∃ sha', (if 56 < sha₁.cursor then
    putZeros (64 - sha₁.cursor) sha₁ >>= fun sha => sha.process.putCount
    else sha₁.putCount) = .ok sha' ∧ _
  by_cases hFull : 56 < sha₁.cursor
  · obtain ⟨sha₂, hZeros, hCursor', hView'⟩ :=
      putZeros_view (64 - sha₁.cursor) (show sha₁.cursor + (64 - sha₁.cursor) ≤ 64 by omega)
    obtain ⟨sha', hPut', hFilled⟩ := putCount_view (show sha₂.process.cursor ≤ 60 by simp)
    rw [process_view_full (show sha₂.cursor = 64 by omega), hView'] at hFilled
    have hBind : ∀ f : HashObject → Except Abort HashObject,
        (Except.ok sha₂ >>= f) = f sha₂ := fun _ => rfl
    rw [if_pos hFull, if_pos hFull, hZeros, hBind]
    exact ⟨sha', hPut', hFilled⟩
  · rw [if_neg hFull, if_neg hFull]
    exact putCount_view (by omega)

/-- The digest of an object whose block is padded. -/
theorem final_digest {sha : HashObject} (hRoom : sha.cursor < 64) :
    ∃ sha', sha.final = .ok sha' ∧
      sha'.digest = (SHA1.process (SHA1.pad sha.view)).H.flatMap fun h => bigEndian 4 h.toNat := by
  obtain ⟨sha₁, hPad, hView⟩ := pad_view hRoom
  refine ⟨{ sha₁.process with H := sha₁.process.H.map swapends }, ?_, ?_⟩
  · rw [final, hPad]
    rfl
  · have hH : sha₁.process.H = (SHA1.process (SHA1.pad sha.view)).H := by
      rw [hView, ← process_view]
      rfl
    rw [← hH]
    show (sha₁.process.H.map swapends).flatMap leBytes = _
    rw [List.flatMap_map]
    exact congrArg (List.flatMap · _) (funext leBytes_swapends)

end HashObject

theorem update_append (sha : SecureHashAlgorithm) (data more : Bytes) :
    SHA1.update sha (data ++ more) = SHA1.update (SHA1.update sha data) more := by
  induction data generalizing sha with
  | nil => rfl
  | cons d data ih => exact ih _

/-- Calls of `Update` one after another do what one call with all the data does. -/
theorem updates_view (chunks : List Bytes) :
    ∀ {sha : HashObject}, sha.cursor < 64 →
      ∃ sha', chunks.foldlM HashObject.update sha = .ok sha' ∧ sha'.cursor < 64 ∧
        sha'.view = SHA1.update sha.view chunks.flatten := by
  induction chunks with
  | nil => exact fun {sha} hRoom => ⟨sha, rfl, hRoom, rfl⟩
  | cons data chunks ih =>
      intro sha hRoom
      obtain ⟨sha₁, hUpdate, hRoom₁, hView⟩ := HashObject.update_view data hRoom
      obtain ⟨sha₂, hUpdates, hRoom₂, hView₂⟩ := ih hRoom₁
      refine ⟨sha₂, ?_, hRoom₂, ?_⟩
      · rw [List.foldlM_cons, hUpdate]
        exact hUpdates
      · rw [hView₂, hView, List.flatten_cons, update_append]

/-- Hashing in any number of calls of `Update`, with an object whose memory holds
anything: no byte is written outside the block, and the digest is SHA-1 of all the
data, with the bit count modulo `2^32`. -/
theorem updates_digest (memory : HashObject) (chunks : List Bytes) :
    (do
      let sha ← chunks.foldlM HashObject.update memory.init
      let sha ← sha.final
      return sha.digest : Except Abort Bytes) =
      .ok (sha1Counted (8 * chunks.flatten.length % 4294967296) chunks.flatten) := by
  obtain ⟨sha, hUpdates, hRoom, hView⟩ :=
    updates_view chunks (show memory.init.cursor < 64 from Nat.succ_pos _)
  obtain ⟨sha', hFinal, hDigest⟩ := HashObject.final_digest hRoom
  have hInit : memory.init.view = SecureHashAlgorithm.init := rfl
  rw [hUpdates]
  show (sha.final >>= fun sha' => Except.ok sha'.digest) = _
  rw [hFinal]
  show Except.ok sha'.digest = _
  rw [hDigest, hView, hInit, process_pad_update]
  rfl

/-- `SHA1HashBytes` and `SHA1HashString` agree. -/
theorem SHA1HashBytes_eq (memory : HashObject) (data : Bytes) :
    SHA1HashBytes memory data = .ok (SHA1HashString data) := by
  obtain ⟨sha, hUpdate, hRoom, hView⟩ :=
    HashObject.update_view data (show memory.init.cursor < 64 from Nat.succ_pos _)
  obtain ⟨sha', hFinal, hDigest⟩ := HashObject.final_digest hRoom
  rw [SHA1HashBytes, hUpdate]
  show (sha.final >>= fun sha' => Except.ok sha'.digest) = _
  rw [hFinal]
  show Except.ok sha'.digest = _
  rw [hDigest, hView]
  exact congrArg Except.ok (congrArg (List.flatMap · _) (funext fun h => bigEndian_word h))

end SHA1

end WebSocketFiles
