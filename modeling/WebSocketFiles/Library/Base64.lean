import WebSocketFiles.Library.BitStream

/-!
# Base64

The encoding of RFC 4648, section 4, as a statement about bits: the bytes in one
bit string, six bits a symbol, the last symbol filled up with zeros, and padding to
a multiple of four symbols.  Decoding reads the bytes off the bits of the symbols.

The main result is `decode_encode`.
-/

namespace Base64

open BitStream

/-- The symbol of a sextet. -/
def symbol (d : Nat) : UInt8 :=
  if d < 26 then UInt8.ofNat (65 + d)
  else if d < 52 then UInt8.ofNat (97 + (d - 26))
  else if d < 62 then UInt8.ofNat (48 + (d - 52))
  else if d = 62 then 43
  else 47

/-- The sextet of a symbol. -/
def value (c : UInt8) : Option Nat :=
  if 65 ≤ c ∧ c ≤ 90 then some (c.toNat - 65)
  else if 97 ≤ c ∧ c ≤ 122 then some (c.toNat - 97 + 26)
  else if 48 ≤ c ∧ c ≤ 57 then some (c.toNat - 48 + 52)
  else if c = 43 then some 62
  else if c = 47 then some 63
  else none

/-- The padding symbol. -/
def pad : UInt8 := 61

/-- The sextets of a byte string. -/
def sextets (bs : List UInt8) : List Nat :=
  digitsPadded 6 (stream 8 (bs.map UInt8.toNat))

/-- The bytes of a list of sextets; left over bits are dropped. -/
def octets (ds : List Nat) : List UInt8 :=
  (digits 8 (stream 6 ds)).map UInt8.ofNat

/-- How many padding symbols follow `k` symbols. -/
def padding (k : Nat) : Nat :=
  (4 - k % 4) % 4

/-- Base64 encoding. -/
def encode (bs : List UInt8) : List UInt8 :=
  (sextets bs).map symbol ++ List.replicate (padding (sextets bs).length) pad

/-- Base64 decoding of the symbols in front of anything else. -/
def decode (text : List UInt8) : List UInt8 :=
  octets ((text.takeWhile fun c => (value c).isSome).filterMap value)

/-! ## The alphabet -/

theorem value_symbol : ∀ d < 64, value (symbol d) = some d := by
  decide

theorem value_lt {c : UInt8} {d : Nat} (hValue : value c = some d) : d < 64 := by
  unfold value at hValue
  simp only [UInt8.le_iff_toNat_le, UInt8.reduceToNat] at hValue
  grind

theorem symbol_value {c : UInt8} {d : Nat} (hValue : value c = some d) : symbol d = c := by
  have hBytes : ∀ n < 256, ∀ d < 64, value (UInt8.ofNat n) = some d →
      symbol d = UInt8.ofNat n := by
    decide +kernel
  have hByte := hBytes c.toNat c.toNat_lt d (value_lt hValue)
  rw [UInt8.ofNat_toNat] at hByte
  exact hByte hValue

theorem value_pad : value pad = none := by
  decide

theorem sextets_lt (bs : List UInt8) : ∀ d ∈ sextets bs, d < 64 :=
  digits_lt (by decide) _

/-! ## Groups

Three bytes are four symbols; less than three are the beginning of four. -/

/-- The bits of three bytes, six at a time. -/
theorem stream_three {a b c : Nat} (hb : b < 256) (hc : c < 256) :
    stream 8 [a, b, c] = stream 6 [a / 4, a % 4 * 16 + b / 16, b % 16 * 4 + c / 64, c % 64] := by
  have hFst : bitsOf 8 a = bitsOf 6 (a / 4) ++ bitsOf 2 (a % 4) := by
    rw [bitsOf_add 6 2 a, ← bitsOf_mod 2 a (le_refl 2)]
    rfl
  have hSnd : bitsOf 8 b = bitsOf 4 (b / 16) ++ bitsOf 4 (b % 16) := by
    rw [bitsOf_add 4 4 b, ← bitsOf_mod 4 b (le_refl 4)]
    rfl
  have hTrd : bitsOf 8 c = bitsOf 2 (c / 64) ++ bitsOf 6 (c % 64) := by
    rw [bitsOf_add 2 6 c, ← bitsOf_mod 6 c (le_refl 6)]
    rfl
  have hHigh : bitsOf 6 (a % 4 * 16 + b / 16) = bitsOf 2 (a % 4) ++ bitsOf 4 (b / 16) :=
    bitsOf_mul_add 2 4 _ (by omega)
  have hLow : bitsOf 6 (b % 16 * 4 + c / 64) = bitsOf 4 (b % 16) ++ bitsOf 2 (c / 64) :=
    bitsOf_mul_add 4 2 _ (by omega)
  simp only [stream_cons, stream_nil, hFst, hSnd, hTrd, hHigh, hLow, List.append_assoc,
    List.append_nil]

/-- The bits of two bytes, six at a time, the last filled up. -/
theorem padded_two {a b : Nat} (hb : b < 256) :
    padded 6 (stream 8 [a, b]) = stream 6 [a / 4, a % 4 * 16 + b / 16, b % 16 * 4] := by
  have hThree : stream 8 [a, b, 0] =
      stream 6 [a / 4, a % 4 * 16 + b / 16, b % 16 * 4] ++ bitsOf 6 0 :=
    stream_three hb (by decide)
  have hPadded : stream 8 [a, b, 0] = padded 6 (stream 8 [a, b]) ++ bitsOf 6 0 := by
    have hFill : (6 - 8 * [a, b].length % 6) % 6 = 2 := by simp
    rw [padded, stream_length, hFill]
    simp only [stream_cons, stream_nil, List.append_assoc, List.append_nil, bitsOf_zero,
      List.replicate_append_replicate]
  exact List.append_cancel_right (hPadded.symm.trans hThree)

/-- The bits of one byte, six at a time, the last filled up. -/
theorem padded_one (a : Nat) :
    padded 6 (stream 8 [a]) = stream 6 [a / 4, a % 4 * 16] := by
  have hTwo : stream 8 [a, 0, 0] = stream 6 [a / 4, a % 4 * 16] ++ (bitsOf 6 0 ++ bitsOf 6 0) :=
    stream_three (by decide) (by decide)
  have hPadded : stream 8 [a, 0, 0] =
      padded 6 (stream 8 [a]) ++ (bitsOf 6 0 ++ bitsOf 6 0) := by
    have hFill : (6 - 8 * [a].length % 6) % 6 = 4 := by simp
    rw [padded, stream_length, hFill]
    simp only [stream_cons, stream_nil, List.append_assoc, List.append_nil, bitsOf_zero,
      List.replicate_append_replicate]
  exact List.append_cancel_right (hPadded.symm.trans hTwo)

/-- A digit string without an incomplete digit behind it. -/
private theorem digits_stream_nil {w : Nat} (hPos : 0 < w) {ds : List Nat}
    (hDigits : ∀ d ∈ ds, d < 2 ^ w) : digits w (stream w ds) = ds := by
  have hNone : ([] : List Bool).length < w := hPos
  have hStream := digits_stream hPos hDigits hNone
  rwa [List.append_nil] at hStream

theorem sextets_cons (a b c : UInt8) (bs : List UInt8) :
    sextets (a :: b :: c :: bs) =
      (a.toNat / 4) :: (a.toNat % 4 * 16 + b.toNat / 16) :: (b.toNat % 16 * 4 + c.toNat / 64) ::
        (c.toNat % 64) :: sextets bs := by
  have ha := a.toNat_lt
  have hb := b.toNat_lt
  have hc := c.toNat_lt
  have hSplit : stream 8 ((a :: b :: c :: bs).map UInt8.toNat) =
      stream 8 [a.toNat, b.toNat, c.toNat] ++ stream 8 (bs.map UInt8.toNat) :=
    stream_append 8 [a.toNat, b.toNat, c.toNat] (bs.map UInt8.toNat)
  rw [sextets, hSplit, stream_three hb hc, digitsPadded_append (by decide) (by simp),
    digits_stream_nil (by decide) (by simp; omega)]
  rfl

theorem sextets_two (a b : UInt8) :
    sextets [a, b] =
      [a.toNat / 4, a.toNat % 4 * 16 + b.toNat / 16, b.toNat % 16 * 4] := by
  have ha := a.toNat_lt
  have hb := b.toNat_lt
  rw [sextets, digitsPadded, List.map_cons, List.map_cons, List.map_nil, padded_two hb,
    digits_stream_nil (by decide) (by simp; omega)]

theorem sextets_one (a : UInt8) : sextets [a] = [a.toNat / 4, a.toNat % 4 * 16] := by
  have ha := a.toNat_lt
  rw [sextets, digitsPadded, List.map_cons, List.map_nil, padded_one,
    digits_stream_nil (by decide) (by simp; omega)]

/-- The bits of four sextets, eight at a time. -/
theorem stream_four {w x y z : Nat} (hx : x < 64) (hy : y < 64) (hz : z < 64) :
    stream 6 [w, x, y, z] = stream 8 [w * 4 + x / 16, x % 16 * 16 + y / 4, y % 4 * 64 + z] := by
  rw [stream_three (by omega) (by omega)]
  have hFst : (w * 4 + x / 16) / 4 = w := by omega
  have hSnd : (w * 4 + x / 16) % 4 * 16 + (x % 16 * 16 + y / 4) / 16 = x := by omega
  have hTrd : (x % 16 * 16 + y / 4) % 16 * 4 + (y % 4 * 64 + z) / 64 = y := by omega
  have hFth : (y % 4 * 64 + z) % 64 = z := by omega
  rw [hFst, hSnd, hTrd, hFth]

theorem octets_cons {w x y z : Nat} (hw : w < 64) (hx : x < 64) (hy : y < 64) (hz : z < 64)
    (ds : List Nat) :
    octets (w :: x :: y :: z :: ds) =
      UInt8.ofNat (w * 4 + x / 16) :: UInt8.ofNat (x % 16 * 16 + y / 4) ::
        UInt8.ofNat (y % 4 * 64 + z) :: octets ds := by
  have hSplit : stream 6 (w :: x :: y :: z :: ds) = stream 6 [w, x, y, z] ++ stream 6 ds :=
    stream_append 6 [w, x, y, z] ds
  rw [octets, hSplit, stream_four hx hy hz, digits_append (by decide) (by simp),
    digits_stream_nil (by decide) (by simp; omega)]
  rfl

/-- The bits of the first bytes of four sextets, and the ones left over. -/
theorem octets_three {w x y : Nat} (hw : w < 64) (hx : x < 64) (hy : y < 64) :
    octets [w, x, y] = [UInt8.ofNat (w * 4 + x / 16), UInt8.ofNat (x % 16 * 16 + y / 4)] := by
  have hFour : stream 6 [w, x, y] ++ bitsOf 6 0 =
      stream 8 [w * 4 + x / 16, x % 16 * 16 + y / 4] ++ bitsOf 2 (y % 4) ++ bitsOf 6 0 := by
    have hLast : bitsOf 8 (y % 4 * 64 + 0) = bitsOf 2 (y % 4) ++ bitsOf 6 0 :=
      bitsOf_mul_add 2 6 (y % 4) (by decide)
    have hStream := stream_four (w := w) hx hy (z := 0) (by decide)
    simp only [stream_cons, stream_nil, List.append_nil, hLast] at hStream
    simp only [stream_cons, stream_nil, List.append_nil, List.append_assoc, hStream]
  rw [octets, List.append_cancel_right hFour,
    digits_stream (by decide) (by simp; omega) (by rw [bitsOf_length]; decide)]
  rfl

theorem octets_two {w x : Nat} (hw : w < 64) (hx : x < 64) :
    octets [w, x] = [UInt8.ofNat (w * 4 + x / 16)] := by
  have hThree : stream 6 [w, x] = stream 8 [w * 4 + x / 16] ++ bitsOf 4 x := by
    have hFst : bitsOf 6 x = bitsOf 2 (x / 16) ++ bitsOf 4 x := bitsOf_add 2 4 x
    have hSnd : bitsOf 8 (w * 4 + x / 16) = bitsOf 6 w ++ bitsOf 2 (x / 16) :=
      bitsOf_mul_add 6 2 w (by omega)
    simp only [stream_cons, stream_nil, List.append_nil, hFst, hSnd, List.append_assoc]
  rw [octets, hThree, digits_stream (by decide) (by simp; omega) (by rw [bitsOf_length]; decide)]
  rfl

/-! ## Lengths -/

theorem sextets_length (bs : List UInt8) : (sextets bs).length = (4 * bs.length + 2) / 3 := by
  rw [sextets, digitsPadded, digits_length, padded, List.length_append, List.length_replicate,
    stream_length, List.length_map]
  omega

theorem octets_length (ds : List Nat) : (octets ds).length = 3 * ds.length / 4 := by
  rw [octets, List.length_map, digits_length, stream_length]
  omega

/-- Every three bytes begun take four symbols. -/
theorem encode_length (bs : List UInt8) : (encode bs).length = 4 * ((bs.length + 2) / 3) := by
  rw [encode, List.length_append, List.length_map, List.length_replicate, sextets_length, padding]
  omega

theorem encode_cons (a b c : UInt8) (bs : List UInt8) :
    encode (a :: b :: c :: bs) =
      symbol (a.toNat / 4) :: symbol (a.toNat % 4 * 16 + b.toNat / 16) ::
        symbol (b.toNat % 16 * 4 + c.toNat / 64) :: symbol (c.toNat % 64) :: encode bs := by
  have hPadding : padding ((sextets bs).length + 1 + 1 + 1 + 1) =
      padding (sextets bs).length := by
    unfold padding
    omega
  rw [encode, sextets_cons]
  simp only [List.map_cons, List.length_cons, hPadding]
  rfl

/-! ## Round trip -/

theorem octets_sextets (bs : List UInt8) : octets (sextets bs) = bs := by
  have hBytes : ∀ d ∈ bs.map UInt8.toNat, d < 2 ^ 8 := by
    intro d hMem
    obtain ⟨b, -, rfl⟩ := List.mem_map.mp hMem
    exact b.toNat_lt
  rw [octets, sextets, digits_stream_digitsPadded (by decide) (by decide) hBytes, List.map_map]
  refine (List.map_congr_left fun b _ => ?_).trans (List.map_id bs)
  exact UInt8.ofNat_toNat

/-- The sextets that the symbols of a list of sextets stand for. -/
theorem filterMap_value_symbols {ds : List Nat} (hDigits : ∀ d ∈ ds, d < 64) :
    (ds.map symbol).filterMap value = ds := by
  induction ds with
  | nil => rfl
  | cons d ds ih =>
      obtain ⟨hDigit, hOthers⟩ := List.forall_mem_cons.mp hDigits
      rw [List.map_cons, List.filterMap_cons_some (value_symbol d hDigit), ih hOthers]

/-- Where the symbols of a text end. -/
theorem takeWhile_symbols {ds : List Nat} (hDigits : ∀ d ∈ ds, d < 64) {more : List UInt8}
    (hMore : ∀ c ∈ more.head?, value c = none) :
    (ds.map symbol ++ more).takeWhile (fun c => (value c).isSome) = ds.map symbol := by
  have hSymbols : ∀ c ∈ ds.map symbol, (value c).isSome = true := by
    intro c hMem
    obtain ⟨d, hDigit, rfl⟩ := List.mem_map.mp hMem
    rw [value_symbol d (hDigits d hDigit)]
    rfl
  have hStop : more.takeWhile (fun c => (value c).isSome) = [] := by
    cases more with
    | nil => rfl
    | cons c more =>
        rw [List.takeWhile_cons_of_neg]
        rw [hMore c rfl]
        exact Bool.false_ne_true
  rw [List.takeWhile_append_of_pos hSymbols, hStop, List.append_nil]

/-- Decoding ignores what follows the first byte outside the alphabet. -/
theorem decode_symbols {ds : List Nat} (hDigits : ∀ d ∈ ds, d < 64) {more : List UInt8}
    (hMore : ∀ c ∈ more.head?, value c = none) :
    decode (ds.map symbol ++ more) = octets ds := by
  rw [decode, takeWhile_symbols hDigits hMore, filterMap_value_symbols hDigits]

/-- Symbols are the symbols of the sextets they stand for. -/
theorem map_symbol_filterMap_value {text : List UInt8}
    (hSymbols : ∀ c ∈ text, (value c).isSome = true) :
    (text.filterMap value).map symbol = text := by
  induction text with
  | nil => rfl
  | cons c text ih =>
      obtain ⟨hSymbol, hOthers⟩ := List.forall_mem_cons.mp hSymbols
      obtain ⟨d, hValue⟩ := Option.isSome_iff_exists.mp hSymbol
      rw [List.filterMap_cons_some hValue, List.map_cons, symbol_value hValue, ih hOthers]

/-- A text that ends is symbols and, behind them, a byte that is none. -/
theorem exists_symbols {text : List UInt8} (hEnds : ∃ c ∈ text, value c = none) :
    ∃ (ds : List Nat) (c : UInt8) (more : List UInt8),
      text = ds.map symbol ++ c :: more ∧ (∀ d ∈ ds, d < 64) ∧ value c = none := by
  have hSymbols : ∀ c ∈ text.takeWhile fun c => (value c).isSome, (value c).isSome = true :=
    fun c hMem => List.mem_takeWhile_imp (p := fun c => (value c).isSome) hMem
  have hSplit := List.takeWhile_append_dropWhile (p := fun c => (value c).isSome) (l := text)
  cases hDrop : text.dropWhile fun c => (value c).isSome with
  | nil =>
      rw [hDrop, List.append_nil] at hSplit
      obtain ⟨c, hMem, hNone⟩ := hEnds
      rw [← hSplit] at hMem
      have hSome := hSymbols c hMem
      rw [hNone] at hSome
      exact absurd hSome Bool.false_ne_true
  | cons c more =>
      have hHead : (value c).isSome = false := by
        have hNot := List.head_dropWhile_not (fun c => (value c).isSome) (l := text)
          (hDrop ▸ List.cons_ne_nil c more)
        simpa only [hDrop, List.head_cons] using hNot
      refine ⟨(text.takeWhile fun c => (value c).isSome).filterMap value, c, more, ?_, ?_,
        Option.not_isSome_iff_eq_none.mp (by rw [hHead]; exact Bool.false_ne_true)⟩
      · rw [map_symbol_filterMap_value hSymbols, ← hDrop, hSplit]
      · intro d hMem
        obtain ⟨c, -, hValue⟩ := List.mem_filterMap.mp hMem
        exact value_lt hValue

/-- A text is symbols and padding. -/
theorem mem_encode {bs : List UInt8} {c : UInt8} (hMem : c ∈ encode bs) :
    (∃ d < 64, c = symbol d) ∨ c = pad := by
  rcases List.mem_append.mp hMem with hSymbol | hPad
  · obtain ⟨d, hDigit, rfl⟩ := List.mem_map.mp hSymbol
    exact .inl ⟨d, sextets_lt bs d hDigit, rfl⟩
  · exact .inr (List.eq_of_mem_replicate hPad)

/-- The first byte behind the symbols is no symbol. -/
theorem head_padding (k : Nat) {c : UInt8} (hStop : value c = none) (more : List UInt8) :
    ∃ c' more', List.replicate k pad ++ c :: more = c' :: more' ∧ value c' = none := by
  cases k with
  | zero => exact ⟨c, more, rfl, hStop⟩
  | succ k => exact ⟨pad, List.replicate k pad ++ c :: more, rfl, value_pad⟩

/-- The sextets in a text with padding. -/
theorem filterMap_value_padded {ds : List Nat} (hDigits : ∀ d ∈ ds, d < 64) (k : Nat) :
    (ds.map symbol ++ List.replicate k pad).filterMap value = ds := by
  have hPadding : (List.replicate k pad).filterMap value = [] := by
    rw [List.filterMap_eq_nil_iff]
    intro c hMem
    rw [List.eq_of_mem_replicate hMem]
    exact value_pad
  rw [List.filterMap_append, filterMap_value_symbols hDigits, hPadding, List.append_nil]

/-- Decoding reads back what was encoded. -/
theorem decode_encode (bs : List UInt8) : decode (encode bs) = bs := by
  have hPadding : ∀ c ∈ (List.replicate (padding (sextets bs).length) pad).head?,
      value c = none := by
    intro c hMem
    rw [List.eq_of_mem_replicate (List.mem_of_mem_head? hMem)]
    exact value_pad
  rw [encode, decode_symbols (sextets_lt bs) hPadding, octets_sextets]

/-! ## Canonical texts -/

/-- The bits that decoding drops. -/
def leftover (ds : List Nat) : List Bool :=
  Blocks.rest 8 (stream 6 ds)

/-- Encoding what a list of sextets decodes to gives the sextets back when no
sextet of them stands alone and the bits left over are zeros. -/
theorem sextets_octets_iff {ds : List Nat} (hDigits : ∀ d ∈ ds, d < 64) :
    sextets (octets ds) = ds ↔ ds.length % 4 ≠ 1 ∧ ∀ b ∈ leftover ds, b = false := by
  have hBytes : (octets ds).map UInt8.toNat = digits 8 (stream 6 ds) := by
    rw [octets, List.map_map]
    refine (List.map_congr_left fun d hMem => ?_).trans (List.map_id _)
    exact UInt8.toNat_ofNat_of_lt' (digits_lt (by decide) _ d hMem)
  have hBits : stream 8 ((octets ds).map UInt8.toNat) ++ leftover ds = stream 6 ds := by
    rw [hBytes]
    exact stream_digits (by decide) _
  have hLeft : (leftover ds).length = 6 * ds.length % 8 := by
    rw [leftover, Blocks.rest_length, stream_length]
  constructor
  · intro hSame
    have hLength := congrArg List.length hSame
    rw [sextets_length, octets_length] at hLength
    have hStream := stream_digitsPadded (w := 6) (by decide)
      (stream 8 ((octets ds).map UInt8.toNat))
    rw [← sextets, hSame, ← hBits, padded] at hStream
    refine ⟨by omega, fun b hMem => ?_⟩
    rw [List.append_cancel_left hStream] at hMem
    exact List.eq_of_mem_replicate hMem
  · rintro ⟨hAlone, hZeros⟩
    have hReplicate : leftover ds = List.replicate (leftover ds).length false :=
      List.eq_replicate_of_mem hZeros
    have hPadded : padded 6 (stream 8 ((octets ds).map UInt8.toNat)) = stream 6 ds := by
      have hFill : (6 - 8 * (3 * ds.length / 4) % 6) % 6 = 6 * ds.length % 8 := by
        have hCases : ds.length % 4 = 0 ∨ ds.length % 4 = 2 ∨ ds.length % 4 = 3 := by
          omega
        have hDiv := Nat.div_add_mod ds.length 4
        rcases hCases with hMod | hMod | hMod
        all_goals
          rw [hMod] at hDiv
          rw [← hDiv]
          omega
      rw [← hBits, padded, hReplicate, hLeft, stream_length, List.length_map, octets_length,
        hFill]
    rw [sextets, digitsPadded, hPadded]
    exact digits_stream_nil (by decide) hDigits

/-- Which texts encoding gives back. -/
theorem encode_octets_iff {ds : List Nat} (hDigits : ∀ d ∈ ds, d < 64) :
    encode (octets ds) = ds.map symbol ++ List.replicate (padding ds.length) pad ↔
      ds.length % 4 ≠ 1 ∧ ∀ b ∈ leftover ds, b = false := by
  rw [← sextets_octets_iff hDigits]
  constructor
  · intro hSame
    have hValues := congrArg (List.filterMap value) hSame
    rwa [encode, filterMap_value_padded (sextets_lt _), filterMap_value_padded hDigits] at hValues
  · intro hSame
    rw [encode, hSame]

end Base64
