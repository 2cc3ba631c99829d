import WebSocketFiles.Library.Base64
import WebSocketFiles.Model.Base64

/-!
# `base64.cpp` is Base64

`base64encode` shifts and masks its way through groups of three bytes, and
`base64decode` through groups of four symbols; both compute what RFC 4648 says of
the bits (`base64encode_eq`, `base64decode_eq`).
-/

namespace WebSocketFiles

open MachineInt Base64

/-! ## Encoding -/

theorem sixBits_eq {n : UInt8} (hLt : n.toNat < 64) : sixBits n = symbol n.toNat := by
  have hTable : ∀ d < 64, basis64.getD d 0 = symbol d := by
    decide +kernel
  exact hTable n.toNat hLt

section Sextets

variable (a b : UInt8)

theorem sixBits_high : sixBits ((a >>> 2) &&& 0x3F) = symbol (a.toNat / 4) := by
  have hShift : (a >>> 2).toNat = a.toNat / 4 := toNat_shiftRight_byte a (k := 2) (by decide)
  have hMask : ((a >>> 2) &&& 0x3F).toNat = (a >>> 2).toNat % 64 :=
    toNat_and_low (a >>> 2) (k := 6) (by decide)
  have ha := a.toNat_lt
  have hByte : ((a >>> 2) &&& 0x3F).toNat = a.toNat / 4 := by omega
  rw [sixBits_eq (by omega), hByte]

theorem sixBits_low : sixBits (a &&& 0x3F) = symbol (a.toNat % 64) := by
  have hByte : (a &&& 0x3F).toNat = a.toNat % 64 := toNat_and_low a (k := 6) (by decide)
  rw [sixBits_eq (by omega), hByte]

theorem sixBits_two_four :
    sixBits (((a &&& 0x3) <<< 4) ||| ((b &&& 0xF0) >>> 4)) =
      symbol (a.toNat % 4 * 16 + b.toNat / 16) := by
  have hHigh : (a &&& 0x3).toNat = a.toNat % 4 := toNat_and_low a (k := 2) (by decide)
  have hLow : ((b &&& 0xF0) >>> 4).toNat = b.toNat / 16 :=
    toNat_and_high b (k := 4) (by decide) (by decide)
  have hb := b.toNat_lt
  have hBoth : (((a &&& 0x3) <<< 4) ||| ((b &&& 0xF0) >>> 4)).toNat =
      (a &&& 0x3).toNat % 16 * 16 + ((b &&& 0xF0) >>> 4).toNat :=
    toNat_shiftLeft_or (a &&& 0x3) (k := 4) (by decide) (by omega)
  have hByte : (((a &&& 0x3) <<< 4) ||| ((b &&& 0xF0) >>> 4)).toNat =
      a.toNat % 4 * 16 + b.toNat / 16 := by omega
  rw [sixBits_eq (by omega), hByte]

theorem sixBits_four_two :
    sixBits (((a &&& 0xF) <<< 2) ||| ((b &&& 0xC0) >>> 6)) =
      symbol (a.toNat % 16 * 4 + b.toNat / 64) := by
  have hHigh : (a &&& 0xF).toNat = a.toNat % 16 := toNat_and_low a (k := 4) (by decide)
  have hLow : ((b &&& 0xC0) >>> 6).toNat = b.toNat / 64 :=
    toNat_and_high b (k := 6) (by decide) (by decide)
  have hb := b.toNat_lt
  have hBoth : (((a &&& 0xF) <<< 2) ||| ((b &&& 0xC0) >>> 6)).toNat =
      (a &&& 0xF).toNat % 64 * 4 + ((b &&& 0xC0) >>> 6).toNat :=
    toNat_shiftLeft_or (a &&& 0xF) (k := 2) (by decide) (by omega)
  have hByte : (((a &&& 0xF) <<< 2) ||| ((b &&& 0xC0) >>> 6)).toNat =
      a.toNat % 16 * 4 + b.toNat / 64 := by omega
  rw [sixBits_eq (by omega), hByte]

/-- The last symbol of one byte. -/
theorem sixBits_two : sixBits ((a &&& 0x3) <<< 4) = symbol (a.toNat % 4 * 16) := by
  have hLow : (a &&& 0x3).toNat = a.toNat % 4 := toNat_and_low a (k := 2) (by decide)
  have hShift : ((a &&& 0x3) <<< 4).toNat = (a &&& 0x3).toNat % 16 * 16 :=
    toNat_shiftLeft_byte (a &&& 0x3) (k := 4) (by decide)
  have hByte : ((a &&& 0x3) <<< 4).toNat = a.toNat % 4 * 16 := by omega
  rw [sixBits_eq (by omega), hByte]

/-- The last symbol of two bytes. -/
theorem sixBits_four : sixBits ((a &&& 0xF) <<< 2) = symbol (a.toNat % 16 * 4) := by
  have hLow : (a &&& 0xF).toNat = a.toNat % 16 := toNat_and_low a (k := 4) (by decide)
  have hShift : ((a &&& 0xF) <<< 2).toNat = (a &&& 0xF).toNat % 64 * 4 :=
    toNat_shiftLeft_byte (a &&& 0xF) (k := 2) (by decide)
  have hByte : ((a &&& 0xF) <<< 2).toNat = a.toNat % 16 * 4 := by omega
  rw [sixBits_eq (by omega), hByte]

end Sextets

theorem base64encode_eq (bs : Bytes) : base64encode bs = encode bs := by
  fun_induction base64encode bs with
  | case1 a b c rest ih =>
      rw [sixBits_high, sixBits_two_four, sixBits_four_two, sixBits_low, ih, encode_cons]
  | case2 a b =>
      rw [sixBits_high, sixBits_two_four, sixBits_four, encode, sextets_two]
      rfl
  | case3 a =>
      rw [sixBits_high, sixBits_two, encode, sextets_one]
      rfl
  | case4 => rfl

/-- `Base64encode` is the encoding of the standard, and with its terminator it fills the
buffer that `Base64encode_len` asks for, as long as that size is an `int`. -/
theorem base64encode_standard {bs : Bytes} (hSize : bs.length < 1610612734) :
    base64encode bs = encode bs ∧
      base64encodeLen bs.length = .ok ((base64encode bs ++ [0]).length : Int) := by
  have hLength : ((bs.length : Int) + 2).tdiv 3 * 4 + 1 =
      ((base64encode bs ++ [0]).length : Int) := by
    rw [base64encode_eq, List.length_append, encode_length,
      Int.tdiv_eq_ediv_of_nonneg (by omega), List.length_singleton]
    omega
  refine ⟨base64encode_eq bs, ?_⟩
  rw [base64encodeLen, hLength, if_neg]
  rw [base64encode_eq, List.length_append, encode_length, List.length_singleton]
  omega

/-- Two groups, of which the second is padded, and the terminator. -/
theorem base64encode_standard_fooba :
    base64encode (lit "fooba") = lit "Zm9vYmE=" ∧ base64encodeLen 5 = .ok 9 :=
  @base64encode_standard (lit "fooba") (by decide)

/-! ## Decoding -/

/-- The table holds the sextet of every symbol, and 64 for every other byte. -/
theorem pr2six_eq (c : UInt8) : pr2six c = UInt8.ofNat ((value c).getD 64) := by
  revert c
  exact forall_byte (by decide +kernel)

theorem pr2six_symbol {d : Nat} (hDigit : d < 64) : pr2six (symbol d) = UInt8.ofNat d := by
  rw [pr2six_eq, value_symbol d hDigit, Option.getD_some]

/-- The scan stops at the bytes that are no symbols. -/
theorem pr2six_le (c : UInt8) : pr2six c ≤ 63 ↔ (value c).isSome = true := by
  rw [pr2six_eq]
  cases hValue : value c with
  | none => decide
  | some d =>
      have hDigit := value_lt hValue
      rw [Option.getD_some, UInt8.le_iff_toNat_le,
        UInt8.toNat_ofNat_of_lt' (lt_trans hDigit (by decide))]
      exact iff_of_true (Nat.le_of_lt_succ hDigit) rfl

/-- What a sextet leaves of itself in a byte, and what stands in the bits below. -/
theorem sextet_shiftLeft_or {d k : Nat} (hDigit : d < 64) {y : UInt8} (hShift : k < 8)
    (hLow : y.toNat < 2 ^ k) :
    (UInt8.ofNat d <<< UInt8.ofNat k) ||| y =
      UInt8.ofNat (d % 2 ^ (8 - k) * 2 ^ k + y.toNat) := by
  have hBoth := toNat_shiftLeft_or (UInt8.ofNat d) hShift hLow
  rw [UInt8.toNat_ofNat_of_lt' (lt_trans hDigit (by decide))] at hBoth
  rw [← hBoth, UInt8.ofNat_toNat]

theorem toNat_sextet_shiftRight {d k : Nat} (hDigit : d < 64) (hShift : k < 8) :
    (UInt8.ofNat d >>> UInt8.ofNat k).toNat = d / 2 ^ k := by
  rw [toNat_shiftRight_byte _ hShift, UInt8.toNat_ofNat_of_lt' (lt_trans hDigit (by decide))]

section Group

variable {w x y z : Nat} (more : Bytes)

theorem groupFst_symbols (hw : w < 64) (hx : x < 64) :
    groupFst (symbol w :: symbol x :: more) = .ok (UInt8.ofNat (w * 4 + x / 16)) := by
  have hLow : (UInt8.ofNat x >>> 4).toNat = x / 16 :=
    toNat_sextet_shiftRight hx (k := 4) (by decide)
  have hBits : (UInt8.ofNat w <<< 2) ||| (UInt8.ofNat x >>> 4) =
      UInt8.ofNat (w % 64 * 4 + (UInt8.ofNat x >>> 4).toNat) :=
    sextet_shiftLeft_or hw (k := 2) (by decide) (by omega)
  show Except.ok (pr2six (symbol w) <<< 2 ||| pr2six (symbol x) >>> 4) = _
  rw [pr2six_symbol hw, pr2six_symbol hx, hBits, hLow, Nat.mod_eq_of_lt hw]

theorem groupSnd_symbols (hx : x < 64) (hy : y < 64) :
    groupSnd (symbol w :: symbol x :: symbol y :: more) =
      .ok (UInt8.ofNat (x % 16 * 16 + y / 4)) := by
  have hLow : (UInt8.ofNat y >>> 2).toNat = y / 4 :=
    toNat_sextet_shiftRight hy (k := 2) (by decide)
  have hBits : (UInt8.ofNat x <<< 4) ||| (UInt8.ofNat y >>> 2) =
      UInt8.ofNat (x % 16 * 16 + (UInt8.ofNat y >>> 2).toNat) :=
    sextet_shiftLeft_or hx (k := 4) (by decide) (by omega)
  show Except.ok (pr2six (symbol x) <<< 4 ||| pr2six (symbol y) >>> 2) = _
  rw [pr2six_symbol hx, pr2six_symbol hy, hBits, hLow]

theorem groupTrd_symbols (hy : y < 64) (hz : z < 64) :
    groupTrd (symbol w :: symbol x :: symbol y :: symbol z :: more) =
      .ok (UInt8.ofNat (y % 4 * 64 + z)) := by
  have hLow : (UInt8.ofNat z).toNat = z :=
    UInt8.toNat_ofNat_of_lt' (lt_trans hz (by decide))
  have hBits : (UInt8.ofNat y <<< 6) ||| UInt8.ofNat z =
      UInt8.ofNat (y % 4 * 64 + (UInt8.ofNat z).toNat) :=
    sextet_shiftLeft_or hy (k := 6) (by decide) (by omega)
  show Except.ok (pr2six (symbol y) <<< 6 ||| pr2six (symbol z)) = _
  rw [pr2six_symbol hy, pr2six_symbol hz, hBits, hLow]

end Group

/-- The loop decodes whole groups, and stops in front of the last four symbols or
less. -/
theorem decodeLoop_symbols (more : Bytes) :
    ∀ (fuel : Nat) (ds : List Nat) (bufout : Bytes), (∀ d ∈ ds, d < 64) → ds.length < fuel →
      ∃ out last, decodeLoop fuel (ds.map symbol ++ more) ds.length bufout =
          .ok (last.map symbol ++ more, (last.length : Int), bufout ++ out) ∧
        octets ds = out ++ octets last ∧ (∀ d ∈ last, d < 64) ∧ last.length ≤ 4 ∧
        last.length % 4 = ds.length % 4 := by
  intro fuel
  induction fuel with
  | zero => exact fun ds bufout _ hFuel => absurd hFuel (Nat.not_lt_zero _)
  | succ fuel ih =>
      intro ds bufout hDigits hFuel
      rw [decodeLoop]
      by_cases hLast : ds.length ≤ 4
      · rw [if_neg (by omega)]
        exact ⟨[], ds, by rw [List.append_nil], rfl, hDigits, hLast, rfl⟩
      · rcases ds with _ | ⟨w, _ | ⟨x, _ | ⟨y, _ | ⟨z, ds⟩⟩⟩⟩
        iterate 4 exact absurd hLast (by simp)
        simp only [List.forall_mem_cons] at hDigits
        obtain ⟨hw, hx, hy, hz, hOthers⟩ := hDigits
        simp only [List.length_cons] at hFuel hLast
        have hGroup := ih ds (bufout ++ [UInt8.ofNat (w * 4 + x / 16),
          UInt8.ofNat (x % 16 * 16 + y / 4), UInt8.ofNat (y % 4 * 64 + z)]) hOthers (by omega)
        obtain ⟨out, last, hLoop, hOctets, hDigits, hShort, hMod⟩ := hGroup
        have hCount : ((w :: x :: y :: z :: ds).length : Int) - 4 = ds.length := by
          simp only [List.length_cons]
          omega
        refine ⟨UInt8.ofNat (w * 4 + x / 16) :: UInt8.ofNat (x % 16 * 16 + y / 4) ::
          UInt8.ofNat (y % 4 * 64 + z) :: out, last, ?_, ?_, hDigits, hShort, ?_⟩
        · rw [if_pos (by simp only [List.length_cons]; omega), hCount]
          simp only [List.map_cons, List.cons_append]
          rw [groupFst_symbols _ hw hx, groupSnd_symbols _ hx hy, groupTrd_symbols _ hy hz]
          show decodeLoop fuel (ds.map symbol ++ more) ds.length _ = _
          rw [hLoop, List.append_assoc]
          rfl
        · rw [octets_cons hw hx hy hz, hOctets]
          rfl
        · simp only [List.length_cons]
          omega

/-- The bytes behind the loop. -/
theorem decodeTail_symbols {last : List Nat} (hDigits : ∀ d ∈ last, d < 64)
    (hShort : last.length ≤ 4) (more bufout : Bytes) :
    decodeTail (last.map symbol ++ more) last.length bufout = .ok (bufout ++ octets last) := by
  have hNone : ∀ ds : List Nat, ds.length ≤ 1 → octets ds = [] := by
    intro ds hLe
    rw [← List.length_eq_zero_iff, octets_length]
    omega
  rcases last with _ | ⟨w, _ | ⟨x, _ | ⟨y, _ | ⟨z, _ | ⟨v, last⟩⟩⟩⟩⟩
  · rw [hNone [] (by simp), List.append_nil]
    rfl
  · rw [hNone [w] (by simp), List.append_nil]
    rfl
  · simp only [List.forall_mem_cons] at hDigits
    obtain ⟨hw, hx, -⟩ := hDigits
    rw [octets_two hw hx]
    show (groupFst (symbol w :: symbol x :: more) >>= fun b => .ok (bufout ++ [b])) = _
    rw [groupFst_symbols _ hw hx]
    rfl
  · simp only [List.forall_mem_cons] at hDigits
    obtain ⟨hw, hx, hy, -⟩ := hDigits
    rw [octets_three hw hx hy]
    show (groupFst (symbol w :: symbol x :: symbol y :: more) >>= fun b =>
      groupSnd (symbol w :: symbol x :: symbol y :: more) >>= fun c =>
        .ok (bufout ++ [b, c])) = _
    rw [groupFst_symbols _ hw hx, groupSnd_symbols _ hx hy]
    rfl
  · simp only [List.forall_mem_cons] at hDigits
    obtain ⟨hw, hx, hy, hz, -⟩ := hDigits
    rw [octets_cons hw hx hy hz, hNone [] (by simp)]
    show (groupFst (symbol w :: symbol x :: symbol y :: symbol z :: more) >>= fun b =>
      groupSnd (symbol w :: symbol x :: symbol y :: symbol z :: more) >>= fun c =>
        groupTrd (symbol w :: symbol x :: symbol y :: symbol z :: more) >>= fun d =>
          .ok (bufout ++ [b, c, d])) = _
    rw [groupFst_symbols _ hw hx, groupSnd_symbols _ hx hy, groupTrd_symbols _ hy hz]
    rfl
  · exact absurd hShort (by simp)

/-- The scan counts the symbols in front of the first other byte. -/
theorem scanCoded_symbols {ds : List Nat} (hDigits : ∀ d ∈ ds, d < 64) {c : UInt8}
    (hStop : value c = none) (more : Bytes) (hSize : ds.length < 2147483648) :
    scanCoded (ds.map symbol ++ c :: more) = .ok (ds.length : Int) := by
  have hSymbols : (ds.map symbol).findIdx? (fun c => !(pr2six c ≤ 63)) = none := by
    rw [List.findIdx?_eq_none_iff]
    intro s hMem
    obtain ⟨d, hDigit, rfl⟩ := List.mem_map.mp hMem
    have hSome := value_symbol d (hDigits d hDigit)
    simp only [Bool.not_eq_false', decide_eq_true_eq]
    rw [pr2six_le, hSome]
    rfl
  have hOther : (!decide (pr2six c ≤ 63)) = true := by
    rw [Bool.not_eq_true', decide_eq_false_iff_not, pr2six_le, hStop]
    exact Bool.false_ne_true
  have hScan : (ds.map symbol ++ c :: more).findIdx? (fun c => !(pr2six c ≤ 63)) =
      some ds.length := by
    rw [List.findIdx?_append, hSymbols, Option.none_or, List.findIdx?_cons, if_pos hOther,
      Option.map_some, List.length_map, Nat.zero_add]
  unfold scanCoded
  rw [hScan]
  show Except.ok (toInt32 ds.length) = _
  rw [toInt32_of_lt (by omega) (by omega)]

/-- The count of a group of symbols. -/
theorem groupBytes_eq {n : Nat} (hSize : n < 2147483645) :
    groupBytes n = .ok (((n + 3) / 4 * 3 : Nat) : Int) := by
  unfold groupBytes
  rw [if_neg (by omega), Int.tdiv_eq_ediv_of_nonneg (by omega)]
  congr 1

theorem base64decode_symbols {ds : List Nat} (hDigits : ∀ d ∈ ds, d < 64) {c : UInt8}
    (hStop : value c = none) (more : Bytes) (hSize : ds.length < 2147483645) :
    base64decode (ds.map symbol ++ c :: more) =
      .ok (((octets ds).length : Int), octets ds ++ [0]) := by
  have hFuel : ds.length < (ds.map symbol ++ c :: more).length + 1 := by
    rw [List.length_append, List.length_map]
    omega
  obtain ⟨out, last, hLoop, hOctets, hLast, hShort, hMod⟩ :=
    decodeLoop_symbols (c :: more) _ ds [] hDigits hFuel
  have hCount : (((ds.length + 3) / 4 * 3 : Nat) : Int) - (4 - (last.length : Int)) % 4 =
      ((octets ds).length : Int) := by
    have hCases : last.length = 0 ∨ last.length = 1 ∨ last.length = 2 ∨ last.length = 3 ∨
        last.length = 4 := by
      omega
    rw [octets_length]
    rcases hCases with hLast | hLast | hLast | hLast | hLast
    all_goals
      rw [hLast] at hMod ⊢
      omega
  unfold base64decode
  rw [scanCoded_symbols hDigits hStop more (by omega)]
  show (groupBytes ds.length >>= fun nbytesdecoded => _) = _
  rw [groupBytes_eq hSize]
  show (decodeLoop _ _ ds.length [] >>= fun r => _) = _
  rw [hLoop]
  show (decodeTail (last.map symbol ++ c :: more) last.length ([] ++ out) >>= fun bufout =>
    Except.ok (_, bufout ++ [0])) = _
  rw [decodeTail_symbols hLast hShort]
  show Except.ok (_ - (4 - (last.length : Int)) % 4, [] ++ out ++ octets last ++ [0]) = _
  rw [hCount, List.nil_append, ← hOctets]

/-- `Base64decode` is the decoding of the standard, on every text that something ends
and whose count is an `int`; it writes no more than `Base64decode_len` asks for. -/
theorem base64decode_eq {bufcoded : Bytes} (hEnds : ∃ c ∈ bufcoded, value c = none)
    (hSize : (bufcoded.takeWhile fun c => (value c).isSome).length < 2147483645) :
    base64decode bufcoded = .ok (((decode bufcoded).length : Int), decode bufcoded ++ [0]) ∧
      ∃ len, base64decodeLen bufcoded = .ok len ∧
        ((decode bufcoded ++ [0]).length : Int) ≤ len := by
  obtain ⟨ds, c, more, rfl, hDigits, hStop⟩ := exists_symbols hEnds
  have hDecode : decode (ds.map symbol ++ c :: more) = octets ds :=
    decode_symbols hDigits fun d hHead => by rwa [← Option.some.inj hHead]
  have hCount : ds.length < 2147483645 := by
    rwa [takeWhile_symbols hDigits fun d hHead => by rwa [← Option.some.inj hHead],
      List.length_map] at hSize
  rw [hDecode]
  refine ⟨base64decode_symbols hDigits hStop more hCount,
    ((ds.length + 3) / 4 * 3 : Nat) + 1, ?_, ?_⟩
  · unfold base64decodeLen
    rw [scanCoded_symbols hDigits hStop more (by omega)]
    show (groupBytes ds.length >>= fun nbytesdecoded => Except.ok (nbytesdecoded + 1)) = _
    rw [groupBytes_eq hCount]
    rfl
  · rw [List.length_append, octets_length, List.length_singleton]
    omega

/-- Two symbols and a stray byte. -/
theorem base64decode_eq_stray :
    base64decode (lit "Zm!vY") = .ok (1, lit "f" ++ [0]) :=
  (@base64decode_eq (lit "Zm!vY") ⟨33, by decide, by decide⟩ (by decide)).1

theorem base64decode_encode {bs : Bytes} (hSize : bs.length < 1610612734) (more : Bytes) :
    base64decode (encode bs ++ 0 :: more) = .ok ((bs.length : Int), bs ++ [0]) := by
  obtain ⟨c, more', hMore, hStop⟩ :=
    head_padding (padding (sextets bs).length) (c := 0) (by decide) more
  have hCount : (sextets bs).length < 2147483645 := by
    rw [sextets_length]
    omega
  rw [encode, List.append_assoc, hMore, base64decode_symbols (sextets_lt bs) hStop more' hCount,
    octets_sextets]

/-- Decoding gives back every byte string that was encoded, whatever stands behind
the terminator. -/
theorem base64decode_base64encode {bs : Bytes} (hSize : bs.length < 1610612734)
    (more : Bytes) :
    base64decode (base64encode bs ++ 0 :: more) = .ok ((bs.length : Int), bs ++ [0]) := by
  rw [base64encode_eq]
  exact base64decode_encode hSize more

/-- A text with one pad, there and back. -/
theorem base64decode_base64encode_fooba :
    base64decode (base64encode (lit "fooba") ++ 0 :: [7, 7]) = .ok (5, lit "fooba" ++ [0]) :=
  base64decode_base64encode (by decide) [7, 7]

/-- Encoding what was decoded gives the text back, with its padding, exactly when the
text has no symbol alone in its last group and the bits that decoding drops are
zeros. -/
theorem base64encode_decoded_iff {ds : List Nat} (hDigits : ∀ d ∈ ds, d < 64) {c : UInt8}
    (hStop : value c = none) (more : Bytes) (hSize : ds.length < 2147483645) :
    ∃ bs, base64decode (ds.map symbol ++ c :: more) = .ok ((bs.length : Int), bs ++ [0]) ∧
      (base64encode bs = ds.map symbol ++ List.replicate (padding ds.length) pad ↔
        ds.length % 4 ≠ 1 ∧ ∀ b ∈ leftover ds, b = false) := by
  refine ⟨octets ds, base64decode_symbols hDigits hStop more hSize, ?_⟩
  rw [base64encode_eq]
  exact encode_octets_iff hDigits

/-- Two symbols whose last four bits are zeros: the text comes back. -/
theorem base64encode_decoded_iff_padded :
    ∃ bs, base64decode (lit "Zg==" ++ [0]) = .ok ((bs.length : Int), bs ++ [0]) ∧
      base64encode bs = lit "Zg==" := by
  obtain ⟨bs, hDecoded, hBack⟩ :=
    @base64encode_decoded_iff [25, 32] (by decide) pad (by decide) [pad, 0] (by decide)
  exact ⟨bs, hDecoded, hBack.mpr (by decide)⟩

end WebSocketFiles
