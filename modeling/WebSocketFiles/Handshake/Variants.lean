import WebSocketFiles.Handshake.Decision
import WebSocketFiles.Handshake.Fields

/-!
# Spellings of a request

HTTP compares field names, and the values of `Upgrade` and `Connection`, without
regard to case, and `Connection` is a list of tokens.  `recv_handshake` looks the
names up as they are spelled in its source and compares the values byte for byte.
A variant of an accepted request is accepted exactly when the four parameters, so
spelled, keep their values (`acceptsVariant_iff`).
-/

namespace WebSocketFiles

open MachineInt ListSearch Splitting

/-! ## Accepted requests -/

/-- `recv_handshake` accepts the buffer, and the packet then holds the key. -/
def AcceptsKey (d key : Bytes) : Prop :=
  ∃ n : UInt32, ∀ mem, ∃ p input,
    (WebSocketPacket.new mem).recvHandshake ⟨d, 0⟩ = .ok (0, p, input) ∧ p.hsLength = n ∧
      p.getParam (lit "Sec-WebSocket-Key") = key

theorem acceptsKey_iff_verdict {d key : Bytes} (hSize : d.length ≤ 1024000) :
    AcceptsKey d key ↔
      ∃ n p, verdict d = .accepted n p ∧ p.getParam (lit "Sec-WebSocket-Key") = key := by
  constructor
  · rintro ⟨size, hAll⟩
    obtain ⟨p, input, hCall, -, hKey⟩ := hAll .zeroed
    rcases verdict_of_recvHandshake .zeroed (lt_of_le_of_lt hSize (by decide)) hCall with
      ⟨hVerdict, -⟩ | ⟨n, q, hVerdict, rfl⟩
    · -- the size would be what the memory holds
      have hMore : NeedsMore ⟨d, 0⟩ := fun mem =>
        ⟨_, _, recvHandshake_undecided mem hVerdict, rfl⟩
      have hBlock : AcceptsBlock ⟨d, 0⟩ := ⟨size, fun mem => by
        obtain ⟨p, input, hCall, hLength, -⟩ := hAll mem
        exact ⟨p, input, hCall, hLength⟩⟩
      exact absurd hMore (not_needsMore_of_decided (.inl hBlock))
    · exact ⟨n, q, hVerdict, hKey⟩
  · rintro ⟨n, p, hVerdict, hKey⟩
    exact ⟨UInt32.ofNat n, fun mem => ⟨_, _, recvHandshake_accepted mem hVerdict, rfl, hKey⟩⟩

theorem AsksUpgrade.ne_nil {H : List Bytes} (hAsks : AsksUpgrade H) : H ≠ [] := by
  rintro rfl
  exact absurd hAsks (by decide +kernel)

/-- A request is accepted by its request line and its header lines. -/
theorem Request.acceptsKey_iff (R : Request) (hSize : R.bytes.length ≤ 1024000) {key : Bytes} :
    AcceptsKey R.bytes key ↔
      3 ≤ (pieces SP (strip 32 R.line)).length ∧ AsksUpgrade R.fields ∧
        headerGet R.fields (lit "Sec-WebSocket-Key") = key := by
  have hLimit : ¬ wsMaxHandshakeFrameSize < R.bytes.length := by
    unfold wsMaxHandshakeFrameSize
    omega
  have hEnd : (EOL.intercalate R.lines).length + 4 ≤ R.bytes.length :=
    indexOfSub_add_le (by decide) R.indexOfSub_bytes
  rw [acceptsKey_iff_verdict hSize, verdict, if_neg hLimit, R.fetchHsElement_bytes _ (by omega)]
  by_cases hFew : R.lines.length < 2
  · -- a single line has no header line behind it
    have hFields : R.fields = [] := by
      simp only [lines, List.length_append, List.length_cons] at hFew
      exact List.length_eq_zero_iff.mp (by omega)
    rw [if_pos hFew]
    constructor
    · rintro ⟨n, p, hVerdict, -⟩
      exact absurd hVerdict (by simp)
    · exact fun hAll => absurd hFields hAll.2.1.ne_nil
  · rw [if_neg hFew]
    by_cases hMany : 3 ≤ (pieces SP (strip 32 R.line)).length
    · obtain ⟨m, u, v, rest, hWords⟩ := exists_words hMany
      have hParams := handshakeParamsOk_withRequest .zeroed m u v R.fields
      have hKey := getParam_withRequest .zeroed m u v R.fields (lit "Sec-WebSocket-Key")
      simp only [hWords]
      rw [toInt32_of_lt (by omega) (by omega), if_neg (by omega)]
      by_cases hAsks : AsksUpgrade R.fields
      · simp only [if_pos (hParams.mpr hAsks), Verdict.accepted.injEq]
        constructor
        · rintro ⟨n, p, ⟨-, rfl⟩, hSame⟩
          exact ⟨hWords ▸ hMany, hAsks, hKey.symm.trans hSame⟩
        · exact fun hAll => ⟨_, _, ⟨rfl, rfl⟩, hKey.trans hAll.2.2⟩
      · simp only [if_neg (mt hParams.mp hAsks)]
        simp [hAsks]
    · simp only [hMany, false_and, iff_false]
      rintro ⟨n, p, hVerdict, -⟩
      rcases hWords : pieces SP (strip 32 R.line) with _ | ⟨m, _ | ⟨u, _ | ⟨v, rest⟩⟩⟩
      · simp [hWords] at hVerdict
      · simp [hWords] at hVerdict
      · simp [hWords] at hVerdict
      · simp [hWords] at hMany

/-! ## Variants -/

/-- ASCII lower case. -/
def lower (c : UInt8) : UInt8 :=
  if 65 ≤ c ∧ c ≤ 90 then c + 32 else c

/-- The same text but for the case of its letters. -/
def SameLetters (x y : Bytes) : Prop :=
  x.map lower = y.map lower

instance (x y : Bytes) : Decidable (SameLetters x y) :=
  inferInstanceAs (Decidable (_ = _))

/-- The comma-separated tokens of a value, in lower case. -/
def tokens (v : Bytes) : List Bytes :=
  (v.splitOn 44).map fun token => (strip 32 token).map lower

/-- What may become of the value `v` of the field `name`: the value of `Upgrade`
in another case, that of `Connection` with more tokens and in another case, and
any value as it is. -/
inductive ValueVaries (name v : Bytes) : Bytes → Prop where
  | same : ValueVaries name v v
  | upgrade {v' : Bytes} (hName : SameLetters name (lit "Upgrade")) (hValue : SameLetters v v') :
      ValueVaries name v v'
  | connection {v' : Bytes} (hName : SameLetters name (lit "Connection"))
      (hTokens : (tokens v).Sublist (tokens v')) : ValueVaries name v v'

/-- What may become of a header line: its name in another case, and its value as
the name allows.  A line without a colon stays. -/
inductive FieldVaries : Bytes → Bytes → Prop where
  | same (l : Bytes) : FieldVaries l l
  | field {n n' v v' : Bytes} (hColon : 58 ∉ n) (hName : SameLetters n n')
      (hValue : ValueVaries (strip 32 n) v v') : FieldVaries (n ++ 58 :: v) (n' ++ 58 :: v')

/-- The request differs in its header lines only, each of which varies. -/
structure Request.Varies (R R' : Request) : Prop where
  blanks : R'.blanks = R.blanks
  line : R'.line = R.line
  fields : List.Forall₂ FieldVaries R.fields R'.fields
  rest : R'.rest = R.rest

/-- The names the handshake is decided by, in the spelling of the source. -/
def openingNames : List Bytes :=
  [lit "Upgrade", lit "Connection", lit "Sec-WebSocket-Version", lit "Sec-WebSocket-Key"]

/-- Each of the four names has the value it had: that of the last line with
exactly this name. -/
def KeepsOpening (H H' : List Bytes) : Prop :=
  ∀ n ∈ openingNames, headerGet H' n = headerGet H n

instance (H H' : List Bytes) : Decidable (KeepsOpening H H') :=
  inferInstanceAs (Decidable (∀ _ ∈ _, _))

/-! ## Lower case -/

theorem toNat_lower (c : UInt8) :
    (lower c).toNat = if 65 ≤ c.toNat ∧ c.toNat ≤ 90 then c.toNat + 32 else c.toNat := by
  unfold lower
  simp only [UInt8.le_iff_toNat_le, UInt8.reduceToNat]
  split
  · rw [UInt8.toNat_add]
    simp only [UInt8.reduceToNat]
    omega
  · rfl

theorem lower_lower (c : UInt8) : lower (lower c) = lower c := by
  rw [← UInt8.toNat_inj, toNat_lower, toNat_lower]
  split
  · rw [if_neg (by omega)]
  · rfl

theorem lower_ne {c k : UInt8} (hUpper : 65 ≤ k.toNat ∧ k.toNat ≤ 90) : lower c ≠ k := by
  rw [← UInt8.toNat_inj.ne, toNat_lower]
  split <;> omega

/-- What is in front of the letters comes from itself only. -/
theorem eq_of_lower_eq {c k : UInt8} (hFront : k.toNat < 65) (hLower : lower c = k) : c = k := by
  rw [← UInt8.toNat_inj] at hLower ⊢
  rw [toNat_lower] at hLower
  split at hLower <;> omega

theorem mem_map_lower {x : Bytes} {k : UInt8} (hFront : k.toNat < 65) :
    k ∈ x.map lower ↔ k ∈ x := by
  rw [List.mem_map]
  constructor
  · rintro ⟨c, hMem, hLower⟩
    exact eq_of_lower_eq hFront hLower ▸ hMem
  · intro hMem
    refine ⟨k, hMem, ?_⟩
    rw [← UInt8.toNat_inj, toNat_lower, if_neg (by omega)]

/-- A change of case makes no line end. -/
theorem SameLetters.line_end {x y : Bytes} (hSame : SameLetters x y) (hInfix : EOL <:+: y) :
    EOL <:+: x := by
  have hMap := hInfix.map lower
  rw [← hSame] at hMap
  obtain ⟨l, hl, hEol⟩ := List.infix_map_iff.mp hMap
  obtain ⟨c, l₁, rfl, hCr, hRest⟩ := List.map_eq_cons_iff.mp hEol.symm
  obtain ⟨c', l₂, rfl, hLf, hNil⟩ := List.map_eq_cons_iff.mp hRest
  rwa [eq_of_lower_eq (by decide) hCr, eq_of_lower_eq (by decide) hLf,
    List.map_eq_nil_iff.mp hNil] at hl

/-! ## Names in lower case -/

/-- The line with its name in lower case. -/
def lowerName (line : Bytes) : Bytes :=
  if 58 ∈ line then (line.takeWhile (· != 58)).map lower ++ line.dropWhile (· != 58) else line

/-- A line with a colon is its name, the colon and its value. -/
theorem exists_colon {line : Bytes} (hColon : 58 ∈ line) :
    ∃ n v, 58 ∉ n ∧ line = n ++ 58 :: v ∧ lowerName line = n.map lower ++ 58 :: v := by
  obtain ⟨n, v, rfl, hFree⟩ := List.eq_append_cons_of_mem hColon
  have hName : ∀ c ∈ n, (c != 58) = true := fun c hc =>
    bne_iff_ne.mpr fun hEq => hFree (hEq ▸ hc)
  refine ⟨n, v, hFree, rfl, ?_⟩
  rw [lowerName, if_pos hColon, List.takeWhile_append_of_pos hName,
    List.dropWhile_append_of_pos hName, List.takeWhile_cons_of_neg (by simp),
    List.dropWhile_cons_of_neg (by simp), List.append_nil]

theorem sameLetters_map (x : Bytes) : SameLetters x (x.map lower) := by
  unfold SameLetters
  rw [List.map_map]
  exact List.map_congr_left fun c _ => (lower_lower c).symm

theorem fieldVaries_lowerName (line : Bytes) : FieldVaries line (lowerName line) := by
  by_cases hColon : 58 ∈ line
  · obtain ⟨n, v, hFree, hLine, hLower⟩ := exists_colon hColon
    rw [hLower, hLine]
    exact .field hFree (sameLetters_map n) .same
  · rw [lowerName, if_neg hColon]
    exact .same line

theorem sameLetters_lowerName (line : Bytes) : SameLetters line (lowerName line) := by
  by_cases hColon : 58 ∈ line
  · obtain ⟨n, v, -, hLine, hLower⟩ := exists_colon hColon
    rw [hLower, hLine]
    unfold SameLetters
    rw [List.map_append, List.map_append]
    exact congrArg (· ++ (58 :: v).map lower) (sameLetters_map n)
  · rw [lowerName, if_neg hColon]
    rfl

theorem length_lowerName (line : Bytes) : (lowerName line).length = line.length := by
  have hSame := congrArg List.length (sameLetters_lowerName line)
  rw [List.length_map, List.length_map] at hSame
  exact hSame.symm

/-- No line names the field `Upgrade` any more. -/
theorem setsField_lowerName (line : Bytes) :
    setsField (lit "Upgrade") (lowerName line) = false := by
  by_cases hColon : 58 ∈ line
  · obtain ⟨n, v, hFree, -, hLower⟩ := exists_colon hColon
    rw [hLower]
    refine decide_eq_false ?_
    rintro ⟨-, hName, -⟩
    rw [fieldName, List.takeWhile_append_of_pos, List.takeWhile_cons_of_neg (by simp),
      List.append_nil] at hName
    · have hUpper : 85 ∈ n.map lower := strip_subset 32 (n.map lower) (hName ▸ by decide +kernel)
      obtain ⟨c, -, hLetter⟩ := List.mem_map.mp hUpper
      exact lower_ne (by decide) hLetter
    · intro c hc
      exact bne_iff_ne.mpr fun hEq => hFree ((mem_map_lower (by decide)).mp (hEq ▸ hc))
  · rw [lowerName, if_neg hColon]
    exact decide_eq_false fun hAll => hColon hAll.1

namespace Request

/-- The request with other header lines. -/
def withFields (R : Request) (H : List Bytes) (hEol : ∀ l ∈ H, ¬ EOL <:+: l) (hSome : [] ∉ H) :
    Request where
  blanks := R.blanks
  line := R.line
  fields := H
  rest := R.rest
  blanks_blank := R.blanks_blank
  line_some := R.line_some
  no_eol := by
    intro l hl
    rcases List.mem_append.mp hl with hBlank | hBehind
    · exact R.no_eol l (List.mem_append_left _ hBlank)
    · rcases List.mem_cons.mp hBehind with rfl | hField
      · exact R.no_eol _ (List.mem_append_right _ List.mem_cons_self)
      · exact hEol l hField
  blanks_some := R.blanks_some
  fields_some := hSome

variable (R : Request)

/-- The request with its field names in lower case. -/
def lowered : Request :=
  R.withFields (R.fields.map lowerName)
    (by
      intro l hl hInfix
      obtain ⟨line, hLine, rfl⟩ := List.mem_map.mp hl
      exact R.no_eol line (List.mem_append_right _ (List.mem_cons_of_mem _ hLine))
        ((sameLetters_lowerName line).line_end hInfix))
    (by
      intro hMem
      obtain ⟨line, hLine, hNil⟩ := List.mem_map.mp hMem
      have hLength := length_lowerName line
      rw [hNil, List.length_nil] at hLength
      rw [List.length_eq_zero_iff.mp hLength.symm] at hLine
      exact R.fields_some hLine)

theorem varies_lowered : R.Varies R.lowered := by
  refine ⟨rfl, rfl, ?_, rfl⟩
  show List.Forall₂ FieldVaries R.fields (R.fields.map lowerName)
  rw [List.forall₂_map_right_iff]
  exact List.forall₂_same.mpr fun line _ => fieldVaries_lowerName line

theorem length_bytes_lowered : R.lowered.bytes.length = R.bytes.length := by
  have hLines : R.lowered.lines.map List.length = R.lines.map List.length := by
    show (R.blanks ++ R.line :: R.fields.map lowerName).map List.length = _
    rw [lines, List.map_append, List.map_append, List.map_cons, List.map_cons, List.map_map]
    have hEach : R.fields.map (List.length ∘ lowerName) = R.fields.map List.length :=
      List.map_congr_left fun line _ => length_lowerName line
    rw [hEach]
  simp only [bytes, List.length_append, length_intercalate, hLines]
  rfl

theorem not_acceptsKey_lowered (hSize : R.lowered.bytes.length ≤ 1024000) (key : Bytes) :
    ¬ AcceptsKey R.lowered.bytes key := by
  rw [R.lowered.acceptsKey_iff hSize]
  rintro ⟨-, hAsks, -⟩
  have hNone : headerGet (R.fields.map lowerName) (lit "Upgrade") = [] := by
    rw [headerGet, List.find?_eq_none.mpr]
    intro l hl
    obtain ⟨line, -, rfl⟩ := List.mem_map.mp (List.mem_reverse.mp hl)
    rw [setsField_lowerName]
    decide
  exact absurd (hNone.symm.trans hAsks.1) (by decide +kernel)

end Request

/-! ## Which variants are accepted -/

/-- Every accepted buffer is a request. -/
theorem exists_request_of_accepted {d : Bytes} {n : Nat} {p : WebSocketPacket}
    (hVerdict : verdict d = .accepted n p) : ∃ R : Request, R.bytes = d := by
  obtain ⟨-, -, -, hFind, -, hFetch⟩ := verdict_accepted hVerdict
  refine Request.exists_of_complete hFind fun hNone => ?_
  rw [WebSocketPacket.fetchHsElement_eq, hFind] at hFetch
  simp only [hNone] at hFetch
  split at hFetch
  · exact absurd hFetch (by simp)
  · split at hFetch
    · obtain ⟨hNeg, -⟩ := Prod.mk.inj (Except.ok.inj hFetch)
      omega
    · exact absurd hFetch (by simp)

/-- A variant of an accepted request is accepted, with the same key, exactly when
the four names, in the spelling of the source, keep their values; no accepted
request has all its variants accepted. -/
theorem acceptsVariant_iff {d key : Bytes} (hSize : d.length ≤ 1024000)
    (hAccepts : AcceptsKey d key) :
    (∃ R : Request, R.bytes = d) ∧
      ∀ R : Request, R.bytes = d →
        (∀ R' : Request, R.Varies R' → R'.bytes.length ≤ 1024000 →
          (AcceptsKey R'.bytes key ↔ KeepsOpening R.fields R'.fields)) ∧
        ∃ R' : Request, R.Varies R' ∧ R'.bytes.length = d.length ∧ ¬ AcceptsKey R'.bytes key := by
  constructor
  · obtain ⟨n, p, hVerdict, -⟩ := (acceptsKey_iff_verdict hSize).mp hAccepts
    exact exists_request_of_accepted hVerdict
  · rintro R rfl
    obtain ⟨hWords, ⟨hUpgrade, hConnection, hVersion, hSome⟩, hKey⟩ :=
      (R.acceptsKey_iff hSize).mp hAccepts
    refine ⟨fun R' hVaries hSize' => ?_, R.lowered, R.varies_lowered, R.length_bytes_lowered,
      R.not_acceptsKey_lowered (R.length_bytes_lowered ▸ hSize) key⟩
    rw [R'.acceptsKey_iff hSize', hVaries.line]
    constructor
    · rintro ⟨-, ⟨hUpgrade', hConnection', hVersion', -⟩, hKey'⟩ n hName
      simp only [openingNames, List.mem_cons, List.not_mem_nil, or_false] at hName
      rcases hName with rfl | rfl | rfl | rfl
      · rw [hUpgrade', hUpgrade]
      · rw [hConnection', hConnection]
      · rw [hVersion', hVersion]
      · rw [hKey', hKey]
    · intro hKeeps
      have hValue : ∀ n ∈ openingNames, headerGet R'.fields n = headerGet R.fields n := hKeeps
      simp only [openingNames, List.forall_mem_cons] at hValue
      obtain ⟨hUpgrade', hConnection', hVersion', hKey', -⟩ := hValue
      exact ⟨hWords, ⟨hUpgrade'.trans hUpgrade, hConnection'.trans hConnection,
        hVersion'.trans hVersion, hKey' ▸ hSome⟩, hKey'.trans hKey⟩

/-- The request of a browser, with a host. -/
def hostRequest : Request where
  blanks := []
  line := lit "GET / HTTP/1.1"
  fields := [lit "Host: a", lit "Upgrade: websocket", lit "Connection: Upgrade",
    lit "Sec-WebSocket-Version: 13", lit "Sec-WebSocket-Key: k"]
  rest := []
  blanks_blank := by simp
  line_some := by decide +kernel
  no_eol := by decide +kernel
  blanks_some := by decide
  fields_some := by decide +kernel

theorem hostRequest_accepted : AcceptsKey hostRequest.bytes (lit "k") :=
  (hostRequest.acceptsKey_iff (by decide +kernel)).mpr
    ⟨by decide +kernel, by decide +kernel, by decide +kernel⟩

/-- The same with another spelling of `Host`. -/
def shoutedHost : Request :=
  hostRequest.withFields (lit "HOST: a" :: hostRequest.fields.drop 1) (by decide +kernel)
    (by decide +kernel)

/-- The host is not among the four names, so this variant is accepted. -/
theorem acceptsVariant_iff_host : AcceptsKey shoutedHost.bytes (lit "k") := by
  have hHost : FieldVaries (lit "Host" ++ 58 :: lit " a") (lit "HOST" ++ 58 :: lit " a") :=
    .field (by decide +kernel) (by decide +kernel) .same
  have hVaries : hostRequest.Varies shoutedHost :=
    ⟨rfl, rfl, .cons hHost (List.forall₂_same.mpr fun l _ => .same l), rfl⟩
  have hVariants := (acceptsVariant_iff (by decide +kernel) hostRequest_accepted).2 hostRequest rfl
  exact (hVariants.1 shoutedHost hVaries (by decide +kernel)).mpr (by decide +kernel)

/-- The same with a second token. -/
def keptAlive : Request :=
  hostRequest.withFields
    [lit "Host: a", lit "Upgrade: websocket", lit "Connection: keep-alive, Upgrade",
      lit "Sec-WebSocket-Version: 13", lit "Sec-WebSocket-Key: k"]
    (by decide +kernel) (by decide +kernel)

/-- The list of tokens is compared as a whole. -/
theorem keptAlive_refused :
    AcceptsKey hostRequest.bytes (lit "k") ∧ hostRequest.Varies keptAlive ∧
      keptAlive.bytes.length ≤ 1024000 ∧ ∀ key, ¬ AcceptsKey keptAlive.bytes key := by
  have hConnection : FieldVaries (lit "Connection" ++ 58 :: lit " Upgrade")
      (lit "Connection" ++ 58 :: lit " keep-alive, Upgrade") :=
    .field (by decide +kernel) rfl (.connection (by decide +kernel) (by decide +kernel))
  have hSize : keptAlive.bytes.length ≤ 1024000 := by decide +kernel
  refine ⟨hostRequest_accepted, ⟨rfl, rfl, ?_, rfl⟩, hSize, fun key => ?_⟩
  · exact .cons (.same _) (.cons (.same _) (.cons hConnection (.cons (.same _)
      (.cons (.same _) .nil))))
  · rw [keptAlive.acceptsKey_iff hSize]
    exact fun hAll => absurd hAll.2.1 (by decide +kernel)

end WebSocketFiles
