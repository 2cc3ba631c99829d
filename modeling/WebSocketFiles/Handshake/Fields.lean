import WebSocketFiles.Handshake.Lines
import WebSocketFiles.Handshake.Opening

/-!
# What the header fields mean

A header block is a request line and header lines, each ended by `EOL`, and an
empty line.  Its meaning is independent of the parser: a parameter has the value
of the last line that sets it (`headerGet`).  Reading the block, with any bytes
behind it, gives each parameter this value, and accepts or refuses the handshake
by four of them (`recvHandshake_headers`).
-/

namespace WebSocketFiles

open MachineInt ListSearch Splitting Fallible

/-! ## Header blocks -/

/-- The block with request line `r` and header lines `H`. -/
def headerBlock (r : Bytes) (H : List Bytes) : Bytes :=
  r ++ EOL ++ EOL.intercalate H ++ EOL ++ EOL

/-- The line has a colon, the name `n` before it, and a value after it. -/
def setsField (n line : Bytes) : Bool :=
  decide (58 ∈ line ∧ fieldName line = n ∧ n ≠ [] ∧ fieldValue line ≠ [])

/-- The value of the parameter `n`: that of the last line that sets it. -/
def headerGet (H : List Bytes) (n : Bytes) : Bytes :=
  match H.reverse.find? (setsField n) with
  | some line => fieldValue line
  | none => []

/-- The header lines ask for a WebSocket connection. -/
def AsksUpgrade (H : List Bytes) : Prop :=
  headerGet H (lit "Upgrade") = lit "websocket" ∧
    headerGet H (lit "Connection") = lit "Upgrade" ∧
    headerGet H (lit "Sec-WebSocket-Version") = lit "13" ∧
    headerGet H (lit "Sec-WebSocket-Key") ≠ []

instance (H : List Bytes) : Decidable (AsksUpgrade H) :=
  inferInstanceAs (Decidable (_ ∧ _ ∧ _ ∧ _))

/-- A block is its lines, joined, and two line ends. -/
theorem headerBlock_eq {r : Bytes} {H : List Bytes} (hHeaders : H ≠ []) :
    headerBlock r H = EOL.intercalate (r :: H) ++ (EOL ++ EOL) := by
  obtain ⟨h, H, rfl⟩ := List.exists_cons_of_ne_nil hHeaders
  simp [headerBlock, List.intercalate]

/-- Looking up a parameter finds the last line that sets it. -/
theorem lookup_headerField (H : List Bytes) (n : Bytes) :
    ((H.filterMap headerField).reverse.lookup n).getD [] = headerGet H n := by
  unfold headerGet
  rw [← List.filterMap_reverse]
  generalize H.reverse = lines
  induction lines with
  | nil => rfl
  | cons line lines ih =>
      -- a line that sets no parameter is skipped by both sides
      by_cases hSets : 58 ∈ line ∧ fieldName line ≠ [] ∧ fieldValue line ≠ []
      · rw [List.filterMap_cons_some (show headerField line = some _ from if_pos hSets),
          List.lookup_cons, List.find?_cons]
        by_cases hName : fieldName line = n
        · have hHere : setsField n line = true :=
            decide_eq_true ⟨hSets.1, hName, hName ▸ hSets.2.1, hSets.2.2⟩
          have hKey : (n == fieldName line) = true := by
            rw [hName]
            exact beq_self_eq_true n
          rw [hHere, hKey]
          rfl
        · have hOther : setsField n line = false :=
            decide_eq_false fun hAll => hName hAll.2.1
          have hKey : (n == fieldName line) = false :=
            beq_eq_false_iff_ne.mpr (Ne.symm hName)
          rw [hOther, hKey]
          exact ih
      · have hOther : setsField n line = false := by
          refine decide_eq_false fun hAll => hSets ⟨hAll.1, ?_, hAll.2.2.2⟩
          rw [hAll.2.1]
          exact hAll.2.2.1
        rw [List.filterMap_cons_none (show headerField line = none from if_neg hSets),
          List.find?_cons, hOther]
        exact ih

/-! ## Reading a block -/

section Read

variable {r : Bytes} {H : List Bytes} (hRequest : blank r = false)
  (hWords : 3 ≤ ((strip 32 r).splitOn 32).length) (hHeaders : H ≠ [])
  (hSome : ∀ l ∈ H, l ≠ []) (hFree : ∀ l ∈ r :: H, 13 ∉ l)

include hRequest hHeaders hSome hFree in
/-- A block, with any bytes behind it, is a request. -/
theorem exists_request_headerBlock (t : Bytes) :
    ∃ R : Request, R.bytes = headerBlock r H ++ t ∧ R.lines = r :: H ∧ R.line = r ∧
      R.fields = H := by
  refine ⟨⟨[], r, H, t, by simp, hRequest, fun l hl hInfix => ?_, by simp, fun hMem => ?_⟩,
    ?_, rfl, rfl, rfl⟩
  · -- a line without CR has no line end
    exact hFree l hl (hInfix.subset (by decide))
  · exact hSome [] hMem rfl
  · rw [headerBlock_eq hHeaders, List.append_assoc]
    rfl

include hRequest in
/-- The words of a request line are the parts between its single spaces. -/
theorem pieces_request : pieces SP (strip 32 r) = (strip 32 r).splitOn 32 := by
  have hNe : strip 32 r ≠ [] := by
    rw [ne_eq, strip_eq_nil_iff_blank, hRequest]
    decide
  exact pieces_singleton _ _ (Nat.lt_succ_self _) hNe (getLast?_strip 32 r)

include hRequest hWords hHeaders hSome hFree in
/-- What `fetch_hs_element` reads from a block whose size is an `int`. -/
theorem fetchHsElement_headerBlock (p : WebSocketPacket) (t : Bytes)
    (hFits : (headerBlock r H).length < 2147483648) :
    ∃ m u v rest, (strip 32 r).splitOn 32 = m :: u :: v :: rest ∧
      p.fetchHsElement (headerBlock r H ++ t) =
        .ok (toInt32 (headerBlock r H).length, p.withRequest m u v H) := by
  obtain ⟨m, u, v, rest, hSplit⟩ := exists_words hWords
  obtain ⟨R, hBytes, hLines, hLine, hFields⟩ :=
    exists_request_headerBlock hRequest hHeaders hSome hFree t
  have hMany : ¬ (r :: H).length < 2 := by
    have hPos := List.length_pos_iff.mpr hHeaders
    rw [List.length_cons]
    omega
  have hLength : ((EOL.intercalate (r :: H)).length : Int) + 4 = (headerBlock r H).length := by
    rw [headerBlock_eq hHeaders, List.length_append]
    rfl
  have hShort : (EOL.intercalate R.lines).length < 2147483648 := by
    rw [hLines]
    omega
  refine ⟨m, u, v, rest, hSplit, ?_⟩
  rw [← hBytes, R.fetchHsElement_bytes p hShort, hLines, hLine, hFields, if_neg hMany,
    pieces_request hRequest]
  simp only [hSplit, hLength]

end Read

/-- The parameters of a fresh packet that read the header lines. -/
theorem getParam_withRequest (mem : Uninit) (m u v : Bytes) (H : List Bytes) (n : Bytes) :
    ((WebSocketPacket.new mem).withRequest m u v H).getParam n = headerGet H n := by
  rw [← lookup_headerField]
  unfold WebSocketPacket.getParam WebSocketPacket.withRequest WebSocketPacket.new
  rw [List.append_nil]

/-- The parameter checks ask for what the header lines mean. -/
theorem handshakeParamsOk_withRequest (mem : Uninit) (m u v : Bytes) (H : List Bytes) :
    ((WebSocketPacket.new mem).withRequest m u v H).handshakeParamsOk = true ↔
      AsksUpgrade H := by
  unfold WebSocketPacket.handshakeParamsOk AsksUpgrade
  simp only [getParam_withRequest, Bool.not_eq_true', Bool.or_eq_false_iff, bne_eq_false_iff_eq,
    beq_eq_false_iff_ne, and_assoc, ne_eq]

/-- What `recv_handshake` makes of the block with request line `r` and header
lines `H` and of the bytes `t` behind it: its result, the packet and the
buffer. -/
structure ReadsBlock (r : Bytes) (H : List Bytes) (t : Bytes) (status : Int)
    (p : WebSocketPacket) (input : ByteBuffer) : Prop where
  /-- the request line's first three words -/
  request : [p.mothod, p.uri, p.version] = ((strip 32 r).splitOn 32).take 3
  /-- each parameter has the value the header lines give it -/
  params : ∀ n, p.getParam n = headerGet H n
  /-- the bytes stay in the buffer -/
  data : input.data = headerBlock r H ++ t
  /-- the block is accepted, and the cursor stands behind it -/
  accepts : AsksUpgrade H →
    status = 0 ∧ p.hsLength.toNat = (headerBlock r H).length ∧
      input.oft = (headerBlock r H).length
  /-- or refused, with the cursor at the front -/
  refuses : ¬ AsksUpgrade H → status = wsErrorInvalidHandshakeParams ∧ input.oft = 0

/-- Reading a block agrees with the meaning of its lines, whatever follows it. -/
theorem recvHandshake_headers {r : Bytes} {H : List Bytes} (hRequest : blank r = false)
    (hWords : 3 ≤ ((strip 32 r).splitOn 32).length) (hHeaders : H ≠ [])
    (hSome : ∀ l ∈ H, l ≠ []) (hFree : ∀ l ∈ r :: H, 13 ∉ l) (t : Bytes)
    (hSize : (headerBlock r H ++ t).length ≤ 1024000) (mem : Uninit) :
    ∃ status p input,
      (WebSocketPacket.new mem).recvHandshake ⟨headerBlock r H ++ t, 0⟩ = .ok (status, p, input) ∧
        ReadsBlock r H t status p input := by
  have hLe : (headerBlock r H).length ≤ 1024000 := by
    rw [List.length_append] at hSize
    omega
  obtain ⟨m, u, v, rest, hSplit, hFetch⟩ :=
    fetchHsElement_headerBlock hRequest hWords hHeaders hSome hFree (.new .zeroed) t (by omega)
  -- the words have no space in them, so that trimming leaves them as they are
  have hWord : ∀ w ∈ [m, u, v], strip 32 w = w := by
    intro w hw
    refine strip_of_not_mem
      (not_mem_of_mem_splitOn _ (strip 32 r) (Nat.lt_succ_self _) w ?_)
    rw [hSplit]
    exact List.mem_of_mem_take (i := 3) hw
  have hPositive : 4 ≤ (headerBlock r H).length := by
    rw [headerBlock_eq hHeaders, List.length_append]
    exact Nat.le_add_left _ _
  rw [toInt32_of_lt (by omega) (by omega)] at hFetch
  have hRead : [strip 32 m, strip 32 u, strip 32 v] = ((strip 32 r).splitOn 32).take 3 := by
    rw [hSplit, hWord m (by simp), hWord u (by simp), hWord v (by simp)]
    rfl
  have hParams := handshakeParamsOk_withRequest .zeroed m u v H
  by_cases hAsks : AsksUpgrade H
  · have hVerdict : verdict (headerBlock r H ++ t) =
        .accepted (headerBlock r H).length ((WebSocketPacket.new .zeroed).withRequest m u v H) := by
      unfold verdict wsMaxHandshakeFrameSize
      rw [if_neg (by omega), hFetch]
      simp only
      rw [if_neg (by omega), if_pos (hParams.mpr hAsks), Int.toNat_natCast]
    have hBack : (UInt32.ofNat (headerBlock r H).length).toNat = (headerBlock r H).length := by
      rw [UInt32.toNat_ofNat']
      omega
    refine ⟨_, _, _, recvHandshake_accepted mem hVerdict, hRead, fun n => ?_, rfl,
      fun _ => ⟨rfl, hBack, rfl⟩, fun hNot => absurd hAsks hNot⟩
    exact getParam_withRequest mem m u v H n
  · have hWrong : (!((WebSocketPacket.new .zeroed).withRequest m u v H).handshakeParamsOk) =
        true := by
      rw [Bool.not_eq_true', ← Bool.not_eq_true]
      exact mt hParams.mp hAsks
    have hCall : (WebSocketPacket.new mem).recvHandshake ⟨headerBlock r H ++ t, 0⟩ = _ :=
      recvHandshake_eq mem hSize
    rw [hFetch, ok_bind, if_neg (by omega), if_pos hWrong] at hCall
    refine ⟨_, _, _, hCall, hRead, fun n => ?_, rfl, fun hAll => absurd hAll hAsks,
      fun _ => ⟨rfl, rfl⟩⟩
    exact getParam_withRequest mem m u v H n

/-- Header lines with a line that has no colon, a parameter set twice, and a value
that holds a colon. -/
def upgradeLines : List Bytes :=
  [lit "Host: a:80", lit "Upgrade: h2c", lit "chat", lit "Connection:Upgrade",
    lit " Upgrade : websocket", lit "Sec-WebSocket-Version: 13", lit "Sec-WebSocket-Key: k"]

/-- The later `Upgrade` counts, and the connection opens. -/
theorem recvHandshake_headers_upgrade : ∃ p input,
    (WebSocketPacket.new .zeroed).recvHandshake
        ⟨headerBlock (lit "GET / HTTP/1.1") upgradeLines ++ [129], 0⟩ = .ok (0, p, input) ∧
      p.getParam (lit "Host") = lit "a:80" ∧ p.getParam (lit "Upgrade") = lit "websocket" := by
  obtain ⟨status, p, input, hCall, hRead⟩ :=
    recvHandshake_headers (r := lit "GET / HTTP/1.1") (H := upgradeLines)
      (by decide +kernel) (by decide +kernel) (by decide) (by decide +kernel) (by decide +kernel)
      [129] (by decide +kernel) .zeroed
  obtain ⟨rfl, -, -⟩ := hRead.accepts (by decide +kernel)
  refine ⟨p, input, hCall, ?_, ?_⟩
  · rw [hRead.params]
    decide +kernel
  · rw [hRead.params]
    decide +kernel

end WebSocketFiles
