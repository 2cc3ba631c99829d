import WebSocketFiles.Digest.Base64
import WebSocketFiles.Digest.Sha1
import WebSocketFiles.Handshake.Arrival
import WebSocketFiles.Handshake.Fields

/-!
# The answer to the handshake

The response of `pack_handshake_rsp` is a header block, and reading it with the
program's own parser gives back its fields (`packHandshakeRsp_reads_back`).  Its
accept value is the one RFC 6455 asks for, computed from the key that the header
lines of the request name (`answers_any_segmentation`).
-/

namespace WebSocketFiles

open MachineInt ListSearch Splitting

/-! ## Header lines -/

/-- The line that sets `name` to `value`. -/
def fieldLine (name value : Bytes) : Bytes :=
  name ++ 58 :: 32 :: value

/-- A name and a value that a header line can carry. -/
structure FieldText (name value : Bytes) : Prop where
  no_colon : 58 ∉ name
  name_free : 32 ∉ name
  name_some : name ≠ []
  value_free : 32 ∉ value
  value_some : value ≠ []

theorem FieldText.fieldName_eq {name value : Bytes} (hText : FieldText name value) :
    fieldName (fieldLine name value) = name := by
  have hName : ∀ c ∈ name, (c != 58) = true := by
    intro c hMem
    exact bne_iff_ne.mpr fun hEq => hText.no_colon (hEq ▸ hMem)
  rw [fieldName, fieldLine, List.takeWhile_append_of_pos hName,
    List.takeWhile_cons_of_neg (by simp), List.append_nil, strip_of_not_mem hText.name_free]

theorem FieldText.fieldValue_eq {name value : Bytes} (hText : FieldText name value) :
    fieldValue (fieldLine name value) = value := by
  have hName : ∀ c ∈ name, (c != 58) = true := by
    intro c hMem
    exact bne_iff_ne.mpr fun hEq => hText.no_colon (hEq ▸ hMem)
  rw [fieldValue, fieldLine, List.dropWhile_append_of_pos hName,
    List.dropWhile_cons_of_neg (by simp), List.drop_succ_cons, List.drop_zero, strip]
  have hSpace : (32 :: value).dropWhile (· == 32) = value.dropWhile (· == 32) :=
    List.dropWhile_cons_of_pos (by simp)
  rw [hSpace]
  exact strip_of_not_mem hText.value_free

/-- A line carries its name and its value. -/
theorem FieldText.headerField_eq {name value : Bytes} (hText : FieldText name value) :
    headerField (fieldLine name value) = some (name, value) := by
  have hColon : 58 ∈ fieldLine name value :=
    List.mem_append_right name List.mem_cons_self
  rw [headerField, hText.fieldName_eq, hText.fieldValue_eq,
    if_pos ⟨hColon, hText.name_some, hText.value_some⟩]

/-- The value of a parameter in lines that carry names and values: that of the last
line with its name. -/
theorem headerGet_fieldLines {fields : List (Bytes × Bytes)}
    (hTexts : ∀ f ∈ fields, FieldText f.1 f.2) (n : Bytes) :
    headerGet (fields.map fun f => fieldLine f.1 f.2) n =
      (fields.reverse.lookup n).getD [] := by
  have hFields : (fields.map fun f => fieldLine f.1 f.2).filterMap headerField = fields := by
    clear n
    induction fields with
    | nil => rfl
    | cons f fields ih =>
        obtain ⟨hText, hOthers⟩ := List.forall_mem_cons.mp hTexts
        rw [List.map_cons, List.filterMap_cons_some hText.headerField_eq, ih hOthers]
  rw [← lookup_headerField, hFields]

/-! ## The response -/

/-- The accept value that RFC 6455 asks for. -/
def acceptValue (key : Bytes) : Bytes :=
  Base64.encode (Sha1.sha1 (key ++ lit "258EAFA5-E914-47DA-95CA-C5AB0DC85B11"))

/-- A symbol of Base64 is neither NUL, LF, CR, a space nor a colon. -/
theorem not_mem_encode (bs : Bytes) {c : UInt8} (hText : c ∈ ([0, 10, 13, 32, 58] : Bytes)) :
    c ∉ Base64.encode bs := by
  have hSymbols : ∀ c ∈ ([0, 10, 13, 32, 58] : Bytes), ∀ d < 64, c ≠ Base64.symbol d := by
    decide +kernel
  have hPad : ∀ c ∈ ([0, 10, 13, 32, 58] : Bytes), c ≠ Base64.pad := by
    decide +kernel
  intro hEncoded
  rcases Base64.mem_encode hEncoded with ⟨d, hDigit, hEq⟩ | hEq
  · exact hSymbols c hText d hDigit hEq
  · exact hPad c hText hEq

namespace WebSocketPacket

/-- The status line. -/
def rspLine : Bytes :=
  lit "HTTP/1.1 101 Switching Protocols"

/-- The accept value of the response. -/
def acceptKey (p : WebSocketPacket) : Bytes :=
  base64encode (SHA1.SHA1HashString
    (p.getParam (lit "Sec-WebSocket-Key") ++ lit "258EAFA5-E914-47DA-95CA-C5AB0DC85B11"))

/-- The fields of the response. -/
def rspFields (p : WebSocketPacket) : List (Bytes × Bytes) :=
  [(lit "Connection", lit "upgrade"), (lit "Upgrade", lit "websocket"),
    (lit "Sec-WebSocket-Accept", p.acceptKey)] ++
  if p.getParam (lit "Sec-WebSocket-Protocol") ≠ [] then
    [(lit "Sec-WebSocket-Protocol", lit "chat")]
  else []

/-- The response is a header block. -/
theorem packHandshakeRsp_eq (p : WebSocketPacket) :
    p.packHandshakeRsp = headerBlock rspLine (p.rspFields.map fun f => fieldLine f.1 f.2) := by
  have hConnection : fieldLine (lit "Connection") (lit "upgrade") = lit "Connection: upgrade" := by
    decide
  have hUpgrade : fieldLine (lit "Upgrade") (lit "websocket") = lit "Upgrade: websocket" := by
    decide
  have hAccept : fieldLine (lit "Sec-WebSocket-Accept") p.acceptKey =
      lit "Sec-WebSocket-Accept: " ++ p.acceptKey := by
    have hName : lit "Sec-WebSocket-Accept: " = lit "Sec-WebSocket-Accept" ++ [58, 32] := by
      decide
    rw [hName, List.append_assoc]
    rfl
  have hProtocol : fieldLine (lit "Sec-WebSocket-Protocol") (lit "chat") =
      lit "Sec-WebSocket-Protocol: chat" := by
    decide
  unfold packHandshakeRsp headerBlock rspFields
  simp only
  rw [← acceptKey, ← rspLine]
  split
  · simp only [List.cons_append, List.nil_append, List.map_cons, List.map_nil, hConnection,
      hUpgrade, hAccept, hProtocol, List.intercalate_cons_cons, List.intercalate_singleton,
      List.append_assoc]
  · simp only [List.append_nil, List.map_cons, List.map_nil, hConnection, hUpgrade, hAccept,
      List.intercalate_cons_cons, List.intercalate_singleton, List.append_assoc]

/-- The accept value is the one of the key, unless the key is of half a gibibyte. -/
theorem acceptKey_eq {p : WebSocketPacket}
    (hSize : (p.getParam (lit "Sec-WebSocket-Key")).length < 536870876) :
    p.acceptKey = acceptValue (p.getParam (lit "Sec-WebSocket-Key")) := by
  have hMagic : (lit "258EAFA5-E914-47DA-95CA-C5AB0DC85B11").length = 36 := by
    decide
  rw [acceptKey, acceptValue, base64encode_eq,
    SHA1.SHA1HashString_sha1 (by rw [List.length_append, hMagic]; omega)]

theorem fieldText_acceptKey (p : WebSocketPacket) :
    FieldText (lit "Sec-WebSocket-Accept") p.acceptKey := by
  have hEncoded : p.acceptKey = Base64.encode (SHA1.SHA1HashString
      (p.getParam (lit "Sec-WebSocket-Key") ++ lit "258EAFA5-E914-47DA-95CA-C5AB0DC85B11")) :=
    base64encode_eq _
  have hLength : p.acceptKey.length = 28 := by
    rw [hEncoded, Base64.encode_length, SHA1.SHA1HashString_length]
  refine ⟨by decide, by decide, by decide, ?_, ?_⟩
  · rw [hEncoded]
    exact not_mem_encode _ (by decide)
  · intro hNil
    rw [hNil] at hLength
    exact absurd hLength (by decide)

/-- Every field of the response can be read. -/
theorem fieldText_rspFields (p : WebSocketPacket) :
    ∀ f ∈ p.rspFields, FieldText f.1 f.2 := by
  have hFixed : ∀ f ∈ [(lit "Connection", lit "upgrade"), (lit "Upgrade", lit "websocket"),
      (lit "Sec-WebSocket-Protocol", lit "chat")], FieldText f.1 f.2 := by
    intro f hMem
    have hTexts : ∀ f ∈ [(lit "Connection", lit "upgrade"), (lit "Upgrade", lit "websocket"),
        (lit "Sec-WebSocket-Protocol", lit "chat")],
        58 ∉ f.1 ∧ 32 ∉ f.1 ∧ f.1 ≠ [] ∧ 32 ∉ f.2 ∧ f.2 ≠ [] := by
      decide
    obtain ⟨hColon, hName, hSome, hValue, hText⟩ := hTexts f hMem
    exact ⟨hColon, hName, hSome, hValue, hText⟩
  intro f hMem
  rcases List.mem_append.mp hMem with hAlways | hProtocol
  · simp only [List.mem_cons, List.not_mem_nil, or_false] at hAlways
    rcases hAlways with rfl | rfl | rfl
    · exact hFixed _ (by simp)
    · exact hFixed _ (by simp)
    · exact fieldText_acceptKey p
  · split at hProtocol
    · rw [List.mem_singleton.mp hProtocol]
      exact hFixed _ (by simp)
    · exact absurd hProtocol List.not_mem_nil

/-- Looking up the names of the response. -/
theorem lookup_rspFields (p : WebSocketPacket) :
    (p.rspFields.reverse.lookup (lit "Upgrade")).getD [] = lit "websocket" ∧
      (p.rspFields.reverse.lookup (lit "Connection")).getD [] = lit "upgrade" ∧
      (p.rspFields.reverse.lookup (lit "Sec-WebSocket-Accept")).getD [] = p.acceptKey ∧
      (p.rspFields.reverse.lookup (lit "Sec-WebSocket-Protocol")).getD [] =
        if p.getParam (lit "Sec-WebSocket-Protocol") ≠ [] then lit "chat" else [] := by
  have hDistinct : (lit "Upgrade" == lit "Sec-WebSocket-Protocol") = false ∧
      (lit "Upgrade" == lit "Sec-WebSocket-Accept") = false ∧
      (lit "Connection" == lit "Sec-WebSocket-Protocol") = false ∧
      (lit "Connection" == lit "Sec-WebSocket-Accept") = false ∧
      (lit "Connection" == lit "Upgrade") = false ∧
      (lit "Sec-WebSocket-Accept" == lit "Sec-WebSocket-Protocol") = false ∧
      (lit "Sec-WebSocket-Protocol" == lit "Sec-WebSocket-Accept") = false ∧
      (lit "Sec-WebSocket-Protocol" == lit "Upgrade") = false ∧
      (lit "Sec-WebSocket-Protocol" == lit "Connection") = false := by
    decide
  unfold rspFields
  split
  · simp only [List.cons_append, List.nil_append, List.reverse_cons, List.reverse_nil,
      List.lookup_cons, beq_self_eq_true, hDistinct, Option.getD_some, and_self]
  · simp only [List.append_nil, List.cons_append, List.nil_append, List.reverse_cons,
      List.reverse_nil, List.lookup_cons, List.lookup_nil, beq_self_eq_true, hDistinct,
      Option.getD_some, Option.getD_none, and_self]

/-- No line of the response breaks. -/
theorem rspLines_free (p : WebSocketPacket) :
    ∀ l ∈ rspLine :: p.rspFields.map fun f => fieldLine f.1 f.2, 13 ∉ l := by
  have hFixed : ∀ l ∈ [rspLine, fieldLine (lit "Connection") (lit "upgrade"),
      fieldLine (lit "Upgrade") (lit "websocket"),
      fieldLine (lit "Sec-WebSocket-Protocol") (lit "chat"),
      fieldLine (lit "Sec-WebSocket-Accept") []], 13 ∉ l := by
    decide
  have hAccept : 13 ∉ fieldLine (lit "Sec-WebSocket-Accept") p.acceptKey := by
    have hSplit : fieldLine (lit "Sec-WebSocket-Accept") p.acceptKey =
        fieldLine (lit "Sec-WebSocket-Accept") [] ++ p.acceptKey := by
      simp [fieldLine]
    rw [hSplit, List.mem_append, not_or]
    refine ⟨hFixed _ (by simp), ?_⟩
    rw [acceptKey, base64encode_eq]
    exact not_mem_encode _ (by decide)
  intro l hMem
  unfold rspFields at hMem
  split at hMem
  · simp only [List.cons_append, List.nil_append, List.map_cons, List.map_nil, List.mem_cons,
      List.not_mem_nil, or_false] at hMem
    rcases hMem with rfl | rfl | rfl | rfl | rfl
    · exact hFixed _ (by simp)
    · exact hFixed _ (by simp)
    · exact hFixed _ (by simp)
    · exact hAccept
    · exact hFixed _ (by simp)
  · simp only [List.append_nil, List.map_cons, List.map_nil, List.mem_cons,
      List.not_mem_nil, or_false] at hMem
    rcases hMem with rfl | rfl | rfl | rfl
    · exact hFixed _ (by simp)
    · exact hFixed _ (by simp)
    · exact hFixed _ (by simp)
    · exact hAccept

/-- Parsing the response, whatever follows it, reads its fields. -/
theorem fetchHsElement_packHandshakeRsp (p : WebSocketPacket) (mem : Uninit) (t : Bytes) :
    ∃ q, (WebSocketPacket.new mem).fetchHsElement (p.packHandshakeRsp ++ t) =
        .ok ((p.packHandshakeRsp.length : Int), q) ∧
      [q.mothod, q.uri, q.version] = [lit "HTTP/1.1", lit "101", lit "Switching"] ∧
      ∀ n, q.getParam n = (p.rspFields.reverse.lookup n).getD [] := by
  have hFields : p.rspFields ≠ [] := by
    unfold rspFields
    exact List.cons_ne_nil _ _
  have hLines : (p.rspFields.map fun f => fieldLine f.1 f.2) ≠ [] := by
    rwa [ne_eq, List.map_eq_nil_iff]
  have hSome : ∀ l ∈ p.rspFields.map fun f => fieldLine f.1 f.2, l ≠ [] := by
    intro l hMem
    obtain ⟨f, -, rfl⟩ := List.mem_map.mp hMem
    simp [fieldLine]
  have hWords : (strip 32 rspLine).splitOn 32 =
      [lit "HTTP/1.1", lit "101", lit "Switching", lit "Protocols"] := by
    decide
  have hSize := p.packHandshakeRsp_length.2
  obtain ⟨m, u, v, rest, hSplit, hFetch⟩ := fetchHsElement_headerBlock
    (show blank rspLine = false by decide) (by rw [hWords]; decide) hLines hSome
    (rspLines_free p) (.new mem) t (by rw [← packHandshakeRsp_eq]; omega)
  rw [hWords, List.cons.injEq, List.cons.injEq, List.cons.injEq] at hSplit
  obtain ⟨rfl, rfl, rfl, -⟩ := hSplit
  rw [← packHandshakeRsp_eq, toInt32_of_lt (by omega) (by omega)] at hFetch
  have hRead : [strip 32 (lit "HTTP/1.1"), strip 32 (lit "101"), strip 32 (lit "Switching")] =
      [lit "HTTP/1.1", lit "101", lit "Switching"] := by
    decide
  refine ⟨_, hFetch, hRead, fun n => ?_⟩
  rw [getParam_withRequest, headerGet_fieldLines (fieldText_rspFields p)]

/-- The program's own parser reads the response back, whatever follows it: the status
line's words and exactly the response's fields; and decoding the accept value gives the
digest it was made from. -/
theorem packHandshakeRsp_reads_back (p : WebSocketPacket) (mem : Uninit) (t : Bytes) :
    ∃ q, (WebSocketPacket.new mem).fetchHsElement (p.packHandshakeRsp ++ t) =
        .ok ((p.packHandshakeRsp.length : Int), q) ∧
      [q.mothod, q.uri, q.version] = [lit "HTTP/1.1", lit "101", lit "Switching"] ∧
      (∀ n, q.getParam n = (p.rspFields.reverse.lookup n).getD []) ∧
      ∀ more, base64decode (q.getParam (lit "Sec-WebSocket-Accept") ++ 0 :: more) =
        .ok (20, SHA1.SHA1HashString (p.getParam (lit "Sec-WebSocket-Key") ++
          lit "258EAFA5-E914-47DA-95CA-C5AB0DC85B11") ++ [0]) := by
  obtain ⟨q, hFetch, hRead, hFields⟩ := p.fetchHsElement_packHandshakeRsp mem t
  refine ⟨q, hFetch, hRead, hFields, fun more => ?_⟩
  have hDigest := SHA1.SHA1HashString_length (p.getParam (lit "Sec-WebSocket-Key") ++
    lit "258EAFA5-E914-47DA-95CA-C5AB0DC85B11")
  rw [hFields, p.lookup_rspFields.2.2.1, acceptKey, base64encode_eq,
    base64decode_encode (by rw [hDigest]; decide), hDigest]
  rfl

-- the sample handshake of RFC 6455
example : base64encode (SHA1.SHA1HashString (lit "dGhlIHNhbXBsZSBub25jZQ==" ++
    lit "258EAFA5-E914-47DA-95CA-C5AB0DC85B11")) = lit "s3pPLMBiTxaQ9kYGzzhZRbK+xOo=" := by
  decide +kernel

end WebSocketPacket

/-! ## The answer to a request -/

/-- A value is no longer than its line. -/
theorem fieldValue_length_le (line : Bytes) : (fieldValue line).length ≤ line.length := by
  refine (length_strip_le 32 _).trans ?_
  rw [List.length_drop]
  have hSuffix : (line.dropWhile (· != 58)).length ≤ line.length :=
    (List.dropWhile_suffix _).length_le
  omega

theorem length_le_intercalate {l : Bytes} {H : List Bytes} (hMem : l ∈ H) :
    l.length ≤ (EOL.intercalate H).length := by
  induction H with
  | nil => exact absurd hMem List.not_mem_nil
  | cons h H ih =>
      cases H with
      | nil =>
          rw [List.mem_singleton.mp hMem, List.intercalate_singleton]
      | cons h' H =>
          rw [List.intercalate_cons_cons, List.length_append, List.length_append]
          rcases List.mem_cons.mp hMem with rfl | hRest
          · omega
          · have hTail := ih hRest
            omega

/-- A parameter is no longer than the block that names it. -/
theorem headerGet_length_le (r : Bytes) (H : List Bytes) (n : Bytes) :
    (headerGet H n).length ≤ (headerBlock r H).length := by
  unfold headerGet
  split
  · rename_i line hFind
    have hMem : line ∈ H := List.mem_reverse.mp (List.mem_of_find?_eq_some hFind)
    refine (fieldValue_length_le line).trans ((length_le_intercalate hMem).trans ?_)
    simp only [headerBlock, List.length_append]
    omega
  · exact Nat.zero_le _

section Block

variable {r : Bytes} {H : List Bytes} (hRequest : blank r = false)
  (hWords : 3 ≤ ((strip 32 r).splitOn 32).length) (hHeaders : H ≠ [])
  (hSome : ∀ l ∈ H, l ≠ []) (hFree : ∀ l ∈ r :: H, 13 ∉ l)

include hRequest hWords hHeaders hSome hFree in
/-- A block that asks for a connection is accepted, whatever follows it. -/
theorem verdict_headerBlock (hAsks : AsksUpgrade H) (t : Bytes)
    (hSize : (headerBlock r H ++ t).length ≤ 1024000) :
    ∃ p, verdict (headerBlock r H ++ t) = .accepted (headerBlock r H).length p ∧
      ∀ n, p.getParam n = headerGet H n := by
  have hLe : (headerBlock r H).length ≤ 1024000 := by
    rw [List.length_append] at hSize
    omega
  obtain ⟨m, u, v, rest, -, hFetch⟩ :=
    fetchHsElement_headerBlock hRequest hWords hHeaders hSome hFree (.new .zeroed) t (by omega)
  have hPositive : 4 ≤ (headerBlock r H).length := by
    rw [headerBlock_eq hHeaders, List.length_append]
    exact Nat.le_add_left _ _
  rw [toInt32_of_lt (by omega) (by omega)] at hFetch
  refine ⟨_, ?_, fun n => getParam_withRequest .zeroed m u v H n⟩
  unfold verdict wsMaxHandshakeFrameSize
  rw [if_neg (by omega), hFetch]
  simp only
  rw [if_neg (by omega), if_pos ((handshakeParamsOk_withRequest .zeroed m u v H).mpr hAsks),
    Int.toNat_natCast]

end Block

/-- What the response `rsp` to a request with the header lines `H` says to whoever
parses it. -/
structure AnswersRequest (H : List Bytes) (rsp : Bytes) : Prop where
  /-- it is a block with the status line of a switch, whatever follows it -/
  block : ∀ mem t, ∃ q, (WebSocketPacket.new mem).fetchHsElement (rsp ++ t) =
    .ok ((rsp.length : Int), q) ∧
      [q.mothod, q.uri, q.version] = [lit "HTTP/1.1", lit "101", lit "Switching"] ∧
      q.getParam (lit "Upgrade") = lit "websocket" ∧
      q.getParam (lit "Connection") = lit "upgrade" ∧
      q.getParam (lit "Sec-WebSocket-Accept") =
        acceptValue (headerGet H (lit "Sec-WebSocket-Key")) ∧
      q.getParam (lit "Sec-WebSocket-Protocol") =
        if headerGet H (lit "Sec-WebSocket-Protocol") ≠ [] then lit "chat" else []

namespace WebSocketPacket

/-- The response of a packet that has read the header lines answers them. -/
theorem answers_packHandshakeRsp {p : WebSocketPacket} {H : List Bytes}
    (hParams : ∀ n, p.getParam n = headerGet H n)
    (hKey : (headerGet H (lit "Sec-WebSocket-Key")).length < 536870876) :
    AnswersRequest H p.packHandshakeRsp := by
  refine ⟨fun mem t => ?_⟩
  obtain ⟨q, hFetch, hRead, hFields⟩ := p.fetchHsElement_packHandshakeRsp mem t
  obtain ⟨hUpgrade, hConnection, hAccept, hProtocol⟩ := p.lookup_rspFields
  refine ⟨q, hFetch, hRead, ?_, ?_, ?_, ?_⟩
  · rw [hFields, hUpgrade]
  · rw [hFields, hConnection]
  · rw [hFields, hAccept, acceptKey_eq (by rwa [hParams]), hParams]
  · rw [hFields, hProtocol, hParams]

end WebSocketPacket

namespace WebSocketEndpoint

variable {ep : WebSocketEndpoint}

/-- A request that asks for a connection is answered however it is cut: the first buffer
that goes to the wire is a response whose accept value is that of the request's key. -/
theorem answers_any_segmentation (hFresh : Fresh ep) {r c t : Bytes} {H : List Bytes}
    (hRequest : blank r = false) (hWords : 3 ≤ ((strip 32 r).splitOn 32).length)
    (hHeaders : H ≠ []) (hSome : ∀ l ∈ H, l ≠ []) (hFree : ∀ l ∈ r :: H, 13 ∉ l)
    (hAsks : AsksUpgrade H) (hSize : (headerBlock r H ++ t).length ≤ 1024000)
    (front : List Delivery) (last : Delivery)
    (hCut : (front.map Delivery.readbuf).flatten ++ c = headerBlock r H) (hChunk : c ≠ [])
    (hLast : last.readbuf = c ++ t)
    (hZero : ∀ d ∈ front, ∀ i, (d.mem i).wspacket.hsLength = 0) :
    ∃ rsp more, Event.wires (ep.deliverAll (front ++ [last])).events = rsp :: more ∧
      AnswersRequest H rsp := by
  have hBlock : (headerBlock r H).length ≤ 1024000 := by
    rw [List.length_append] at hSize
    omega
  have hRest : t.length < 2147483648 := by
    rw [List.length_append] at hSize
    omega
  obtain ⟨p, hVerdict, hParams⟩ :=
    verdict_headerBlock hRequest hWords hHeaders hSome hFree hAsks t hSize
  obtain ⟨p', hAlone, -⟩ := verdict_headerBlock hRequest hWords hHeaders hSome hFree hAsks []
    (by rwa [List.append_nil])
  rw [List.append_nil] at hAlone
  have hHeld : ep.fromwireBuf.data = [] := by
    rw [hFresh.fromwire]
    rfl
  have hFront := deliverAll_undecided hAlone front ep c hFresh.settled hFresh.handshake hChunk
    (by rw [hHeld, List.nil_append, hCut]) hZero
  have hWaiting : Settled { ep with fromwireBuf :=
      ⟨ep.fromwireBuf.data ++ (front.map Delivery.readbuf).flatten, 0⟩ } :=
    ⟨rfl, hFresh.settled.message_oft⟩
  obtain ⟨alone, hBytes, hMem⟩ : ∃ alone : Delivery, alone.readbuf = t ∧
      ∀ i, alone.mem i = last.mem (i + 1) :=
    ⟨⟨t, hRest, fun i => last.mem (i + 1)⟩, rfl, fun _ => rfl⟩
  obtain ⟨hEvents, -⟩ := deliver_accepted hWaiting hFresh.handshake (d := last)
    (by rw [hHeld, hLast, List.nil_append, ← List.append_assoc, hCut]) hVerdict hBytes hMem
  have hAll := Traced.runAll_append_events [last] hFront
  rw [List.nil_append, Traced.runAll_singleton_events, hEvents] at hAll
  have hWires := congrArg Event.wires hAll
  rw [Event.wires_append, wires_rspEvents, List.singleton_append] at hWires
  have hKey := headerGet_length_le r H (lit "Sec-WebSocket-Key")
  exact ⟨p.packHandshakeRsp, _, hWires,
    WebSocketPacket.answers_packHandshakeRsp hParams (by omega)⟩

/-- A request in two pieces, with the sample key, gets the sample accept value. -/
theorem answers_any_segmentation_sample :
    ∃ rsp more q, Event.wires (deliverAll (.new none)
        [.zeroed (openingRequest.take 60) (length_openingRequest_take 60),
          .zeroed (openingRequest.drop 60 ++ [129]) (by decide +kernel)]).events = rsp :: more ∧
      (WebSocketPacket.new .zeroed).fetchHsElement (rsp ++ []) = .ok ((rsp.length : Int), q) ∧
      q.getParam (lit "Sec-WebSocket-Accept") = acceptValue (lit "dGhlIHNhbXBsZSBub25jZQ==") := by
  obtain ⟨rsp, more, hWires, hAnswers⟩ := answers_any_segmentation (fresh_new none)
    (show blank (lit "GET / HTTP/1.1") = false by decide) (by decide)
    (show [lit "Upgrade: websocket", lit "Connection: Upgrade", lit "Sec-WebSocket-Version: 13",
      lit "Sec-WebSocket-Key: dGhlIHNhbXBsZSBub25jZQ=="] ≠ [] by simp)
    (by decide) (by decide) (by decide)
    (t := [129]) (by decide +kernel) [.zeroed (openingRequest.take 60)
      (length_openingRequest_take 60)]
    (.zeroed (openingRequest.drop 60 ++ [129]) (by decide))
    (c := openingRequest.drop 60) (by decide) (by decide) rfl
    fun d hd i => by rw [List.mem_singleton.mp hd]; rfl
  obtain ⟨q, hFetch, -, -, -, hAccept, -⟩ := hAnswers.block .zeroed []
  refine ⟨rsp, more, q, hWires, hFetch, ?_⟩
  rw [hAccept]
  exact congrArg acceptValue (by decide)

end WebSocketEndpoint

end WebSocketFiles
