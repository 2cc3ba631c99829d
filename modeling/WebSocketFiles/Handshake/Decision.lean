import WebSocketFiles.Handshake.Opening

/-!
# Which header blocks are decided

`fetch_hs_element` returns the same `-1` for a buffer without an empty line and
for a block it cannot read, so `recv_handshake` asks for more bytes in both
cases.  Since parsing starts over from the same first empty line, more bytes
never change the answer.  A block is decided exactly when it has a second line
and a request line of three words (`decidesBlocks_iff`).
-/

namespace WebSocketFiles

open MachineInt ListSearch Splitting Fallible

/-! ## The three answers -/

/-- `recv_handshake` returns 0 having assigned `hs_length_`, whatever the member
held before. -/
def AcceptsBlock (input : ByteBuffer) : Prop :=
  ∃ n : UInt32, ∀ mem, ∃ p input',
    (WebSocketPacket.new mem).recvHandshake input = .ok (0, p, input') ∧ p.hsLength = n

/-- `recv_handshake` returns an error. -/
def RefusesBlock (input : ByteBuffer) : Prop :=
  ∀ mem, ∃ status p input',
    (WebSocketPacket.new mem).recvHandshake input = .ok (status, p, input') ∧ status ≠ 0

/-- `recv_handshake` returns 0 with `hs_length_` as it was. -/
def NeedsMore (input : ByteBuffer) : Prop :=
  ∀ mem, ∃ p input',
    (WebSocketPacket.new mem).recvHandshake input = .ok (0, p, input') ∧
      p.hsLength = mem.hsLength

/-- Every complete block that has a line with a word in it is accepted or
refused, and more bytes are asked for only when there is no complete block. -/
def DecidesBlocks (input : ByteBuffer) : Prop :=
  (∀ endpos, indexOfSub (EOL ++ EOL) input.data = some endpos →
    (∃ line ∈ pieces EOL (input.data.take endpos), blank line = false) →
    AcceptsBlock input ∨ RefusesBlock input) ∧
  (NeedsMore input → indexOfSub (EOL ++ EOL) input.data = none)

/-- A block, if complete, has two lines, and a request line, if any, has three
words. -/
def CompleteRequest (d : Bytes) : Prop :=
  ∀ endpos, indexOfSub (EOL ++ EOL) d = some endpos →
    2 ≤ (pieces EOL (d.take endpos)).length ∧
      ∀ request, (pieces EOL (d.take endpos)).find? (!blank ·) = some request →
        3 ≤ (pieces SP (strip 32 request)).length

variable {input : ByteBuffer}

/-- The answers exclude each other: an assigned `hs_length_` does not depend on
what the member held. -/
theorem not_needsMore_of_decided (hDecided : AcceptsBlock input ∨ RefusesBlock input) :
    ¬ NeedsMore input := by
  intro hMore
  rcases hDecided with ⟨n, hAccepts⟩ | hRefuses
  · -- a memory in which the member holds something else than what is assigned
    let other : Uninit := { Uninit.zeroed with hsLength := n + 1 }
    obtain ⟨p, _, hCall, hAssigned⟩ := hAccepts other
    obtain ⟨p', _, hCall', hKept⟩ := hMore other
    rw [hCall, Except.ok.injEq, Prod.mk.injEq, Prod.mk.injEq] at hCall'
    rw [← hCall'.2.1, hAssigned] at hKept
    exact absurd (UInt32.left_eq_add.mp hKept) (by decide)
  · obtain ⟨status, _, _, hCall, hStatus⟩ := hRefuses .zeroed
    obtain ⟨_, _, hCall', -⟩ := hMore .zeroed
    rw [hCall, Except.ok.injEq, Prod.mk.injEq] at hCall'
    exact hStatus hCall'.1

section Fetch

variable (hSize : input.data.length ≤ 1024000)

include hSize

theorem needsMore_of_fetch {p : WebSocketPacket}
    (hFetch : (WebSocketPacket.new .zeroed).fetchHsElement input.data = .ok (-1, p)) :
    NeedsMore input := by
  intro mem
  refine ⟨p.withMem mem, input.resetoft, ?_, rfl⟩
  rw [recvHandshake_eq mem hSize, hFetch, ok_bind, if_pos (show (-1 : Int) ≤ 0 by decide)]

theorem not_needsMore_of_fetch {e : Abort}
    (hFetch : (WebSocketPacket.new .zeroed).fetchHsElement input.data = .error e) :
    ¬ NeedsMore input := by
  intro hMore
  obtain ⟨p, input', hCall, -⟩ := hMore .zeroed
  rw [recvHandshake_eq _ hSize, hFetch, error_bind] at hCall
  exact absurd hCall (by simp)

/-- A block that is read is accepted or refused, by its parameters. -/
theorem decided_of_fetch {n : Int} {p : WebSocketPacket} (hPos : 0 < n)
    (hFetch : (WebSocketPacket.new .zeroed).fetchHsElement input.data = .ok (n, p)) :
    AcceptsBlock input ∨ RefusesBlock input := by
  cases hParams : p.handshakeParamsOk with
  | true =>
      refine .inl ⟨UInt32.ofNat (toUInt32 n), fun mem => ?_⟩
      rw [recvHandshake_eq mem hSize, hFetch, ok_bind, if_neg (by omega)]
      have hOk : ¬ (!(p.handshakeParamsOk)) = true := by
        rw [hParams]
        decide
      exact ⟨_, _, if_neg hOk, rfl⟩
  | false =>
      refine .inr fun mem => ?_
      rw [recvHandshake_eq mem hSize, hFetch, ok_bind, if_neg (by omega)]
      have hWrong : (!(p.handshakeParamsOk)) = true := by
        rw [hParams]
        decide
      exact ⟨_, _, _, if_pos hWrong, by decide⟩

/-- Within the size limit, complete blocks are decided exactly when they have a
second line and, unless all lines are blank, a request line of three words. -/
theorem decidesBlocks_iff : DecidesBlocks input ↔ CompleteRequest input.data := by
  have hEq := WebSocketPacket.fetchHsElement_fits (.new .zeroed) input.data
    fun endpos hFind => by
      have hFit := indexOfSub_add_le (by decide) hFind
      omega
  unfold DecidesBlocks CompleteRequest
  cases hFind : indexOfSub (EOL ++ EOL) input.data with
  | none => simp
  | some endpos =>
      have hFit := indexOfSub_add_le (by decide) hFind
      rw [hFind] at hEq
      simp only at hEq
      simp only [Option.some.injEq, forall_eq', reduceCtorEq, imp_false,
        WebSocketPacket.find?_not_blank]
      by_cases hFew : (pieces EOL (input.data.take endpos)).length < 2
      · -- a single line gives the answer of a block that is not complete
        rw [if_pos hFew] at hEq
        have hMore := needsMore_of_fetch hSize hEq
        constructor
        · exact fun hAll => absurd hMore hAll.2
        · exact fun hAll => absurd hAll.1 (by omega)
      · rw [if_neg hFew] at hEq
        cases hLines : (pieces EOL (input.data.take endpos)).dropWhile blank with
        | nil =>
            -- blank lines only: undefined, and outside of what is asked for
            rw [hLines] at hEq
            have hBlank : ∀ line ∈ pieces EOL (input.data.take endpos), blank line = true := by
              simpa using hLines
            constructor
            · exact fun _ => ⟨by omega, by simp⟩
            · refine fun _ => ⟨?_, not_needsMore_of_fetch hSize hEq⟩
              rintro ⟨line, hLine, hSome⟩
              rw [hBlank line hLine] at hSome
              exact absurd hSome (by decide)
        | cons request fields =>
            rw [hLines] at hEq
            simp only [List.head?_cons, Option.some.injEq, forall_eq']
            by_cases hMany : 3 ≤ (pieces SP (strip 32 request)).length
            · obtain ⟨m, u, v, rest, hWords⟩ := exists_words hMany
              simp only [hWords] at hEq
              rw [toInt32_of_lt (by omega) (by omega)] at hEq
              have hDecided := decided_of_fetch hSize (by omega) hEq
              exact ⟨fun _ => ⟨by omega, hMany⟩,
                fun _ => ⟨fun _ => hDecided, not_needsMore_of_decided hDecided⟩⟩
            · -- a short request line, too, gives the answer of an incomplete block
              have hShort : (WebSocketPacket.new .zeroed).fetchHsElement input.data =
                  .ok (-1, .new .zeroed) := by
                rcases hWords : pieces SP (strip 32 request) with _ | ⟨m, _ | ⟨u, _ | ⟨v, rest⟩⟩⟩
                · simpa [hWords] using hEq
                · simpa [hWords] using hEq
                · simpa [hWords] using hEq
                · simp [hWords] at hMany
              have hMore := needsMore_of_fetch hSize hShort
              constructor
              · exact fun hAll => absurd hMore hAll.2
              · exact fun hAll => absurd hAll.2 hMany

end Fetch

/-- The request a browser sends is decided. -/
theorem decidesBlocks_iff_request : DecidesBlocks ⟨openingRequest, 0⟩ := by
  apply (decidesBlocks_iff (by rw [length_openingRequest]; decide)).mpr
  intro endpos hFind
  obtain rfl := Option.some.inj (indexOfSub_openingRequest.symm.trans hFind)
  refine ⟨by decide +kernel, fun request hRequest => ?_⟩
  have hLine : (pieces EOL (openingRequest.take 127)).find? (!blank ·) =
      some (lit "GET / HTTP/1.1") := by
    decide +kernel
  obtain rfl := Option.some.inj (hLine.symm.trans hRequest)
  decide +kernel

/-- A request line of two words. -/
def versionlessRequest : Bytes :=
  lit "GET /\r\nHost: a\r\n\r\n"

/-- The block is complete, and more bytes are asked for. -/
theorem versionlessRequest_undecided : ¬ DecidesBlocks ⟨versionlessRequest, 0⟩ := by
  rintro ⟨-, hOnly⟩
  have hFetch : (WebSocketPacket.new .zeroed).fetchHsElement versionlessRequest =
      .ok (-1, .new .zeroed) := rfl
  have hNone := hOnly (needsMore_of_fetch (by decide) hFetch)
  exact absurd hNone (by decide)

end WebSocketFiles
