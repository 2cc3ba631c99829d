import WebSocketFiles.Handshake.Request
import WebSocketFiles.Stream.FramePass

/-!
# The verdict on the opening handshake

`recv_handshake` starts over from the front of the buffer each time more bytes
have come.  `verdict` is what it decides about the bytes so far: nothing yet,
rejected, or accepted with the size of the header block; parsing can also run
off the end of the lines and stop.

A decision depends only on the bytes up to the first empty line, so it does not
show when more bytes arrive (`verdict_append`), and there is none before the
empty line is complete (`verdict_take`).
-/

namespace WebSocketFiles

open MachineInt ListSearch Fallible StrHelper

/-! ## Parsing does not look at the uninitialised members -/

/-- The packet with other memory behind its uninitialised members. -/
def WebSocketPacket.withMem (p : WebSocketPacket) (mem : Uninit) : WebSocketPacket :=
  { p with maskingKey := mem.maskingKey, hsLength := mem.hsLength }

namespace WebSocketPacket

theorem fetchHsElement_withMem (p : WebSocketPacket) (mem : Uninit) (msg : Bytes) :
    (p.withMem mem).fetchHsElement msg =
      (p.fetchHsElement msg).map fun r => (r.1, r.2.withMem mem) := by
  rw [fetchHsElement_eq, fetchHsElement_eq]
  cases indexOfSub (EOL ++ EOL) msg with
  | none => rfl
  | some endpos =>
      simp only
      split
      · rfl
      · split
        · rfl
        · split
          · rfl
          · split
            · rfl
            · split
              · rfl
              · rfl

/-- A result of `fetch_hs_element` is `-1`, or the end of the first empty
line. -/
theorem fetchHsElement_ok {p p' : WebSocketPacket} {msg : Bytes} {n : Int}
    (hFetch : p.fetchHsElement msg = .ok (n, p')) :
    n = -1 ∧ p' = p ∨
      ∃ endpos, indexOfSub (EOL ++ EOL) msg = some endpos ∧ n = toInt32 (endpos + 4) := by
  rw [fetchHsElement_eq] at hFetch
  cases hFind : indexOfSub (EOL ++ EOL) msg with
  | none =>
      simp only [hFind, Except.ok.injEq, Prod.mk.injEq] at hFetch
      exact .inl ⟨hFetch.1.symm, hFetch.2.symm⟩
  | some endpos =>
      simp only [hFind] at hFetch
      split at hFetch
      · exact absurd hFetch (by simp)
      · split at hFetch
        · simp only [Except.ok.injEq, Prod.mk.injEq] at hFetch
          exact .inl ⟨hFetch.1.symm, hFetch.2.symm⟩
        · split at hFetch
          · exact absurd hFetch (by simp)
          · split at hFetch
            · exact absurd hFetch (by simp)
            · split at hFetch
              · simp only [Except.ok.injEq, Prod.mk.injEq] at hFetch
                exact .inr ⟨endpos, rfl, hFetch.1.symm⟩
              · simp only [Except.ok.injEq, Prod.mk.injEq] at hFetch
                exact .inl ⟨hFetch.1.symm, hFetch.2.symm⟩

/-- Parsing stops only at a count that is no `int`, or at the read behind the last line. -/
theorem fetchHsElement_error {p : WebSocketPacket} {msg : Bytes} {e : Abort}
    (hFetch : p.fetchHsElement msg = .error e) : e = .undefined := by
  rw [fetchHsElement_eq] at hFetch
  split at hFetch
  · exact absurd hFetch (by simp)
  · split at hFetch
    · simpa using hFetch.symm
    · split at hFetch
      · exact absurd hFetch (by simp)
      · split at hFetch
        · simpa using hFetch.symm
        · split at hFetch
          · simpa using hFetch.symm
          · split at hFetch
            · exact absurd hFetch (by simp)
            · exact absurd hFetch (by simp)

/-- Bytes behind the first empty line are not looked at. -/
theorem fetchHsElement_append (p : WebSocketPacket) {msg : Bytes} {endpos : Nat}
    (hFind : indexOfSub (EOL ++ EOL) msg = some endpos) (t : Bytes) :
    p.fetchHsElement (msg ++ t) = p.fetchHsElement msg := by
  have hLong := indexOfSub_append (by decide) t hFind
  have hFit := indexOfSub_add_le (by decide) hFind
  have hTake : (msg ++ t).take endpos = msg.take endpos :=
    List.take_append_of_le_length (by omega)
  rw [fetchHsElement_eq, fetchHsElement_eq]
  simp only [hFind, hLong, hTake]

end WebSocketPacket

/-! ## The verdict -/

/-- What `recv_handshake` makes of a buffer. -/
inductive Verdict where
  /-- parsing raises or runs into undefined behaviour -/
  | stops (e : Abort)
  /-- more bytes are needed -/
  | undecided
  /-- too many bytes, or a wrong parameter -/
  | rejected
  /-- a header block of `n` bytes with the parameters of `p` -/
  | accepted (n : Nat) (p : WebSocketPacket)

/-- The verdict on the bytes `d`. -/
def verdict (d : Bytes) : Verdict :=
  if wsMaxHandshakeFrameSize < d.length then .rejected
  else
    match (WebSocketPacket.new .zeroed).fetchHsElement d with
    | .error e => .stops e
    | .ok (n, p) =>
        if n ≤ 0 then .undecided
        else if p.handshakeParamsOk then .accepted n.toNat p
        else .rejected

variable {d t : Bytes}

/-- A buffer over the limit is rejected. -/
theorem verdict_length_le {v : Verdict} (hVerdict : verdict d = v) (hNot : v ≠ .rejected) :
    d.length ≤ 1024000 := by
  by_contra hLong
  apply hNot
  rw [← hVerdict, verdict, if_pos]
  unfold wsMaxHandshakeFrameSize
  omega

/-- An accepted block ends with the first empty line. -/
theorem verdict_accepted {n : Nat} {p : WebSocketPacket} (hVerdict : verdict d = .accepted n p) :
    d.length ≤ 1024000 ∧ n ≤ d.length ∧ 4 ≤ n ∧
      indexOfSub (EOL ++ EOL) d = some (n - 4) ∧ p.handshakeParamsOk = true ∧
      (WebSocketPacket.new .zeroed).fetchHsElement d = .ok ((n : Int), p) := by
  unfold verdict at hVerdict
  split at hVerdict
  · exact absurd hVerdict (by simp)
  · rename_i hSize
    unfold wsMaxHandshakeFrameSize at hSize
    split at hVerdict
    · exact absurd hVerdict (by simp)
    · rename_i m p' hFetch
      split at hVerdict
      · exact absurd hVerdict (by simp)
      · rename_i hPos
        split at hVerdict
        · rename_i hParams
          simp only [Verdict.accepted.injEq] at hVerdict
          obtain ⟨rfl, rfl⟩ := hVerdict
          rcases WebSocketPacket.fetchHsElement_ok hFetch with ⟨hNeg, -⟩ | ⟨endpos, hFind, hEnd⟩
          · omega
          · have hFit := indexOfSub_add_le (by decide) hFind
            have hFour : (EOL ++ EOL).length = 4 := rfl
            rw [hFour] at hFit
            rw [toInt32_of_lt (by omega) (by omega)] at hEnd
            have hNat : m.toNat = endpos + 4 := by omega
            have hInt : ((m.toNat : Nat) : Int) = m := by omega
            rw [hInt, hNat, Nat.add_sub_cancel]
            exact ⟨by omega, hFit, by omega, hFind, hParams, hFetch⟩
        · exact absurd hVerdict (by simp)

theorem verdict_stops {e : Abort} (hVerdict : verdict d = .stops e) : e = .undefined := by
  unfold verdict at hVerdict
  split at hVerdict
  · exact absurd hVerdict (by simp)
  · split at hVerdict
    · rename_i hFetch
      simp only [Verdict.stops.injEq] at hVerdict
      subst hVerdict
      exact WebSocketPacket.fetchHsElement_error hFetch
    · split at hVerdict
      · exact absurd hVerdict (by simp)
      · split at hVerdict <;> exact absurd hVerdict (by simp)

/-- Once the first empty line is there, more bytes change nothing, as long as
the limit is kept. -/
theorem verdict_append {endpos : Nat} (hFind : indexOfSub (EOL ++ EOL) d = some endpos)
    (hSize : (d ++ t).length ≤ 1024000) : verdict (d ++ t) = verdict d := by
  have hLong : ¬ wsMaxHandshakeFrameSize < (d ++ t).length := by
    unfold wsMaxHandshakeFrameSize
    omega
  have hShort : ¬ wsMaxHandshakeFrameSize < d.length := by
    rw [List.length_append] at hSize
    unfold wsMaxHandshakeFrameSize
    omega
  unfold verdict
  rw [if_neg hLong, if_neg hShort, WebSocketPacket.fetchHsElement_append _ hFind]

/-- A rejection is final. -/
theorem verdict_rejected_append (hVerdict : verdict d = .rejected) :
    verdict (d ++ t) = .rejected := by
  by_cases hLong : wsMaxHandshakeFrameSize < (d ++ t).length
  · rw [verdict, if_pos hLong]
  · have hShort : ¬ wsMaxHandshakeFrameSize < d.length := by
      rw [List.length_append] at hLong
      omega
    have hFind : ∃ endpos, indexOfSub (EOL ++ EOL) d = some endpos := by
      unfold verdict at hVerdict
      rw [if_neg hShort] at hVerdict
      split at hVerdict
      · exact absurd hVerdict (by simp)
      · rename_i n p hFetch
        split at hVerdict
        · exact absurd hVerdict (by simp)
        · rename_i hPos
          rcases WebSocketPacket.fetchHsElement_ok hFetch with ⟨hNeg, -⟩ | ⟨endpos, hFind, -⟩
          · omega
          · exact ⟨endpos, hFind⟩
    obtain ⟨endpos, hFind⟩ := hFind
    unfold wsMaxHandshakeFrameSize at hLong
    rw [verdict_append hFind (by omega), hVerdict]

/-- Without an empty line nothing is decided. -/
theorem verdict_undecided (hSize : d.length ≤ 1024000)
    (hFind : indexOfSub (EOL ++ EOL) d = none) : verdict d = .undecided := by
  have hShort : ¬ wsMaxHandshakeFrameSize < d.length := by
    unfold wsMaxHandshakeFrameSize
    omega
  unfold verdict
  rw [if_neg hShort]
  simp only [WebSocketPacket.fetchHsElement, hFind, pure_eq]
  rfl

/-- Before the empty line is complete nothing is decided. -/
theorem verdict_take {n k : Nat} {p : WebSocketPacket} (hVerdict : verdict d = .accepted n p)
    (hShort : k < n) : verdict (d.take k) = .undecided := by
  obtain ⟨hSize, hLe, hFour, hFind, -, -⟩ := verdict_accepted hVerdict
  have hLen : (EOL ++ EOL).length = 4 := rfl
  refine verdict_undecided (by rw [List.length_take]; omega)
    (indexOfSub_take (by decide) hFind (by rw [hLen]; omega))

/-- An opening handshake as a browser sends it. -/
def openingRequest : Bytes :=
  lit "GET / HTTP/1.1\r\nUpgrade: websocket\r\nConnection: Upgrade\r\n" ++
  lit "Sec-WebSocket-Version: 13\r\nSec-WebSocket-Key: dGhlIHNhbXBsZSBub25jZQ==\r\n\r\n"

theorem length_openingRequest : openingRequest.length = 131 := by
  decide +kernel

theorem indexOfSub_openingRequest : indexOfSub (EOL ++ EOL) openingRequest = some 127 := by
  decide +kernel

theorem length_openingRequest_take (k : Nat) : (openingRequest.take k).length < 2147483648 := by
  rw [List.length_take, length_openingRequest]
  omega

end WebSocketFiles
