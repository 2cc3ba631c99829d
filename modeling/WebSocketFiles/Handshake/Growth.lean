import WebSocketFiles.Handshake.Rejection
import WebSocketFiles.Library.Transition

/-!
# How the buffer grows before the handshake

`from_wire` appends what was read before anything is checked, and none of the ways
a handshake stays uncompleted removes a byte: too few bytes, a wrong parameter, and
a buffer over the limit all leave `fromwire_buf_` as it is.  So before the handshake
the buffer holds everything that was received, and the size check of
`recv_handshake` bounds it only as long as the caller stops
(`boundedBuffer_iff`).
-/

namespace WebSocketFiles

open History Transition

namespace WebSocketEndpoint

variable {ep s s' : WebSocketEndpoint}

/-! ## Calls that leave the handshake uncompleted -/

/-- A call that leaves the handshake uncompleted found it so, and has done nothing
but gather the bytes read. -/
theorem deliver_uncompleted (hSettled : Settled s) (hRange : s.fromwireBuf.data.length < 2147483648)
    (d : Delivery) {r : Int} (hCall : (s.deliver d).value = .ok (r, s'))
    (hNot : s'.wsHandshakeCompleted = false) :
    s.wsHandshakeCompleted = false ∧ s' = s.gathered d := by
  obtain ⟨-, -, -, hOpen⟩ := deliver_keeps hSettled hRange d hCall
  have hBefore : s.wsHandshakeCompleted = false := by
    cases hDone : s.wsHandshakeCompleted with
    | false => rfl
    | true => exact absurd (hOpen hDone) (by simp [hNot])
  refine ⟨hBefore, ?_⟩
  have hStart := gathered_settled hSettled d
  have hSize := gathered_size hRange d
  -- a pass that opens the connection leaves it open, whatever the loop does next
  have hOpening : ∀ result n, ∀ es, (s.gathered d).wirePass (d.mem 0) =
      ⟨es, .ok ((s.gathered d).openingPass result ((s.gathered d).fromwireBuf.data.drop n))⟩ →
      False := by
    intro result n es hPass
    have hKeeps := wirePass_keeps hStart (d.mem 0) hSize (congrArg Traced.value hPass)
    unfold openingPass at hPass hKeeps
    split at hPass
    · rw [deliver_done hSettled hPass] at hCall
      obtain ⟨-, rfl⟩ := Prod.mk.inj (Except.ok.inj hCall)
      exact absurd hNot (by simp [opened])
    · rename_i hRest
      rw [if_neg hRest] at hKeeps
      rw [deliver_again hSettled hPass] at hCall
      obtain ⟨-, -, -, hStays⟩ := fromWireLoop_keeps _ _ _ hKeeps.settled
        (lt_trans hKeeps.in_range (by decide)) r s' hCall
      exact absurd (hStays rfl) (by simp [hNot])
  have hClosed : (s.gathered d).wsHandshakeCompleted = false := hBefore
  have hPass := closedPass hClosed hStart hSize (d.mem 0)
  generalize hFirst : (s.gathered d).wirePass (d.mem 0) = call at hPass
  cases hPass with
  | overflow hLow =>
      rw [deliver_eq hSettled, fromWireLoop_stops hFirst] at hCall
      exact absurd hCall (by simp)
  | stops hVerdict =>
      rw [deliver_eq hSettled, fromWireLoop_stops hFirst] at hCall
      exact absurd hCall (by simp)
  | rejected hSmall hVerdict =>
      rw [deliver_done hSettled hFirst] at hCall
      exact (Prod.mk.inj (Except.ok.inj hCall)).2.symm
  | undecided hVerdict hZero =>
      rw [deliver_done hSettled hFirst] at hCall
      exact (Prod.mk.inj (Except.ok.inj hCall)).2.symm
  | garbage hVerdict hJunk => exact (hOpening _ _ _ hFirst).elim
  | accepted hVerdict => exact (hOpening _ _ _ hFirst).elim

theorem length_gathered (s : WebSocketEndpoint) (d : Delivery) :
    (s.gathered d).fromwireBuf.data.length = s.fromwireBuf.data.length + d.readbuf.length :=
  List.length_append

/-- The size is checked before anything else. -/
theorem verdict_overfull {d : Delivery}
    (hOver : 1024000 < s.fromwireBuf.data.length + d.readbuf.length) :
    verdict (s.gathered d).fromwireBuf.data = .rejected := by
  by_contra hOther
  have hLe := verdict_length_le rfl hOther
  rw [length_gathered] at hLe
  omega

/-- A call on a buffer over the limit, when it returns, leaves the handshake
uncompleted. -/
theorem deliver_overfull (hSettled : Settled s) (hRange : s.fromwireBuf.data.length < 2147483648)
    (hNot : s.wsHandshakeCompleted = false) (hOver : 1024000 < s.fromwireBuf.data.length)
    (d : Delivery) {r : Int} (hCall : (s.deliver d).value = .ok (r, s')) :
    s' = s.gathered d := by
  by_cases hSmall : (s.gathered d).fromwireBuf.data.length < 2147483648
  · rw [deliver_rejected hSettled hNot hSmall (verdict_overfull (by omega))] at hCall
    exact (Prod.mk.inj (Except.ok.inj hCall)).2.symm
  · have hClosed : (s.gathered d).wsHandshakeCompleted = false := hNot
    have hPass := wirePass_overflow hClosed rfl (d.mem 0) (Nat.le_of_not_lt hSmall)
      (gathered_size hRange d)
    rw [deliver_eq hSettled, fromWireLoop_stops hPass] at hCall
    exact absurd hCall (by simp)

/-! ## Runs -/

/-- A call of `from_wire` that returns. -/
def next (ep : WebSocketEndpoint) (d : Delivery) : Option WebSocketEndpoint :=
  ((ep.deliver d).value.map Prod.snd).toOption

theorem next_eq_some {d : Delivery} :
    s.next d = some s' ↔ ∃ r, (s.deliver d).value = .ok (r, s') := by
  unfold next
  cases (s.deliver d).value with
  | error e => simp [Except.map, Except.toOption]
  | ok r =>
      obtain ⟨r, ep'⟩ := r
      simp [Except.map, Except.toOption]

/-- How many bytes the calls have read. -/
def received (run : List (WebSocketEndpoint × Delivery)) : Nat :=
  (run.map fun q => q.2.readbuf.length).sum

/-- After every call that leaves the handshake uncompleted, the buffer holds at
most the size limit and the last chunk. -/
def BoundedBuffer (run : List (WebSocketEndpoint × Delivery)) : Prop :=
  Always (fun _ q => ∀ s', q.1.next q.2 = some s' → s'.wsHandshakeCompleted = false →
    (s'.fromwireBuf.data.length : Int) ≤ wsMaxHandshakeFrameSize + q.2.readbuf.length) run

/-- Every call with the handshake uncompleted is made before more bytes than the
limit were received. -/
def StopsInTime (run : List (WebSocketEndpoint × Delivery)) : Prop :=
  Always (fun pre q => q.1.wsHandshakeCompleted = true ∨
    (received pre : Int) ≤ wsMaxHandshakeFrameSize) run

variable {run : List (WebSocketEndpoint × Delivery)}

/-- What a run leads to: before the handshake the buffer holds what was
received. -/
structure Gathers (run : List (WebSocketEndpoint × Delivery)) (s : WebSocketEndpoint) : Prop where
  settled : Settled s
  in_range : s.fromwireBuf.data.length < 2147483648
  held : s.wsHandshakeCompleted = false → s.fromwireBuf.data.length = received run

/-- One more call. -/
theorem Gathers.next {d : Delivery} (hGathers : Gathers run s) (hStep : s.next d = some s') :
    Gathers (run ++ [(s, d)]) s' := by
  obtain ⟨r, hCall⟩ := next_eq_some.mp hStep
  obtain ⟨hSettled', -, hRange', -⟩ := deliver_keeps hGathers.settled hGathers.in_range d hCall
  refine ⟨hSettled', hRange', fun hNot => ?_⟩
  obtain ⟨hBefore, rfl⟩ :=
    deliver_uncompleted hGathers.settled hGathers.in_range d hCall hNot
  have hSum : received (run ++ [(s, d)]) = received run + d.readbuf.length := by
    simp [received]
  rw [length_gathered, hGathers.held hBefore, hSum]

theorem gathers_of_reaches (hFresh : Fresh ep) (hRun : Reaches next ep run s) : Gathers run s := by
  refine hRun.invariant ?_ ?_ (always_true run)
  · refine ⟨hFresh.settled, ?_, fun _ => ?_⟩
    · rw [hFresh.fromwire]
      decide
    · rw [hFresh.fromwire]
      rfl
  · intro run s d s' hGathers _ hStep
    exact hGathers.next hStep

/-- Over every run of a fresh endpoint: the buffer is bounded exactly when no call
is made with the handshake uncompleted after more bytes than the limit were
received. -/
theorem boundedBuffer_iff (hFresh : Fresh ep) (hRun : Reaches next ep run s) :
    BoundedBuffer run ↔ StopsInTime run := by
  have hBefore := hRun.before
  constructor
  · intro hBounded pre q post hSplit
    obtain ⟨hPre, s', hStep⟩ := hBefore pre q post hSplit
    obtain ⟨hSettled, hRange, hHeld⟩ := gathers_of_reaches hFresh hPre
    obtain ⟨r, hCall⟩ := next_eq_some.mp hStep
    by_contra hLate
    obtain ⟨hOpen, hOver⟩ := not_or.mp hLate
    have hNot : q.1.wsHandshakeCompleted = false := by simpa using hOpen
    rw [← hHeld hNot] at hOver
    unfold wsMaxHandshakeFrameSize at hOver
    obtain rfl := deliver_overfull hSettled hRange hNot (by omega) q.2 hCall
    have hLe := hBounded pre q post hSplit _ hStep hNot
    simp only [length_gathered, wsMaxHandshakeFrameSize] at hLe
    omega
  · intro hInTime pre q post hSplit s₁ hStep hNot
    obtain ⟨hPre, -⟩ := hBefore pre q post hSplit
    obtain ⟨hSettled, hRange, hHeld⟩ := gathers_of_reaches hFresh hPre
    obtain ⟨r, hCall⟩ := next_eq_some.mp hStep
    obtain ⟨hFound, rfl⟩ := deliver_uncompleted hSettled hRange q.2 hCall hNot
    rcases hInTime pre q post hSplit with hDone | hLe
    · exact absurd hDone (by simp [hFound])
    · rw [← hHeld hFound] at hLe
      rw [length_gathered]
      omega

/-- The first byte of a request is gathered. -/
theorem next_letter :
    next (.new none) (.zeroed [71] (by decide)) =
      some (gathered (.new none) (.zeroed [71] (by decide))) := by
  have hClosed : (gathered (.new none) (.zeroed [71] (by decide))).wsHandshakeCompleted = false :=
    rfl
  have hPass := wirePass_undecided hClosed rfl ⟨.zeroed, .zeroed⟩
    (verdict_undecided (by decide) (by decide)) rfl
  exact next_eq_some.mpr ⟨0, congrArg Traced.value (deliver_done (fresh_new none).settled hPass)⟩

theorem boundedBuffer_iff_letter :
    BoundedBuffer [(.new none, .zeroed [71] (by decide))] := by
  have hRun : Reaches next (.new none) ([] ++ [(.new none, .zeroed [71] (by decide))]) _ :=
    .next .start next_letter
  refine (boundedBuffer_iff (fresh_new none) hRun).mpr ?_
  exact always_snoc.mpr ⟨always_nil, .inr (by decide)⟩

/-- A buffer over the limit is refused, and kept. -/
theorem next_overfull (hSettled : Settled s) (hNot : s.wsHandshakeCompleted = false)
    {d : Delivery} (hOver : 1024000 < s.fromwireBuf.data.length + d.readbuf.length)
    (hLt : s.fromwireBuf.data.length + d.readbuf.length < 2147483648) :
    s.next d = some (s.gathered d) := by
  have hSmall : (s.gathered d).fromwireBuf.data.length < 2147483648 := by
    rw [length_gathered]
    exact hLt
  exact next_eq_some.mpr ⟨-1, congrArg Traced.value
    (deliver_rejected hSettled hNot hSmall (verdict_overfull hOver))⟩

/-- After a chunk over the limit the next one is kept, too. -/
theorem not_boundedBuffer {b₁ b₂ : Bytes} (hOver : 1024000 < b₁.length)
    (hLt : b₁.length + b₂.length < 2147483648) :
    ∃ run s, Reaches next (.new none) run s ∧
      (run.map fun q => q.2.readbuf) = [b₁, b₂] ∧ ¬ BoundedBuffer run := by
  let d₁ : Delivery := .zeroed b₁ (by omega)
  let d₂ : Delivery := .zeroed b₂ (by omega)
  let s₁ : WebSocketEndpoint := gathered (.new none) d₁
  have hSettled : Settled s₁ := gathered_settled (fresh_new none).settled d₁
  have hLength : s₁.fromwireBuf.data.length = b₁.length := rfl
  have hNone : (new none).fromwireBuf.data.length = 0 := rfl
  have hChunk₁ : d₁.readbuf.length = b₁.length := rfl
  have hChunk₂ : d₂.readbuf.length = b₂.length := rfl
  have hFirst : next (.new none) d₁ = some s₁ :=
    next_overfull (fresh_new none).settled rfl (by omega) (by omega)
  have hSecond : s₁.next d₂ = some (s₁.gathered d₂) :=
    next_overfull hSettled rfl (by omega) (by omega)
  refine ⟨_, _, .next (.next .start hFirst) hSecond, rfl, fun hBounded => ?_⟩
  have hLe := hBounded [(.new none, d₁)] (s₁, d₂) [] rfl _ hSecond rfl
  simp only [length_gathered, hLength, hChunk₂, wsMaxHandshakeFrameSize] at hLe
  omega

/-- Two calls are enough to hold more than the limit and the last chunk. -/
theorem overLimit_not_bounded :
    ∃ run s, Reaches next (.new none) run s ∧
      (run.map fun q => q.2.readbuf) = [List.replicate 1024001 97, [97]] ∧
      ¬ BoundedBuffer run :=
  not_boundedBuffer (by rw [List.length_replicate]; decide)
    (by rw [List.length_replicate]; decide)

end WebSocketEndpoint

end WebSocketFiles
