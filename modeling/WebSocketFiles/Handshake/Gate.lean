import WebSocketFiles.Library.History
import WebSocketFiles.Receive.Passes

/-!
# The handshake gate

The connection should open only on a complete header block that passes the
parameter checks, and no byte should be read as part of a frame before that.

`recv_handshake` answers 0 both for an accepted and for an undecided buffer, and
`parse_packet` tells the two apart by `hs_length_`, which the constructor leaves
unassigned.  So the gate holds in a run exactly when every packet that meets an
undecided buffer is constructed with a zero there (`gate_iff`).
-/

namespace WebSocketFiles

open MachineInt ListSearch Fallible FrameFormat History

/-! ## The gate -/

/-- The buffer starts with a header block of `n` bytes, ended by its first empty
line, that passes the parameter checks. -/
structure HeaderBlock (d : Bytes) (n : Nat) : Prop where
  first_empty_line : indexOfSub (EOL ++ EOL) d = some (n - 4)
  size : 4 ≤ n
  checks : ∃ p, (WebSocketPacket.new .zeroed).fetchHsElement d = .ok ((n : Int), p) ∧
    p.handshakeParamsOk = true

namespace PassStart

/-- The pass writes a 101 response, or completes the handshake. -/
def Opens (q : PassStart) : Prop :=
  (∃ p : WebSocketPacket, p.packHandshakeRsp ∈ Event.wires q.call.events) ∨
    q.ep.wsHandshakeCompleted = false ∧
      ∃ pass, q.call.value = .ok pass ∧ pass.endpoint.wsHandshakeCompleted = true

/-- The pass opens the connection on a header block, and removes exactly that
block from the buffer. -/
def OnBlock (q : PassStart) : Prop :=
  ∃ n, HeaderBlock q.buffer n ∧
    ∃ pass, q.call.value = .ok pass ∧ pass.endpoint.fromwireBuf.data = q.buffer.drop n

/-- The packet of a pass over an undecided buffer is constructed with a zero
`hs_length_`. -/
def ZeroWhileUndecided (q : PassStart) : Prop :=
  q.ep.wsHandshakeCompleted = false → verdict q.buffer = .undecided →
    q.mem.wspacket.hsLength = 0

end PassStart

/-- The handshake gate over a run: only passes over a header block open the
connection, and a pass that reads a frame comes after such a pass. -/
structure Gate (ep : WebSocketEndpoint) (ds : List Delivery) : Prop where
  opens_on_block : ∀ q ∈ ep.runPasses ds, q.Opens → q.OnBlock
  frames_after : Preceded (fun q => q.ep.wsHandshakeCompleted = true)
    (fun q => q.Opens ∧ q.OnBlock) (ep.runPasses ds)

/-! ## What one pass does -/

/-- A frame starts with a byte whose top bit is set when FIN is. -/
def Framed (w : Bytes) : Prop :=
  ∀ b ∈ w.head?, 128 ≤ b.toNat

/-- A 101 response is not a frame. -/
theorem packHandshakeRsp_not_framed (p : WebSocketPacket) : ¬ Framed p.packHandshakeRsp := by
  intro hFramed
  have hHead : (72 : UInt8) ∈ p.packHandshakeRsp.head? := by
    rfl
  exact absurd (hFramed 72 hHead) (by decide)

/-- A reply, or the part of it that is sent, is a frame. -/
theorem framed_reply (opcode : UInt8) (M : Bytes) (n : Nat) :
    Framed ((reply opcode M).take n) := by
  intro b hb
  cases n with
  | zero => simp at hb
  | succ n =>
      have hFirst : b = (replyFrame opcode M).firstByte := by
        simpa [reply, Frame.encode, Frame.header] using hb.symm
      have hByte := (replyFrame opcode M).firstByte_toNat
      rw [← hFirst] at hByte
      simp only [replyFrame, Bool.toNat_true] at hByte
      omega

namespace WebSocketEndpoint

variable {ep : WebSocketEndpoint}

theorem framed_dispatched (ep : WebSocketEndpoint) (opcode : UInt8) (M : Bytes) :
    ∀ w ∈ Event.wires (ep.dispatched opcode M), Framed w := by
  intro w hw
  unfold dispatched at hw
  split at hw
  · have hWires : Event.wires (.userDefinedProcess opcode M ::
        ep.wireEvents (some (reply opcode (covered M)))
          (toInt32 (reply opcode (covered M)).length)) =
        [(reply opcode (covered M)).take (toInt32 (reply opcode (covered M)).length).toNat] :=
      wires_wireEvents ep _ _
    rw [hWires, List.mem_singleton] at hw
    exact hw ▸ framed_reply _ _ _
  · exact absurd hw (by simp)

/-- After the handshake everything written is a frame. -/
theorem wirePass_framed (hDone : ep.wsHandshakeCompleted = true) (hSettled : Settled ep)
    (hSize : ep.fromwireBuf.data.length < 4294967296) (mem : PassMem) :
    ∀ w ∈ Event.wires (ep.wirePass mem).events, Framed w := by
  intro w hw
  have hCall := openPass hDone hSettled hSize mem
  generalize ep.wirePass mem = call at hw hCall
  cases hCall with
  | waits hWaits => exact absurd hw (by simp)
  | raises hWaits hRaises => exact absurd hw (by simp)
  | overlong hWaits hRaises hFin hOver => exact absurd hw (by simp [Event.wires])
  | consumes hWaits hRaises hFits =>
      simp only at hw
      split at hw
      · exact framed_dispatched ep _ _ w hw
      · exact absurd hw (by simp)

end WebSocketEndpoint

namespace PassStart

open WebSocketEndpoint

variable {q : PassStart} (hSettled : Settled q.ep) (hSize : q.buffer.length < 4294967296)

include hSettled hSize

/-- Once the handshake is completed nothing opens the connection again. -/
theorem not_opens_completed (hDone : q.ep.wsHandshakeCompleted = true) : ¬ q.Opens := by
  rintro (⟨p, hp⟩ | ⟨hNot, -⟩)
  · exact packHandshakeRsp_not_framed p (wirePass_framed hDone hSettled hSize q.mem _ hp)
  · exact absurd (hNot ▸ hDone) (by decide)

/-- A pass that opens the connection stands on a header block, unless the
garbage in `hs_length_` opened it. -/
theorem onBlock_of_opens (hZero : q.ZeroWhileUndecided) (hOpens : q.Opens) : q.OnBlock := by
  have hClosed : q.ep.wsHandshakeCompleted = false := by
    by_contra hDone
    exact not_opens_completed hSettled hSize (by simpa using hDone) hOpens
  have hCall := closedPass hClosed hSettled hSize q.mem
  unfold Opens OnBlock call at *
  generalize q.ep.wirePass q.mem = pass at hOpens hCall ⊢
  -- a pass that writes nothing and leaves the handshake uncompleted opens nothing
  cases hCall with
  | overflow hLow => simp at hOpens
  | stops hVerdict => simp at hOpens
  | rejected hSmall hVerdict => simp [Pass.endpoint, hClosed] at hOpens
  | undecided hVerdict hHsLength => simp [Pass.endpoint, hClosed] at hOpens
  | garbage hVerdict hJunk => exact absurd (hZero hClosed hVerdict) hJunk
  | accepted hVerdict =>
      rename_i n p
      obtain ⟨-, hLe, hFour, hFind, hParams, hFetch⟩ := verdict_accepted hVerdict
      refine ⟨n, ⟨hFind, hFour, p, hFetch, hParams⟩, _, rfl, ?_⟩
      unfold openingPass
      split
      · rename_i hNil
        exact hNil.symm
      · rfl

omit hSize in
/-- Garbage in `hs_length_` opens the connection on a buffer that has no header
block. -/
theorem opens_on_garbage (hNot : ¬ q.ZeroWhileUndecided) : q.Opens ∧ ¬ q.OnBlock := by
  have hBuf : q.ep.fromwireBuf = ⟨q.buffer, 0⟩ := hSettled.fromwireBuf_eq
  simp only [ZeroWhileUndecided, Classical.not_imp] at hNot
  obtain ⟨hClosed, hVerdict, hJunk⟩ := hNot
  have hLimit : q.buffer.length ≤ 1024000 := verdict_length_le hVerdict (by simp)
  have hCall := wirePass_garbage hClosed hBuf q.mem (by omega) hVerdict hJunk
  constructor
  · refine .inr ⟨hClosed, _, congrArg Traced.value hCall, ?_⟩
    unfold openingPass
    split <;> rfl
  · rintro ⟨n, ⟨-, hFour, p, hFetch, hParams⟩, -⟩
    rw [verdict, if_neg (by unfold wsMaxHandshakeFrameSize; omega), hFetch] at hVerdict
    simp only [if_neg (show ¬ (n : Int) ≤ 0 by omega), hParams, if_true] at hVerdict
    exact absurd hVerdict (by simp)

end PassStart

/-! ## The gate over a run -/

namespace WebSocketEndpoint

variable {ep : WebSocketEndpoint}

/-- A loop that ends with a completed handshake started with one, or made a pass
that opened the connection; so did every loop that reads a frame. -/
theorem loopPasses_latch (fuel : Nat) :
    ∀ (ep : WebSocketEndpoint) (mem : Nat → PassMem), ep.wsHandshakeCompleted = false →
      Preceded (fun q => q.ep.wsHandshakeCompleted = true) PassStart.Opens
          (loopPasses fuel ep mem) ∧
        ∀ r ep', (fromWireLoop fuel ep mem).value = .ok (r, ep') →
          ep'.wsHandshakeCompleted = true → ∃ q ∈ loopPasses fuel ep mem, q.Opens := by
  induction fuel with
  | zero =>
      intro ep mem _
      exact ⟨preceded_nil, fun r ep' hLoop => absurd hLoop (by simp [fromWireLoop])⟩
  | succ fuel ih =>
      intro ep mem hClosed
      have hFirst : ¬ ep.wsHandshakeCompleted = true := by
        simp [hClosed]
      rw [loopPasses]
      cases hPass : ep.wirePass (mem 0) with
      | mk es v =>
          have hOpens : ∀ pass, v = .ok pass → pass.endpoint.wsHandshakeCompleted = true →
              PassStart.Opens ⟨ep, mem 0⟩ := by
            rintro pass rfl hDone
            exact .inr ⟨hClosed, pass, congrArg Traced.value hPass, hDone⟩
          cases v with
          | error e =>
              refine ⟨preceded_cons hFirst (.inr preceded_nil), fun r ep' hLoop => ?_⟩
              rw [fromWireLoop_succ, hPass] at hLoop
              exact absurd hLoop (by simp)
          | ok pass =>
              cases pass with
              | done result ep₁ =>
                  refine ⟨preceded_cons hFirst (.inr preceded_nil), fun r ep' hLoop hDone => ?_⟩
                  rw [fromWireLoop_succ, hPass] at hLoop
                  simp only [Traced.mk_ok_bind, Traced.pure_eq, Traced.value_prepend,
                    Except.ok.injEq, Prod.mk.injEq] at hLoop
                  obtain ⟨-, rfl⟩ := hLoop
                  exact ⟨_, List.mem_cons_self, hOpens _ rfl hDone⟩
              | again ep₁ =>
                  cases hNext : ep₁.wsHandshakeCompleted with
                  | true =>
                      have hQ := hOpens _ rfl hNext
                      exact ⟨preceded_cons hFirst (.inl hQ),
                        fun _ _ _ _ => ⟨_, List.mem_cons_self, hQ⟩⟩
                  | false =>
                      obtain ⟨hRest, hLatch⟩ := ih ep₁ (fun i => mem (i + 1)) hNext
                      refine ⟨preceded_cons hFirst (.inr hRest), fun r ep' hLoop hDone => ?_⟩
                      rw [fromWireLoop_succ, hPass] at hLoop
                      obtain ⟨q, hq, hQ⟩ := hLatch r ep' hLoop hDone
                      exact ⟨q, List.mem_cons_of_mem _ hq, hQ⟩

/-- No frame is read in a run before a pass has opened the connection. -/
theorem runPasses_latch (ds : List Delivery) :
    ∀ ep : WebSocketEndpoint, ep.wsHandshakeCompleted = false →
      Preceded (fun q => q.ep.wsHandshakeCompleted = true) PassStart.Opens (ep.runPasses ds) := by
  induction ds with
  | nil =>
      intro ep _
      exact preceded_nil
  | cons d ds ih =>
      intro ep hClosed
      have hLoop : (ep.deliver d) =
          fromWireLoop ((ep.fromwireBuf.data ++ d.readbuf).length + 2)
            { ep with fromwireBuf := { ep.fromwireBuf with
              data := ep.fromwireBuf.data ++ d.readbuf } } d.mem := by
        rw [deliver, fromWire, ByteBuffer.append_all]
        rfl
      obtain ⟨hPasses, hLatch⟩ := loopPasses_latch
        ((ep.fromwireBuf.data ++ d.readbuf).length + 2)
        { ep with fromwireBuf := { ep.fromwireBuf with
          data := ep.fromwireBuf.data ++ d.readbuf } } d.mem hClosed
      rw [← hLoop] at hLatch
      rw [runPasses, deliverPasses_eq]
      refine preceded_append hPasses ?_
      cases hValue : (ep.deliver d).value with
      | error e => exact .inr preceded_nil
      | ok r =>
          obtain ⟨result, ep'⟩ := r
          cases hDone : ep'.wsHandshakeCompleted with
          | true => exact .inl (hLatch result ep' hValue hDone)
          | false => exact .inr (ih ep' hDone)

/-- In zeroed memory no garbage is met. -/
theorem zeroWhileUndecided_of_zeroed {ds : List Delivery}
    (hZero : ∀ d ∈ ds, ∀ i, (d.mem i).wspacket.hsLength = 0) :
    ∀ ep : WebSocketEndpoint, ∀ q ∈ ep.runPasses ds, q.ZeroWhileUndecided := by
  induction ds with
  | nil =>
      intro ep q hq
      exact absurd hq (by simp [runPasses])
  | cons d ds ih =>
      intro ep q hq _ _
      rw [runPasses] at hq
      rcases List.mem_append.mp hq with hFirst | hRest
      · rw [deliverPasses_eq] at hFirst
        obtain ⟨i, hi⟩ := loopPasses_mem _ _ _ q hFirst
        rw [hi]
        exact hZero d List.mem_cons_self i
      · split at hRest
        · rename_i ep' _
          exact ih (fun d' hd' => hZero d' (List.mem_cons_of_mem d hd')) ep' q hRest ‹_› ‹_›
        · exact absurd hRest (by simp)

/-- From a fresh endpoint the gate holds over a run exactly when every packet
that meets an undecided buffer is constructed with a zero `hs_length_`. -/
theorem gate_iff (hFresh : Fresh ep) (ds : List Delivery) :
    Gate ep ds ↔ ∀ q ∈ ep.runPasses ds, q.ZeroWhileUndecided := by
  have hSound : ∀ q ∈ ep.runPasses ds, Settled q.ep ∧ q.buffer.length < 4294967296 := by
    apply runPasses_settled ds ep hFresh.settled
    rw [hFresh.fromwire]
    exact Nat.zero_lt_succ _
  constructor
  · intro hGate q hq
    by_contra hNot
    obtain ⟨hOpens, hNone⟩ := PassStart.opens_on_garbage (hSound q hq).1 hNot
    exact hNone (hGate.opens_on_block q hq hOpens)
  · intro hZero
    have hBlock : ∀ q ∈ ep.runPasses ds, q.Opens → q.OnBlock := fun q hq =>
      PassStart.onBlock_of_opens (hSound q hq).1 (hSound q hq).2 (hZero q hq)
    exact ⟨hBlock, (runPasses_latch ds ep hFresh.handshake).mono fun q hq hOpens =>
      ⟨hOpens, hBlock q hq hOpens⟩⟩

/-- A request that comes in two pieces, in zeroed memory. -/
theorem gate_iff_request :
    Gate (.new none) [.zeroed (openingRequest.take 60) (length_openingRequest_take 60),
      .zeroed (openingRequest.drop 60) (by decide +kernel)] := by
  apply (gate_iff (fresh_new none) _).mpr
  apply zeroWhileUndecided_of_zeroed
  intro d hd i
  simp only [List.mem_cons, List.not_mem_nil, or_false] at hd
  rcases hd with rfl | rfl
  · rfl
  · rfl

/-- A single byte, in memory that holds a 1 where `hs_length_` lies. -/
def garbledByte : Delivery where
  readbuf := [71]
  sizeLt := by decide
  mem := fun _ => ⟨{ Uninit.zeroed with hsLength := 1 }, .zeroed⟩

/-- The byte is enough to open the connection. -/
theorem garbledByte_opens : ¬ Gate (.new none) [garbledByte] := by
  intro hGate
  let q : PassStart := ⟨{ WebSocketEndpoint.new none with fromwireBuf := ⟨[71], 0⟩ },
    garbledByte.mem 0⟩
  have hq : q ∈ runPasses (.new none) [garbledByte] := by
    rw [runPasses, deliverPasses_eq]
    exact List.mem_append_left _ List.mem_cons_self
  have hVerdict : verdict q.buffer = .undecided :=
    verdict_undecided (by decide) (by decide +kernel)
  have hNot : ¬ q.ZeroWhileUndecided := fun hZero =>
    absurd (hZero rfl hVerdict) (by decide)
  obtain ⟨hOpens, hNone⟩ := PassStart.opens_on_garbage ⟨rfl, rfl⟩ hNot
  exact hNone (hGate.opens_on_block q hq hOpens)

end WebSocketEndpoint

end WebSocketFiles
