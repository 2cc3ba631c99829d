import WebSocketFiles.Handshake.Runs
import WebSocketFiles.Stream.FrameReader

/-!
# The passes of the receive loop

`from_wire` goes round its loop once for each frame at the front of the buffer.
The passes that a call or a whole run makes are listed here with the endpoint
and the memory each of them starts with, so that a property of a run can be
stated and proved pass by pass.
-/

namespace WebSocketFiles

open MachineInt

/-- One pass of the receive loop, as it starts. -/
structure PassStart where
  ep : WebSocketEndpoint
  mem : PassMem

namespace PassStart

/-- What the pass does. -/
def call (q : PassStart) : Call WebSocketEndpoint.Pass :=
  q.ep.wirePass q.mem

/-- The bytes `parse_packet` is called on. -/
def buffer (q : PassStart) : Bytes :=
  q.ep.fromwireBuf.data

end PassStart

namespace WebSocketEndpoint

/-- The passes that `fromWireLoop` makes. -/
def loopPasses : Nat → WebSocketEndpoint → (Nat → PassMem) → List PassStart
  | 0, _, _ => []
  | fuel + 1, ep, mem =>
      ⟨ep, mem 0⟩ ::
        match (ep.wirePass (mem 0)).value with
        | .ok (.again ep') => loopPasses fuel ep' fun i => mem (i + 1)
        | _ => []

/-- The passes that one call of `from_wire` makes. -/
def deliverPasses (ep : WebSocketEndpoint) (d : Delivery) : List PassStart :=
  match ep.fromwireBuf.append (some d.readbuf) d.readbuf.length with
  | .ok buf => loopPasses (buf.data.length + 2) { ep with fromwireBuf := buf } d.mem
  | .error _ => []

/-- The passes that a run makes. -/
def runPasses : WebSocketEndpoint → List Delivery → List PassStart
  | _, [] => []
  | ep, d :: ds =>
      ep.deliverPasses d ++
        match (ep.deliver d).value with
        | .ok (_, ep') => runPasses ep' ds
        | .error _ => []

variable {ep : WebSocketEndpoint}

theorem deliverPasses_eq (ep : WebSocketEndpoint) (d : Delivery) :
    ep.deliverPasses d =
      loopPasses ((ep.fromwireBuf.data ++ d.readbuf).length + 2)
        { ep with fromwireBuf := { ep.fromwireBuf with
          data := ep.fromwireBuf.data ++ d.readbuf } } d.mem := by
  unfold deliverPasses
  rw [ByteBuffer.append_all]

theorem deliverPasses_gathered (hSettled : Settled ep) (d : Delivery) :
    ep.deliverPasses d =
      loopPasses ((ep.gathered d).fromwireBuf.data.length + 2) (ep.gathered d) d.mem := by
  have hStart : ({ ep.fromwireBuf with data := ep.fromwireBuf.data ++ d.readbuf } : ByteBuffer) =
      ⟨ep.fromwireBuf.data ++ d.readbuf, 0⟩ := by
    rw [← hSettled.fromwire_oft]
  rw [deliverPasses_eq, hStart]
  rfl

/-- What the loop emits is what its passes emit. -/
theorem fromWireLoop_events (fuel : Nat) :
    ∀ (ep : WebSocketEndpoint) (mem : Nat → PassMem),
      (fromWireLoop fuel ep mem).events =
        (loopPasses fuel ep mem).flatMap fun q => q.call.events := by
  induction fuel with
  | zero =>
      intro ep mem
      rfl
  | succ fuel ih =>
      intro ep mem
      rw [fromWireLoop_succ, loopPasses]
      cases hPass : ep.wirePass (mem 0) with
      | mk es v =>
          have hFirst : (PassStart.call ⟨ep, mem 0⟩).events = es := by
            rw [PassStart.call, hPass]
          rw [List.flatMap_cons, hFirst]
          cases v with
          | error e => simp
          | ok pass =>
              cases pass with
              | done result ep' => simp
              | again ep' =>
                  rw [Traced.mk_ok_bind, Traced.events_prepend, ih]

/-- What a run emits is what its passes emit. -/
theorem deliverAll_events (ds : List Delivery) :
    ∀ ep : WebSocketEndpoint,
      (ep.deliverAll ds).events = (ep.runPasses ds).flatMap fun q => q.call.events := by
  induction ds with
  | nil =>
      intro ep
      rfl
  | cons d ds ih =>
      intro ep
      have hEvents : (ep.deliver d).events =
          (ep.deliverPasses d).flatMap fun q => q.call.events := by
        rw [deliverPasses_eq, ← fromWireLoop_events, deliver, fromWire, ByteBuffer.append_all]
        rfl
      rw [runPasses, List.flatMap_append, ← hEvents]
      cases hCall : ep.deliver d with
      | mk es v =>
          -- a call that ends the process is the last one of the run
          cases v with
          | error e =>
              rw [deliverAll, Traced.runAll_cons_error ds hCall]
              simp
          | ok r =>
              obtain ⟨result, ep'⟩ := r
              rw [deliverAll, Traced.runAll_cons_events ds hCall]
              exact congrArg (es ++ ·) (ih ep')

/-- Every pass of a loop starts with the cursors at the start and a buffer below
`2^32` bytes. -/
theorem loopPasses_settled (fuel : Nat) :
    ∀ (ep : WebSocketEndpoint) (mem : Nat → PassMem), Settled ep →
      ep.fromwireBuf.data.length < 4294967296 →
      ∀ q ∈ loopPasses fuel ep mem, Settled q.ep ∧ q.buffer.length < 4294967296 := by
  induction fuel with
  | zero =>
      intro ep mem _ _ q hq
      exact absurd hq (by simp [loopPasses])
  | succ fuel ih =>
      intro ep mem hSettled hSize q hq
      rw [loopPasses] at hq
      rcases List.mem_cons.mp hq with rfl | hRest
      · exact ⟨hSettled, hSize⟩
      · split at hRest
        · rename_i ep' hPass
          have hKeeps := wirePass_keeps hSettled (mem 0) hSize hPass
          exact ih ep' _ hKeeps.settled (lt_trans hKeeps.in_range (by decide)) q hRest
        · exact absurd hRest (by simp)

theorem runPasses_settled (ds : List Delivery) :
    ∀ ep : WebSocketEndpoint, Settled ep → ep.fromwireBuf.data.length < 2147483648 →
      ∀ q ∈ ep.runPasses ds, Settled q.ep ∧ q.buffer.length < 4294967296 := by
  induction ds with
  | nil =>
      intro ep _ _ q hq
      exact absurd hq (by simp [runPasses])
  | cons d ds ih =>
      intro ep hSettled hRange q hq
      rw [runPasses] at hq
      rcases List.mem_append.mp hq with hFirst | hRest
      · have hChunk := d.sizeLt
        have hSize : (ep.fromwireBuf.data ++ d.readbuf).length < 4294967296 := by
          rw [List.length_append]
          omega
        have hStart : Settled { ep with fromwireBuf := { ep.fromwireBuf with
            data := ep.fromwireBuf.data ++ d.readbuf } } :=
          ⟨hSettled.fromwire_oft, hSettled.message_oft⟩
        rw [deliverPasses_eq] at hFirst
        exact loopPasses_settled _ _ d.mem hStart hSize q hFirst
      · split at hRest
        · rename_i r ep' hCall
          obtain ⟨hSettled', -, hRange', -⟩ := deliver_keeps hSettled hRange d hCall
          exact ih ep' hSettled' hRange' q hRest
        · exact absurd hRest (by simp)

/-- The memory of a pass is one that its run was given. -/
theorem loopPasses_mem (fuel : Nat) :
    ∀ (ep : WebSocketEndpoint) (mem : Nat → PassMem),
      ∀ q ∈ loopPasses fuel ep mem, ∃ i, q.mem = mem i := by
  induction fuel with
  | zero =>
      intro ep mem q hq
      exact absurd hq (by simp [loopPasses])
  | succ fuel ih =>
      intro ep mem q hq
      rw [loopPasses] at hq
      rcases List.mem_cons.mp hq with rfl | hRest
      · exact ⟨0, rfl⟩
      · split at hRest
        · obtain ⟨i, hi⟩ := ih _ _ q hRest
          exact ⟨i + 1, hi⟩
        · exact absurd hRest (by simp)

/-- A request leads to an endpoint with the handshake done and nothing held. -/
theorem openEndpoint_reachable : Reachable openingRequest.length openEndpoint := by
  have hCall : ((WebSocketEndpoint.new none).deliver
      (.zeroed openingRequest (by rw [length_openingRequest]; decide))).value =
        .ok (openingRequest.length, openEndpoint) := by
    decide +kernel
  have hReach := Reachable.deliver _ (.fresh (fresh_new none)) hCall
  rwa [Nat.zero_add] at hReach

end WebSocketEndpoint

end WebSocketFiles
