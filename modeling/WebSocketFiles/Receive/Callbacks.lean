import WebSocketFiles.Handshake.Runs

/-!
# Who is called back

`process` registers a write callback and the work item it is for, and `to_wire` calls
the callback.  What the endpoint does with the bytes it is given does not depend on
whom it calls: the endpoint with a callback emits what the silent endpoint emits, and
behind each buffer that goes to the wire the call that announces it
(`deliver_calledBy`).

So over any calls of the two overloads of `process` the callback is called for the
work item that was registered last, and chunks given without one are skipped
(`process_calls_back`).
-/

namespace WebSocketFiles

open MachineInt

/-- The write callback and its argument. -/
structure Registration where
  ntWriteCb : Option Addr
  ntWorkData : Option Addr
  deriving DecidableEq, Repr

/-- Nobody is called back. -/
def Registration.silent : Registration := ⟨none, none⟩

namespace Event

/-- What is announced to whom: every buffer that is not empty. -/
def announced (reg : Registration) (writebufs : List Bytes) : List (Addr × Bytes × Addr) :=
  match reg.ntWriteCb, reg.ntWorkData with
  | some cb, some workData =>
      (writebufs.filter fun w => w ≠ []).map fun w => (cb, w, workData)
  | _, _ => []

/-- The event of the silent endpoint, with the call that announces it. -/
def announce (reg : Registration) : Event → List Event
  | toWire writebuf =>
      toWire writebuf :: (announced reg [writebuf]).map fun c => ntWriteCb c.1 c.2.1 c.2.2
  | userDefinedProcess opcode payload => [userDefinedProcess opcode payload]
  | ntWriteCb _ _ _ => []

theorem called_append (es fs : List Event) : called (es ++ fs) = called es ++ called fs :=
  List.filterMap_append

section Announce

variable (calls : List (Addr × Bytes × Addr))

theorem wires_map_ntWriteCb : wires (calls.map fun c => ntWriteCb c.1 c.2.1 c.2.2) = [] := by
  simp [wires]

theorem users_map_ntWriteCb : users (calls.map fun c => ntWriteCb c.1 c.2.1 c.2.2) = [] := by
  simp [users]

theorem called_map_ntWriteCb :
    called (calls.map fun c => ntWriteCb c.1 c.2.1 c.2.2) = calls := by
  simp [called, List.filterMap_map]

end Announce

/-- The buffers of the calls. -/
theorem callbacks_eq_called (es : List Event) :
    callbacks es = (called es).map fun c => c.2.1 := by
  induction es with
  | nil => rfl
  | cons e es ih =>
      cases e with
      | ntWriteCb cb buf workData => exact congrArg (buf :: ·) ih
      | _ => exact ih

theorem announced_nil (reg : Registration) : announced reg [] = [] := by
  unfold announced
  split <;> rfl

theorem announced_cons (reg : Registration) (w : Bytes) (ws : List Bytes) :
    announced reg (w :: ws) = announced reg [w] ++ announced reg ws := by
  unfold announced
  split
  · rw [← List.map_append, ← List.filter_append, List.singleton_append]
  · rfl

/-- Whom is called back does not show in what goes to the wire. -/
theorem wires_announce (reg : Registration) (es : List Event) :
    wires (es.flatMap (announce reg)) = wires es := by
  induction es with
  | nil => rfl
  | cons e es ih =>
      rw [List.flatMap_cons, wires_append, ih]
      cases e with
      | toWire w => exact congrArg (w :: · ++ wires es) (wires_map_ntWriteCb _)
      | _ => rfl

theorem users_announce (reg : Registration) (es : List Event) :
    users (es.flatMap (announce reg)) = users es := by
  induction es with
  | nil => rfl
  | cons e es ih =>
      rw [List.flatMap_cons, users_append, ih]
      cases e with
      | toWire w => exact congrArg (· ++ users es) (users_map_ntWriteCb _)
      | _ => rfl

/-- The calls are those that announce what goes to the wire. -/
theorem called_announce (reg : Registration) (es : List Event) :
    called (es.flatMap (announce reg)) = announced reg (wires es) := by
  induction es with
  | nil => exact (announced_nil reg).symm
  | cons e es ih =>
      rw [List.flatMap_cons, called_append, ih]
      cases e with
      | toWire w =>
          have hOne : called (announce reg (.toWire w)) = announced reg [w] :=
            called_map_ntWriteCb _
          rw [hOne]
          exact (announced_cons reg w (wires es)).symm
      | _ => rfl

end Event

namespace WebSocketEndpoint

/-- The endpoint with another callback. -/
def calledBy (ep : WebSocketEndpoint) (reg : Registration) : WebSocketEndpoint :=
  { ep with ntWriteCb := reg.ntWriteCb, ntWorkData := reg.ntWorkData }

/-- Whom the endpoint calls back. -/
def registration (ep : WebSocketEndpoint) : Registration :=
  ⟨ep.ntWriteCb, ep.ntWorkData⟩

@[simp] theorem calledBy_registration (ep : WebSocketEndpoint) :
    ep.calledBy ep.registration = ep := rfl

@[simp] theorem calledBy_calledBy (ep : WebSocketEndpoint) (reg reg' : Registration) :
    (ep.calledBy reg).calledBy reg' = ep.calledBy reg' := rfl

/-! ## The methods, layer by layer -/

section Layers

variable (reg : Registration) (ep : WebSocketEndpoint)

theorem toWire_calledBy {writebuf : Option Bytes} (size : Int) (hSome : writebuf ≠ some []) :
    (ep.calledBy reg).toWire writebuf size =
      Traced.expand (Event.announce reg) id ((ep.calledBy .silent).toWire writebuf size) := by
  obtain ⟨cb, workData⟩ := reg
  rw [toWire_eq, toWire_eq, Traced.expand_mk]
  congr 1
  unfold wireEvents calledBy Registration.silent
  simp only [List.flatMap_cons, List.flatMap_nil, List.append_nil, Event.announce, Event.announced]
  cases cb with
  | none => rfl
  | some cb =>
      cases workData with
      | none => rfl
      | some workData =>
          cases writebuf with
          | none => simp
          | some buf =>
              have hBuf : buf ≠ [] := fun hNil => hSome (congrArg some hNil)
              by_cases hSize : size ≤ 0
              · have hNone : size.toNat = 0 := by omega
                simp [hSize, hNone]
              · have hWritten : buf.take size.toNat ≠ [] := by
                  rw [ne_eq, List.take_eq_nil_iff, not_or]
                  exact ⟨by omega, hBuf⟩
                simp [hSize, hWritten]

/-- The pointer of `bytes` is NULL or points to something. -/
theorem bytes_ne_nil (b : ByteBuffer) :
    (if b.length = 0 then none else some b.data) ≠ some [] := by
  split
  · simp
  · rename_i hLength
    intro hNil
    exact hLength (by rw [ByteBuffer.length, Option.some.inj hNil]; simp)

theorem userDefinedProcess_calledBy (mem : Uninit) (packet : WebSocketPacket)
    (framePayload : ByteBuffer) :
    (ep.calledBy reg).userDefinedProcess mem packet framePayload =
      Traced.expand (Event.announce reg) id
        ((ep.calledBy .silent).userDefinedProcess mem packet framePayload) := by
  unfold userDefinedProcess
  simp only [ByteBuffer.bytes_eq, Traced.emit_eq, Traced.mk_ok_bind, Traced.liftM_ok,
    Traced.prepend_nil, Traced.expand_prepend, Traced.expand_liftM_bind]
  -- up to the last call, nothing depends on the callback
  refine congrArg (Traced.prepend _) ?_
  refine congrArg (liftM _ >>= ·) (funext fun strRecv => ?_)
  refine congrArg (liftM _ >>= ·) (funext fun wspacket => ?_)
  refine congrArg (liftM _ >>= ·) (funext fun r => ?_)
  exact toWire_calledBy reg ep _ (bytes_ne_nil r.2.2)

theorem processMessageData_calledBy (mem : Uninit) (packet : WebSocketPacket)
    (framePayload : ByteBuffer) :
    (ep.calledBy reg).processMessageData mem packet framePayload =
      Traced.expand (Event.announce reg) id
        ((ep.calledBy .silent).processMessageData mem packet framePayload) := by
  unfold processMessageData
  split
  · exact userDefinedProcess_calledBy reg ep mem packet framePayload
  · rfl

theorem parsePacket_calledBy (mem : PassMem) :
    (ep.calledBy reg).parsePacket mem =
      Traced.expand (Event.announce reg) (fun r => (r.1, r.2.calledBy reg))
        ((ep.calledBy .silent).parsePacket mem) := by
  unfold parsePacket
  have hSame : (ep.calledBy reg).wsHandshakeCompleted =
    (ep.calledBy .silent).wsHandshakeCompleted := rfl
  rw [hSame]
  split
  · simp only [Traced.expand_liftM_bind]
    refine congrArg (liftM _ >>= ·) (funext fun r => ?_)
    split
    · rfl
    · split
      · rfl
      · have hRsp : some r.2.1.packHandshakeRsp ≠ some [] := by
          intro hNil
          have hPos := r.2.1.packHandshakeRsp_length.1
          rw [Option.some.inj hNil] at hPos
          exact absurd hPos (by decide)
        rw [Traced.expand_bind]
        exact congrArg (· >>= fun _ => _)
          (toWire_calledBy reg { ep with fromwireBuf := r.2.2 } _ hRsp)
  · simp only [Traced.expand_liftM_bind]
    refine congrArg (liftM _ >>= ·) (funext fun r => ?_)
    split
    · rfl
    · simp only [ByteBuffer.bytes_eq, Traced.liftM_ok, Traced.mk_ok_bind, Traced.prepend_nil,
        Traced.expand_liftM_bind]
      refine congrArg (liftM _ >>= ·) (funext fun messageData => ?_)
      split
      · rw [Traced.expand_bind]
        exact congrArg (· >>= fun _ => _) (processMessageData_calledBy reg
          { ep with fromwireBuf := r.2.2, messageData := messageData } _ _ _)
      · rfl

/-- How a pass ends, with another callback. -/
def Pass.calledBy (reg : Registration) : Pass → Pass
  | .again ep => .again (ep.calledBy reg)
  | .done result ep => .done result (ep.calledBy reg)

theorem settle_calledBy (nrcv : Int) :
    settle nrcv (ep.calledBy reg) = (settle nrcv ep).calledBy reg := by
  unfold settle
  simp only
  split
  · have hSame : (ep.calledBy reg).fromwireBuf = ep.fromwireBuf := rfl
    rw [hSame]
    split <;> rfl
  · split <;> rfl

theorem wirePass_calledBy (mem : PassMem) :
    (ep.calledBy reg).wirePass mem =
      Traced.expand (Event.announce reg) (Pass.calledBy reg)
        ((ep.calledBy .silent).wirePass mem) := by
  unfold wirePass
  rw [parsePacket_calledBy]
  cases (ep.calledBy .silent).parsePacket mem with
  | mk es v =>
      cases v with
      | error e => rfl
      | ok r =>
          show (⟨es.flatMap (Event.announce reg) ++ [], .ok (settle r.1 (r.2.calledBy reg))⟩ :
            Call Pass) = ⟨(es ++ []).flatMap (Event.announce reg),
              .ok ((settle r.1 r.2).calledBy reg)⟩
          rw [settle_calledBy, List.append_nil, List.append_nil]

end Layers

/-- A pass of the silent endpoint keeps it silent. -/
theorem again_silent {ep ep' : WebSocketEndpoint} {mem : PassMem} {es : List Event}
    (hRun : (ep.calledBy .silent).wirePass mem = ⟨es, .ok (.again ep')⟩) :
    ep'.calledBy .silent = ep' := by
  have hPass := congrArg Traced.value (wirePass_calledBy .silent ep mem)
  rw [hRun] at hPass
  have hSame : Pass.again ep' = .again (ep'.calledBy .silent) := Except.ok.inj hPass
  exact (Pass.again.inj hSame).symm

/-- The loop, by induction on its passes. -/
theorem fromWireLoop_calledBy (reg : Registration) (fuel : Nat) :
    ∀ (ep : WebSocketEndpoint) (mem : Nat → PassMem),
      fromWireLoop fuel (ep.calledBy reg) mem =
        Traced.expand (Event.announce reg) (fun r => (r.1, r.2.calledBy reg))
          (fromWireLoop fuel (ep.calledBy .silent) mem) := by
  induction fuel with
  | zero => exact fun _ _ => rfl
  | succ fuel ih =>
      intro ep mem
      have hPass := wirePass_calledBy reg ep (mem 0)
      cases hRun : (ep.calledBy .silent).wirePass (mem 0) with
      | mk es v =>
          rw [hRun, Traced.expand_mk] at hPass
          cases v with
          | error e =>
              rw [fromWireLoop_stops hPass, fromWireLoop_stops hRun]
              rfl
          | ok pass =>
              cases pass with
              | done result ep' =>
                  rw [fromWireLoop_done hPass, fromWireLoop_done hRun]
                  rfl
              | again ep' =>
                  have hRest := ih ep' fun i => mem (i + 1)
                  rw [again_silent hRun] at hRest
                  rw [fromWireLoop_again hPass, fromWireLoop_again hRun, Traced.expand_prepend,
                    ← hRest]

/-- A call of `from_wire`: whom the endpoint calls back shows in nothing but the
calls. -/
theorem fromWire_calledBy (reg : Registration) (ep : WebSocketEndpoint) (readbuf : Bytes)
    (mem : Nat → PassMem) :
    (ep.calledBy reg).fromWire readbuf mem =
      Traced.expand (Event.announce reg) (fun r => (r.1, r.2.calledBy reg))
        ((ep.calledBy .silent).fromWire readbuf mem) := by
  unfold fromWire
  simp only [Traced.expand_liftM_bind]
  refine congrArg (liftM _ >>= ·) (funext fun buf => ?_)
  exact fromWireLoop_calledBy reg _ { ep with fromwireBuf := buf } mem

theorem deliver_calledBy (reg : Registration) (ep : WebSocketEndpoint) (d : Delivery) :
    (ep.calledBy reg).deliver d =
      Traced.expand (Event.announce reg) (fun r => (r.1, r.2.calledBy reg))
        ((ep.calledBy .silent).deliver d) :=
  fromWire_calledBy reg ep d.readbuf d.mem

/-- `process` with a callback: the silent call, announced. -/
theorem process_eq (ep : WebSocketEndpoint) (readbuf : Bytes) (cb workData : Addr)
    (mem : Nat → PassMem) :
    ep.process readbuf (some cb) (some workData) mem =
      Traced.expand (Event.announce ⟨some cb, some workData⟩)
        (fun r => (r.1, r.2.calledBy ⟨some cb, some workData⟩))
        ((ep.calledBy .silent).fromWire readbuf mem) := by
  unfold process
  rw [if_neg (by simp)]
  exact fromWire_calledBy ⟨some cb, some workData⟩ ep readbuf mem

/-- A call keeps the silent endpoint silent. -/
theorem deliver_silent {ep ep' : WebSocketEndpoint} {d : Delivery} {es : List Event} {r : Int}
    (hRun : (ep.calledBy .silent).deliver d = ⟨es, .ok (r, ep')⟩) :
    ep'.calledBy .silent = ep' := by
  have hCall := congrArg Traced.value (deliver_calledBy .silent ep d)
  rw [hRun] at hCall
  have hSame : (r, ep') = (r, ep'.calledBy .silent) := Except.ok.inj hCall
  exact (Prod.mk.inj hSame).2.symm

/-! ## The calls of `process` -/

end WebSocketEndpoint

namespace ProcessCall

/-- The chunk of a call that is not skipped. -/
def chunk : ProcessCall → Option Delivery
  | plain d => some d
  | withCallback d writeCb workData => if writeCb = none ∨ workData = none then none else some d

/-- Who is called back after a call. -/
def registers (reg : Registration) : ProcessCall → Registration
  | plain _ => reg
  | withCallback _ writeCb workData =>
      if writeCb = none ∨ workData = none then reg else ⟨writeCb, workData⟩

end ProcessCall

namespace WebSocketEndpoint

/-- A call of `process` is skipped, or it is a call of `from_wire` with whoever was
registered last. -/
theorem processCall_cases (ep : WebSocketEndpoint) (call : ProcessCall) :
    (call.chunk = none ∧ ep.processCall call = pure (0, ep) ∧
      call.registers ep.registration = ep.registration) ∨
    ∃ d, call.chunk = some d ∧
      ep.processCall call = (ep.calledBy (call.registers ep.registration)).deliver d := by
  cases call with
  | plain d => exact .inr ⟨d, rfl, rfl⟩
  | withCallback d writeCb workData =>
      by_cases hNull : writeCb = none ∨ workData = none
      · exact .inl ⟨if_pos hNull, if_pos hNull, if_pos hNull⟩
      · have hReg : (ProcessCall.withCallback d writeCb workData).registers ep.registration =
            ⟨writeCb, workData⟩ := if_neg hNull
        rw [hReg]
        exact .inr ⟨d, if_neg hNull, if_neg hNull⟩

/-- Whom a call of `process` calls back, and with what. -/
theorem called_processCall (ep : WebSocketEndpoint) (call : ProcessCall) :
    Event.called (ep.processCall call).events =
      Event.announced (call.registers ep.registration)
        (Event.wires (ep.processCall call).events) := by
  rcases ep.processCall_cases call with ⟨-, hSkip, -⟩ | ⟨d, -, hDeliver⟩
  · rw [hSkip]
    exact (Event.announced_nil _).symm
  · rw [hDeliver, deliver_calledBy]
    show Event.called (List.flatMap _ _) = Event.announced _ (Event.wires (List.flatMap _ _))
    rw [Event.called_announce, Event.wires_announce]

/-- Who is called back after some calls of `process`. -/
def registrationAfter (ep : WebSocketEndpoint) (calls : List ProcessCall) : Registration :=
  calls.foldl (fun reg call => call.registers reg) ep.registration

/-- The results of calls of `process`, from those of the chunks that were not
skipped. -/
def spreadResults : List ProcessCall → List Int → List Int
  | [], _ => []
  | call :: calls, rs =>
      match call.chunk, rs with
      | none, rs => 0 :: spreadResults calls rs
      | some _, [] => []
      | some _, r :: rs => r :: spreadResults calls rs

/-- The endpoint that is constructed with a callback is fresh, too. -/
theorem fresh_newWithCallback (writeCb ntWorkData : Option Addr) :
    Fresh (newWithCallback writeCb ntWorkData) :=
  ⟨rfl, rfl, rfl⟩

/-- Calls of `process` do what calls of `from_wire` on their chunks do. -/
theorem processAll_eq (calls : List ProcessCall) :
    ∀ ep : WebSocketEndpoint,
      Event.wires (ep.processAll calls).events =
        Event.wires ((ep.calledBy .silent).deliverAll (calls.filterMap ProcessCall.chunk)).events ∧
      Event.users (ep.processAll calls).events =
        Event.users ((ep.calledBy .silent).deliverAll (calls.filterMap ProcessCall.chunk)).events ∧
      (ep.processAll calls).value =
        ((ep.calledBy .silent).deliverAll (calls.filterMap ProcessCall.chunk)).value.map
          fun r => (spreadResults calls r.1, r.2.calledBy (ep.registrationAfter calls)) := by
  induction calls with
  | nil => exact fun ep => ⟨rfl, rfl, rfl⟩
  | cons call calls ih =>
      intro ep
      rcases ep.processCall_cases call with ⟨hNone, hSkip, hSame⟩ | ⟨d, hSome, hDeliver⟩
      · -- the call is skipped
        have hCall : ep.processCall call = ⟨[], .ok (0, ep)⟩ := hSkip
        have hAfter : ep.registrationAfter (call :: calls) = ep.registrationAfter calls := by
          rw [registrationAfter, List.foldl_cons, hSame]
          rfl
        obtain ⟨hWires, hUsers, hValue⟩ := ih ep
        have hEvents := Traced.runAll_cons_events calls hCall
        rw [List.nil_append] at hEvents
        have hFirst := Traced.runAll_cons_map calls hCall
        unfold processAll at hWires hUsers hValue ⊢
        rw [hEvents, hFirst, hValue, List.filterMap_cons_none hNone, hAfter]
        refine ⟨hWires, hUsers, ?_⟩
        cases ((ep.calledBy .silent).deliverAll (calls.filterMap ProcessCall.chunk)).value with
        | error e => rfl
        | ok r => simp only [Except.map, spreadResults, hNone]
      · have hRest : (call :: calls).filterMap ProcessCall.chunk =
            d :: calls.filterMap ProcessCall.chunk := List.filterMap_cons_some hSome
        rw [deliver_calledBy] at hDeliver
        unfold processAll deliverAll
        rw [hRest]
        cases hRun : (ep.calledBy .silent).deliver d with
        | mk es v =>
            rw [hRun, Traced.expand_mk] at hDeliver
            cases v with
            | error e =>
                rw [Traced.runAll_cons_error _ hDeliver, Traced.runAll_cons_error _ hRun]
                exact ⟨Event.wires_announce _ es, Event.users_announce _ es, rfl⟩
            | ok r =>
                obtain ⟨r, ep'⟩ := r
                -- the rest runs on the endpoint that this call registered with
                have hCall : ep.processCall call = ⟨es.flatMap (Event.announce
                    (call.registers ep.registration)), .ok (r, ep'.calledBy
                      (call.registers ep.registration))⟩ := hDeliver
                obtain ⟨hWires, hUsers, hValue⟩ := ih (ep'.calledBy
                  (call.registers ep.registration))
                rw [calledBy_calledBy, deliver_silent hRun] at hWires hUsers hValue
                rw [Traced.runAll_cons_events _ hCall, Traced.runAll_cons_events _ hRun,
                  Traced.runAll_cons_map _ hCall, Traced.runAll_cons_map _ hRun,
                  Event.wires_append, Event.wires_append, Event.users_append, Event.users_append,
                  Event.wires_announce, Event.users_announce]
                refine ⟨congrArg (_ ++ ·) hWires, congrArg (_ ++ ·) hUsers, ?_⟩
                refine (congrArg (Except.map _) hValue).trans ?_
                unfold deliverAll
                cases (Traced.runAll deliver ep' (calls.filterMap ProcessCall.chunk)).value with
                | error e => rfl
                | ok q =>
                    simp only [Except.map, spreadResults, hSome]
                    rfl

/-- The write callback under any calls of the two overloads of `process`: what goes to
the wire, the messages, the results and the buffers are those of `from_wire` on the
chunks that are not skipped, whoever is registered; and the next call announces what it
writes to whoever was registered last. -/
theorem process_calls_back (ep : WebSocketEndpoint) (calls : List ProcessCall) :
    Event.wires (ep.processAll calls).events =
        Event.wires ((ep.calledBy .silent).deliverAll (calls.filterMap ProcessCall.chunk)).events ∧
      Event.users (ep.processAll calls).events =
        Event.users ((ep.calledBy .silent).deliverAll (calls.filterMap ProcessCall.chunk)).events ∧
      (ep.processAll calls).value =
        ((ep.calledBy .silent).deliverAll (calls.filterMap ProcessCall.chunk)).value.map
          (fun r => (spreadResults calls r.1, r.2.calledBy (ep.registrationAfter calls))) ∧
      ∀ call rs ep', (ep.processAll calls).value = .ok (rs, ep') →
        Event.called (ep'.processCall call).events =
          Event.announced (ep.registrationAfter (calls ++ [call]))
            (Event.wires (ep'.processCall call).events) := by
  obtain ⟨hWires, hUsers, hValue⟩ := processAll_eq calls ep
  refine ⟨hWires, hUsers, hValue, ?_⟩
  intro call rs ep' hBefore
  rw [hValue] at hBefore
  -- what ran before leaves its last registration behind
  have hReg : ep'.registration = ep.registrationAfter calls := by
    cases hRun : ((ep.calledBy .silent).deliverAll (calls.filterMap ProcessCall.chunk)).value with
    | error e =>
        rw [hRun] at hBefore
        exact absurd hBefore (by simp [Except.map])
    | ok q =>
        rw [hRun] at hBefore
        have hSame : (_, q.2.calledBy (ep.registrationAfter calls)) = (rs, ep') :=
          Except.ok.inj hBefore
        rw [← (Prod.mk.inj hSame).2]
        rfl
  have hAfter : ep.registrationAfter (calls ++ [call]) = call.registers ep'.registration := by
    rw [hReg, registrationAfter, List.foldl_append]
    rfl
  rw [hAfter]
  exact called_processCall ep' call

end WebSocketEndpoint

end WebSocketFiles
