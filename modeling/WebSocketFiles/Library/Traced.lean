import Mathlib

/-!
# Computations that emit events and may stop

`Traced σ ε α` is a computation that emits a list of events of type `ε` and
then either returns a value of type `α` or stops for a reason of type `σ`.
The events emitted before a stop are kept: they have already happened.

`Traced.runAll` threads a state through a list of inputs, one traced call for
each input; its laws (`runAll_cons_eq`, `runAll_cons_value`) are how a property
of one call becomes a property of a whole run.
-/

/-! ## Fallible computations -/

namespace Fallible

variable {σ α β : Type}

theorem ok_bind (a : α) (f : α → Except σ β) : (Except.ok a >>= f) = f a := rfl

theorem error_bind (e : σ) (f : α → Except σ β) : (Except.error e >>= f) = .error e := rfl

theorem pure_eq (a : α) : (pure a : Except σ α) = .ok a := rfl

theorem bind_ok_iff {x : Except σ α} {f : α → Except σ β} {b : β} :
    (x >>= f) = .ok b ↔ ∃ a, x = .ok a ∧ f a = .ok b := by
  cases x with
  | ok a => simp [ok_bind]
  | error e => simp [error_bind]

end Fallible

/-- Events emitted, then a result or the reason for stopping. -/
structure Traced (σ ε α : Type) where
  events : List ε
  value : Except σ α

namespace Traced

variable {σ ε α β γ : Type}

/-- Return without emitting anything. -/
def ret (a : α) : Traced σ ε α :=
  ⟨[], .ok a⟩

/-- Emit one event. -/
def emit (e : ε) : Traced σ ε Unit :=
  ⟨[e], .ok ()⟩

/-- A silent computation that may stop. -/
def ofExcept (x : Except σ α) : Traced σ ε α :=
  ⟨[], x⟩

/-- Sequencing: a stop in the first part keeps its events and skips the rest. -/
def andThen (x : Traced σ ε α) (f : α → Traced σ ε β) : Traced σ ε β :=
  match x.value with
  | .ok a => ⟨x.events ++ (f a).events, (f a).value⟩
  | .error e => ⟨x.events, .error e⟩

instance : Monad (Traced σ ε) where
  pure := ret
  bind := andThen

instance : MonadLift (Except σ) (Traced σ ε) where
  monadLift := ofExcept

/-- Put events in front of a computation. -/
def prepend (es : List ε) (x : Traced σ ε α) : Traced σ ε α :=
  ⟨es ++ x.events, x.value⟩

@[simp] theorem pure_eq (a : α) : (pure a : Traced σ ε α) = ⟨[], .ok a⟩ := rfl

@[simp] theorem emit_eq (e : ε) : (emit e : Traced σ ε Unit) = ⟨[e], .ok ()⟩ := rfl

@[simp] theorem liftM_ok (a : α) :
    (liftM (Except.ok a : Except σ α) : Traced σ ε α) = ⟨[], .ok a⟩ := rfl

@[simp] theorem mk_ok_bind (es : List ε) (a : α) (f : α → Traced σ ε β) :
    ((⟨es, .ok a⟩ : Traced σ ε α) >>= f) = prepend es (f a) := rfl

@[simp] theorem mk_error_bind (es : List ε) (e : σ) (f : α → Traced σ ε β) :
    ((⟨es, .error e⟩ : Traced σ ε α) >>= f) = ⟨es, .error e⟩ := rfl

@[simp] theorem prepend_nil (x : Traced σ ε α) : prepend [] x = x := rfl

@[simp] theorem prepend_mk (es fs : List ε) (v : Except σ α) :
    prepend es (⟨fs, v⟩ : Traced σ ε α) = ⟨es ++ fs, v⟩ := rfl

@[simp] theorem events_prepend (es : List ε) (x : Traced σ ε α) :
    (prepend es x).events = es ++ x.events := rfl

@[simp] theorem value_prepend (es : List ε) (x : Traced σ ε α) :
    (prepend es x).value = x.value := rfl

theorem bind_ok_iff {x : Traced σ ε α} {f : α → Traced σ ε β} {b : β} :
    (x >>= f).value = .ok b ↔ ∃ a, x.value = .ok a ∧ (f a).value = .ok b := by
  obtain ⟨es, v⟩ := x
  cases v with
  | ok a => simp
  | error e => simp

/-! ## Another view of the events -/

/-- Replace every event by a list of events, and change the result. -/
def expand {ε' : Type} (g : ε → List ε') (v : α → β) (x : Traced σ ε α) : Traced σ ε' β :=
  ⟨x.events.flatMap g, x.value.map v⟩

section Expand

variable {ε' : Type} {g : ε → List ε'} {v : α → β} {w : β → γ}

@[simp] theorem expand_mk (es : List ε) (x : Except σ α) :
    expand g v (⟨es, x⟩ : Traced σ ε α) = ⟨es.flatMap g, x.map v⟩ := rfl

@[simp] theorem expand_prepend (es : List ε) (x : Traced σ ε α) :
    expand g v (prepend es x) = prepend (es.flatMap g) (expand g v x) := by
  simp [expand, prepend]

/-- What happens in sequence is seen in sequence. -/
theorem expand_bind (x : Traced σ ε α) (f : α → Traced σ ε β) :
    expand g w (x >>= f) = expand g id x >>= fun a => expand g w (f a) := by
  obtain ⟨es, r⟩ := x
  cases r with
  | error e => rfl
  | ok a => exact expand_prepend es (f a)

/-- A silent computation is seen as it is. -/
theorem expand_liftM_bind (x : Except σ α) (f : α → Traced σ ε β) :
    expand g w (liftM x >>= f) = (liftM x : Traced σ ε' α) >>= fun a => expand g w (f a) := by
  cases x with
  | ok a => exact expand_prepend [] (f a)
  | error e => rfl

end Expand

/-! ## Runs over a list of inputs -/

/-- Feed the inputs one after another, collecting what each call returns. -/
def runAll (call : α → β → Traced σ ε (γ × α)) : α → List β → Traced σ ε (List γ × α)
  | s, [] => ⟨[], .ok ([], s)⟩
  | s, b :: bs => do
      let (r, s') ← call s b
      let (rs, s'') ← runAll call s' bs
      pure (r :: rs, s'')

variable {call : α → β → Traced σ ε (γ × α)}

@[simp] theorem runAll_nil (s : α) : runAll call s [] = ⟨[], .ok ([], s)⟩ := rfl

/-- One call that returns, in front of a run. -/
theorem runAll_cons_ok {s s' : α} {b : β} {r : γ} {es : List ε} (bs : List β)
    (hCall : call s b = ⟨es, .ok (r, s')⟩) :
    runAll call s (b :: bs) =
      prepend es (do
        let (rs, s'') ← runAll call s' bs
        pure (r :: rs, s'')) := by
  simp [runAll, hCall]

/-- A call that returns in front of a run that returns. -/
theorem runAll_cons_eq {s s' t : α} {b : β} {bs : List β} {r : γ} {rs : List γ} {es es' : List ε}
    (hCall : call s b = ⟨es, .ok (r, s')⟩) (hRest : runAll call s' bs = ⟨es', .ok (rs, t)⟩) :
    runAll call s (b :: bs) = ⟨es ++ es', .ok (r :: rs, t)⟩ := by
  simp [runAll_cons_ok bs hCall, hRest]

/-- A first call that stops ends the run. -/
theorem runAll_cons_error {s : α} {b : β} {e : σ} {es : List ε} (bs : List β)
    (hCall : call s b = ⟨es, .error e⟩) :
    runAll call s (b :: bs) = ⟨es, .error e⟩ := by
  simp [runAll, hCall]

/-- The events of a run are those of the first call, then those of the rest. -/
theorem runAll_cons_events {s s' : α} {b : β} {r : γ} {es : List ε} (bs : List β)
    (hCall : call s b = ⟨es, .ok (r, s')⟩) :
    (runAll call s (b :: bs)).events = es ++ (runAll call s' bs).events := by
  rw [runAll_cons_ok bs hCall]
  cases hRest : runAll call s' bs with
  | mk fs v => cases v <;> simp

/-- The value of a run whose first call returns. -/
theorem runAll_cons_map {s s' : α} {b : β} {r : γ} {es : List ε} (bs : List β)
    (hCall : call s b = ⟨es, .ok (r, s')⟩) :
    (runAll call s (b :: bs)).value = (runAll call s' bs).value.map fun q => (r :: q.1, q.2) := by
  rw [runAll_cons_ok bs hCall]
  cases runAll call s' bs with
  | mk fs v => cases v <;> rfl

/-- A run returns exactly when its first call returns and the rest does. -/
theorem runAll_cons_value {s t : α} {b : β} {bs : List β} {rs : List γ} :
    (runAll call s (b :: bs)).value = .ok (rs, t) ↔
      ∃ r s' rs', (call s b).value = .ok (r, s') ∧
        (runAll call s' bs).value = .ok (rs', t) ∧ rs = r :: rs' := by
  constructor
  · intro hRun
    obtain ⟨⟨r, s'⟩, hCall, hRest⟩ := bind_ok_iff.mp hRun
    obtain ⟨⟨rs', s''⟩, hTail, hPure⟩ := bind_ok_iff.mp hRest
    simp only [pure_eq, Except.ok.injEq, Prod.mk.injEq] at hPure
    obtain ⟨rfl, rfl⟩ := hPure
    exact ⟨r, s', rs', hCall, hTail, rfl⟩
  · rintro ⟨r, s', rs', hCall, hTail, rfl⟩
    exact bind_ok_iff.mpr ⟨(r, s'), hCall, bind_ok_iff.mpr ⟨(rs', t), hTail, rfl⟩⟩

theorem runAll_singleton_events (s : α) (b : β) :
    (runAll call s [b]).events = (call s b).events := by
  cases hCall : call s b with
  | mk es v =>
      cases v with
      | error e => rw [runAll_cons_error [] hCall]
      | ok a =>
          rw [runAll_cons_events [] hCall, runAll_nil]
          exact List.append_nil es

/-- A run that returns, in front of a run. -/
theorem runAll_append_events {s s' : α} {bs : List β} {rs : List γ} {es : List ε} (cs : List β)
    (hRun : runAll call s bs = ⟨es, .ok (rs, s')⟩) :
    (runAll call s (bs ++ cs)).events = es ++ (runAll call s' cs).events := by
  induction bs generalizing s es rs with
  | nil =>
      simp only [runAll_nil, mk.injEq, Except.ok.injEq, Prod.mk.injEq] at hRun
      obtain ⟨rfl, -, rfl⟩ := hRun
      rfl
  | cons b bs ih =>
      obtain ⟨r, s₁, rs', hCall, hRest, rfl⟩ := runAll_cons_value.mp (congrArg value hRun)
      have hFirst : call s b = ⟨(call s b).events, .ok (r, s₁)⟩ := by rw [← hCall]
      have hTail : runAll call s₁ bs = ⟨(runAll call s₁ bs).events, .ok (rs', s')⟩ := by
        rw [← hRest]
      have hEvents : es = (call s b).events ++ (runAll call s₁ bs).events := by
        rw [← runAll_cons_events bs hFirst, hRun]
      rw [List.cons_append, runAll_cons_events _ hFirst, ih hTail, hEvents, List.append_assoc]

/-- A run that returns, in front of one that returns. -/
theorem runAll_append_eq {s s' t : α} {bs cs : List β} {rs rs' : List γ} {es es' : List ε}
    (hRun : runAll call s bs = ⟨es, .ok (rs, s')⟩)
    (hRest : runAll call s' cs = ⟨es', .ok (rs', t)⟩) :
    runAll call s (bs ++ cs) = ⟨es ++ es', .ok (rs ++ rs', t)⟩ := by
  induction bs generalizing s es rs with
  | nil =>
      simp only [runAll_nil, mk.injEq, Except.ok.injEq, Prod.mk.injEq] at hRun
      obtain ⟨rfl, rfl, rfl⟩ := hRun
      exact hRest
  | cons b bs ih =>
      obtain ⟨r, s₁, rs₁, hCall, hTail, rfl⟩ := runAll_cons_value.mp (congrArg value hRun)
      have hFirst : call s b = ⟨(call s b).events, .ok (r, s₁)⟩ := by rw [← hCall]
      have hLater : runAll call s₁ bs = ⟨(runAll call s₁ bs).events, .ok (rs₁, s')⟩ := by
        rw [← hTail]
      have hEvents : es = (call s b).events ++ (runAll call s₁ bs).events := by
        rw [← runAll_cons_events bs hFirst, hRun]
      rw [List.cons_append, runAll_cons_eq hFirst (ih hLater), hEvents, List.append_assoc]
      rfl

end Traced
