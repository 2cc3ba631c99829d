import WebSocketFiles.Library.History

/-!
# Runs of a transition system

A system is given by a partial step function: `step s a = none` when the action
`a` cannot happen in the state `s`.  `Reaches step init run s` records a run as
the list of its steps, each with the state it was taken in, so that conditions
on runs and properties of runs are both properties of histories
(`History.Always`).

`Reaches.invariant` is the induction rule for what holds of every state and the
history that led to it; `Reaches.always` turns such an invariant into a property
of every step of a run.
-/

namespace Transition

open History

variable {σ α : Type} {step : σ → α → Option σ} {init s : σ} {run : List (σ × α)}

/-- The recorded steps lead from `init` to the last argument. -/
inductive Reaches (step : σ → α → Option σ) (init : σ) : List (σ × α) → σ → Prop where
  | start : Reaches step init [] init
  | next {run : List (σ × α)} {s s' : σ} {a : α} (hRun : Reaches step init run s)
      (hStep : step s a = some s') : Reaches step init (run ++ [(s, a)]) s'

/-- What holds at the start, and is kept by every step whose condition is met,
holds at the end of a run whose steps all meet their condition. -/
theorem Reaches.invariant {Cond : List (σ × α) → σ × α → Prop} {Inv : List (σ × α) → σ → Prop}
    (hInit : Inv [] init)
    (hNext : ∀ run s a s', Inv run s → Cond run (s, a) → step s a = some s' →
      Inv (run ++ [(s, a)]) s')
    (hReach : Reaches step init run s) (hCond : Always Cond run) : Inv run s := by
  induction hReach with
  | start => exact hInit
  | next hRun hStep ih =>
      obtain ⟨hBefore, hLast⟩ := always_snoc.mp hCond
      exact hNext _ _ _ _ (ih hBefore) hLast hStep

/-- A run, and a run from where it ended. -/
theorem Reaches.append {later : List (σ × α)} {s' : σ} (hReach : Reaches step init run s)
    (hLater : Reaches step s later s') : Reaches step init (run ++ later) s' := by
  induction hLater with
  | start => rwa [List.append_nil]
  | next _ hStep ih => exact List.append_assoc _ _ _ ▸ .next ih hStep

/-- A run each of whose steps makes the measure smaller is no longer than the measure. -/
theorem Reaches.length_le (measure : σ → Nat) {Cond : List (σ × α) → σ × α → Prop}
    (hLess : ∀ run s a s', Cond run (s, a) → step s a = some s' → measure s' < measure s)
    (hReach : Reaches step init run s) (hCond : Always Cond run) :
    run.length + measure s ≤ measure init := by
  induction hReach with
  | start => simp
  | next _ hStep ih =>
      obtain ⟨hBefore, hLast⟩ := always_snoc.mp hCond
      have hShort := ih hBefore
      have hSmaller := hLess _ _ _ _ hLast hStep
      rw [List.length_append, List.length_singleton]
      omega

/-- The state a step was taken in is reached by the steps before it. -/
theorem Reaches.before (hReach : Reaches step init run s) :
    Always (fun pre q => Reaches step init pre q.1 ∧ ∃ s', step q.1 q.2 = some s') run := by
  induction hReach with
  | start => exact always_nil
  | next hRun hStep ih => exact always_snoc.mpr ⟨ih, hRun, _, hStep⟩

/-- Every step of a run is taken in a state that satisfies the invariant. -/
theorem Reaches.always {Cond : List (σ × α) → σ × α → Prop} {Inv : List (σ × α) → σ → Prop}
    (hInit : Inv [] init)
    (hNext : ∀ run s a s', Inv run s → Cond run (s, a) → step s a = some s' →
      Inv (run ++ [(s, a)]) s')
    (hReach : Reaches step init run s) (hCond : Always Cond run) :
    Always (fun pre q => Inv pre q.1) run := by
  induction hReach with
  | start => exact always_nil
  | next hRun hStep ih =>
      obtain ⟨hBefore, -⟩ := always_snoc.mp hCond
      exact always_snoc.mpr ⟨ih hBefore, hRun.invariant hInit hNext hBefore⟩

/-! ## Projections -/

section Project

variable {τ β γ : Type} {step' : τ → β → Option τ} {proj : σ → τ} {act : σ → α → Option β}

/-- A run seen through a projection of the states: the actions without an image
are left out. -/
def project (proj : σ → τ) (act : σ → α → Option β) (run : List (σ × α)) : List (τ × β) :=
  run.filterMap fun q => (act q.1 q.2).map fun b => (proj q.1, b)

/-- If every step projects to a step, or leaves the projection as it is, then
every run projects to a run. -/
theorem Reaches.project {Cond : List (σ × α) → σ × α → Prop}
    (hNone : ∀ run s a s', Reaches step init run s → Cond run (s, a) → step s a = some s' →
      act s a = none → proj s' = proj s)
    (hSome : ∀ run s a s' b, Reaches step init run s → Cond run (s, a) → step s a = some s' →
      act s a = some b → step' (proj s) b = some (proj s'))
    (hReach : Reaches step init run s) (hCond : Always Cond run) :
    Reaches step' (proj init) (project proj act run) (proj s) := by
  induction hReach with
  | start => exact .start
  | next hRun hStep ih =>
      rename_i run s s' a
      obtain ⟨hBefore, hLast⟩ := always_snoc.mp hCond
      have hPre := ih hBefore
      unfold Transition.project at hPre ⊢
      rw [List.filterMap_append]
      cases hAct : act s a with
      | none =>
          rw [List.filterMap_cons_none (by rw [hAct, Option.map_none]), List.filterMap_nil,
            List.append_nil, hNone run s a s' hRun hLast hStep hAct]
          exact hPre
      | some b =>
          rw [List.filterMap_cons_some (by rw [hAct, Option.map_some]), List.filterMap_nil]
          exact .next hPre (hSome run s a s' b hRun hLast hStep hAct)

/-- Observations that the steps left out do not show, and that the others show
alike, are the same in the projected run. -/
theorem flatMap_project {obs : σ × α → List γ} {obs' : τ × β → List γ}
    (hNone : ∀ s a, act s a = none → obs (s, a) = [])
    (hSome : ∀ s a b, act s a = some b → obs (s, a) = obs' (proj s, b)) (run : List (σ × α)) :
    (project proj act run).flatMap obs' = run.flatMap obs := by
  induction run with
  | nil => rfl
  | cons q run ih =>
      obtain ⟨s, a⟩ := q
      unfold project at ih ⊢
      rw [List.flatMap_cons]
      cases hAct : act s a with
      | none =>
          rw [List.filterMap_cons_none (by rw [hAct, Option.map_none]), hNone s a hAct, ih,
            List.nil_append]
      | some b =>
          rw [List.filterMap_cons_some (by rw [hAct, Option.map_some]), hSome s a b hAct,
            List.flatMap_cons, ih]

end Project

/-! ## Runs from their actions -/

/-- The run that takes the given actions, up to the first that cannot happen. -/
def record (step : σ → α → Option σ) (run : List (σ × α)) (s : σ) : List α → List (σ × α) × σ
  | [] => (run, s)
  | a :: as =>
      match step s a with
      | none => (run, s)
      | some s' => record step (run ++ [(s, a)]) s' as

/-- What holds of the given actions holds of the steps of a recorded run. -/
theorem always_record {P : α → Prop} (as : List α) :
    ∀ {run : List (σ × α)} {s : σ}, Always (fun _ q => P q.2) run → (∀ a ∈ as, P a) →
      Always (fun _ q => P q.2) (record step run s as).1 := by
  induction as with
  | nil => exact fun hRun _ => hRun
  | cons a as ih =>
      intro run s hRun hAll
      unfold record
      split
      · exact hRun
      · exact ih (always_snoc.mpr ⟨hRun, hAll a List.mem_cons_self⟩)
          fun b hMem => hAll b (List.mem_cons_of_mem a hMem)

theorem reaches_record (as : List α) :
    ∀ {run : List (σ × α)} {s : σ}, Reaches step init run s →
      Reaches step init (record step run s as).1 (record step run s as).2 := by
  induction as with
  | nil => exact fun hReach => hReach
  | cons a as ih =>
      intro run s hReach
      unfold record
      split
      · exact hReach
      · rename_i s' hStep
        exact ih (.next hReach hStep)

theorem record_snoc {b : α} (as : List α) :
    ∀ {run run' : List (σ × α)} {s s' t : σ}, record step run s as = (run', s') →
      run'.length = run.length + as.length → step s' b = some t →
      record step run s (as ++ [b]) = (run' ++ [(s', b)], t) := by
  induction as with
  | nil =>
      intro run run' s s' t hRecord _ hStep
      simp only [record, Prod.mk.injEq] at hRecord
      obtain ⟨rfl, rfl⟩ := hRecord
      simp only [List.nil_append, record, hStep]
  | cons a as ih =>
      intro run run' s s' t hRecord hLength hStep
      rw [record] at hRecord
      rw [List.cons_append, record]
      cases hFirst : step s a with
      | none =>
          rw [hFirst] at hRecord
          simp only [Prod.mk.injEq] at hRecord
          rw [hRecord.1, List.length_cons] at hLength
          omega
      | some s₁ =>
          rw [hFirst] at hRecord
          refine ih hRecord ?_ hStep
          rw [hLength, List.length_append, List.length_cons, List.length_singleton]
          omega

/-- A run is determined by its actions. -/
theorem Reaches.record_eq (hReach : Reaches step init run s) :
    record step [] init (run.map Prod.snd) = (run, s) := by
  induction hReach with
  | start => rfl
  | next hRun hStep ih =>
      rw [List.map_append, List.map_singleton]
      exact record_snoc _ ih (by simp) hStep

/-- The steps of a run determine the state it leads to. -/
theorem Reaches.unique {t : σ} (hReach : Reaches step init run s)
    (hOther : Reaches step init run t) : s = t := by
  have hSame := hReach.record_eq.symm.trans hOther.record_eq
  exact congrArg Prod.snd hSame

end Transition
