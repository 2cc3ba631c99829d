import Mathlib

/-!
# Histories

A run is recorded as the list of its steps.  `Always P run` says that every step
of it has the property `P`, which may look at the steps before; `Preceded P Q
run` says that no step with the property `P` occurs before a step with the
property `Q` has.  The lemmas build such facts along the run: step by step
(`always_snoc`, `preceded_cons`) and part by part (`preceded_append`).
-/

namespace History

variable {α : Type}

/-- Every step of the run satisfies `P`, given the steps before it. -/
def Always (P : List α → α → Prop) (run : List α) : Prop :=
  ∀ pre a post, run = pre ++ a :: post → P pre a

section Always

variable {P P' : List α → α → Prop} {run : List α} {a : α}

theorem always_nil : Always P [] := by
  intro pre a post hRun
  exact absurd hRun.symm (by simp)

/-- One more step at the end of a run. -/
theorem always_snoc : Always P (run ++ [a]) ↔ Always P run ∧ P run a := by
  constructor
  · intro hAll
    refine ⟨fun pre b post hRun => hAll pre b (post ++ [a]) (by simp [hRun]), ?_⟩
    exact hAll run a [] rfl
  · rintro ⟨hBefore, hLast⟩ pre b post hRun
    rcases List.eq_nil_or_concat post with rfl | ⟨mid, c, rfl⟩
    · obtain ⟨rfl, hEq⟩ := List.append_inj' hRun rfl
      simp only [List.cons.injEq, and_true] at hEq
      exact hEq ▸ hLast
    · refine hBefore pre b mid ?_
      have hEnds : run ++ [a] = (pre ++ b :: mid) ++ [c] := by
        simpa using hRun
      exact (List.append_inj' hEnds rfl).1

theorem always_true (run : List α) : Always (fun _ _ => True) run :=
  fun _ _ _ _ => trivial

/-- The steps of a run can be checked one by one. -/
theorem always_iff_getElem :
    Always P run ↔ ∀ i : Fin run.length, P (run.take i) run[i] := by
  constructor
  · intro hAll i
    refine hAll _ _ (run.drop (i + 1)) ?_
    rw [Fin.getElem_fin, ← List.drop_eq_getElem_cons i.isLt, List.take_append_drop]
  · intro hAll pre a post hRun
    subst hRun
    simpa using hAll ⟨pre.length, by simp⟩

instance [∀ pre a, Decidable (P pre a)] : Decidable (Always P run) :=
  decidable_of_iff _ always_iff_getElem.symm

theorem Always.mono (hRun : Always P run)
    (hMono : ∀ pre a post, run = pre ++ a :: post → P pre a → P' pre a) : Always P' run :=
  fun pre a post hSplit => hMono pre a post hSplit (hRun pre a post hSplit)

end Always

variable {P Q : α → Prop} {a : α} {s t : List α}

/-- Every step of the run that satisfies `P` has a step before it that satisfies
`Q`. -/
def Preceded (P Q : α → Prop) (run : List α) : Prop :=
  Always (fun pre a => P a → ∃ b ∈ pre, Q b) run

theorem preceded_nil : Preceded P Q [] :=
  always_nil

theorem preceded_cons (hFirst : ¬ P a) (hRest : Q a ∨ Preceded P Q t) :
    Preceded P Q (a :: t) := by
  intro pre b post hRun hb
  cases pre with
  | nil =>
      simp only [List.nil_append, List.cons.injEq] at hRun
      exact absurd hb (hRun.1 ▸ hFirst)
  | cons c pre =>
      simp only [List.cons_append, List.cons.injEq] at hRun
      obtain ⟨rfl, hTail⟩ := hRun
      rcases hRest with hQ | hRest
      · exact ⟨a, List.mem_cons_self, hQ⟩
      · obtain ⟨d, hd, hQ⟩ := hRest pre b post hTail hb
        exact ⟨d, List.mem_cons_of_mem a hd, hQ⟩

/-- Two parts of a run: the second part may rely on what happened in the
first. -/
theorem preceded_append (hFirst : Preceded P Q s)
    (hSecond : (∃ b ∈ s, Q b) ∨ Preceded P Q t) : Preceded P Q (s ++ t) := by
  intro pre a post hRun ha
  rcases List.append_eq_append_iff.mp hRun with ⟨mid, hPre, hTail⟩ | ⟨mid, hHead, hTail⟩
  · rcases hSecond with ⟨b, hb, hQ⟩ | hSecond
    · exact ⟨b, hPre ▸ List.mem_append_left mid hb, hQ⟩
    · obtain ⟨b, hb, hQ⟩ := hSecond mid a post hTail ha
      exact ⟨b, hPre ▸ List.mem_append_right s hb, hQ⟩
  · cases mid with
    | nil =>
        rcases hSecond with ⟨b, hb, hQ⟩ | hSecond
        · rw [List.append_nil] at hHead
          exact ⟨b, hHead ▸ hb, hQ⟩
        · obtain ⟨b, hb, -⟩ := hSecond [] a post (by simpa using hTail.symm) ha
          exact absurd hb (by simp)
    | cons c mid =>
        simp only [List.cons_append, List.cons.injEq] at hTail
        obtain ⟨rfl, -⟩ := hTail
        exact hFirst pre a mid hHead ha

theorem Preceded.mono {Q' : α → Prop} (hRun : Preceded P Q t) (hMono : ∀ b ∈ t, Q b → Q' b) :
    Preceded P Q' t := by
  refine Always.mono hRun fun pre a post hSplit hStep ha => ?_
  obtain ⟨b, hb, hQ⟩ := hStep ha
  exact ⟨b, hb, hMono b (hSplit ▸ List.mem_append_left _ hb) hQ⟩

end History
