import Mathlib

/-!
# First occurrence of a pattern in a list

`indexOfSub pat s` is the position of the first occurrence of `pat` in `s`.
The facts proved here are the ones an incremental reader needs: the position
found does not change when more elements arrive (`indexOfSub_append`), and no
prefix that ends before the occurrence is complete contains one
(`indexOfSub_take`).
-/

namespace ListSearch

variable {α : Type} [DecidableEq α]

/-- Position of the first occurrence of `pat`. -/
def indexOfSub (pat : List α) : List α → Option Nat
  | [] => if pat = [] then some 0 else none
  | a :: s =>
      if pat.isPrefixOf (a :: s) then some 0
      else (indexOfSub pat s).map (· + 1)

/-- What is found is an occurrence. -/
theorem indexOfSub_occurs {pat s : List α} {n : Nat}
    (hFound : indexOfSub pat s = some n) : pat <+: s.drop n := by
  induction s generalizing n with
  | nil =>
      simp only [indexOfSub] at hFound
      split at hFound
      · simp_all
      · exact absurd hFound (by simp)
  | cons a s ih =>
      simp only [indexOfSub] at hFound
      split at hFound
      · rename_i hHead
        obtain rfl : 0 = n := by simpa using hFound
        simpa using List.isPrefixOf_iff_prefix.mp hHead
      · obtain ⟨m, hm, rfl⟩ := Option.map_eq_some_iff.mp hFound
        simpa using ih hm

/-- What is found ends inside the list. -/
theorem indexOfSub_add_le {pat s : List α} {n : Nat} (hPat : pat ≠ [])
    (hFound : indexOfSub pat s = some n) : n + pat.length ≤ s.length := by
  have hLen := (indexOfSub_occurs hFound).length_le
  have hPos := List.length_pos_iff.mpr hPat
  rw [List.length_drop] at hLen
  omega

/-- A longer list has the same first occurrence. -/
theorem indexOfSub_append {pat s : List α} {n : Nat} (hPat : pat ≠ []) (t : List α)
    (hFound : indexOfSub pat s = some n) : indexOfSub pat (s ++ t) = some n := by
  induction s generalizing n with
  | nil => simp [indexOfSub, hPat] at hFound
  | cons a s ih =>
      simp only [indexOfSub, List.cons_append] at hFound ⊢
      split at hFound
      · rename_i hHead
        have hLong : pat <+: a :: (s ++ t) :=
          (List.isPrefixOf_iff_prefix.mp hHead).trans (List.prefix_append (a :: s) t)
        rw [if_pos (List.isPrefixOf_iff_prefix.mpr hLong)]
        exact hFound
      · rename_i hHead
        obtain ⟨m, hm, rfl⟩ := Option.map_eq_some_iff.mp hFound
        have hFit := indexOfSub_add_le hPat hm
        have hHeadLong : ¬ pat.isPrefixOf (a :: (s ++ t)) = true := by
          intro hLong
          apply hHead
          rw [List.isPrefixOf_iff_prefix] at hLong ⊢
          refine List.prefix_of_prefix_length_le hLong (List.prefix_append (a :: s) t) ?_
          simp only [List.length_cons]
          omega
        rw [if_neg hHeadLong, ih hm]
        rfl

/-- A prefix that ends before the occurrence is complete holds none. -/
theorem indexOfSub_take {pat s : List α} {n k : Nat} (hPat : pat ≠ [])
    (hFound : indexOfSub pat s = some n) (hShort : k < n + pat.length) :
    indexOfSub pat (s.take k) = none := by
  cases hPrefix : indexOfSub pat (s.take k) with
  | none => rfl
  | some m =>
      have hFull := indexOfSub_append hPat (s.drop k) hPrefix
      rw [List.take_append_drop, hFound] at hFull
      obtain rfl : n = m := by simpa using hFull
      have hFit := indexOfSub_add_le hPat hPrefix
      rw [List.length_take] at hFit
      omega

/-- Nothing is found exactly when there is no occurrence. -/
theorem indexOfSub_eq_none_iff {pat s : List α} :
    indexOfSub pat s = none ↔ ¬ pat <:+: s := by
  induction s with
  | nil =>
      by_cases hPat : pat = []
      · simp [indexOfSub, hPat]
      · simp [indexOfSub, hPat]
  | cons a s ih =>
      rw [indexOfSub, List.infix_cons_iff, not_or, ← ih]
      by_cases hHead : pat.isPrefixOf (a :: s) = true
      · rw [if_pos hHead]
        simp [List.isPrefixOf_iff_prefix.mp hHead]
      · rw [if_neg hHead, Option.map_eq_none_iff]
        exact ⟨fun hRest => ⟨mt List.isPrefixOf_iff_prefix.mpr hHead, hRest⟩, fun hAll => hAll.2⟩

/-- The first occurrence is the one that is found. -/
theorem indexOfSub_first {pat : List α} (hPat : pat ≠ []) {n : Nat} :
    ∀ {s : List α}, pat <+: s.drop n → (∀ m < n, ¬ pat <+: s.drop m) →
      indexOfSub pat s = some n := by
  induction n with
  | zero =>
      intro s hHere _
      cases s with
      | nil => exact absurd (List.prefix_nil.mp hHere) hPat
      | cons a s =>
          rw [List.drop_zero] at hHere
          rw [indexOfSub, if_pos (List.isPrefixOf_iff_prefix.mpr hHere)]
  | succ n ih =>
      intro s hHere hFirst
      cases s with
      | nil => exact absurd (List.prefix_nil.mp hHere) hPat
      | cons a s =>
          have hHead : ¬ pat.isPrefixOf (a :: s) = true :=
            mt List.isPrefixOf_iff_prefix.mp (hFirst 0 (Nat.succ_pos n))
          have hRest := ih hHere fun m hm => hFirst (m + 1) (Nat.succ_lt_succ hm)
          rw [indexOfSub, if_neg hHead, hRest]
          rfl

/-! ## Lists without the first element of the pattern -/

section Head

variable {a : α} {pat l : List α}

/-- The search passes over elements that cannot begin an occurrence. -/
theorem indexOfSub_skip (hFree : a ∉ l) (s : List α) :
    indexOfSub (a :: pat) (l ++ s) = (indexOfSub (a :: pat) s).map (l.length + ·) := by
  induction l with
  | nil => simp
  | cons b l ih =>
      obtain ⟨hNe, hRest⟩ := not_or.mp (mt List.mem_cons.mpr hFree)
      have hHead : ¬ (a :: pat).isPrefixOf (b :: (l ++ s)) = true := by
        simp [List.isPrefixOf, hNe]
      rw [List.cons_append, indexOfSub, if_neg hHead, ih hRest, Option.map_map]
      congr 1
      funext n
      simp only [Function.comp_apply, List.length_cons]
      omega

theorem indexOfSub_not_mem (hFree : a ∉ l) : indexOfSub (a :: pat) l = none := by
  have hSkip : indexOfSub (a :: pat) (l ++ []) = _ := indexOfSub_skip hFree []
  rw [List.append_nil] at hSkip
  rw [hSkip]
  simp [indexOfSub]

end Head

/-! ## Lists without the first two elements of the pattern

When these two differ, an occurrence cannot begin at the end of such a list and
reach into a pattern behind it. -/

section Pair

variable {a b : α} {pat l : List α}

omit [DecidableEq α] in
theorem not_prefix_of_free (hNe : a ≠ b) (hFree : ¬ [a, b] <:+: l) (hSome : l ≠ []) (s : List α) :
    ¬ a :: b :: pat <+: l ++ a :: s := by
  obtain ⟨x, l, rfl⟩ := List.exists_cons_of_ne_nil hSome
  intro hPrefix
  obtain ⟨rfl, hTail⟩ := List.cons_prefix_cons.mp hPrefix
  cases l with
  | nil => exact hNe (List.cons_prefix_cons.mp hTail).1.symm
  | cons y l =>
      obtain ⟨rfl, -⟩ := List.cons_prefix_cons.mp hTail
      exact hFree (List.prefix_append [a, b] l).isInfix

theorem indexOfSub_skip_free (hNe : a ≠ b) (hFree : ¬ [a, b] <:+: l) (s : List α) :
    indexOfSub (a :: b :: pat) (l ++ a :: s) =
      (indexOfSub (a :: b :: pat) (a :: s)).map (l.length + ·) := by
  induction l with
  | nil => simp
  | cons x l ih =>
      have hHead : ¬ (a :: b :: pat).isPrefixOf (x :: (l ++ a :: s)) = true := by
        rw [List.isPrefixOf_iff_prefix]
        exact not_prefix_of_free hNe hFree (by simp) s
      have hRest := ih fun hInfix => hFree (List.infix_cons hInfix)
      rw [List.cons_append, indexOfSub, if_neg hHead, hRest, Option.map_map]
      congr 1
      funext n
      simp only [Function.comp_apply, List.length_cons]
      omega

end Pair

theorem indexOfSub_self_append (pat t : List α) : indexOfSub pat (pat ++ t) = some 0 := by
  cases hList : pat ++ t with
  | nil =>
      obtain ⟨rfl, -⟩ := List.append_eq_nil_iff.mp hList
      rfl
  | cons b s =>
      rw [indexOfSub, if_pos]
      rw [← hList]
      exact List.isPrefixOf_iff_prefix.mpr (List.prefix_append pat t)

end ListSearch
