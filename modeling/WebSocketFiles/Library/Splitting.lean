import WebSocketFiles.Library.ListSearch

/-!
# Splitting a list at a pattern

`pieces d s` are the parts of `s` between the occurrences of `d`, searched one
after another from the front; an empty part at the very end is dropped.  Joining
is `List.intercalate`: `intercalate_pieces` gives the list back, and
`pieces_intercalate` the lists that were joined, as long as the search finds the
joints (`JointsLeftmost`) and the last list is not empty.

`strip c s` removes the elements `c` at both ends of `s`.
-/

namespace Splitting

open ListSearch

variable {α : Type} [DecidableEq α]

/-! ## Pieces -/

/-- The pieces, in at most the given number of rounds. -/
def piecesFrom (d : List α) : Nat → List α → List (List α)
  | 0, _ => []
  | fuel + 1, s =>
      match indexOfSub d s with
      | none => if s = [] then [] else [s]
      | some n => s.take n :: piecesFrom d fuel (s.drop (n + d.length))

/-- The pieces of `s` between the occurrences of `d`. -/
def pieces (d s : List α) : List (List α) :=
  piecesFrom d (s.length + 1) s

variable {d s : List α}

/-- Each round drops the pattern, so the length bounds the number of rounds. -/
theorem piecesFrom_eq (hd : d ≠ []) (fuel : Nat) :
    ∀ s : List α, s.length < fuel → piecesFrom d fuel s = pieces d s := by
  induction fuel using Nat.strong_induction_on with
  | _ fuel ih =>
      intro s hFuel
      cases fuel with
      | zero => exact absurd hFuel (Nat.not_lt_zero _)
      | succ fuel =>
          unfold pieces piecesFrom
          cases hFind : indexOfSub d s with
          | none => rfl
          | some n =>
              have hFit := indexOfSub_add_le hd hFind
              have hPos := List.length_pos_iff.mpr hd
              have hDrop : (s.drop (n + d.length)).length < s.length := by
                rw [List.length_drop]
                omega
              have hLeft := ih fuel (Nat.lt_succ_self _) (s.drop (n + d.length)) (by omega)
              have hRight := ih s.length hFuel (s.drop (n + d.length)) hDrop
              simp only [hLeft, hRight]

/-- Without an occurrence there is one piece, or none of an empty list. -/
theorem pieces_none (hFind : indexOfSub d s = none) :
    pieces d s = if s = [] then [] else [s] := by
  unfold pieces piecesFrom
  rw [hFind]

/-- The first piece ends at the first occurrence. -/
theorem pieces_some (hd : d ≠ []) {n : Nat} (hFind : indexOfSub d s = some n) :
    pieces d s = s.take n :: pieces d (s.drop (n + d.length)) := by
  have hFit := indexOfSub_add_le hd hFind
  have hPos := List.length_pos_iff.mpr hd
  rw [pieces, piecesFrom, hFind]
  simp only
  rw [piecesFrom_eq hd]
  rw [List.length_drop]
  omega

theorem pieces_nil (hd : d ≠ []) : pieces d [] = [] := by
  rw [pieces_none (by simp [indexOfSub, hd]), if_pos rfl]

/-- A piece followed by the pattern, when the pattern does not begin earlier. -/
theorem pieces_append (hd : d ≠ []) {l t : List α}
    (hFind : indexOfSub d (l ++ (d ++ t)) = some l.length) :
    pieces d (l ++ (d ++ t)) = l :: pieces d t := by
  rw [pieces_some hd hFind, List.take_left, ← List.append_assoc]
  rw [← List.length_append, List.drop_left]

/-- What holds of lists without the pattern, and of every list when it holds of
what follows the first occurrence, holds of all lists. -/
@[elab_as_elim]
theorem pieces_induction (hd : d ≠ []) {P : List α → Prop}
    (hNone : ∀ s, indexOfSub d s = none → P s)
    (hSome : ∀ s n, indexOfSub d s = some n → P (s.drop (n + d.length)) → P s) (s : List α) :
    P s := by
  generalize hLength : s.length = k
  induction k using Nat.strong_induction_on generalizing s with
  | _ k ih =>
      cases hFind : indexOfSub d s with
      | none => exact hNone s hFind
      | some n =>
          have hFit := indexOfSub_add_le hd hFind
          have hPos := List.length_pos_iff.mpr hd
          refine hSome s n hFind (ih _ ?_ _ rfl)
          rw [List.length_drop]
          omega

/-- No piece holds the pattern. -/
theorem not_infix_of_mem_pieces (hd : d ≠ []) (s : List α) : ∀ p ∈ pieces d s, ¬ d <:+: p := by
  induction s using pieces_induction hd with
  | hNone s hFind =>
      intro p hp
      rw [pieces_none hFind] at hp
      split at hp
      · simp at hp
      · obtain rfl := List.mem_singleton.mp hp
        exact indexOfSub_eq_none_iff.mp hFind
  | hSome s n hFind ih =>
      intro p hp
      rw [pieces_some hd hFind] at hp
      rcases List.mem_cons.mp hp with rfl | hRest
      · have hPos := List.length_pos_iff.mpr hd
        exact indexOfSub_eq_none_iff.mp (indexOfSub_take hd hFind (by omega))
      · exact ih p hRest

/-- There are at most as many pieces as elements. -/
theorem length_pieces_le (hd : d ≠ []) (s : List α) : (pieces d s).length ≤ s.length := by
  induction s using pieces_induction hd with
  | hNone s hFind =>
      rw [pieces_none hFind]
      split
      · simp
      · rename_i hNe
        exact List.length_pos_iff.mpr hNe
  | hSome s n hFind ih =>
      have hFit := indexOfSub_add_le hd hFind
      have hPos := List.length_pos_iff.mpr hd
      rw [List.length_drop] at ih
      rw [pieces_some hd hFind, List.length_cons]
      omega

/-- No piece is longer than the list. -/
theorem length_le_of_mem_pieces (hd : d ≠ []) (s : List α) :
    ∀ p ∈ pieces d s, p.length ≤ s.length := by
  induction s using pieces_induction hd with
  | hNone s hFind =>
      intro p hp
      rw [pieces_none hFind] at hp
      split at hp
      · simp at hp
      · rw [List.mem_singleton.mp hp]
  | hSome s n hFind ih =>
      intro p hp
      rw [pieces_some hd hFind] at hp
      rcases List.mem_cons.mp hp with rfl | hRest
      · exact List.length_take_le' n s
      · refine (ih p hRest).trans ?_
        rw [List.length_drop]
        exact Nat.sub_le _ _

/-- Joining the pieces gives the list back, but for a pattern at its very end. -/
theorem intercalate_pieces (hd : d ≠ []) (s : List α) :
    (d.intercalate (pieces d s) = s ∧ (pieces d s).getLast? ≠ some []) ∨
      (pieces d s ≠ [] ∧ d.intercalate (pieces d s) ++ d = s) := by
  induction s using pieces_induction hd with
  | hNone s hFind =>
      rw [pieces_none hFind]
      split
      · rename_i hNil
        simp [hNil]
      · rename_i hNe
        simp [hNe]
  | hSome s n hFind ih =>
      have hCut : s.take n ++ d ++ s.drop (n + d.length) = s := by
        obtain ⟨t, ht⟩ := indexOfSub_occurs hFind
        rw [← List.drop_drop, ← ht, List.drop_left, List.append_assoc, ht,
          List.take_append_drop]
      rw [pieces_some hd hFind]
      by_cases hLast : pieces d (s.drop (n + d.length)) = []
      · -- nothing follows the pattern
        rw [hLast] at ih ⊢
        simp only [List.intercalate_nil, ne_eq, not_true_eq_false, false_and, or_false] at ih
        rw [← ih.1, List.append_nil] at hCut
        exact .inr ⟨by simp, by simpa using hCut⟩
      · rw [List.intercalate_cons_of_ne_nil hLast, List.getLast?_cons_of_ne_nil hLast]
        rcases ih with ⟨hJoin, hEnd⟩ | ⟨-, hJoin⟩
        · exact .inl ⟨by rw [hJoin, hCut], hEnd⟩
        · exact .inr ⟨by simp, by rw [List.append_assoc, hJoin, hCut]⟩

/-! ## Joined lists -/

omit [DecidableEq α] in
theorem length_intercalate (d : List α) (list : List (List α)) :
    (d.intercalate list).length = ((list.map List.length).intersperse d.length).sum := by
  induction list with
  | nil => rfl
  | cons l list ih =>
      cases list with
      | nil => simp
      | cons l' ls =>
          rw [List.intercalate_cons_cons, List.length_append, List.length_append, ih]
          simp only [List.map_cons, List.intersperse_cons_cons, List.sum_cons]
          omega

omit [DecidableEq α] in
/-- An empty list between two others brings two patterns together. -/
theorem infix_intercalate {list : List (List α)} (hEmpty : [] ∈ list.tail)
    (hLast : list.getLast? ≠ some []) : d ++ d <:+: d.intercalate list := by
  induction list with
  | nil => exact absurd hEmpty List.not_mem_nil
  | cons l list ih =>
      cases list with
      | nil => exact absurd hEmpty List.not_mem_nil
      | cons l' ls =>
          rw [List.intercalate_cons_cons]
          rw [List.getLast?_cons_cons] at hLast
          rcases List.mem_cons.mp hEmpty with rfl | hLater
          · cases ls with
            | nil => exact absurd rfl hLast
            | cons l₂ ls =>
                rw [List.intercalate_cons_cons, List.nil_append]
                exact ⟨l, d.intercalate (l₂ :: ls), by simp only [List.append_assoc]⟩
          · exact (ih hLater hLast).trans (List.suffix_append _ _).isInfix

/-- The leftmost occurrences of `d` in the joined lists are the joints: none
begins in front of the first joint, and so on behind it. -/
def JointsLeftmost (d : List α) : List (List α) → Prop
  | [] => True
  | [l] => ¬ d <:+: l
  | l :: l' :: ls =>
      (∀ m < l.length, ¬ d <+: (d.intercalate (l :: l' :: ls)).drop m) ∧
        JointsLeftmost d (l' :: ls)

/-- Joined lists come back as they were when the joints are leftmost and the last
list is not empty. -/
theorem pieces_intercalate (hd : d ≠ []) {list : List (List α)} (hJoints : JointsLeftmost d list)
    (hLast : list.getLast? ≠ some []) : pieces d (d.intercalate list) = list := by
  induction list with
  | nil => exact pieces_nil hd
  | cons l list ih =>
      cases list with
      | nil =>
          have hNe : l ≠ [] := by
            rintro rfl
            simp at hLast
          rw [List.intercalate_singleton, pieces_none (indexOfSub_eq_none_iff.mpr hJoints),
            if_neg hNe]
      | cons l' ls =>
          obtain ⟨hFirst, hRest⟩ := hJoints
          have hFind : indexOfSub d (l ++ (d ++ d.intercalate (l' :: ls))) = some l.length := by
            rw [← List.append_assoc, ← List.intercalate_cons_cons]
            refine indexOfSub_first hd ?_ hFirst
            rw [List.intercalate_cons_cons, List.append_assoc, List.drop_left]
            exact List.prefix_append _ _
          have hTail := ih hRest (by simpa using hLast)
          rw [List.intercalate_cons_cons, List.append_assoc, pieces_append hd hFind, hTail]

section Lines

variable {a b : α} (hNe : a ≠ b)

include hNe

omit [DecidableEq α] in
/-- The joints of lines without the pattern are leftmost, if its two elements
differ. -/
theorem jointsLeftmost_of_free {lines : List (List α)} (hFree : ∀ l ∈ lines, ¬ [a, b] <:+: l) :
    JointsLeftmost [a, b] lines := by
  induction lines with
  | nil => trivial
  | cons l lines ih =>
      have hHere := hFree l List.mem_cons_self
      cases lines with
      | nil => exact hHere
      | cons l' ls =>
          refine ⟨fun m hm => ?_, ih fun l hl => hFree l (List.mem_cons_of_mem _ hl)⟩
          rw [List.intercalate_cons_cons, List.append_assoc, List.drop_append_of_le_length hm.le]
          refine not_prefix_of_free hNe (mt (List.IsInfix.trans · (List.drop_suffix m l).isInfix)
            hHere) ?_ (b :: _)
          rw [ne_eq, List.drop_eq_nil_iff]
          omega

/-- Joined lines that are followed by the pattern twice: this is its first double
occurrence. -/
theorem indexOfSub_lines {l : List α} (hHere : ¬ [a, b] <:+: l) (t : List α)
    {lines : List (List α)} (hFree : ∀ l ∈ lines, l ≠ [] ∧ ¬ [a, b] <:+: l) :
    indexOfSub [a, b, a, b] ([a, b].intercalate (l :: lines) ++ ([a, b, a, b] ++ t)) =
      some ([a, b].intercalate (l :: lines)).length := by
  induction lines generalizing l with
  | nil =>
      rw [List.intercalate_singleton]
      refine (indexOfSub_skip_free hNe hHere ([b, a, b] ++ t)).trans ?_
      rw [show a :: ([b, a, b] ++ t) = [a, b, a, b] ++ t from rfl, indexOfSub_self_append]
      simp
  | cons l' lines ih =>
      obtain ⟨hSome, hThere⟩ := hFree l' List.mem_cons_self
      have hRest := ih hThere fun m hm => hFree m (List.mem_cons_of_mem _ hm)
      obtain ⟨s, hStart⟩ : ∃ s, [a, b].intercalate (l' :: lines) ++ ([a, b, a, b] ++ t) =
          l' ++ a :: s := by
        cases lines with
        | nil => exact ⟨b :: a :: b :: t, by simp⟩
        | cons l₂ lines =>
            exact ⟨b :: ([a, b].intercalate (l₂ :: lines) ++ ([a, b, a, b] ++ t)), by simp⟩
      -- the pattern behind the first line is not followed by another one
      have hHead : ¬ [a, b, a, b].isPrefixOf (a :: b :: (l' ++ a :: s)) = true := by
        rw [List.isPrefixOf_iff_prefix]
        intro hPrefix
        have hAgain : a :: b :: [] <+: l' ++ a :: s :=
          (List.cons_prefix_cons.mp (List.cons_prefix_cons.mp hPrefix).2).2
        exact not_prefix_of_free hNe hThere hSome s hAgain
      have hNext : ¬ [a, b, a, b].isPrefixOf (b :: (l' ++ a :: s)) = true := by
        simp [List.isPrefixOf, hNe]
      rw [hStart] at hRest
      have hJoin : [a, b].intercalate (l :: l' :: lines) ++ ([a, b, a, b] ++ t) =
          l ++ a :: b :: (l' ++ a :: s) := by
        rw [List.intercalate_cons_cons, List.append_assoc, hStart]
        simp
      rw [hJoin, indexOfSub_skip_free hNe hHere, indexOfSub, if_neg hHead, indexOfSub,
        if_neg hNext, hRest]
      simp only [Option.map_some, List.intercalate_cons_cons, List.length_append, List.length_cons,
        List.length_nil, Option.some.injEq]
      omega

end Lines

/-- At a single element the pieces are the parts of `List.splitOn`, as long as
the list does not end with that element. -/
theorem pieces_singleton {c : α} (n : Nat) :
    ∀ s : List α, s.length < n → s ≠ [] → s.getLast? ≠ some c → pieces [c] s = s.splitOn c := by
  induction n with
  | zero => exact fun s hLt => absurd hLt (Nat.not_lt_zero _)
  | succ n ih =>
      intro s hLt hNe hLast
      by_cases hMem : c ∈ s
      · obtain ⟨l, t, rfl, hFree⟩ := List.eq_append_cons_of_mem hMem
        have hTail : t ≠ [] := by
          rintro rfl
          simp at hLast
        have hLastTail : t.getLast? ≠ some c := by
          rw [List.getLast?_append, List.getLast?_cons_of_ne_nil hTail] at hLast
          obtain ⟨x, hx⟩ := Option.ne_none_iff_exists'.mp (mt List.getLast?_eq_none_iff.mp hTail)
          simpa [hx] using hLast
        have hFind : indexOfSub [c] (l ++ ([c] ++ t)) = some l.length := by
          rw [indexOfSub_skip hFree, indexOfSub_self_append]
          rfl
        have hPieces := pieces_append (by simp) hFind
        rw [List.singleton_append] at hPieces
        rw [hPieces, List.splitOn_append_cons_self_of_not_mem hFree, ih t _ hTail hLastTail]
        simp only [List.length_append, List.length_cons] at hLt
        omega
      · rw [pieces_none (indexOfSub_not_mem hMem), if_neg hNe, List.splitOn_eq_singleton hMem]

/-- The parts hold no separator. -/
theorem not_mem_of_mem_splitOn {c : α} (n : Nat) :
    ∀ s : List α, s.length < n → ∀ w ∈ s.splitOn c, c ∉ w := by
  induction n with
  | zero => exact fun s hLt => absurd hLt (Nat.not_lt_zero _)
  | succ n ih =>
      intro s hLt w hw
      by_cases hMem : c ∈ s
      · obtain ⟨l, t, rfl, hFree⟩ := List.eq_append_cons_of_mem hMem
        rw [List.splitOn_append_cons_self_of_not_mem hFree] at hw
        rcases List.mem_cons.mp hw with rfl | hRest
        · exact hFree
        · refine ih t ?_ w hRest
          simp only [List.length_append, List.length_cons] at hLt
          omega
      · rw [List.splitOn_eq_singleton hMem, List.mem_singleton] at hw
        exact hw ▸ hMem

/-- Nothing but separators: there is an empty piece in front of each. -/
theorem pieces_replicate (c : α) (n : Nat) :
    pieces [c] (List.replicate n c) = List.replicate n [] := by
  induction n with
  | zero => exact pieces_nil (by simp)
  | succ n ih =>
      have hFind : indexOfSub [c] ([] ++ ([c] ++ List.replicate n c)) = some ([] : List α).length :=
        indexOfSub_self_append [c] (List.replicate n c)
      rw [List.replicate_succ, List.replicate_succ, ← ih]
      exact pieces_append (by simp) hFind

/-! ## Stripping -/

/-- Remove the elements `c` at both ends. -/
def strip (c : α) (s : List α) : List α :=
  (s.dropWhile (· == c)).rdropWhile (· == c)

theorem strip_subset (c : α) (s : List α) : strip c s ⊆ s := fun _ hx =>
  (List.dropWhile_suffix _).subset ((List.rdropWhile_prefix _ _).subset hx)

theorem length_strip_le (c : α) (s : List α) : (strip c s).length ≤ s.length :=
  (List.rdropWhile_prefix _ _).length_le.trans (List.dropWhile_suffix _).length_le

theorem strip_eq_nil_iff {c : α} {s : List α} : strip c s = [] ↔ ∀ x ∈ s, x = c := by
  unfold strip
  rw [List.rdropWhile_eq_nil_iff]
  constructor
  · intro hAll
    have hNil : s.dropWhile (· == c) = [] := by
      by_contra hNe
      have hHead := List.head_dropWhile_not (· == c) hNe
      rw [hAll _ (List.head_mem hNe)] at hHead
      exact absurd hHead (by simp)
    simpa using hNil
  · intro hAll x hx
    simpa using hAll x ((List.dropWhile_suffix _).subset hx)

theorem strip_of_not_mem {c : α} {s : List α} (hFree : c ∉ s) : strip c s = s := by
  have hFront : s.dropWhile (· == c) = s := by
    cases s with
    | nil => rfl
    | cons x s =>
        refine List.dropWhile_cons_of_neg ?_
        rw [beq_iff_eq]
        exact fun hEq => hFree (hEq ▸ List.mem_cons_self)
  rw [strip, hFront, List.rdropWhile_eq_self_iff]
  intro hNe hLast
  exact hFree (beq_iff_eq.mp hLast ▸ List.getLast_mem hNe)

/-- What was stripped does not end with `c`. -/
theorem getLast?_strip (c : α) (s : List α) : (strip c s).getLast? ≠ some c := by
  intro hLast
  have hNe : strip c s ≠ [] := by
    intro hNil
    rw [hNil] at hLast
    simp at hLast
  rw [List.getLast?_eq_some_getLast hNe, Option.some.injEq] at hLast
  exact List.rdropWhile_last_not (· == c) (s.dropWhile (· == c)) hNe (by
    rw [beq_iff_eq]
    exact hLast)

end Splitting
