import Mathlib

/-!
# Programs on a heap of blocks

A heap gives out blocks under fresh numbers.  A number is never given out twice, so
it names one block for ever, and touching it after its release is a fault: a program
that never faults neither uses a block after its release nor releases it twice.

`Owns h m` says that the blocks of `h` are exactly the cells `m`.  Cells form a
multiset, so that the sum of two collections of cells plays the part of the
separating conjunction, and the empty collection says that nothing is leaked.
`Triple m prog Q E` is the judgment on programs: from the cells `m`, `prog` does not
fault; it returns with cells that satisfy `Q`, or stops for a reason that satisfies
`E`.  What was released before stays released (`Heap.Evolves`).  `Returns prog Q E` asks
less: `prog` may fault, whatever the heap, and `Q` and `E` speak of the other ends.
-/

namespace HeapLogic

variable {β ε α γ : Type}

/-! ## Heaps -/

/-- The blocks given out so far have the numbers below `next`; `cell` holds those that
were not released. -/
structure Heap (β : Type) where
  next : Nat
  cell : Nat → Option β
  fresh : ∀ a, next ≤ a → cell a = none

namespace Heap

theorem fresh_alloc (h : Heap β) (b : β) :
    ∀ a, h.next + 1 ≤ a → (if a = h.next then some b else h.cell a) = none := by
  intro a hLe
  rw [if_neg (by omega)]
  exact h.fresh a (by omega)

theorem fresh_set (h : Heap β) (a : Nat) (b : β) :
    ∀ x, h.next ≤ x → (if x = a then (h.cell a).map fun _ => b else h.cell x) = none := by
  intro x hLe
  split
  · rename_i hEq
    rw [← hEq, h.fresh x hLe, Option.map_none]
  · exact h.fresh x hLe

theorem fresh_erase (h : Heap β) (a : Nat) :
    ∀ x, h.next ≤ x → (if x = a then none else h.cell x) = none := by
  intro x hLe
  split
  · rfl
  · exact h.fresh x hLe

/-- Nothing was given out. -/
def empty : Heap β where
  next := 0
  cell := fun _ => none
  fresh := fun _ _ => rfl

/-- Give out a block with the content `b`; its number is `h.next`. -/
def alloc (h : Heap β) (b : β) : Heap β where
  next := h.next + 1
  cell := fun a => if a = h.next then some b else h.cell a
  fresh := h.fresh_alloc b

/-- Change the content of a live block. -/
def set (h : Heap β) (a : Nat) (b : β) : Heap β where
  next := h.next
  cell := fun x => if x = a then (h.cell a).map fun _ => b else h.cell x
  fresh := h.fresh_set a b

/-- Take a block back. -/
def erase (h : Heap β) (a : Nat) : Heap β where
  next := h.next
  cell := fun x => if x = a then none else h.cell x
  fresh := h.fresh_erase a

/-- The numbers of the live blocks. -/
def live (h : Heap β) : List Nat :=
  (List.range h.next).filter fun a => (h.cell a).isSome

theorem mem_live {h : Heap β} {a : Nat} : a ∈ h.live ↔ h.cell a ≠ none := by
  rw [live, List.mem_filter, List.mem_range, Option.isSome_iff_ne_none]
  refine ⟨fun hMem => hMem.2, fun hSome => ⟨?_, hSome⟩⟩
  by_contra hLe
  exact hSome (h.fresh a (not_lt.mp hLe))

theorem nodup_live (h : Heap β) : h.live.Nodup :=
  List.nodup_range.filter _

/-- A new block leaves the others as they are. -/
theorem alloc_cell {h : Heap β} {a : Nat} {b : β} (hCell : h.cell a = some b) (b' : β) :
    (h.alloc b').cell a = some b := by
  show (if a = h.next then some b' else h.cell a) = some b
  rw [if_neg fun hNew => ?_, hCell]
  rw [h.fresh a hNew.ge] at hCell
  exact absurd hCell (by simp)

/-- The number was given out, and is not live any more. -/
def Released (h : Heap β) (a : Nat) : Prop :=
  a < h.next ∧ h.cell a = none

/-- What is given out or released stays so. -/
structure Evolves (h h' : Heap β) : Prop where
  next_le : h.next ≤ h'.next
  released : ∀ a, h.Released a → h'.cell a = none

namespace Evolves

variable {h h₁ h₂ : Heap β}

theorem refl (h : Heap β) : Evolves h h :=
  ⟨le_refl _, fun _ hReleased => hReleased.2⟩

theorem trans (hFirst : Evolves h h₁) (hSecond : Evolves h₁ h₂) : Evolves h h₂ :=
  ⟨hFirst.next_le.trans hSecond.next_le, fun a hReleased =>
    hSecond.released a ⟨lt_of_lt_of_le hReleased.1 hFirst.next_le, hFirst.released a hReleased⟩⟩

theorem keeps (hEvolves : Evolves h h₁) {a : Nat} (hReleased : h.Released a) : h₁.Released a :=
  ⟨lt_of_lt_of_le hReleased.1 hEvolves.next_le, hEvolves.released a hReleased⟩

theorem alloc (h : Heap β) (b : β) : Evolves h (h.alloc b) := by
  refine ⟨Nat.le_succ _, fun a hReleased => ?_⟩
  show (if a = h.next then some b else h.cell a) = none
  rw [if_neg hReleased.1.ne]
  exact hReleased.2

theorem set (h : Heap β) (a : Nat) (b : β) : Evolves h (h.set a b) := by
  refine ⟨le_refl _, fun x hReleased => ?_⟩
  show (if x = a then (h.cell a).map fun _ => b else h.cell x) = none
  by_cases hSame : x = a
  · rw [if_pos hSame, ← hSame, hReleased.2, Option.map_none]
  · rw [if_neg hSame]
    exact hReleased.2

theorem erase (h : Heap β) (a : Nat) : Evolves h (h.erase a) := by
  refine ⟨le_refl _, fun x hReleased => ?_⟩
  show (if x = a then none else h.cell x) = none
  rw [hReleased.2, ite_self]

end Evolves

end Heap

/-! ## Ownership -/

/-- The blocks of the heap are exactly the cells `m`. -/
structure Owns (h : Heap β) (m : Multiset (Nat × β)) : Prop where
  nodup : (m.map Prod.fst).Nodup
  cell_iff : ∀ a b, h.cell a = some b ↔ (a, b) ∈ m

namespace Owns

variable {h : Heap β} {m : Multiset (Nat × β)} {a : Nat} {b : β}

theorem empty : Owns (Heap.empty : Heap β) 0 :=
  ⟨Multiset.nodup_zero, fun a b => by simp [Heap.empty]⟩

/-- A number in the cells is live. -/
theorem lt_next (hOwns : Owns h m) (hMem : (a, b) ∈ m) : a < h.next := by
  by_contra hLe
  have hSome := (hOwns.cell_iff a b).mpr hMem
  rw [h.fresh a (not_lt.mp hLe)] at hSome
  exact absurd hSome (by simp)

theorem alloc (hOwns : Owns h m) (b : β) : Owns (h.alloc b) ((h.next, b) ::ₘ m) := by
  have hFresh : ∀ c, (h.next, c) ∉ m := fun c hMem => lt_irrefl _ (hOwns.lt_next hMem)
  refine ⟨?_, fun x c => ?_⟩
  · rw [Multiset.map_cons, Multiset.nodup_cons]
    refine ⟨fun hMem => ?_, hOwns.nodup⟩
    obtain ⟨⟨x, c⟩, hIn, rfl⟩ := Multiset.mem_map.mp hMem
    exact hFresh c hIn
  · show (if x = h.next then some b else h.cell x) = some c ↔ _
    rw [Multiset.mem_cons, Prod.mk.injEq]
    by_cases hNew : x = h.next
    · rw [if_pos hNew, Option.some.injEq]
      constructor
      · exact fun hEq => .inl ⟨hNew, hEq.symm⟩
      · rintro (⟨-, rfl⟩ | hIn)
        · rfl
        · exact absurd (hNew ▸ hIn) (hFresh c)
    · rw [if_neg hNew, hOwns.cell_iff]
      constructor
      · exact .inr
      · rintro (⟨hEq, -⟩ | hIn)
        · exact absurd hEq hNew
        · exact hIn

theorem cell_eq (hOwns : Owns h ((a, b) ::ₘ m)) : h.cell a = some b :=
  (hOwns.cell_iff a b).mpr (Multiset.mem_cons_self _ _)

/-- The other cells have other numbers. -/
theorem not_mem (hOwns : Owns h ((a, b) ::ₘ m)) (c : β) : (a, c) ∉ m := by
  have hNodup := hOwns.nodup
  rw [Multiset.map_cons, Multiset.nodup_cons] at hNodup
  exact fun hMem => hNodup.1 (Multiset.mem_map.mpr ⟨(a, c), hMem, rfl⟩)

/-- A cell of another number is one of the other cells. -/
theorem cell_iff_of_ne (hOwns : Owns h ((a, b) ::ₘ m)) {x : Nat} (hNe : x ≠ a) (c : β) :
    h.cell x = some c ↔ (x, c) ∈ m := by
  rw [hOwns.cell_iff, Multiset.mem_cons, Prod.mk.injEq]
  exact ⟨fun hMem => hMem.resolve_left fun hEq => hNe hEq.1, .inr⟩

theorem set (hOwns : Owns h ((a, b) ::ₘ m)) (b' : β) : Owns (h.set a b') ((a, b') ::ₘ m) := by
  have hNodup := hOwns.nodup
  rw [Multiset.map_cons] at hNodup
  refine ⟨by rwa [Multiset.map_cons], fun x c => ?_⟩
  show (if x = a then (h.cell a).map fun _ => b' else h.cell x) = some c ↔ _
  rw [Multiset.mem_cons, Prod.mk.injEq]
  by_cases hSame : x = a
  · subst hSame
    rw [if_pos rfl, hOwns.cell_eq, Option.map_some, Option.some.injEq]
    constructor
    · exact fun hEq => .inl ⟨rfl, hEq.symm⟩
    · rintro (⟨-, rfl⟩ | hIn)
      · rfl
      · exact absurd hIn (hOwns.not_mem c)
  · rw [if_neg hSame, hOwns.cell_iff_of_ne hSame]
    exact ⟨.inr, fun hMem => hMem.resolve_left fun hEq => hSame hEq.1⟩

theorem erase (hOwns : Owns h ((a, b) ::ₘ m)) : Owns (h.erase a) m := by
  have hNodup := hOwns.nodup
  rw [Multiset.map_cons, Multiset.nodup_cons] at hNodup
  refine ⟨hNodup.2, fun x c => ?_⟩
  show (if x = a then none else h.cell x) = some c ↔ _
  by_cases hSame : x = a
  · rw [if_pos hSame]
    exact ⟨fun hEq => absurd hEq (by simp), fun hIn => absurd (hSame ▸ hIn) (hOwns.not_mem c)⟩
  · rw [if_neg hSame, hOwns.cell_iff_of_ne hSame]

/-- A block that is not among the cells any more was released. -/
theorem released {h' : Heap β} {m' : Multiset (Nat × β)} (hOwns : Owns h ((a, b) ::ₘ m))
    (hOwns' : Owns h' m') (hEvolves : h.Evolves h') (hRest : m' ⊆ m) : h'.Released a := by
  refine ⟨lt_of_lt_of_le (hOwns.lt_next (Multiset.mem_cons_self _ _)) hEvolves.next_le, ?_⟩
  rw [Option.eq_none_iff_forall_ne_some]
  intro c hCell
  exact hOwns.not_mem c (hRest ((hOwns'.cell_iff a c).mp hCell))

/-- There are as many live blocks as cells. -/
theorem length_live (hOwns : Owns h m) : h.live.length = Multiset.card m := by
  have hSame : (h.live : Multiset Nat) = m.map Prod.fst := by
    refine (Multiset.Nodup.ext (Multiset.coe_nodup.mpr h.nodup_live) hOwns.nodup).mpr fun a => ?_
    rw [Multiset.mem_coe, Heap.mem_live, Option.ne_none_iff_exists', Multiset.mem_map]
    constructor
    · rintro ⟨b, hCell⟩
      exact ⟨(a, b), (hOwns.cell_iff a b).mp hCell, rfl⟩
    · rintro ⟨⟨x, b⟩, hMem, rfl⟩
      exact ⟨b, (hOwns.cell_iff x b).mpr hMem⟩
  have hCard := congrArg Multiset.card hSame
  rwa [Multiset.coe_card, Multiset.card_map] at hCard

end Owns

/-! ## Families of cells -/

section Family

variable {M : Type} [AddCommMonoid M] {l : List α} {i : Nat} {a : α}

/-- The part of a sum that does not belong to the member `i`: it is left when the
member is replaced or taken out. -/
theorem sum_map_getElem (part : α → M) (hMember : l[i]? = some a) :
    ∃ rest, (l.map part).sum = part a + rest ∧
      (∀ a', ((l.set i a').map part).sum = part a' + rest) ∧
        ((l.eraseIdx i).map part).sum = rest := by
  obtain ⟨hLt, rfl⟩ := List.getElem?_eq_some_iff.mp hMember
  refine ⟨((l.take i).map part).sum + ((l.drop (i + 1)).map part).sum, ?_, fun a' => ?_, ?_⟩
  · conv_lhs => rw [← List.take_append_drop i l, List.drop_eq_getElem_cons hLt]
    rw [List.map_append, List.map_cons, List.sum_append, List.sum_cons, add_left_comm]
  · rw [List.set_eq_take_append_cons_drop, if_pos hLt, List.map_append, List.map_cons,
      List.sum_append, List.sum_cons, add_left_comm]
  · rw [List.eraseIdx_eq_take_drop_succ, List.map_append, List.sum_append]

theorem sum_map_concat (part : α → M) (l : List α) (a : α) :
    ((l ++ [a]).map part).sum = part a + (l.map part).sum := by
  rw [List.map_append, List.sum_append, List.map_singleton, List.sum_singleton, add_comm]

end Family

/-! ## Programs -/

/-- Why a program does not return. -/
inductive Fault (ε : Type) where
  /-- it touches a block that is not live, or is not what it takes it for -/
  | badAccess
  /-- it stops for a reason of its own -/
  | stop (e : ε)
  deriving DecidableEq, Repr

/-- A program on a heap. -/
abbrev HeapM (β ε : Type) := StateT (Heap β) (Except (Fault ε))

namespace HeapM

/-- Stop. -/
def stop (e : ε) : HeapM β ε α :=
  fun _ => .error (.stop e)

/-- A computation that does not use the heap. -/
def lift : Except ε α → HeapM β ε α
  | .ok a => pure a
  | .error e => stop e

/-- Ask for a block. -/
def alloc (b : β) : HeapM β ε Nat :=
  fun h => .ok (h.next, h.alloc b)

/-- Read through a pointer to a block of a certain kind. -/
def read (kind : β → Option γ) (ptr : Option Nat) : HeapM β ε γ :=
  fun h =>
    match (ptr.bind h.cell).bind kind with
    | some c => .ok (c, h)
    | none => .error .badAccess

/-- Write through a pointer to a block. -/
def modify (change : β → Option β) (ptr : Option Nat) : HeapM β ε Unit :=
  fun h =>
    match ptr, (ptr.bind h.cell).bind change with
    | some a, some b => .ok ((), h.set a b)
    | _, _ => .error .badAccess

/-- Release the block behind a pointer, if it is not NULL. -/
def release (kind : β → Bool) : Option Nat → HeapM β ε Unit
  | none => pure ()
  | some a => fun h =>
      if (h.cell a).any kind then .ok ((), h.erase a) else .error .badAccess

section Access

variable {h : Heap β} {a : Nat} {b : β}

theorem read_ok {kind : β → Option γ} {c : γ} (hCell : h.cell a = some b)
    (hKind : kind b = some c) : (read kind (some a) : HeapM β ε γ) h = .ok (c, h) := by
  unfold read
  rw [Option.bind_some, hCell, Option.bind_some, hKind]

/-- A block that was released cannot be read. -/
theorem read_released {kind : β → Option γ} (hReleased : h.Released a) :
    (read kind (some a) : HeapM β ε γ) h = .error .badAccess := by
  unfold read
  rw [Option.bind_some, hReleased.2, Option.bind_none]

theorem modify_ok {change : β → Option β} {b' : β} (hCell : h.cell a = some b)
    (hChange : change b = some b') :
    (modify change (some a) : HeapM β ε Unit) h = .ok ((), h.set a b') := by
  unfold modify
  rw [Option.bind_some, hCell, Option.bind_some, hChange]

end Access

theorem bind_ok {x : HeapM β ε α} {f : α → HeapM β ε γ} {h h' : Heap β} {a : α}
    (hRun : x h = .ok (a, h')) : (x >>= f) h = f a h' := by
  show (x h >>= fun r => f r.1 r.2) = _
  rw [hRun]
  rfl

theorem bind_error {x : HeapM β ε α} {f : α → HeapM β ε γ} {h : Heap β} {e : Fault ε}
    (hRun : x h = .error e) : (x >>= f) h = .error e := by
  show (x h >>= fun r => f r.1 r.2) = _
  rw [hRun]
  rfl

end HeapM

/-! ## Triples -/

/-- From the cells `m` the program does not fault: it returns with cells that satisfy
`Q`, or stops for a reason that satisfies `E`. -/
def Triple (m : Multiset (Nat × β)) (prog : HeapM β ε α) (Q : α → Multiset (Nat × β) → Prop)
    (E : ε → Prop) : Prop :=
  ∀ h, Owns h m →
    (∃ a h' m', prog h = .ok (a, h') ∧ Owns h' m' ∧ h.Evolves h' ∧ Q a m') ∨
      ∃ e, prog h = .error (.stop e) ∧ E e

namespace Triple

variable {m m' : Multiset (Nat × β)} {prog : HeapM β ε α} {f : α → HeapM β ε γ}
  {Q Q' : α → Multiset (Nat × β) → Prop} {R : γ → Multiset (Nat × β) → Prop} {E : ε → Prop}

theorem pure {a : α} (hPost : Q a m) : Triple m (Pure.pure a : HeapM β ε α) Q E :=
  fun h hOwns => .inl ⟨a, h, m, rfl, hOwns, .refl h, hPost⟩

theorem stop {e : ε} (hStop : E e) : Triple m (HeapM.stop e : HeapM β ε α) Q E :=
  fun _ _ => .inr ⟨e, rfl, hStop⟩

/-- What follows a part that returns. -/
theorem onward {h h' : Heap β} {a : α} (hRun : prog h = .ok (a, h')) (hEvolves : h.Evolves h')
    (hRest : (∃ c h'' m', f a h' = .ok (c, h'') ∧ Owns h'' m' ∧ h'.Evolves h'' ∧ R c m') ∨
      ∃ e, f a h' = .error (.stop e) ∧ E e) :
    (∃ c h'' m', (prog >>= f) h = .ok (c, h'') ∧ Owns h'' m' ∧ h.Evolves h'' ∧ R c m') ∨
      ∃ e, (prog >>= f) h = .error (.stop e) ∧ E e := by
  rw [HeapM.bind_ok hRun]
  rcases hRest with ⟨c, h'', m', hRest, hOwns, hLater, hPost⟩ | hStop
  · exact .inl ⟨c, h'', m', hRest, hOwns, hEvolves.trans hLater, hPost⟩
  · exact .inr hStop

/-- Sequencing. -/
theorem bind (hFirst : Triple m prog Q E) (hRest : ∀ a m', Q a m' → Triple m' (f a) R E) :
    Triple m (prog >>= f) R E := by
  intro h hOwns
  rcases hFirst h hOwns with ⟨a, h', m', hRun, hOwns', hEvolves, hPost⟩ | ⟨e, hRun, hStop⟩
  · exact onward hRun hEvolves (hRest a m' hPost h' hOwns')
  · exact .inr ⟨e, HeapM.bind_error hRun, hStop⟩

/-- The last part of a program. -/
theorem last (hTriple : Triple m (prog >>= Pure.pure) Q E) : Triple m prog Q E := by
  rwa [bind_pure] at hTriple

/-- A weaker postcondition. -/
theorem mono (hTriple : Triple m prog Q E) (hPost : ∀ a m', Q a m' → Q' a m') :
    Triple m prog Q' E := by
  intro h hOwns
  rcases hTriple h hOwns with ⟨a, h', m', hRun, hOwns', hEvolves, hQ⟩ | hStop
  · exact .inl ⟨a, h', m', hRun, hOwns', hEvolves, hPost a m' hQ⟩
  · exact .inr hStop

/-- The cells in another order. -/
theorem cells (m' : Multiset (Nat × β)) (hSame : m = m') (hTriple : Triple m' prog Q E) :
    Triple m prog Q E := hSame ▸ hTriple

/-- The blocks asked for are new cells. -/
theorem alloc {b : β} {f : Nat → HeapM β ε γ} (hRest : ∀ a, Triple ((a, b) ::ₘ m) (f a) R E) :
    Triple m (HeapM.alloc b >>= f) R E := by
  intro h hOwns
  exact onward rfl (.alloc h b) (hRest h.next _ (hOwns.alloc b))

/-- Reading any of the cells. -/
theorem read {kind : β → Option α} {a : Nat} {b : β} {c : α} (hMem : (a, b) ∈ m)
    (hKind : kind b = some c) (hRest : Triple m (f c) R E) :
    Triple m (HeapM.read kind (some a) >>= f) R E := by
  intro h hOwns
  have hRun : (HeapM.read kind (some a) : HeapM β ε α) h = .ok (c, h) :=
    HeapM.read_ok ((hOwns.cell_iff a b).mpr hMem) hKind
  exact onward hRun (.refl h) (hRest h hOwns)

/-- Writing the first of the cells. -/
theorem modify {change : β → Option β} {a : Nat} {b b' : β} {f : Unit → HeapM β ε γ}
    (hChange : change b = some b') (hRest : Triple ((a, b') ::ₘ m) (f ()) R E) :
    Triple ((a, b) ::ₘ m) (HeapM.modify change (some a) >>= f) R E := by
  intro h hOwns
  have hRun : (HeapM.modify change (some a) : HeapM β ε Unit) h = .ok ((), h.set a b') :=
    HeapM.modify_ok hOwns.cell_eq hChange
  exact onward hRun (.set h a b') (hRest _ (hOwns.set b'))

/-- Releasing the first of the cells. -/
theorem release {kind : β → Bool} {a : Nat} {b : β} {f : Unit → HeapM β ε γ}
    (hKind : kind b = true) (hRest : Triple m (f ()) R E) :
    Triple ((a, b) ::ₘ m) (HeapM.release kind (some a) >>= f) R E := by
  intro h hOwns
  have hRun : (HeapM.release kind (some a) : HeapM β ε Unit) h = .ok ((), h.erase a) := by
    show (if (h.cell a).any kind then _ else _) = _
    rw [hOwns.cell_eq, Option.any_some, hKind, if_pos rfl]
  exact onward hRun (.erase h a) (hRest _ hOwns.erase)

/-- Releasing NULL does nothing. -/
theorem release_null {kind : β → Bool} {f : Unit → HeapM β ε γ} (hRest : Triple m (f ()) R E) :
    Triple m (HeapM.release kind none >>= f) R E :=
  hRest

/-- A computation that does not use the heap. -/
theorem lift {x : Except ε α} (hOk : ∀ a, x = .ok a → Triple m (f a) R E)
    (hError : ∀ e, x = .error e → E e) : Triple m (HeapM.lift x >>= f) R E := by
  cases hRun : x with
  | ok a => exact hOk a hRun
  | error e => exact fun h _ => .inr ⟨e, rfl, hError e hRun⟩

end Triple

/-! ## Partial correctness -/

/-- Whatever the heap, the program returns a value and a heap that satisfy `Q`, faults, or
stops for a reason that satisfies `E`. -/
def Returns (prog : HeapM β ε α) (Q : α → Heap β → Prop) (E : ε → Prop) : Prop :=
  ∀ h, (∃ a h', prog h = .ok (a, h') ∧ Q a h') ∨ prog h = .error .badAccess ∨
    ∃ e, prog h = .error (.stop e) ∧ E e

namespace Returns

variable {prog : HeapM β ε α} {f : α → HeapM β ε γ} {P : α → Prop} {Q : α → Heap β → Prop}
  {R : γ → Heap β → Prop} {E : ε → Prop}

theorem pure {a : α} (hPost : ∀ h, Q a h) : Returns (Pure.pure a : HeapM β ε α) Q E :=
  fun h => .inl ⟨a, h, rfl, hPost h⟩

theorem stop {e : ε} (hStop : E e) : Returns (HeapM.stop e : HeapM β ε α) Q E :=
  fun _ => .inr (.inr ⟨e, rfl, hStop⟩)

/-- Sequencing; of the heap in between nothing is kept. -/
theorem bind (hFirst : Returns prog (fun a _ => P a) E) (hRest : ∀ a, P a → Returns (f a) R E) :
    Returns (prog >>= f) R E := by
  intro h
  rcases hFirst h with ⟨a, h', hRun, hPost⟩ | hFault | ⟨e, hRun, hStop⟩
  · rw [HeapM.bind_ok hRun]
    exact hRest a hPost h'
  · exact .inr (.inl (HeapM.bind_error hFault))
  · exact .inr (.inr ⟨e, HeapM.bind_error hRun, hStop⟩)

/-- A weaker postcondition. -/
theorem mono {Q' : α → Heap β → Prop} (hReturns : Returns prog Q E)
    (hPost : ∀ a h, Q a h → Q' a h) : Returns prog Q' E := by
  intro h
  rcases hReturns h with ⟨a, h', hRun, hQ⟩ | hRest
  · exact .inl ⟨a, h', hRun, hPost a h' hQ⟩
  · exact .inr hRest

/-- A part of a program that may fault, but stops for no reason of its own. -/
theorem access (hFirst : ∀ h, (∃ a h', prog h = .ok (a, h')) ∨ prog h = .error .badAccess)
    (hRest : ∀ a, Returns (f a) R E) : Returns (prog >>= f) R E := by
  refine bind (P := fun _ => True) (fun h => ?_) fun a _ => hRest a
  rcases hFirst h with ⟨a, h', hRun⟩ | hFault
  · exact .inl ⟨a, h', hRun, trivial⟩
  · exact .inr (.inl hFault)

theorem alloc {b : β} {f : Nat → HeapM β ε γ} (hRest : ∀ a, Returns (f a) R E) :
    Returns (HeapM.alloc b >>= f) R E :=
  access (fun _ => .inl ⟨_, _, rfl⟩) hRest

theorem read {kind : β → Option α} {ptr : Option Nat} (hRest : ∀ c, Returns (f c) R E) :
    Returns (HeapM.read kind ptr >>= f) R E := by
  refine access (fun h => ?_) hRest
  unfold HeapM.read
  cases (ptr.bind h.cell).bind kind with
  | some c => exact .inl ⟨c, h, rfl⟩
  | none => exact .inr rfl

theorem modify {change : β → Option β} {ptr : Option Nat} {f : Unit → HeapM β ε γ}
    (hRest : Returns (f ()) R E) : Returns (HeapM.modify change ptr >>= f) R E := by
  refine access (fun h => ?_) fun _ => hRest
  unfold HeapM.modify
  rcases ptr with _ | a
  · exact .inr rfl
  · cases ((some a).bind h.cell).bind change with
    | some b => exact .inl ⟨(), _, rfl⟩
    | none => exact .inr rfl

/-- What is released, if it is not NULL, is not live afterwards. -/
theorem released (kind : β → Bool) (ptr : Option Nat) :
    Returns (HeapM.release kind ptr : HeapM β ε Unit) (fun _ h => ∀ a ∈ ptr, h.cell a = none)
      E := by
  intro h
  rcases ptr with _ | a
  · exact .inl ⟨(), h, rfl, by simp⟩
  · unfold HeapM.release
    by_cases hKind : (h.cell a).any kind = true
    · refine .inl ⟨(), h.erase a, if_pos hKind, fun x hMem => ?_⟩
      obtain rfl := Option.some.inj hMem
      exact if_pos rfl
    · exact .inr (.inl (if_neg hKind))

theorem release {kind : β → Bool} {ptr : Option Nat} {f : Unit → HeapM β ε γ}
    (hRest : Returns (f ()) R E) : Returns (HeapM.release kind ptr >>= f) R E := by
  refine access (fun h => ?_) fun _ => hRest
  rcases released (ε := ε) (E := fun _ => False) kind ptr h with
    ⟨a, h', hRun, -⟩ | hFault | ⟨-, -, hFalse⟩
  · exact .inl ⟨a, h', hRun⟩
  · exact .inr hFault
  · exact hFalse.elim

end Returns

end HeapLogic
