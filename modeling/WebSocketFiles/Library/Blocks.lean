import Mathlib

/-!
# Lists in blocks of one size

The whole blocks at the front of a list, and what is left behind them.  A block
machine that buffers its input element by element, and works on the buffer as soon
as it is full, has worked on the blocks of its input and holds the rest
(`foldl_absorb`), however the input was divided.
-/

namespace Blocks

variable {α σ : Type} {n : Nat}

/-- The whole blocks of `n` elements at the front of a list. -/
def blocks (n : Nat) (l : List α) : List (List α) :=
  (List.range (l.length / n)).map fun i => (l.drop (n * i)).take n

/-- What is left of a list behind its whole blocks. -/
def rest (n : Nat) (l : List α) : List α :=
  l.drop (n * (l.length / n))

theorem blocks_of_lt {l : List α} (hLt : l.length < n) : blocks n l = [] := by
  rw [blocks, Nat.div_eq_of_lt hLt, List.range_zero, List.map_nil]

theorem rest_of_lt {l : List α} (hLt : l.length < n) : rest n l = l := by
  rw [rest, Nat.div_eq_of_lt hLt, Nat.mul_zero, List.drop_zero]

/-- The number of blocks when one more stands in front. -/
private theorem block_append_div (hPos : 0 < n) {b : List α} (hBlock : b.length = n)
    (l : List α) : (b ++ l).length / n = l.length / n + 1 := by
  rw [List.length_append, hBlock, Nat.add_div_left _ hPos]

theorem blocks_append (hPos : 0 < n) {b : List α} (hBlock : b.length = n) (l : List α) :
    blocks n (b ++ l) = b :: blocks n l := by
  rw [blocks, block_append_div hPos hBlock, List.range_succ_eq_map, List.map_cons, Nat.mul_zero,
    List.drop_zero, List.take_left' hBlock, List.map_map, blocks]
  congr 1
  apply List.map_congr_left
  intro i _
  have hDrop : (b ++ l).drop (n * (i + 1)) = l.drop (n * i) := by
    rw [Nat.mul_succ, Nat.add_comm, ← List.drop_drop, List.drop_left' hBlock]
  show ((b ++ l).drop (n * (i + 1))).take n = (l.drop (n * i)).take n
  rw [hDrop]

/-- A list that is one block. -/
theorem blocks_of_length (hPos : 0 < n) {b : List α} (hBlock : b.length = n) :
    blocks n b = [b] := by
  have hNil : blocks n ([] : List α) = [] := blocks_of_lt hPos
  have hOne := blocks_append hPos hBlock []
  rwa [List.append_nil, hNil] at hOne

theorem rest_append (hPos : 0 < n) {b : List α} (hBlock : b.length = n) (l : List α) :
    rest n (b ++ l) = rest n l := by
  rw [rest, block_append_div hPos hBlock, Nat.mul_succ, Nat.add_comm, ← List.drop_drop,
    List.drop_left' hBlock, rest]

/-- Blocks with less than a block behind them are the whole blocks of the list. -/
theorem blocks_flatten_append (hPos : 0 < n) {bs : List (List α)} {t : List α}
    (hBlocks : ∀ b ∈ bs, b.length = n) (hLt : t.length < n) :
    blocks n (bs.flatten ++ t) = bs ∧ rest n (bs.flatten ++ t) = t := by
  induction bs with
  | nil => exact ⟨blocks_of_lt hLt, rest_of_lt hLt⟩
  | cons b bs ih =>
      obtain ⟨hBlock, hOthers⟩ := List.forall_mem_cons.mp hBlocks
      rw [List.flatten_cons, List.append_assoc, blocks_append hPos hBlock,
        rest_append hPos hBlock]
      exact ⟨congrArg (b :: ·) (ih hOthers).1, (ih hOthers).2⟩

/-- A property of lists that the short ones have, and that a block in front keeps. -/
theorem block_induction (hPos : 0 < n) {P : List α → Prop}
    (hShort : ∀ l : List α, l.length < n → P l)
    (hBlock : ∀ b l : List α, b.length = n → P l → P (b ++ l)) (l : List α) : P l := by
  by_cases hLt : l.length < n
  · exact hShort l hLt
  · have hTake : (l.take n).length = n := by
      rw [List.length_take]
      omega
    have hDrop := block_induction hPos hShort hBlock (l.drop n)
    exact (List.take_append_drop n l) ▸ hBlock _ _ hTake hDrop
termination_by l.length
decreasing_by
  rw [List.length_drop]
  omega

/-- The blocks and the rest make up the list. -/
theorem flatten_blocks (hPos : 0 < n) (l : List α) : (blocks n l).flatten ++ rest n l = l := by
  induction l using block_induction hPos with
  | hShort l hLt => rw [blocks_of_lt hLt, rest_of_lt hLt, List.flatten_nil, List.nil_append]
  | hBlock b l hBlock ih =>
      rw [blocks_append hPos hBlock, rest_append hPos hBlock, List.flatten_cons,
        List.append_assoc, ih]

theorem length_of_mem_blocks (hPos : 0 < n) (l : List α) : ∀ b ∈ blocks n l, b.length = n := by
  induction l using block_induction hPos with
  | hShort l hLt =>
      rw [blocks_of_lt hLt]
      exact fun b hMem => absurd hMem List.not_mem_nil
  | hBlock b l hBlock ih =>
      rw [blocks_append hPos hBlock]
      exact List.forall_mem_cons.mpr ⟨hBlock, ih⟩

theorem rest_length (l : List α) : (rest n l).length = l.length % n := by
  rw [rest, List.length_drop, Nat.mod_eq_sub]

theorem rest_length_lt (hPos : 0 < n) (l : List α) : (rest n l).length < n := by
  rw [rest_length]
  exact Nat.mod_lt _ hPos

/-- The blocks of a list that ends with a block boundary, and of what follows. -/
theorem blocks_append_of_dvd (hPos : 0 < n) (l m : List α) :
    n ∣ l.length → blocks n (l ++ m) = blocks n l ++ blocks n m ∧ rest n (l ++ m) = rest n m := by
  induction l using block_induction hPos with
  | hShort l hLt =>
      intro hDvd
      have hNil : l = [] := List.length_eq_zero_iff.mp (Nat.eq_zero_of_dvd_of_lt hDvd hLt)
      rw [blocks_of_lt hLt, hNil, List.nil_append, List.nil_append]
      exact ⟨rfl, rfl⟩
  | hBlock b l hBlock ih =>
      intro hDvd
      have hRest : n ∣ l.length := by
        rw [List.length_append, hBlock] at hDvd
        exact (Nat.dvd_add_right (dvd_refl n)).mp hDvd
      rw [List.append_assoc, blocks_append hPos hBlock, blocks_append hPos hBlock,
        rest_append hPos hBlock, (ih hRest).1, (ih hRest).2, List.cons_append]
      exact ⟨rfl, rfl⟩

/-! ## Block machines -/

section Absorb

variable (n) (compress : σ → List α → σ)

/-- Buffer one element, and compress the buffer when it is a block. -/
def absorb (s : σ × List α) (a : α) : σ × List α :=
  if n ≤ (s.2 ++ [a]).length then (compress s.1 (s.2 ++ [a]), []) else (s.1, s.2 ++ [a])

variable {n}

/-- Absorbing a list compresses the whole blocks of the buffer and the list. -/
theorem foldl_absorb (l : List α) :
    ∀ {s : σ} {buf : List α}, buf.length < n →
      l.foldl (absorb n compress) (s, buf) =
        ((blocks n (buf ++ l)).foldl compress s, rest n (buf ++ l)) := by
  induction l with
  | nil =>
      intro s buf hBuf
      rw [List.append_nil, blocks_of_lt hBuf, rest_of_lt hBuf, List.foldl_nil, List.foldl_nil]
  | cons a l ih =>
      intro s buf hBuf
      have hPos : 0 < n := by omega
      have hLength : (buf ++ [a]).length = buf.length + 1 := by simp
      have hAssoc : buf ++ a :: l = buf ++ [a] ++ l := by simp
      rw [List.foldl_cons, absorb, hAssoc]
      simp only
      by_cases hFull : n ≤ (buf ++ [a]).length
      · have hBlock : (buf ++ [a]).length = n := by omega
        rw [if_pos hFull, ih (by simpa using hPos), List.nil_append, blocks_append hPos hBlock,
          rest_append hPos hBlock, List.foldl_cons]
      · rw [if_neg hFull, ih (by omega)]

end Absorb

end Blocks
