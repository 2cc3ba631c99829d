import Mathlib

/-!
# Reading a packet stream that arrives in pieces

A reader keeps the bytes it could not use yet in a buffer.  Each time a piece
arrives it is appended, the complete packets at the front are consumed, and
whatever is left waits for more.  `Reader` states what one drain of the buffer
does on whole packets and on the cut-off beginning of a packet; which cut-off
beginnings really wait is a parameter, `SafeCut`.

The result is `feed_safe`: if every piece ends at a safe position, the packets
are consumed exactly as if the whole stream had come at once, and nothing is
left over.  Pieces made of whole packets are a special case (`feed_groups`).
-/

namespace Segmentation

variable {β F σ ε : Type}

/-- How a reader drains its buffer.  `Drain s buf es s' rest` says that from
state `s` the buffer `buf` is consumed up to `rest`, emitting `es` and ending
in state `s'`. -/
structure Reader (β F σ ε : Type) where
  bytes : F → List β
  out : σ → F → List ε
  next : σ → F → σ
  Drain : σ → List β → List ε → σ → List β → Prop
  SafeCut : F → Nat → Prop
  bytes_ne_nil : ∀ f, bytes f ≠ []
  drain_nil : ∀ s, Drain s [] [] s []
  drain_packet : ∀ s f t es s' rest, Drain (next s f) t es s' rest →
    Drain s (bytes f ++ t) (out s f ++ es) s' rest
  drain_cut : ∀ s f k, 0 < k → k < (bytes f).length → SafeCut f k →
    Drain s ((bytes f).take k) [] s ((bytes f).take k)

namespace Reader

variable (R : Reader β F σ ε)

/-- The stream of a list of packets. -/
def stream (fs : List F) : List β :=
  fs.flatMap R.bytes

/-- The state after a list of packets. -/
def after (s : σ) (fs : List F) : σ :=
  fs.foldl R.next s

/-- What a list of packets makes the reader emit. -/
def outs : σ → List F → List ε
  | _, [] => []
  | s, f :: fs => R.out s f ++ outs (R.next s f) fs

@[simp] theorem stream_nil : R.stream [] = [] := rfl

@[simp] theorem stream_cons (f : F) (fs : List F) :
    R.stream (f :: fs) = R.bytes f ++ R.stream fs := rfl

@[simp] theorem stream_append (fs gs : List F) :
    R.stream (fs ++ gs) = R.stream fs ++ R.stream gs := by
  simp [stream]

@[simp] theorem after_nil (s : σ) : R.after s [] = s := rfl

@[simp] theorem after_cons (s : σ) (f : F) (fs : List F) :
    R.after s (f :: fs) = R.after (R.next s f) fs := rfl

@[simp] theorem after_append (s : σ) (fs gs : List F) :
    R.after s (fs ++ gs) = R.after (R.after s fs) gs := by
  simp [after]

@[simp] theorem outs_nil (s : σ) : R.outs s [] = [] := rfl

@[simp] theorem outs_cons (s : σ) (f : F) (fs : List F) :
    R.outs s (f :: fs) = R.out s f ++ R.outs (R.next s f) fs := rfl

@[simp] theorem outs_append (s : σ) (fs gs : List F) :
    R.outs s (fs ++ gs) = R.outs s fs ++ R.outs (R.after s fs) gs := by
  induction fs generalizing s with
  | nil => rfl
  | cons f fs ih => simp [ih]

theorem bytes_length_pos (f : F) : 0 < (R.bytes f).length :=
  List.length_pos_iff.mpr (R.bytes_ne_nil f)

/-! ## Safe positions of a stream -/

/-- Position `n` of the stream of `fs` is a packet boundary or a safe cut of
the packet it falls into. -/
def SafeAt : List F → Nat → Prop
  | [], _ => True
  | f :: fs, n =>
      if n < (R.bytes f).length then n = 0 ∨ R.SafeCut f n
      else SafeAt fs (n - (R.bytes f).length)

theorem safeAt_append (fs gs : List F) (n : Nat) :
    R.SafeAt (fs ++ gs) ((R.stream fs).length + n) ↔ R.SafeAt gs n := by
  induction fs with
  | nil => simp
  | cons f fs ih =>
      have hSkip : ¬ (R.bytes f).length + (R.stream fs).length + n < (R.bytes f).length := by
        omega
      have hSub : (R.bytes f).length + (R.stream fs).length + n - (R.bytes f).length =
          (R.stream fs).length + n := by
        omega
      simp only [List.cons_append, stream_cons, List.length_append, SafeAt]
      rw [if_neg hSkip, hSub]
      exact ih

/-- Packet boundaries are safe. -/
theorem safeAt_boundary (fs gs : List F) :
    R.SafeAt (fs ++ gs) (R.stream fs).length := by
  have hHead : R.SafeAt gs 0 := by
    cases gs with
    | nil => trivial
    | cons g gs => simp [SafeAt, R.bytes_length_pos g]
  simpa using (R.safeAt_append fs gs 0).mpr hHead

/-- What waits in the buffer: nothing, or a proper beginning of the next
packet. -/
def Waiting (p : List β) : List F → Prop
  | [] => p = []
  | f :: _ => p.length < (R.bytes f).length

/-- A beginning of the stream that ends at a safe position is some whole
packets followed by bytes that wait. -/
theorem drain_prefix (s : σ) (fs : List F) (n : Nat) (hLe : n ≤ (R.stream fs).length)
    (hSafe : R.SafeAt fs n) :
    ∃ fs₁ fs₂ p, fs = fs₁ ++ fs₂ ∧ (R.stream fs).take n = R.stream fs₁ ++ p ∧
      R.stream fs₂ = p ++ (R.stream fs).drop n ∧ R.Waiting p fs₂ ∧
      R.Drain s ((R.stream fs).take n) (R.outs s fs₁) (R.after s fs₁) p := by
  induction fs generalizing s n with
  | nil =>
      obtain rfl : n = 0 := by simpa using hLe
      exact ⟨[], [], [], rfl, rfl, rfl, rfl, R.drain_nil s⟩
  | cons f fs ih =>
      by_cases hInside : n < (R.bytes f).length
      · -- the position falls into the first packet
        have hTake : (R.stream (f :: fs)).take n = (R.bytes f).take n := by
          rw [stream_cons, List.take_append_of_le_length hInside.le]
        refine ⟨[], f :: fs, (R.bytes f).take n, rfl, by simpa using hTake, ?_, ?_, ?_⟩
        · rw [← hTake, List.take_append_drop]
        · show ((R.bytes f).take n).length < (R.bytes f).length
          rw [List.length_take]
          omega
        · rw [hTake]
          simp only [SafeAt, if_pos hInside] at hSafe
          by_cases hZero : n = 0
          · subst hZero
            simpa using R.drain_nil s
          · exact R.drain_cut s f n (Nat.pos_of_ne_zero hZero) hInside
              (hSafe.resolve_left hZero)
      · -- the first packet is whole; the rest is by induction
        have hGe : (R.bytes f).length ≤ n := Nat.le_of_not_lt hInside
        simp only [SafeAt, if_neg hInside] at hSafe
        simp only [stream_cons, List.length_append] at hLe
        obtain ⟨fs₁, fs₂, p, hSplit, hTake, hDrop, hWait, hDrain⟩ :=
          ih (R.next s f) (n - (R.bytes f).length) (by omega) hSafe
        have hTakeAll : (R.stream (f :: fs)).take n =
            R.bytes f ++ (R.stream fs).take (n - (R.bytes f).length) := by
          rw [stream_cons, List.take_append, List.take_of_length_le hGe]
        refine ⟨f :: fs₁, fs₂, p, by rw [hSplit]; rfl, ?_, ?_, hWait, ?_⟩
        · rw [hTakeAll, hTake, stream_cons, List.append_assoc]
        · rw [hDrop, stream_cons, List.drop_append, List.drop_eq_nil_of_le hGe,
            List.nil_append]
        · rw [hTakeAll]
          exact R.drain_packet s f _ _ _ _ hDrain

/-! ## Feeding pieces -/

/-- Feeding pieces one after another: each is appended to what waits, and the
buffer is drained. -/
inductive Feed : σ → List β → List (List β) → List ε → σ → List β → Prop
  | nil (s : σ) (p : List β) : Feed s p [] [] s p
  | cons {s s' s'' : σ} {p p' p'' c : List β} {cs : List (List β)} {es es' : List ε}
      (hDrain : R.Drain s (p ++ c) es s' p') (hRest : Feed s' p' cs es' s'' p'') :
      Feed s p (c :: cs) (es ++ es') s'' p''

/-- Pieces that end at safe positions are read as the packets they spell, and
nothing waits at the end.  By induction on the pieces; the packets still to
come and the bytes that wait for the first of them are the invariant. -/
theorem feed_safe (cs : List (List β)) (s : σ) (p : List β) (fs : List F)
    (hStream : p ++ cs.flatten = R.stream fs) (hWait : R.Waiting p fs)
    (hSafe : ∀ i, R.SafeAt fs (p.length + (cs.take i).flatten.length)) :
    R.Feed s p cs (R.outs s fs) (R.after s fs) [] := by
  induction cs generalizing s p fs with
  | nil =>
      cases fs with
      | nil =>
          obtain rfl : p = [] := hWait
          exact Feed.nil s []
      | cons f fs =>
          have hLen := congrArg List.length hStream
          simp only [List.flatten_nil, List.append_nil, stream_cons,
            List.length_append] at hLen
          have hShort : p.length < (R.bytes f).length := hWait
          omega
  | cons c cs ih =>
      have hAll : (p ++ c) ++ cs.flatten = R.stream fs := by
        simpa using hStream
      have hTakeAll : (R.stream fs).take (p ++ c).length = p ++ c := by
        rw [← hAll, List.take_left]
      have hDropAll : (R.stream fs).drop (p ++ c).length = cs.flatten := by
        rw [← hAll, List.drop_left]
      have hHere : R.SafeAt fs (p ++ c).length := by
        simpa using hSafe 1
      obtain ⟨fs₁, fs₂, p', rfl, hTake, hDrop, hWait', hDrain⟩ :=
        R.drain_prefix s fs (p ++ c).length (by rw [← hAll]; simp) hHere
      rw [hTakeAll] at hTake hDrain
      rw [hDropAll] at hDrop
      have hRest : R.Feed (R.after s fs₁) p' cs (R.outs (R.after s fs₁) fs₂)
          (R.after (R.after s fs₁) fs₂) [] := by
        refine ih _ p' fs₂ hDrop.symm hWait' fun i => ?_
        have hNext := hSafe (i + 1)
        have hPos : p.length + ((c :: cs).take (i + 1)).flatten.length =
            (R.stream fs₁).length + (p'.length + (cs.take i).flatten.length) := by
          have hLen := congrArg List.length hTake
          simp only [List.length_append] at hLen
          simp only [List.take_succ_cons, List.flatten_cons, List.length_append]
          omega
        rw [hPos, R.safeAt_append] at hNext
        exact hNext
      rw [outs_append, after_append]
      exact Feed.cons hDrain hRest

theorem flatten_map_stream (gs : List (List F)) :
    (gs.map R.stream).flatten = R.stream gs.flatten := by
  induction gs with
  | nil => rfl
  | cons g gs ih => simp [ih]

/-- Pieces made of whole packets are always read as those packets. -/
theorem feed_groups (gs : List (List F)) (s : σ) :
    R.Feed s [] (gs.map R.stream) (R.outs s gs.flatten) (R.after s gs.flatten) [] := by
  refine R.feed_safe (gs.map R.stream) s [] gs.flatten (by simp [R.flatten_map_stream]) ?_
    fun i => ?_
  · cases hFs : gs.flatten with
    | nil => rfl
    | cons f fs => exact R.bytes_length_pos f
  · have hBoundary := R.safeAt_boundary (gs.take i).flatten (gs.drop i).flatten
    rw [← List.flatten_append, List.take_append_drop] at hBoundary
    simpa [← List.map_take, R.flatten_map_stream] using hBoundary

end Reader

end Segmentation
