import WebSocketFiles.Library.Transition
import WebSocketFiles.Model.ByteBuffer

/-!
# The cursor of a buffer

`require` subtracts the unsigned cursor from the signed length, so every bounds
check of a buffer rests on the cursor not being beyond the end.  `append`,
`skip_x`, `read_bytes_x` and `resetoft` keep it there.  `erase` takes bytes from
the front and leaves the cursor where it is, so it does so only as long as it
takes no more bytes than lie ahead of the cursor (`cursorKept_iff`).
-/

namespace WebSocketFiles

open MachineInt History Transition

/-- A call of one of the methods that change a buffer. -/
inductive BufferCall where
  | append (bytes : Bytes) (size : Int)
  | erase (size : Int)
  | skipX (size : Int)
  | readBytesX (cb : Bytes) (size : Int)
  | resetoft
  deriving DecidableEq, Repr

namespace ByteBuffer

/-- The buffer after a call; a call that raises leads nowhere. -/
def call (b : ByteBuffer) : BufferCall → Option ByteBuffer
  | .append bytes size => (b.append (some bytes) size).toOption
  | .erase size => some (b.erase size)
  | .skipX size => some (b.skipX size).2
  | .readBytesX cb size => ((b.readBytesX cb size).map fun r => r.2.2).toOption
  | .resetoft => some b.resetoft

/-- The arguments are `int`s; what is appended is there and keeps the data below
`2^31` bytes, and what is read is at least a byte. -/
def Allowed (b : ByteBuffer) : BufferCall → Prop
  | .append bytes size =>
      0 ≤ size ∧ size ≤ bytes.length ∧ (b.data.length : Int) + size < 2147483648
  | .erase size => size < 2147483648
  | .skipX size => -2147483648 ≤ size ∧ size < 2147483648
  | .readBytesX _ size => 0 < size ∧ size < 2147483648
  | .resetoft => True

instance : ∀ (b : ByteBuffer) (a : BufferCall), Decidable (Allowed b a)
  | _, .append _ _ => inferInstanceAs (Decidable (_ ∧ _ ∧ _))
  | _, .erase _ => inferInstanceAs (Decidable (_ < _))
  | _, .skipX _ => inferInstanceAs (Decidable (_ ∧ _))
  | _, .readBytesX _ _ => inferInstanceAs (Decidable (_ ∧ _))
  | _, .resetoft => .isTrue trivial

/-- The cursor is not beyond the end, `require` is the comparison of integers, and
neither reading nor skipping gets past the end. -/
structure CursorInside (b : ByteBuffer) : Prop where
  oft_le : (b.oft : Int) ≤ b.length
  require_iff : ∀ size : Int, 0 < size → size < 2147483648 →
    (b.require size = true ↔ size ≤ b.length - b.oft)
  reads : ∀ (cb : Bytes) (size : Int), Allowed b (.readBytesX cb size) →
    ∃ done cb' b', b.readBytesX cb size = .ok (done, cb', b') ∧ (b'.oft : Int) ≤ b.length
  skips : ∀ size : Int, Allowed b (.skipX size) → ((b.skipX size).2.oft : Int) ≤ b.length

/-- Every state that the calls go through is sound, and so is the last one. -/
def CursorKept (run : List (ByteBuffer × BufferCall)) (b : ByteBuffer) : Prop :=
  Always (fun _ q => q.1.CursorInside) run ∧ b.CursorInside

/-- A call of `erase` that takes anything takes no more than lies ahead of the
cursor, unless the cursor is at the front. -/
def ErasesAhead (b : ByteBuffer) : BufferCall → Prop
  | .erase size => 0 < size → b.oft = 0 ∨ (b.oft : Int) + size ≤ b.length
  | _ => True

instance : ∀ (b : ByteBuffer) (a : BufferCall), Decidable (ErasesAhead b a)
  | _, .erase _ => inferInstanceAs (Decidable (_ → _ ∨ _))
  | _, .append _ _ | _, .skipX _ | _, .readBytesX _ _ | _, .resetoft => .isTrue trivial

/-! ## One call -/

section Call

variable {b b' : ByteBuffer} (hSize : b.data.length < 2147483648)

include hSize

/-- With the cursor in range, a skip goes forward inside the data or nowhere. -/
theorem skipX_inside (hOft : b.oft ≤ b.data.length) {size : Int}
    (hInt : -2147483648 ≤ size ∧ size < 2147483648) :
    (b.skipX size).2.data = b.data ∧ (b.skipX size).2.oft ≤ b.data.length := by
  by_cases hNeg : size < 0
  · -- a negative size is a huge unsigned one
    have hNot : b.require size = false := by
      rw [require, length_eq hSize, decide_eq_false_iff_not, toUInt32_neg hNeg (by omega),
        toUInt32_of_lt (by omega) (by omega)]
      omega
    rw [skipX, hNot, if_neg (by decide)]
    exact ⟨rfl, hOft⟩
  · obtain ⟨n, rfl⟩ := Int.eq_ofNat_of_zero_le (not_lt.mp hNeg)
    by_cases hFits : b.oft + n ≤ b.data.length
    · rw [skipX_eq (by omega) hFits]
      exact ⟨rfl, hFits⟩
    · rw [skipX, require_eq (by omega) hOft (by omega), decide_eq_false hFits, if_neg (by decide)]
      exact ⟨rfl, hOft⟩

/-- With the cursor in range, a read goes forward inside the data or nowhere. -/
theorem readBytesX_inside (hOft : b.oft ≤ b.data.length) (cb : Bytes) {size : Int}
    (hInt : 0 < size ∧ size < 2147483648) :
    ∃ done cb' b', b.readBytesX cb size = .ok (done, cb', b') ∧
      b'.data = b.data ∧ b'.oft ≤ b.data.length := by
  obtain ⟨n, rfl⟩ := Int.eq_ofNat_of_zero_le hInt.1.le
  have hMod : b.data.length % 4294967296 = b.data.length := Nat.mod_eq_of_lt (by omega)
  by_cases hFits : b.oft + n ≤ b.data.length
  · exact ⟨_, _, _, readBytesX_fits (by omega) (by omega), rfl, hFits⟩
  · exact ⟨_, _, _, readBytesX_short (by omega) (by omega) (by omega), rfl, hOft⟩

/-- All of it follows from the cursor. -/
theorem cursorInside_iff : b.CursorInside ↔ b.oft ≤ b.data.length := by
  have hLength := length_eq hSize
  constructor
  · intro hInside
    have hLe := hInside.oft_le
    omega
  · intro hOft
    refine ⟨by omega, fun size hPos hInt => ?_, fun cb size hInt => ?_, fun size hInt => ?_⟩
    · obtain ⟨n, rfl⟩ := Int.eq_ofNat_of_zero_le hPos.le
      rw [require_eq (by omega) hOft (by omega), decide_eq_true_iff]
      omega
    · obtain ⟨done, cb', b', hCall, -, hLe⟩ := readBytesX_inside hSize hOft cb hInt
      exact ⟨done, cb', b', hCall, by omega⟩
    · have hLe := (skipX_inside hSize hOft hInt).2
      omega

/-- An erase takes the bytes at the front, all of them if there are too few. -/
theorem erase_length {size : Int} (hPos : 0 < size) :
    (b.erase size).oft = b.oft ∧
      (b.erase size).data.length = b.data.length - size.toNat := by
  obtain ⟨n, rfl⟩ := Int.eq_ofNat_of_zero_le hPos.le
  rw [erase_eq hSize (by omega)]
  exact ⟨rfl, List.length_drop⟩

/-- An allowed call on a sound buffer keeps the data below `2^31` bytes, and leads
to a sound buffer exactly when it erases nothing behind the cursor. -/
theorem call_inside {a : BufferCall} (hOft : b.oft ≤ b.data.length) (hAllowed : Allowed b a)
    (hCall : b.call a = some b') :
    b'.data.length < 2147483648 ∧ (b'.oft ≤ b'.data.length ↔ ErasesAhead b a) := by
  cases a with
  | append bytes size =>
      obtain ⟨hPos, hThere, hRoom⟩ := hAllowed
      obtain ⟨n, rfl⟩ := Int.eq_ofNat_of_zero_le hPos
      have hAppend : b.append (some bytes) n = .ok { b with data := b.data ++ bytes.take n } := by
        by_cases hZero : n = 0
        · simp [append, hZero]
        · rw [append, if_neg (by omega), if_neg (by omega), Int.toNat_natCast]
      simp only [call, hAppend, Except.toOption, Option.some.injEq] at hCall
      subst hCall
      simp only [List.length_append, List.length_take, ErasesAhead, iff_true]
      omega
  | erase size =>
      simp only [call, Option.some.injEq] at hCall
      subst hCall
      by_cases hPos : 0 < size
      · obtain ⟨hKept, hLeft⟩ := erase_length hSize hPos
        rw [hKept, hLeft, ErasesAhead, length_eq hSize]
        omega
      · rw [erase, if_pos (not_lt.mp hPos)]
        simp only [ErasesAhead, hPos, false_imp_iff, iff_true]
        exact ⟨hSize, hOft⟩
  | skipX size =>
      obtain ⟨hData, hLe⟩ := skipX_inside hSize hOft hAllowed
      simp only [call, Option.some.injEq] at hCall
      subst hCall
      rw [hData]
      exact ⟨hSize, iff_of_true hLe trivial⟩
  | readBytesX cb size =>
      obtain ⟨done, cb', b₁, hRead, hData, hLe⟩ := readBytesX_inside hSize hOft cb hAllowed
      simp only [call, hRead, Except.map, Except.toOption, Option.some.injEq] at hCall
      subst hCall
      rw [hData]
      exact ⟨hSize, iff_of_true hLe trivial⟩
  | resetoft =>
      simp only [call, Option.some.injEq] at hCall
      subst hCall
      exact ⟨hSize, iff_of_true (Nat.zero_le _) trivial⟩

end Call

/-! ## Runs -/

variable {run : List (ByteBuffer × BufferCall)} {b : ByteBuffer}

/-- Over every run from the empty buffer: all states are sound exactly when no
call of `erase` goes behind the cursor. -/
theorem cursorKept_iff (hRun : Reaches call empty run b)
    (hCalls : Always (fun _ q => Allowed q.1 q.2) run) :
    CursorKept run b ↔ Always (fun _ q => ErasesAhead q.1 q.2) run := by
  -- along the run, the data stays below `2^31` bytes as long as the states are sound
  suffices hBoth : (CursorKept run b ↔ Always (fun _ q => ErasesAhead q.1 q.2) run) ∧
      (CursorKept run b → b.data.length < 2147483648) from hBoth.1
  induction hRun with
  | start =>
      have hInside : empty.CursorInside := (cursorInside_iff (by decide)).mpr (Nat.zero_le _)
      exact ⟨iff_of_true ⟨always_nil, hInside⟩ always_nil, fun _ => by decide⟩
  | next hRun hCall ih =>
      rename_i run b b' a
      obtain ⟨hBefore, hAllowed⟩ := always_snoc.mp hCalls
      obtain ⟨hIff, hLength⟩ := ih hBefore
      have hStep : CursorKept run b →
          b'.data.length < 2147483648 ∧ (b'.CursorInside ↔ ErasesAhead b a) := by
        intro hKept
        have hSize := hLength hKept
        obtain ⟨hSize', hInside⟩ :=
          call_inside hSize ((cursorInside_iff hSize).mp hKept.2) hAllowed hCall
        exact ⟨hSize', (cursorInside_iff hSize').trans hInside⟩
      have hSplit : CursorKept (run ++ [(b, a)]) b' ↔ CursorKept run b ∧ b'.CursorInside := by
        unfold CursorKept
        rw [always_snoc]
      rw [hSplit, always_snoc, ← hIff]
      exact ⟨and_congr_right fun hKept => (hStep hKept).2, fun hAll => (hStep hAll.1).1⟩

/-- Reading a byte, erasing one ahead of the cursor, and going back to the
front. -/
def readOnce : List (ByteBuffer × BufferCall) × ByteBuffer :=
  record call [] empty [.append [1, 2, 3] 3, .readBytesX [0] 1, .erase 1, .resetoft]

theorem cursorKept_iff_readOnce : CursorKept readOnce.1 readOnce.2 :=
  (cursorKept_iff (reaches_record _ .start) (by decide +kernel)).mpr (by decide +kernel)

/-- Two bytes are read and the first is erased: the cursor is behind the end, one
more byte seems to be there, and reading it raises. -/
def eraseBehind : List (ByteBuffer × BufferCall) × ByteBuffer :=
  record call [] empty [.append [1, 2] 2, .readBytesX [0, 0] 2, .erase 1]

theorem eraseBehind_not_kept :
    Reaches call empty eraseBehind.1 eraseBehind.2 ∧
      Always (fun _ q => Allowed q.1 q.2) eraseBehind.1 ∧
      eraseBehind.2.require 1 = true ∧
      eraseBehind.2.readBytesX [0] 1 = .error .outOfRange ∧
      ¬ CursorKept eraseBehind.1 eraseBehind.2 := by
  have hEnd : eraseBehind.2 = ⟨[2], 2⟩ := by decide +kernel
  have hRequire : (⟨[2], 2⟩ : ByteBuffer).require 1 = true := by decide +kernel
  refine ⟨reaches_record _ .start, by decide +kernel, ?_⟩
  rw [hEnd]
  refine ⟨hRequire, ?_, fun hKept => ?_⟩
  · rw [readBytesX, if_pos hRequire, dataAt, if_neg (by decide)]
    rfl
  · have hLe := (cursorInside_iff (by decide)).mp hKept.2
    exact absurd hLe (by decide)

end ByteBuffer

end WebSocketFiles
