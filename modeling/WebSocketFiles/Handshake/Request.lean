import WebSocketFiles.Library.Splitting
import WebSocketFiles.Model.Packet

/-!
# Parsing the request

`fetch_hs_element` in terms of lines and words.  `splitStr` cuts a string into
`pieces` and `trim` is `strip`, so the function is the one equation
`fetchHsElement_eq`: the block before the first empty line is cut into lines,
blank lines in front are passed over, the first line that is left is the request
line, and each line behind it may set a parameter.

From it follows where parsing is safe (`parsesSafely_iff`): it is not when every
line of the block is blank, because the loop that passes over blank lines then
ends at `lines.end()`, which is dereferenced, nor when the lines or the words of
the request line are too many for the `int` that `splitStr` counts them in.
-/

namespace WebSocketFiles

open MachineInt ListSearch Splitting Fallible

/-! ## The string helpers -/

namespace StrHelper

/-- A substring that starts inside the string does not raise. -/
theorem substr_take {str : Bytes} {pos : Nat} (n : Nat) (hPos : pos ≤ str.length) :
    substr str pos (some n) = .ok ((str.drop pos).take n) := by
  rw [substr, if_neg (Nat.not_lt.mpr hPos)]

theorem substr_drop {str : Bytes} {pos : Nat} (hPos : pos ≤ str.length) :
    substr str pos = .ok (str.drop pos) := by
  rw [substr, if_neg (Nat.not_lt.mpr hPos)]

theorem increment_eq {count : Nat} (hFits : count < 2147483647) :
    increment count = .ok ((count + 1 : Nat) : Int) := by
  rw [increment, if_neg (by omega)]
  rfl

theorem increment_full : increment (2147483647 : Nat) = .error .undefined :=
  rfl

/-- Each round of the loop passes over the delimiter, so that the string length
bounds the number of rounds; the count is an `int`. -/
theorem splitLoop_eq {str delim : Bytes} (hDelim : delim ≠ []) (fuel : Nat) :
    ∀ (pos : Nat) (list : List Bytes) (count : Nat), pos ≤ str.length →
      str.length < pos + fuel → count ≤ 2147483647 →
      splitLoop str delim delim.length fuel pos pos list count =
        if 2147483647 < count + (pieces delim (str.drop pos)).length then .error .undefined
        else .ok (list ++ pieces delim (str.drop pos),
          ((count + (pieces delim (str.drop pos)).length : Nat) : Int)) := by
  induction fuel with
  | zero =>
      intro pos list count hPos hFuel
      omega
  | succ fuel ih =>
      intro pos list count hPos hFuel hCount
      unfold splitLoop find
      rw [if_pos hPos]
      cases hFind : indexOfSub delim (str.drop pos) with
      | none =>
          rw [pieces_none hFind]
          by_cases hEnd : pos < str.length
          · have hSome : str.drop pos ≠ [] := by
              rw [ne_eq, List.drop_eq_nil_iff]
              omega
            simp only [Option.map_none, if_pos hEnd, substr_drop hPos, ok_bind, if_neg hSome,
              List.length_singleton]
            rcases Nat.lt_or_eq_of_le hCount with hRoom | rfl
            · rw [increment_eq hRoom, ok_bind, if_neg (by omega)]
              rfl
            · rw [increment_full, if_pos (by decide)]
              rfl
          · have hNone : str.drop pos = [] := List.drop_eq_nil_of_le (by omega)
            simp only [Option.map_none, if_neg hEnd, pure_eq, if_pos hNone, List.append_nil,
              List.length_nil, Nat.add_zero]
            rw [if_neg (by omega)]
      | some n =>
          have hFit := indexOfSub_add_le hDelim hFind
          have hSize := List.length_pos_iff.mpr hDelim
          rw [List.length_drop] at hFit
          have hMove : pos + n + delim.length = pos + (n + delim.length) := by omega
          simp only [Option.map_some, substr_take _ hPos, ok_bind, Nat.add_sub_cancel_left]
          rw [pieces_some hDelim hFind, List.drop_drop, List.length_cons]
          rcases Nat.lt_or_eq_of_le hCount with hRoom | rfl
          · rw [increment_eq hRoom, ok_bind, ih (pos + n + delim.length) _ (count + 1) (by omega)
              (by omega) (by omega), hMove, Nat.add_right_comm count 1, Nat.add_assoc count]
            simp only [List.append_assoc, List.singleton_append]
          · rw [increment_full, if_pos (by omega)]
            rfl

/-- `splitStr` pushes the pieces and returns their number, if it is an `int`. -/
theorem splitStr_eq (list : List Bytes) (str : Bytes) {delim : Bytes} (hDelim : delim ≠ [])
    (hWord : delim.length < 4294967296) :
    splitStr list str (some delim) =
      if 2147483647 < (pieces delim str).length then .error .undefined
      else .ok (list ++ pieces delim str, ((pieces delim str).length : Int)) := by
  unfold splitStr
  by_cases hNil : str = []
  · rw [if_pos hNil, hNil, pieces_nil hDelim, List.append_nil]
    rfl
  · have hLoop := splitLoop_eq hDelim (str.length + 1) 0 list 0 (Nat.zero_le str.length) (by omega)
      (by decide)
    rw [List.drop_zero, Nat.zero_add] at hLoop
    rw [if_neg hNil]
    simp only
    rw [Nat.mod_eq_of_lt hWord]
    exact hLoop

theorem splitStr_ok (list : List Bytes) {str delim : Bytes} (hDelim : delim ≠ [])
    (hWord : delim.length < 4294967296) (hFew : (pieces delim str).length < 2147483648) :
    splitStr list str (some delim) =
      .ok (list ++ pieces delim str, ((pieces delim str).length : Int)) := by
  rw [splitStr_eq list str hDelim hWord, if_neg (by omega)]

/-- `splitStr` and joining are inverse to each other, as long as the number of pieces is
an `int`.  The pieces hold no delimiter; joined by it they are the string, or all of
it but a delimiter at its end; and a list whose joints are the leftmost occurrences of
the delimiter comes back when its last piece is not empty. -/
theorem splitStr_inverts_join {delim : Bytes} (hDelim : delim ≠ [])
    (hWord : delim.length < 4294967296) :
    (∀ str, (pieces delim str).length < 2147483648 → ∃ list : List Bytes,
      splitStr [] str (some delim) = .ok (list, (list.length : Int)) ∧
        list.length ≤ str.length ∧ (∀ piece ∈ list, ¬ delim <:+: piece) ∧
        ((delim.intercalate list = str ∧ list.getLast? ≠ some []) ∨
          (list ≠ [] ∧ delim.intercalate list ++ delim = str))) ∧
      ∀ list : List Bytes, list ≠ [] → list.length < 2147483648 → JointsLeftmost delim list →
        list.getLast? ≠ some [] →
        splitStr [] (delim.intercalate list) (some delim) = .ok (list, (list.length : Int)) := by
  constructor
  · intro str hFew
    have hCall := splitStr_ok [] hDelim hWord hFew
    rw [List.nil_append] at hCall
    exact ⟨pieces delim str, hCall, length_pieces_le hDelim str,
      not_infix_of_mem_pieces hDelim str, intercalate_pieces hDelim str⟩
  · intro list _ hFew hJoints hLast
    have hPieces := pieces_intercalate hDelim hJoints hLast
    rw [splitStr_ok [] hDelim hWord (hPieces.symm ▸ hFew), hPieces, List.nil_append]

/-- The lines of a request, from `EOL` and back. -/
theorem splitStr_inverts_join_eol :
    splitStr [] (lit "GET / HTTP/1.1\r\nHost: a") (some EOL) =
      .ok ([lit "GET / HTTP/1.1", lit "Host: a"], 2) :=
  (splitStr_inverts_join (show EOL ≠ [] by decide) (by decide)).2
    [lit "GET / HTTP/1.1", lit "Host: a"] (by decide) (by decide)
    (jointsLeftmost_of_free (by decide) (by decide)) (by decide)

/-- A delimiter whose size is a multiple of `2^32` is never passed over: the loop goes on
until the count is full. -/
theorem splitLoop_stuck {str delim : Bytes} {pos : Nat} (hPos : pos ≤ str.length)
    (hFind : find str delim pos = some pos) (fuel : Nat) :
    ∀ (list : List Bytes) (count : Int),
      ∃ e, splitLoop str delim 0 fuel pos pos list count = .error e := by
  induction fuel with
  | zero => exact fun _ _ => ⟨_, rfl⟩
  | succ fuel ih =>
      intro list count
      unfold splitLoop
      simp only [hFind, substr_take _ hPos, ok_bind]
      unfold increment
      split
      · exact ⟨_, rfl⟩
      · exact ih _ _

/-- The number of `2^31` pieces is not an `int`, and a delimiter of `2^32` bytes has no
size. -/
theorem splitStr_not_inverts_join :
    (¬ ∃ list : List Bytes, splitStr [] (List.replicate 2147483648 32) (some SP) =
        .ok (list, (list.length : Int))) ∧
      ¬ ∃ list : List Bytes, splitStr [] (List.replicate 4294967296 65)
        (some (List.replicate 4294967296 65)) = .ok (list, (list.length : Int)) := by
  constructor
  · rintro ⟨list, hCall⟩
    have hMany : (pieces SP (List.replicate 2147483648 32)).length = 2147483648 := by
      rw [SP, pieces_replicate, List.length_replicate]
    rw [splitStr_eq _ _ (show SP ≠ [] by decide) (by decide), if_pos (by omega)] at hCall
    exact absurd hCall (by simp)
  · rintro ⟨list, hCall⟩
    generalize hDelim : List.replicate 4294967296 (65 : UInt8) = delim at hCall
    have hLength : delim.length = 4294967296 := by
      rw [← hDelim, List.length_replicate]
    have hNe : delim ≠ [] := List.ne_nil_of_length_pos (by omega)
    have hFind : find delim delim 0 = some 0 := by
      have hSelf := indexOfSub_self_append delim []
      rw [List.append_nil] at hSelf
      rw [find, if_pos (Nat.zero_le _), List.drop_zero, hSelf]
      rfl
    unfold splitStr at hCall
    rw [if_neg hNe] at hCall
    simp only [hLength, Nat.mod_self] at hCall
    obtain ⟨e, hStuck⟩ := splitLoop_stuck (Nat.zero_le _) hFind (4294967296 + 1) [] 0
    rw [hStuck] at hCall
    exact absurd hCall (by simp)

variable {str : Bytes} {c : UInt8}

/-- Cutting behind the last byte that is not `c` drops the `c` at the end. -/
theorem take_findLast {last : Nat} (hLast : findLast str (· != c) = some last) :
    str.take (last + 1) = str.rdropWhile (· == c) := by
  obtain ⟨i, hIdx, rfl⟩ := Option.map_eq_some_iff.mp hLast
  obtain ⟨hLt, hFind⟩ := List.findIdx?_eq_some_iff_findIdx_eq.mp hIdx
  rw [List.length_reverse] at hLt
  have hDrop : str.reverse.dropWhile (· == c) = _ := List.dropWhile_eq_drop_findIdx_not
  have hSame : (fun x : UInt8 => !(x == c)) = (· != c) := rfl
  rw [hSame, hFind, List.drop_reverse] at hDrop
  rw [List.rdropWhile, hDrop, List.reverse_reverse]
  congr 1
  omega

theorem findLast_eq_none_iff {p : UInt8 → Bool} :
    findLast str p = none ↔ ∀ x ∈ str, p x = false := by
  unfold findLast
  rw [Option.map_eq_none_iff, List.findIdx?_eq_none_iff]
  simp

/-- The front half of `trim`. -/
theorem drop_findIdx {pos : Nat} (hFirst : str.findIdx? (· != c) = some pos) :
    str.drop pos = str.dropWhile (· == c) := by
  obtain ⟨-, hFind⟩ := List.findIdx?_eq_some_iff_findIdx_eq.mp hFirst
  have hDrop : str.dropWhile (· == c) = _ := List.dropWhile_eq_drop_findIdx_not
  have hSame : (fun x : UInt8 => !(x == c)) = (· != c) := rfl
  rw [hSame, hFind] at hDrop
  exact hDrop.symm

/-- `trim` removes the byte at both ends; the wrap-around of `npos + 1` is what
makes it clear a string of nothing else. -/
theorem trim_eq (str : Bytes) (c : UInt8) : trim str c = strip c str := by
  unfold trim
  by_cases hNil : str = []
  · rw [if_pos hNil, hNil]
    rfl
  · rw [if_neg hNil]
    cases hFirst : str.findIdx? (· != c) with
    | none =>
        -- nothing but `c`: the last `c` is found, the last other byte is not
        have hAll : ∀ x ∈ str, x = c := by
          simpa using List.findIdx?_eq_none_iff.mp hFirst
        have hNone : findLast str (· != c) = none := by
          rw [findLast_eq_none_iff]
          intro x hx
          simp [hAll x hx]
        obtain ⟨x, hx⟩ := List.exists_mem_of_ne_nil str hNil
        have hSome : findLast str (· == c) ≠ none := by
          rw [ne_eq, findLast_eq_none_iff]
          intro hNo
          exact absurd (hNo x hx) (by simp [hAll x hx])
        obtain ⟨last, hLast⟩ := Option.ne_none_iff_exists'.mp hSome
        rw [strip_eq_nil_iff.mpr hAll]
        simp only [hLast, hNone]
    | some pos =>
        simp only [drop_findIdx hFirst]
        unfold strip
        cases hLast : findLast (str.dropWhile (· == c)) (· == c) with
        | none =>
            have hFree := findLast_eq_none_iff.mp hLast
            refine (List.rdropWhile_eq_self_iff.mpr fun hNe => ?_).symm
            simpa using hFree _ (List.getLast_mem hNe)
        | some last =>
            simp only
            -- `erase` starts behind the last other byte, wherever the last `c` is
            cases hEnd : findLast (str.dropWhile (· == c)) (· != c) with
            | none =>
                refine (List.rdropWhile_eq_nil_iff.mpr fun x hx => ?_).symm
                simpa using findLast_eq_none_iff.mp hEnd x hx
            | some last => exact take_findLast hEnd

end StrHelper

/-! ## Lines and fields -/

/-- A list of words that is long enough for a request line. -/
theorem exists_words {words : List Bytes} (hMany : 3 ≤ words.length) :
    ∃ m u v rest, words = m :: u :: v :: rest := by
  rcases words with _ | ⟨m, _ | ⟨u, _ | ⟨v, rest⟩⟩⟩
  · simp at hMany
  · simp at hMany
  · simp at hMany
  · exact ⟨m, u, v, rest, rfl⟩

/-- A line of nothing but spaces. -/
def blank (line : Bytes) : Bool :=
  line.all (· == 32)

/-- The name of a header line: the text before the first colon. -/
def fieldName (line : Bytes) : Bytes :=
  strip 32 (line.takeWhile (· != 58))

/-- The value of a header line: the text after the first colon. -/
def fieldValue (line : Bytes) : Bytes :=
  strip 32 ((line.dropWhile (· != 58)).drop 1)

/-- The parameter a header line sets, if it has a colon, a name and a value. -/
def headerField (line : Bytes) : Option (Bytes × Bytes) :=
  if 58 ∈ line ∧ fieldName line ≠ [] ∧ fieldValue line ≠ [] then
    some (fieldName line, fieldValue line)
  else none

theorem strip_eq_nil_iff_blank {line : Bytes} : strip 32 line = [] ↔ blank line = true := by
  rw [strip_eq_nil_iff, blank, List.all_eq_true]
  simp

namespace WebSocketPacket

/-- The loop over blank lines stops at the first line that has a word. -/
theorem skipBlank_eq (lines : List Bytes) :
    skipBlank lines =
      match lines.dropWhile blank with
      | [] => []
      | request :: fields => strip 32 request :: fields := by
  induction lines with
  | nil => rfl
  | cons line lines ih =>
      rw [skipBlank, StrHelper.trim_eq, List.dropWhile_cons]
      by_cases hBlank : blank line = true
      · rw [if_pos (strip_eq_nil_iff_blank.mpr hBlank), if_pos hBlank, ih]
      · rw [if_neg (mt strip_eq_nil_iff_blank.mp hBlank), if_neg hBlank]

/-- The loop over the header lines: a later line of the same name comes first in
`params_`, as the assignment replaces the earlier value. -/
theorem headerFields_eq (p : WebSocketPacket) (lines : List Bytes) :
    headerFields p lines =
      .ok { p with params := (lines.filterMap headerField).reverse ++ p.params } := by
  induction lines generalizing p with
  | nil => rfl
  | cons line lines ih =>
      unfold headerFields
      cases hColon : line.findIdx? (· == 58) with
      | none =>
          have hNo : 58 ∉ line := by
            intro hMem
            simpa using List.findIdx?_eq_none_iff.mp hColon 58 hMem
          have hField : headerField line = none := if_neg fun hAll => hNo hAll.1
          rw [List.filterMap_cons_none hField]
          exact ih p
      | some pos =>
          obtain ⟨hLt, hFind⟩ := List.findIdx?_eq_some_iff_findIdx_eq.mp hColon
          have hMem : 58 ∈ line := by
            rw [List.findIdx?_eq_some_iff_getElem] at hColon
            obtain ⟨hBound, hAt, -⟩ := hColon
            exact (beq_iff_eq.mp hAt) ▸ List.getElem_mem hBound
          have hSame : (fun x : UInt8 => !(x != 58)) = (· == 58) := by
            funext x
            exact Bool.not_not _
          have hName : line.take pos = line.takeWhile (· != 58) := by
            rw [List.takeWhile_eq_take_findIdx_not, hSame, hFind]
          have hValue : line.drop (pos + 1) = (line.dropWhile (· != 58)).drop 1 := by
            rw [List.dropWhile_eq_drop_findIdx_not, hSame, hFind, List.drop_drop]
          simp only
          rw [StrHelper.substr_take pos (Nat.zero_le _), ok_bind, StrHelper.substr_drop hLt,
            ok_bind, List.drop_zero, hName, hValue, StrHelper.trim_eq, StrHelper.trim_eq]
          show (if fieldName line = [] then headerFields p lines
            else if fieldValue line = [] then headerFields p lines
            else headerFields (p.setParam (fieldName line) (fieldValue line)) lines) = _
          -- the two `continue`s of the loop skip what `headerField` has no value for
          by_cases hSets : fieldName line ≠ [] ∧ fieldValue line ≠ []
          · have hField : headerField line = some (fieldName line, fieldValue line) :=
              if_pos ⟨hMem, hSets⟩
            rw [if_neg hSets.1, if_neg hSets.2, ih, List.filterMap_cons_some hField,
              List.reverse_cons, List.append_assoc]
            rfl
          · have hField : headerField line = none := if_neg fun hAll => hSets hAll.2
            rw [List.filterMap_cons_none hField]
            by_cases hEmpty : fieldName line = []
            · rw [if_pos hEmpty, ih]
            · rw [if_neg hEmpty, if_pos (not_not.mp fun hNe => hSets ⟨hEmpty, hNe⟩), ih]

/-- The packet with the elements of a request that has these three words and
these header lines. -/
def withRequest (p : WebSocketPacket) (m u v : Bytes) (fields : List Bytes) : WebSocketPacket :=
  { p with
    mothod := strip 32 m
    uri := strip 32 u
    version := strip 32 v
    params := (fields.filterMap headerField).reverse ++ p.params }

/-- `fetch_hs_element` as one equation. -/
theorem fetchHsElement_eq (p : WebSocketPacket) (msg : Bytes) :
    p.fetchHsElement msg =
      match indexOfSub (EOL ++ EOL) msg with
      | none => .ok (-1, p)
      | some endpos =>
          if 2147483647 < (pieces EOL (msg.take endpos)).length then .error .undefined
          else if (pieces EOL (msg.take endpos)).length < 2 then .ok (-1, p)
          else
            match (pieces EOL (msg.take endpos)).dropWhile blank with
            | [] => .error .undefined
            | request :: fields =>
                if 2147483647 < (pieces SP (strip 32 request)).length then .error .undefined
                else
                  match pieces SP (strip 32 request) with
                  | m :: u :: v :: _ =>
                      .ok (toInt32 (endpos + 4), p.withRequest m u v fields)
                  | _ => .ok (-1, p) := by
  unfold fetchHsElement
  cases hFind : indexOfSub (EOL ++ EOL) msg with
  | none => rfl
  | some endpos =>
      simp only
      rw [StrHelper.substr_take endpos (Nat.zero_le _), ok_bind, List.drop_zero,
        StrHelper.splitStr_eq _ _ (show EOL ≠ [] by decide) (by decide)]
      by_cases hMany : 2147483647 < (pieces EOL (msg.take endpos)).length
      · rw [if_pos hMany, if_pos hMany]
        rfl
      · rw [if_neg hMany, if_neg hMany, ok_bind, List.nil_append]
        by_cases hFew : (pieces EOL (msg.take endpos)).length < 2
        · rw [if_pos hFew]
          simp only
          rw [if_pos (by omega)]
          rfl
        · rw [if_neg hFew]
          simp only
          rw [if_neg (by omega), skipBlank_eq]
          cases (pieces EOL (msg.take endpos)).dropWhile blank with
          | nil => rfl
          | cons request fields =>
              simp only
              rw [StrHelper.splitStr_eq _ _ (show SP ≠ [] by decide) (by decide)]
              by_cases hWords : 2147483647 < (pieces SP (strip 32 request)).length
              · rw [if_pos hWords, if_pos hWords]
                rfl
              · rw [if_neg hWords, if_neg hWords, ok_bind, List.nil_append]
                rcases pieces SP (strip 32 request) with _ | ⟨m, _ | ⟨u, _ | ⟨v, rest⟩⟩⟩
                · rfl
                · rfl
                · rfl
                · have hThree : ¬ ((m :: u :: v :: rest).length : Int) < 3 := by
                    simp only [List.length_cons]
                    omega
                  simp only
                  rw [if_neg hThree, headerFields_eq, ok_bind]
                  simp only [StrHelper.trim_eq]
                  rfl

/-- A block below `2^31` bytes has no more lines, and its request line no more words,
than an `int` counts. -/
theorem fetchHsElement_fits (p : WebSocketPacket) (msg : Bytes)
    (hFits : ∀ endpos, indexOfSub (EOL ++ EOL) msg = some endpos → endpos < 2147483648) :
    p.fetchHsElement msg =
      match indexOfSub (EOL ++ EOL) msg with
      | none => .ok (-1, p)
      | some endpos =>
          if (pieces EOL (msg.take endpos)).length < 2 then .ok (-1, p)
          else
            match (pieces EOL (msg.take endpos)).dropWhile blank with
            | [] => .error .undefined
            | request :: fields =>
                match pieces SP (strip 32 request) with
                | m :: u :: v :: _ =>
                    .ok (toInt32 (endpos + 4), p.withRequest m u v fields)
                | _ => .ok (-1, p) := by
  rw [fetchHsElement_eq]
  cases hFind : indexOfSub (EOL ++ EOL) msg with
  | none => rfl
  | some endpos =>
      have hBlock : (msg.take endpos).length < 2147483648 :=
        (List.length_take_le _ _).trans_lt (hFits endpos hFind)
      have hLines := length_pieces_le (show EOL ≠ [] by decide) (msg.take endpos)
      simp only
      rw [if_neg (show ¬ 2147483647 < (pieces EOL (msg.take endpos)).length by omega)]
      cases hSkip : (pieces EOL (msg.take endpos)).dropWhile blank with
      | nil => rfl
      | cons request fields =>
          have hMem : request ∈ pieces EOL (msg.take endpos) :=
            (List.dropWhile_suffix _).subset (hSkip ▸ List.mem_cons_self)
          have hLine := length_le_of_mem_pieces (show EOL ≠ [] by decide) _ request hMem
          have hStrip := length_strip_le 32 request
          have hWords := length_pieces_le (show SP ≠ [] by decide) (strip 32 request)
          simp only
          rw [if_neg (show ¬ 2147483647 < (pieces SP (strip 32 request)).length by omega)]

/-! ## Where parsing is safe -/

/-- Parsing ends without an abort, and with `-1` or the end of the first empty
line. -/
def ParsesSafely (p : WebSocketPacket) (msg : Bytes) : Prop :=
  ∃ n p', p.fetchHsElement msg = .ok (n, p') ∧
    (n = -1 ∨ ∃ endpos, indexOfSub (EOL ++ EOL) msg = some endpos ∧ n = (endpos : Int) + 4)

/-- The header block has fewer than two lines; or as many as an `int` counts and a request
line of fewer than three words; or also as many words as an `int` counts and a size that
is an `int`.  (A size that wraps around to `-1` is `-1`.) -/
def SafeRequest (msg : Bytes) : Prop :=
  ∀ endpos, indexOfSub (EOL ++ EOL) msg = some endpos →
    (pieces EOL (msg.take endpos)).length < 2 ∨
      ((pieces EOL (msg.take endpos)).length < 2147483648 ∧
        ∃ request, (pieces EOL (msg.take endpos)).find? (!blank ·) = some request ∧
          ((pieces SP (strip 32 request)).length < 3 ∨
            ((pieces SP (strip 32 request)).length < 2147483648 ∧
              (endpos + 4 < 2147483648 ∨ (endpos + 4) % 4294967296 = 4294967295))))

/-- The request line is where the blank lines end. -/
theorem find?_not_blank (lines : List Bytes) :
    lines.find? (!blank ·) = (lines.dropWhile blank).head? := by
  induction lines with
  | nil => rfl
  | cons line lines ih =>
      rw [List.find?_cons, List.dropWhile_cons]
      cases blank line with
      | true => exact ih
      | false => rfl

/-- Only a request line of three words gets as far as the size. -/
theorem wordsSafely_iff (p : WebSocketPacket) (endpos : Nat) (words fields : List Bytes) :
    (∃ n p', (if 2147483647 < words.length then .error .undefined
        else
          match words with
          | m :: u :: v :: _ => .ok (toInt32 (endpos + 4), p.withRequest m u v fields)
          | _ => .ok (-1, p) : Except Abort (Int × WebSocketPacket)) = .ok (n, p') ∧
        (n = -1 ∨ n = (endpos : Int) + 4)) ↔
      (words.length < 3 ∨ (words.length < 2147483648 ∧
        (endpos + 4 < 2147483648 ∨ (endpos + 4) % 4294967296 = 4294967295))) := by
  by_cases hWords : 2147483647 < words.length
  · rw [if_pos hWords]
    constructor
    · rintro ⟨n, p', hCall, -⟩
      exact absurd hCall (by simp)
    · rintro (hFew | ⟨hFits, -⟩) <;> omega
  · have hWordsFit : words.length < 2147483648 := by omega
    rw [if_neg hWords]
    rcases words with _ | ⟨m, _ | ⟨u, _ | ⟨v, rest⟩⟩⟩
    · simp
    · simp
    · simp
    · have hMany : ¬ (m :: u :: v :: rest).length < 3 := by
        simp only [List.length_cons]
        omega
      have hFour : (endpos : Int) + 4 = ((endpos + 4 : Nat) : Int) := by
        push_cast
        rfl
      simp only [hMany, hWordsFit, false_or, true_and, hFour]
      constructor
      · rintro ⟨n, p', hCall, hResult⟩
        obtain ⟨rfl, -⟩ := Prod.mk.inj (Except.ok.inj hCall)
        rcases hResult with hNeg | hSize
        · exact .inr ((toInt32_eq_neg_one_iff _).mp hNeg)
        · exact .inl ((toInt32_eq_self_iff _).mp hSize)
      · rintro (hSmall | hWrap)
        · exact ⟨_, _, rfl, .inr ((toInt32_eq_self_iff _).mpr hSmall)⟩
        · exact ⟨_, _, rfl, .inl ((toInt32_eq_neg_one_iff _).mpr hWrap)⟩

/-- Parsing is safe exactly when the block before the first empty line is not
made of blank lines only (and its lines, words and bytes are counted by an `int`). -/
theorem parsesSafely_iff (p : WebSocketPacket) (msg : Bytes) :
    ParsesSafely p msg ↔ SafeRequest msg := by
  unfold ParsesSafely SafeRequest
  rw [fetchHsElement_eq]
  cases hFind : indexOfSub (EOL ++ EOL) msg with
  | none => simp
  | some endpos =>
      simp only [Option.some.injEq, forall_eq', find?_not_blank]
      by_cases hLines : 2147483647 < (pieces EOL (msg.take endpos)).length
      · -- the count of lines overflows
        rw [if_pos hLines]
        constructor
        · rintro ⟨n, p', hCall, -⟩
          exact absurd hCall (by simp)
        · rintro (hFew | ⟨hFits, -⟩) <;> omega
      · rw [if_neg hLines]
        by_cases hFew : (pieces EOL (msg.take endpos)).length < 2
        · rw [if_pos hFew]
          exact ⟨fun _ => .inl hFew, fun _ => ⟨-1, p, rfl, .inl rfl⟩⟩
        · have hLinesFit : (pieces EOL (msg.take endpos)).length < 2147483648 := by omega
          rw [if_neg hFew]
          cases (pieces EOL (msg.take endpos)).dropWhile blank with
          | nil => simp [hFew]
          | cons request fields =>
              simp only [List.head?_cons, Option.some.injEq, exists_eq_left', hFew, hLinesFit,
                false_or, true_and]
              exact wordsSafely_iff p endpos (pieces SP (strip 32 request)) fields

/-- Two lines of one space each, then the empty line. -/
def blankRequest : Bytes :=
  lit " \r\n \r\n\r\n"

/-- There is no line left to read the request from. -/
theorem blankRequest_not_parsesSafely : ¬ ParsesSafely (.new .zeroed) blankRequest := by
  rintro ⟨n, p, hCall, -⟩
  rw [fetchHsElement_eq, show indexOfSub (EOL ++ EOL) blankRequest = some 4 by decide] at hCall
  simp only [show pieces EOL (blankRequest.take 4) = [SP, SP] by decide] at hCall
  exact absurd hCall (by simp [List.dropWhile, blank, SP])

end WebSocketPacket

end WebSocketFiles
