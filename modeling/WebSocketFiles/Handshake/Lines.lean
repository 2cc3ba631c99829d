import WebSocketFiles.Handshake.Request

/-!
# The lines of a request

A buffer with an empty line behind a line that is not blank is blank lines, a
request line, header lines and the bytes behind the empty line
(`Request.exists_of_complete`).  In these terms `fetch_hs_element` reads the
request line and the header lines (`Request.fetchHsElement_bytes`).
-/

namespace WebSocketFiles

open MachineInt ListSearch Splitting

/-- A header block cut into lines, and the bytes behind it: blank lines in front,
the request line and the header lines. -/
structure Request where
  blanks : List Bytes
  line : Bytes
  fields : List Bytes
  rest : Bytes
  blanks_blank : ∀ l ∈ blanks, blank l = true
  line_some : blank line = false
  no_eol : ∀ l ∈ blanks ++ line :: fields, ¬ EOL <:+: l
  /-- an empty line behind another one would end the block -/
  blanks_some : [] ∉ blanks.tail
  fields_some : [] ∉ fields

namespace Request

def lines (R : Request) : List Bytes :=
  R.blanks ++ R.line :: R.fields

/-- The lines, joined, an empty line, and the rest. -/
def bytes (R : Request) : Bytes :=
  EOL.intercalate R.lines ++ (EOL ++ EOL ++ R.rest)

variable (R : Request)

theorem line_ne_nil : R.line ≠ [] := by
  intro hNil
  have hSome := R.line_some
  rw [hNil] at hSome
  exact absurd hSome (by decide)

/-- Only the first line may be empty. -/
theorem tail_lines_some : [] ∉ R.lines.tail := by
  unfold lines
  have hBehind : [] ∉ R.line :: R.fields := by
    intro hMem
    rcases List.mem_cons.mp hMem with hLine | hField
    · exact R.line_ne_nil hLine.symm
    · exact R.fields_some hField
  cases hBlanks : R.blanks with
  | nil => exact R.fields_some
  | cons l ls =>
      intro hMem
      have hSome := R.blanks_some
      rw [hBlanks] at hSome
      rcases List.mem_append.mp hMem with hBlank | hLater
      · exact hSome hBlank
      · exact hBehind hLater

/-- The block ends at the first empty line. -/
theorem indexOfSub_bytes :
    indexOfSub (EOL ++ EOL) R.bytes = some (EOL.intercalate R.lines).length := by
  have hEol : ∀ l ∈ R.lines, ¬ EOL <:+: l := R.no_eol
  have hTail := R.tail_lines_some
  obtain ⟨l, ls, hLines⟩ : ∃ l ls, R.lines = l :: ls :=
    List.exists_cons_of_ne_nil (by simp [lines])
  rw [hLines] at hEol hTail
  rw [bytes, hLines]
  refine indexOfSub_lines (by decide) (hEol l List.mem_cons_self) R.rest fun m hm =>
    ⟨?_, hEol m (List.mem_cons_of_mem l hm)⟩
  rintro rfl
  exact hTail hm

/-- Cutting the block gives its lines back. -/
theorem pieces_bytes :
    pieces EOL (R.bytes.take (EOL.intercalate R.lines).length) = R.lines := by
  rw [bytes, List.take_left]
  refine pieces_intercalate (by decide) (jointsLeftmost_of_free (by decide) R.no_eol)
    fun hLast => ?_
  rw [lines, List.getLast?_append_of_ne_nil _ (List.cons_ne_nil _ _)] at hLast
  rcases List.mem_cons.mp (List.mem_of_getLast? hLast) with hLine | hField
  · exact R.line_ne_nil hLine.symm
  · exact R.fields_some hField

/-- The blank lines in front are passed over. -/
theorem dropWhile_lines : R.lines.dropWhile blank = R.line :: R.fields := by
  rw [lines, List.dropWhile_append_of_pos R.blanks_blank, List.dropWhile_cons_of_neg]
  simp [R.line_some]

/-- What `fetch_hs_element` reads from a request, if its length is an `int`. -/
theorem fetchHsElement_bytes (p : WebSocketPacket)
    (hFits : (EOL.intercalate R.lines).length < 2147483648) :
    p.fetchHsElement R.bytes =
      if R.lines.length < 2 then .ok (-1, p)
      else
        match pieces SP (strip 32 R.line) with
        | m :: u :: v :: _ =>
            .ok (toInt32 ((EOL.intercalate R.lines).length + 4), p.withRequest m u v R.fields)
        | _ => .ok (-1, p) := by
  have hEq := p.fetchHsElement_fits R.bytes fun endpos hFind => by
    rw [R.indexOfSub_bytes, Option.some.injEq] at hFind
    exact hFind ▸ hFits
  rw [R.indexOfSub_bytes] at hEq
  simp only [R.pieces_bytes, R.dropWhile_lines] at hEq
  exact hEq

/-- The block in front of the first empty line is its lines, joined, of which only
the first may be empty. -/
theorem join_pieces_block {d : Bytes} {endpos : Nat}
    (hFind : indexOfSub (EOL ++ EOL) d = some endpos) :
    EOL.intercalate (pieces EOL (d.take endpos)) = d.take endpos ∧
      [] ∉ (pieces EOL (d.take endpos)).tail := by
  -- no part of the buffer that ends before the empty line does holds one
  have hNone : ∀ k < endpos + 4, ¬ EOL ++ EOL <:+: d.take k := fun k hk =>
    indexOfSub_eq_none_iff.mp (indexOfSub_take (by decide) hFind hk)
  obtain ⟨rest, hRest⟩ := indexOfSub_occurs hFind
  rcases intercalate_pieces (show EOL ≠ [] by decide) (d.take endpos) with
    ⟨hJoin, hLast⟩ | ⟨-, hJoin⟩
  · refine ⟨hJoin, fun hEmpty => hNone endpos (by omega) ?_⟩
    have hInfix : EOL ++ EOL <:+: EOL.intercalate _ := infix_intercalate hEmpty hLast
    rwa [hJoin] at hInfix
  · -- a line end in front of the empty line would end the block earlier
    refine absurd ?_ (hNone (endpos + 2) (by omega))
    have hTake : d.take (endpos + 2) = d.take endpos ++ EOL := by
      rw [List.take_add, ← hRest]
      rfl
    rw [hTake, ← hJoin, List.append_assoc]
    exact (List.suffix_append _ _).isInfix

/-- A buffer with an empty line behind a line that is not blank is a request. -/
theorem exists_of_complete {d : Bytes} {endpos : Nat}
    (hFind : indexOfSub (EOL ++ EOL) d = some endpos)
    (hLine : (pieces EOL (d.take endpos)).dropWhile blank ≠ []) : ∃ R : Request, R.bytes = d := by
  obtain ⟨rest, hRest⟩ := indexOfSub_occurs hFind
  obtain ⟨hJoin, hSome⟩ := join_pieces_block hFind
  generalize hLines : pieces EOL (d.take endpos) = lines at hJoin hSome hLine
  obtain ⟨line, fields, hBehind⟩ := List.exists_cons_of_ne_nil hLine
  have hSplit : lines.takeWhile blank ++ line :: fields = lines := by
    rw [← hBehind, List.takeWhile_append_dropWhile]
  have hHead : blank line = false := by
    have hFirst := List.head_dropWhile_not blank hLine
    simpa only [hBehind, List.head_cons] using hFirst
  have hBlanks : ∀ l ∈ lines.takeWhile blank, blank l = true := fun l hl =>
    List.mem_takeWhile_imp hl
  generalize lines.takeWhile blank = blanks at hSplit hBlanks
  subst hSplit
  refine ⟨⟨blanks, line, fields, rest, hBlanks, hHead, ?_, ?_, ?_⟩, ?_⟩
  · rw [← hLines]
    exact not_infix_of_mem_pieces (by decide) _
  · cases blanks with
    | nil => exact List.not_mem_nil
    | cons l ls => exact fun hMem => hSome (List.mem_append_left _ hMem)
  · cases blanks with
    | nil => exact hSome
    | cons l ls =>
        exact fun hMem => hSome (List.mem_append_right _ (List.mem_cons_of_mem _ hMem))
  · show EOL.intercalate (blanks ++ line :: fields) ++ (EOL ++ EOL ++ rest) = d
    rw [hJoin, hRest, List.take_append_drop]

end Request

end WebSocketFiles
