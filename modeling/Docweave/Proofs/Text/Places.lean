import Docweave.Proofs.Text.Lines

set_option autoImplicit false

/-! # Rows and columns as offsets

The row and column of a boundary lead back to it (`byteOffset_after`): as many lines as there are line
feeds before it make up the rows in front of its own, and its column counts the characters of its row. -/

namespace Docweave.Text

/-- As many lines as a text has line feeds are the text without the row that it ends in, whatever
follows it. -/
theorem flatten_take_splitLines (before after : List Char) :
    ((splitLines (before ++ after)).take (before.count '\n')).flatten =
      dropEndWhile (· ≠ '\n') before := by
  induction before using lines_induction with
  | last line hline =>
    -- no line is taken, and all that there is belongs to the row
    have hall : ∀ c ∈ line, decide (c ≠ '\n') = true :=
      fun c hc => decide_eq_true fun h : c = '\n' => hline (h ▸ hc)
    have hrow : dropEndWhile (· ≠ '\n') ([] ++ line) = [] := dropEndWhile_append_of_pos hall []
    rw [List.count_eq_zero.2 hline, List.take_zero, List.flatten_nil]
    exact hrow.symm
  | more line rest hline ih =>
    have hcount : (line ++ '\n' :: rest).count '\n' = rest.count '\n' + 1 := by
      rw [List.count_append, List.count_eq_zero.2 hline, List.count_cons_self, Nat.zero_add]
    rw [hcount, List.append_assoc, List.cons_append, splitLines_line hline, List.take_succ_cons,
      List.flatten_cons, ih, dropEndWhile_append_cons (by decide), List.append_assoc,
      List.singleton_append]

/-- The offset of a place that the text has: the bytes of the rows before it and those of the
characters before it in its row. -/
theorem byteOffset_eq {s rows row after : List Char} {place : RowCol}
    (hs : s = rows ++ (row ++ after))
    (hrows : ((splitLines s).take (place.row - 1)).flatten = rows)
    (hcol : place.col - 1 = row.length) :
    byteOffset s place = byteLength rows + byteLength row := by
  have hrow : (s.drop rows.length).take row.length = row := by
    rw [hs, List.drop_left, List.take_left]
  have hle : byteLength rows + byteLength row ≤ byteLength s := by
    rw [hs, byteLength_append, byteLength_append]
    omega
  unfold byteOffset
  simp only [hrows, hcol, hrow]
  exact Nat.min_eq_left hle

/-- The row and column reached after a text lead to its end, whatever follows it. -/
theorem byteOffset_after (before after : List Char) :
    byteOffset (before ++ after) (RowCol.after before) = byteLength before := by
  have hcut := dropEndWhile_append_takeWhile (· ≠ '\n') before
  have hs : before ++ after = dropEndWhile (· ≠ '\n') before ++
      ((before.reverse.takeWhile (· ≠ '\n')).reverse ++ after) := by
    rw [← List.append_assoc, hcut]
  have hrows : ((splitLines (before ++ after)).take ((RowCol.after before).row - 1)).flatten =
      dropEndWhile (· ≠ '\n') before := flatten_take_splitLines before after
  have hcol : (RowCol.after before).col - 1 = (before.reverse.takeWhile (· ≠ '\n')).reverse.length := by
    rw [List.length_reverse]
    rfl
  rw [byteOffset_eq hs hrows hcol, ← byteLength_append, hcut]

/-- Each boundary of a text is the offset of its own row and column. Any other row and column, whether
the text has it or not, still gives a boundary, never one beyond the end. -/
theorem byteOffset_boundaries :
    (∀ before after : List Char,
        byteOffset (before ++ after) (RowCol.after before) = byteLength before) ∧
      ∀ (s : List Char) (place : RowCol),
        IsBoundary s (byteOffset s place) ∧ byteOffset s place ≤ byteLength s := by
  refine ⟨byteOffset_after, fun s place => ?_⟩
  have hboundary := isBoundary_byteOffset s place
  exact ⟨hboundary, hboundary.le⟩

/-- Behind an empty line, and in a row that the text does not have. -/
example : byteOffset ['é', '\n', '\n', 'x', 'y'] ⟨3, 2⟩ = 5 ∧ byteOffset ['é', '\n'] ⟨9, 4⟩ = 3 := by
  decide

end Docweave.Text
