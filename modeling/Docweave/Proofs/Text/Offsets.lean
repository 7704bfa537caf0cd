import Docweave.Text.Position

set_option autoImplicit false

/-! # Offsets between characters

Places in a text are told by offsets in bytes. An offset that lies between two characters, or at an end
of the text, is a boundary: a text can be cut there. The offset of a row and a column is always one, also
when the text has no such row or column (`isBoundary_byteOffset`). -/

namespace Docweave.Text

/-- The offset does not lie inside a character, and not beyond the end of the text. -/
def IsBoundary (s : List Char) (offset : Nat) : Prop :=
  ∃ before after, s = before ++ after ∧ offset = byteLength before

/-- The bytes of the range are the text `part`. -/
def Span.Cuts (span : Span) (s part : List Char) : Prop :=
  ∃ before after, s = before ++ (part ++ after) ∧
    span = ⟨byteLength before, byteLength before + byteLength part⟩

theorem byteLength_pos {s : List Char} (h : s ≠ []) : 0 < byteLength s := by
  cases s with
  | nil => exact absurd rfl h
  | cons c rest =>
    have hc := c.utf8Size_pos
    simp only [byteLength_cons]
    omega

theorem IsBoundary.le {s : List Char} {offset : Nat} (h : IsBoundary s offset) :
    offset ≤ byteLength s := by
  obtain ⟨before, after, rfl, rfl⟩ := h
  simp

/-- A boundary of a part is one of the whole text. -/
theorem IsBoundary.within {part : List Char} {offset : Nat} (h : IsBoundary part offset)
    (before after : List Char) :
    IsBoundary (before ++ (part ++ after)) (byteLength before + offset) := by
  obtain ⟨front, back, rfl, rfl⟩ := h
  exact ⟨before ++ front, back ++ after, by simp, by simp⟩

section Cuts

variable {span : Span} {s part : List Char} (h : span.Cuts s part)

include h

theorem Span.Cuts.isBoundary_start : IsBoundary s span.start := by
  obtain ⟨before, after, rfl, rfl⟩ := h
  exact ⟨before, part ++ after, rfl, rfl⟩

theorem Span.Cuts.isBoundary_stop : IsBoundary s span.stop := by
  obtain ⟨before, after, rfl, rfl⟩ := h
  exact ⟨before ++ part, after, by simp, by simp⟩

/-- A text with characters takes bytes. -/
theorem Span.Cuts.start_lt_stop (hne : part ≠ []) : span.start < span.stop := by
  obtain ⟨before, after, rfl, rfl⟩ := h
  have hpos := byteLength_pos hne
  simp only
  omega

end Cuts

/-- Some more characters after the start of a text end at a boundary. -/
theorem isBoundary_take_drop {before s : List Char} (h : before <+: s) (count : Nat) :
    IsBoundary s (byteLength before + byteLength ((s.drop before.length).take count)) := by
  obtain ⟨rest, rfl⟩ := h
  rw [List.drop_left]
  exact ⟨before ++ rest.take count, rest.drop count, by simp, by simp⟩

/-- A row and a column give the bytes of the rows before it and of the characters before it in its
row. -/
theorem isBoundary_byteOffset (s : List Char) (place : RowCol) : IsBoundary s (byteOffset s place) := by
  have hrows : ((splitLines s).take (place.row - 1)).flatten <+: s := by
    refine ⟨((splitLines s).drop (place.row - 1)).flatten, ?_⟩
    rw [← List.flatten_append, List.take_append_drop, flatten_splitLines]
  have hplace := isBoundary_take_drop hrows (place.col - 1)
  unfold byteOffset
  simp only
  rw [Nat.min_eq_left hplace.le]
  exact hplace

end Docweave.Text
