import Docweave.Text.Search

set_option autoImplicit false

/-! # Places in a text

A place is an offset in bytes of the UTF-8 form, or a row and a column, both counted from one and the
column in characters. -/

namespace Docweave.Text

/-- The length of a text in bytes. -/
def byteLength (s : List Char) : Nat := s.foldr (fun c length => c.utf8Size + length) 0

@[simp] theorem byteLength_nil : byteLength [] = 0 := rfl

@[simp] theorem byteLength_cons (c : Char) (s : List Char) :
    byteLength (c :: s) = c.utf8Size + byteLength s := rfl

@[simp] theorem byteLength_append (s t : List Char) :
    byteLength (s ++ t) = byteLength s + byteLength t := by
  induction s with
  | nil => rw [List.nil_append, byteLength_nil, Nat.zero_add]
  | cons c s ih => rw [List.cons_append, byteLength_cons, byteLength_cons, ih, Nat.add_assoc]

/-- A range of bytes: from `start` up to and without `stop`. -/
structure Span where
  /-- Where the range starts. -/
  start : Nat
  /-- Where it ends. -/
  stop : Nat
deriving DecidableEq, Repr

/-- The empty range at an offset. -/
def Span.point (offset : Nat) : Span := ⟨offset, offset⟩

/-- A row and a column. -/
structure RowCol where
  /-- The row, counted from one. -/
  row : Nat
  /-- The column, counted from one in characters. -/
  col : Nat
deriving DecidableEq, Repr

/-- The row and column reached after `passed`. -/
def RowCol.after (passed : List Char) : RowCol where
  row := passed.count '\n' + 1
  col := (passed.reverse.takeWhile (· ≠ '\n')).length + 1

/-- The byte offset of a row and column. A row beyond the last is the end of the text, and a column
counts on over the end of its row. -/
def byteOffset (s : List Char) (place : RowCol) : Nat :=
  let skipped := ((splitLines s).take (place.row - 1)).flatten
  let within := (s.drop skipped.length).take (place.col - 1)
  min (byteLength skipped + byteLength within) (byteLength s)

end Docweave.Text
