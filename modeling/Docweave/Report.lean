import Docweave.ParseError
import Docweave.Text.Width

set_option autoImplicit false

/-! # Reports of parse errors

A report shows a parse error together with the line that it concerns: the line under its number, and
carets under the characters that are meant. On a terminal with colors its parts are set off by them. -/

namespace Docweave.Report

open Docweave.Text

/-! ## The line of an error -/

/-- The characters that lie within the first bytes of a text. -/
def withinBytes : Nat → List Char → List Char
  | _, [] => []
  | bytes, c :: rest =>
    if c.utf8Size ≤ bytes then c :: withinBytes (bytes - c.utf8Size) rest else []

/-- The character ends a line, or fills up its end. -/
def isLineFiller (c : Char) : Bool := c == '\n' || c == '\r' || c == '\x00'

/-- A place in a text with the line around it. -/
structure Excerpt where
  /-- The row and column of the place. -/
  place : RowCol
  /-- The bytes before the line. -/
  start : Nat
  /-- The line without its end. -/
  line : List Char

/-- The line around a byte offset. -/
def excerptAt (text : List Char) (offset : Nat) : Excerpt :=
  let passed := withinBytes offset text
  let place := RowCol.after passed
  -- The characters of the line that come before the place are one fewer than its column.
  let above := passed.take (passed.length - (place.col - 1))
  let line := (text.drop above.length).takeWhile (· ≠ '\n')
  ⟨place, byteLength above, dropEndWhile isLineFiller line⟩

/-! ## Characters as they are shown -/

/-- A character of a line. -/
structure Cell where
  /-- The character. -/
  char : Char
  /-- The bytes before it in its line. -/
  start : Nat
  /-- The columns that it takes. -/
  width : Nat

/-- A tab goes on to the next multiple of this column. -/
def tabStop : Nat := 4

/-- The characters of a line from a byte and a column on. -/
def cellsFrom (start column : Nat) : List Char → List Cell
  | [] => []
  | c :: rest =>
    let width := if c = '\t' then tabStop - column % tabStop else columns c
    ⟨c, start, width⟩ :: cellsFrom (start + c.utf8Size) (column + width) rest

namespace Cell

/-- The character for display; a tab becomes spaces. -/
def shown (cell : Cell) : List Char :=
  if cell.char = '\t' then List.replicate cell.width ' ' else [cell.char]

/-- The character is one of those meant, when some bytes of its line are. -/
def isMeant (span : Span) (cell : Cell) : Bool :=
  span.start < cell.start + cell.char.utf8Size && cell.start < span.stop

/-- What stands under the character when some bytes of its line are meant: carets, spaces before
the last of them, and nothing after it. -/
def mark (span : Span) (cell : Cell) : List Char :=
  if cell.isMeant span then List.replicate cell.width '^'
  else if cell.start < span.stop then List.replicate cell.width ' '
  else []

end Cell

/-- The characters of a line and the place at its end, where one more could stand. -/
def cellsAndEnd (line : List Char) : List Cell :=
  cellsFrom 0 0 line ++ [⟨'\x00', byteLength line, 1⟩]

/-! ## Colors -/

/-- A way to set off a part of a report. -/
inductive Ink where
  /-- For the word that says what is reported. -/
  | verdict
  /-- For the message. -/
  | message
  /-- For numbers of lines and what is drawn around them. -/
  | frame
  /-- For what is meant. -/
  | meant
deriving DecidableEq, Repr

namespace Ink

/-- What sets a terminal back to plain text. -/
def plain : String := "\x1b[0m"

/-- What makes a terminal use the ink, whatever it used before. -/
def code : Ink → String
  | verdict => plain ++ "\x1b[1m\x1b[38;5;9m"
  | message => plain ++ "\x1b[1m"
  | frame => plain ++ "\x1b[36m"
  | meant => plain ++ "\x1b[31m"

/-- Text in an ink, if colors are shown. -/
def write (ink : Ink) (colored : Bool) (text : String) : String :=
  if colored then ink.code ++ text ++ plain else text

end Ink

/-- Something for each character of a line, one after the other. What belongs to the characters that are
meant is set off. -/
def besideCells (colored : Bool) (span : Span) (give : Cell → List Char) (cells : List Cell) :
    String :=
  let all (cells : List Cell) : String := .ofList (cells.flatMap give)
  let before := cells.takeWhile fun cell => !cell.isMeant span
  let rest := cells.drop before.length
  match rest.takeWhile (Cell.isMeant span) with
  | [] => all cells
  | meant => all before ++ Ink.meant.write colored (all meant) ++ all (rest.drop meant.length)

end Docweave.Report

/-! ## The report -/

/-- The lines of the report of an error in a text of the given name. -/
def Docweave.ParseError.report (e : Docweave.ParseError) (colored : Bool) (name : String)
    (text : List Char) : List String :=
  let frame := Docweave.Report.Ink.frame.write colored
  let excerpt := Docweave.Report.excerptAt text e.span.start
  let first := e.span.start - excerpt.start
  let span : Docweave.Text.Span := ⟨first, max (e.span.stop - excerpt.start) (first + 1)⟩
  let row := toString excerpt.place.row
  let margin := "".pushn ' ' row.length ++ " "
  let verdict := if colored then Docweave.Report.Ink.verdict.code ++ "error" else "error"
  let shown := Docweave.Report.besideCells colored span Docweave.Report.Cell.shown
    (Docweave.Report.cellsFrom 0 0 excerpt.line)
  let carets := Docweave.Report.besideCells colored span (Docweave.Report.Cell.mark span)
    (Docweave.Report.cellsAndEnd excerpt.line)
  [verdict ++ Docweave.Report.Ink.message.write colored (": " ++ e.message),
    margin ++ frame "┌─" ++ " " ++ name ++ ":" ++ row ++ ":" ++ toString excerpt.place.col,
    margin ++ frame "│",
    frame row ++ " " ++ frame "│" ++ " " ++ shown,
    margin ++ frame "│" ++ " " ++ carets] ++
    (if e.notes.isEmpty then [] else [margin ++ frame "│"]) ++
    e.notes.map (fun note => margin ++ frame "=" ++ " " ++ note) ++ [""]
