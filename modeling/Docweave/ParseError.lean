import Docweave.Script.Parser
import Docweave.Text.Newline

set_option autoImplicit false

/-! # Parse errors

What is wrong with a document or a script, which bytes of which text it concerns, and how it is
worded. -/

namespace Docweave

open Docweave.Text

/-- What a parse error is about. -/
inductive ParseProblem where
  /-- A document. -/
  | document (error : Xml.Error)
  /-- A script. -/
  | script (problem : ScriptProblem)
deriving DecidableEq, Repr

/-- A problem in one of the texts at hand. -/
structure ParseError where
  /-- What is wrong. -/
  problem : ParseProblem
  /-- The bytes that it concerns. -/
  span : Span
  /-- The number of the text. -/
  file : Nat
deriving DecidableEq, Repr

namespace ParseError

/-- The wording of the error. -/
def message (e : ParseError) : String :=
  match e.problem with
  | .document error => error.message
  | .script problem => problem.message

/-- The notes that go with the error. -/
def notes (e : ParseError) : List String :=
  match e.problem with
  | .document _ => []
  | .script problem => problem.notes

end ParseError

/-- The element tree that the text number `file` writes. -/
def Element.parse (file : Nat) (source : String) : Except ParseError Element :=
  (Xml.parse source.toList).mapError fun e => ⟨.document e, .point e.offset, file⟩

/-- The script that the text number `file` writes. -/
def Script.parseText (file : Nat) (source : List Char) : Except ParseError Script :=
  (Script.parse source).mapError fun fault => ⟨.script fault.problem, fault.span, file⟩

end Docweave
