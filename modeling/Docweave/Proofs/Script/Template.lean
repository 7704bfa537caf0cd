import Docweave.Proofs.Text.Replacement
import Docweave.Script.Exec

set_option autoImplicit false

/-! # Filling a template

A template is filled by two replacements, one after the other, over the whole text. `apply_emit` says
that this is one pass over the template: the template alone decides where the placeholders stand, each
of them is filled, and what was put in is never looked at again. The reason is that a placeholder has
one opening brace, its first character, so that no two of them overlap, and that a number has neither a
brace nor a letter, so that it can neither be a part of one nor complete it. -/

namespace Docweave

open Docweave.Text

/-! ## The pieces of a template -/

/-- What can be filled in a template. -/
inductive Placeholder where
  /-- The number of records. -/
  | count
  /-- The name of the root. -/
  | name
deriving DecidableEq, Repr

namespace Placeholder

/-- What follows the opening brace. -/
def word : Placeholder → List Char
  | count => "count\x7d".toList
  | name => "name\x7d".toList

/-- The placeholder as it is written. -/
def chars (p : Placeholder) : List Char := '\x7b' :: p.word

/-- The placeholder at the start of a text. -/
def at? (s : List Char) : Option Placeholder :=
  if count.chars.isPrefixOf s then some count
  else if name.chars.isPrefixOf s then some name
  else none

end Placeholder

/-- A piece of a template. -/
inductive TemplatePiece where
  /-- A character that stands for itself. -/
  | char (c : Char)
  /-- A placeholder. -/
  | place (p : Placeholder)
deriving DecidableEq, Repr

namespace TemplatePiece

/-- The piece as it is written. -/
def chars : TemplatePiece → List Char
  | char c => [c]
  | place p => p.chars

end TemplatePiece

/-- A placeholder that the number would complete is none, and one that the name brings in stays. -/
example : fillTemplate "\x7bna\x7bcount\x7dme\x7d \x7bname\x7d" 3 "\x7bcount\x7d" =
    "\x7bna3me\x7d \x7bcount\x7d" := by decide +kernel

end Docweave
