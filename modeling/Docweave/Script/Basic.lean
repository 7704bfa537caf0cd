import Docweave.Path.Basic
import Docweave.Text.Position

set_option autoImplicit false

/-! # Scripts

A script is a list of statements that are carried out one after the other on a tree. The children of
the root are the records; besides changing them a script can emit text. -/

namespace Docweave

open Docweave.Text

/-- A condition on a record. -/
inductive Condition where
  /-- The path finds something. -/
  | found (path : ElementPath)
  /-- The first element that the path finds has the text. -/
  | equals (path : ElementPath) (value : String)
  /-- The first element that the path finds has the text somewhere in its own. -/
  | contains (path : ElementPath) (value : String)
deriving DecidableEq, Repr

/-- What a statement does. -/
inductive Command where
  /-- Adds a record at the end. -/
  | append (record : Element)
  /-- Sorts the records by a key. -/
  | sort (key : String) (descending : Bool)
  /-- Turns the order of the records around. -/
  | reverse
  /-- Keeps the records that meet a condition. -/
  | keep (condition : Condition)
  /-- Drops the records that meet a condition. -/
  | drop (condition : Condition)
  /-- Keeps the first records. -/
  | limit (count : Nat)
  /-- Drops the first records. -/
  | skip (count : Nat)
  /-- Sets the text of the first child of each record that has a tag, or adds such a child. -/
  | setText (tag value : String)
  /-- Sets an attribute of each record. -/
  | setAttr (name value : String)
  /-- Removes the children of each record that have a tag. -/
  | remove (tag : String)
  /-- Emits a text with placeholders. -/
  | emit (template : String)
  /-- Emits the first text that a path finds in each record. -/
  | print (path : ElementPath)
  /-- Fails unless the path finds something in every record. -/
  | require (path : ElementPath)
deriving BEq, Repr

/-- A command and where it stands in the text of the script. -/
structure Statement where
  /-- What is to be done. -/
  command : Command
  /-- The bytes that the statement takes in the text. -/
  span : Span
deriving BEq, Repr

/-- A script. -/
structure Script where
  /-- The statements in order. -/
  statements : List Statement
deriving BEq, Repr

/-- The script does nothing. -/
def Script.isEmpty (script : Script) : Bool := script.statements.isEmpty

end Docweave
