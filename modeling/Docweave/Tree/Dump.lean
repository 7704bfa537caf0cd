import Docweave.Text.Quoted
import Docweave.Tree.Basic

set_option autoImplicit false

/-! # Dump of a tree

A dump shows every field of every element on a line of its own, indented by four spaces for each
level, for reading by eye. -/

namespace Docweave.Dump

open Docweave.Text

/-- Lines one level deeper. -/
def indent (lines : List String) : List String := lines.map ("    " ++ ·)

/-- Lines between an opening and a closing line. -/
def enclosed (opening closing : String) (lines : List String) : List String :=
  opening :: indent lines ++ [closing]

/-- The last line followed by a comma. -/
def withComma : List String → List String
  | [] => []
  | [line] => [line ++ ","]
  | line :: rest => line :: withComma rest

/-- A value after its label, and a comma. -/
def field (label : String) (value : List String) : List String :=
  withComma <| match value with
    | [] => []
    | line :: rest => (label ++ ": " ++ line) :: rest

/-- A record of labelled values. -/
def record (name : String) (fields : List (List String)) : List String :=
  enclosed (name ++ " \x7b") "\x7d" fields.flatten

/-- A list of values, one after the other. -/
def list (items : List (List String)) : List String :=
  if items.isEmpty then ["[]"] else enclosed "[" "]" (items.flatMap withComma)

/-- A text in quotes. -/
def text (s : String) : List String := [quoted s]

/-- A text that may be absent. -/
def optional : Option String → List String
  | none => ["None"]
  | some s => enclosed "Some(" ")" (withComma (text s))

/-- The fields of a name. -/
def ofName (name : QName) : List String :=
  record "QName"
    [field "namespace" (optional name.uri), field "prefix" (optional name.tagPrefix),
      field "local" (text name.localPart)]

/-- The fields of an attribute. -/
def ofAttribute (a : Attribute) : List String :=
  record "Attribute" [field "name" (text a.name), field "value" (text a.value)]

mutual

/-- The fields of an element. -/
def ofElement : Element → List String
  | ⟨name, attributes, content, tail, children⟩ =>
    record "Element"
      [field "name" (ofName name), field "attributes" (list (attributes.map ofAttribute)),
        field "text" (optional content), field "tail" (optional tail),
        field "children" (list (ofElements children))]

/-- The dumps of elements one by one. -/
def ofElements : List Element → List (List String)
  | [] => []
  | e :: rest => ofElement e :: ofElements rest

end

end Docweave.Dump

/-- The dump of an element and everything below it. -/
def Docweave.Element.dump (e : Docweave.Element) : String :=
  "\n".intercalate (Docweave.Dump.ofElement e)
