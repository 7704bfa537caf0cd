import Docweave.Tree.Basic
import Docweave.Xml.Document

set_option autoImplicit false

/-! # The element tree of a document

The element tree keeps elements, attributes and character data. Comments and processing instructions
are left out, so that the character data on either side of one becomes one text. Names are shown with
the prefix that the nearest declaration of their namespace gives. -/

namespace Docweave.Xml

open Docweave.Text

/-- The name of an element where the declarations of `scope` hold. -/
def elementName (scope : Scope) (name : ExpandedName) : QName :=
  match name.uri with
  | some uri => ⟨some uri, scope.leadOf? uri, name.localPart⟩
  | none => .plain name.localPart

/-- The name of an attribute where the declarations of `scope` hold. A namespace that only the
default declaration gives is written out in braces. -/
def attributeName (scope : Scope) (name : ExpandedName) : String :=
  match name.uri with
  | some uri =>
    match scope.leadOf? uri with
    | some lead => lead ++ ":" ++ name.localPart
    | none => "\x7b" ++ uri ++ "\x7d" ++ name.localPart
  | none => name.localPart

/-- The attributes that a start tag gives. -/
def ElementHead.attributeList (head : ElementHead) : List Attribute :=
  head.attributes.map fun a => ⟨attributeName head.scope a.name, a.value⟩

/-- What an element holds: the text before the first child, and the children with their tails. -/
structure Inside where
  /-- The text before the first child. -/
  text : Option String
  /-- The children. -/
  children : List Element

mutual

/-- What a node and the nodes after it make. The text that follows an element becomes its tail. -/
def Node.before (after : Inside) : Node → Inside
  | .element head content =>
    let inside := insideOf content
    ⟨none,
      ⟨elementName head.scope head.name, head.attributeList, inside.text, after.text,
        inside.children⟩ :: after.children⟩
  | .text data => ⟨some (data ++ after.text.getD ""), after.children⟩
  | .comment _ => after
  | .instruction _ _ => after

/-- What nodes in a row make. -/
def insideOf : List Node → Inside
  | [] => ⟨none, []⟩
  | node :: rest => node.before (insideOf rest)

end

/-- The tree of the root of a document. -/
def Document.toElement (document : Document) : Element :=
  let inside := insideOf document.content
  ⟨elementName document.head.scope document.head.name, document.head.attributeList, inside.text,
    none, inside.children⟩

/-! ## From text to tree -/

/-- Why a text gives no element tree, and where. -/
structure Error where
  /-- What is wrong. -/
  problem : Problem
  /-- The row and column of the problem. -/
  place : RowCol
  /-- The byte offset of that place. -/
  offset : Nat
deriving DecidableEq, Repr

/-- The wording of an error. -/
def Error.message (e : Error) : String := "malformed XML: " ++ e.problem.message e.place

/-- The element tree that a text writes. -/
def parse (s : List Char) : Except Error Element :=
  match readDocument s with
  | .ok document => .ok document.toElement
  | .error fault =>
    let place := fault.place s
    .error ⟨fault.problem, place, byteOffset s place⟩

end Docweave.Xml
