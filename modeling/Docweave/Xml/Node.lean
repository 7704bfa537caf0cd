import Docweave.Xml.Tag

set_option autoImplicit false

/-! # Documents as trees of nodes

What the reader makes of a document: elements with resolved names, character data, comments and
processing instructions, in the order in which they were written. -/

namespace Docweave.Xml

/-- A local name in a namespace, or in none. -/
structure ExpandedName where
  /-- The URI of the namespace. -/
  uri : Option String
  /-- The local part. -/
  localPart : String
deriving DecidableEq, Repr

/-- An attribute with its name resolved. -/
structure NodeAttribute where
  /-- The name of the attribute. -/
  name : ExpandedName
  /-- The value. -/
  value : String
deriving DecidableEq, Repr

/-- What a start tag says of an element. -/
structure ElementHead where
  /-- The name of the element. -/
  name : ExpandedName
  /-- The attributes in document order. -/
  attributes : List NodeAttribute
  /-- The declarations that hold at the element. -/
  scope : Scope
deriving DecidableEq, Repr

/-- A node of a document. -/
inductive Node where
  /-- An element and what it holds. -/
  | element (head : ElementHead) (content : List Node)
  /-- Character data. -/
  | text (data : String)
  /-- A comment. -/
  | comment (data : String)
  /-- A processing instruction: its target and the rest of it. -/
  | instruction (target data : String)

/-! ## Resolving a start tag -/

/-- The namespace of an attribute. One without a prefix is in no namespace. -/
def attributeUri (scope : Scope) (a : TagAttribute) : Except Fault (Option String) :=
  if a.name.lead.isEmpty then .ok none
  else if a.name.lead = "xml" then .ok (some xmlUri)
  else match scope.uriOf? (some a.name.lead) with
    | some uri => .ok (some uri)
    | none => stopAt (.unknownPrefix a.name.lead) a.start

/-- The attributes of a tag after those already `resolved`. No two may have the same resolved
name. -/
def resolveAttributes (scope : Scope) (resolved : List NodeAttribute) :
    List TagAttribute → Except Fault (List NodeAttribute)
  | [] => .ok resolved
  | a :: rest =>
    match attributeUri scope a with
    | .error e => .error e
    | .ok uri =>
      let name : ExpandedName := ⟨uri, a.name.base⟩
      if resolved.any (·.name == name) then stopAt (.repeatedAttribute a.name.base) a.start
      else resolveAttributes scope (resolved ++ [⟨name, a.value⟩]) rest

/-- The namespace of an element. One without a prefix is in the default namespace. -/
def elementUri (scope : Scope) (tag : StartTag) : Except Fault (Option String) :=
  if tag.name.lead.isEmpty then .ok (scope.uriOf? none)
  else match scope.uriOf? (some tag.name.lead) with
    | some uri => .ok (some uri)
    | none => stopAt (.unknownPrefix tag.name.lead) tag.start

/-- The head of the element that a tag starts inside `outer`: its attributes are resolved first, its
own name last. -/
def StartTag.resolve (tag : StartTag) (outer : Scope) : Except Fault ElementHead := do
  let scope := Scope.inside tag.declared outer
  let attributes ← resolveAttributes scope [] tag.attributes
  let uri ← elementUri scope tag
  return ⟨⟨uri, tag.name.base⟩, attributes, scope⟩

end Docweave.Xml
