import Docweave.Xml.Scan

set_option autoImplicit false

/-! # Namespaces

Prefixes are declared on start tags and hold for the element and everything below it. Within an
element the declarations are kept in one list, its own before those of the elements around it, so
that the nearest declaration of a prefix comes first. -/

namespace Docweave.Xml

/-- The namespace of the prefix `xml`. -/
def xmlUri : String := "http://www.w3.org/XML/1998/namespace"

/-- The namespace of the declarations themselves. -/
def xmlnsUri : String := "http://www.w3.org/2000/xmlns/"

/-- A prefix, or the default for names without one, together with the namespace it stands for. -/
structure Binding where
  /-- The prefix; none for the default namespace. -/
  lead : Option String
  /-- The URI of the namespace. -/
  uri : String
deriving DecidableEq, Repr

/-- The declarations that hold at an element, nearest first. -/
abbrev Scope := List Binding

namespace Scope

/-- The namespace that a prefix stands for. -/
def uriOf? (scope : Scope) (lead : Option String) : Option String :=
  (scope.find? (·.lead == lead)).map (·.uri)

/-- The prefix is declared. -/
def declares (scope : Scope) (lead : Option String) : Bool := scope.any (·.lead == lead)

/-- The declarations at an element with `own` declarations inside `outer`: those of the outer
scope that are declared anew are left out. An element that declares nothing keeps the outer scope. -/
def inside (own outer : Scope) : Scope :=
  if own.isEmpty then outer
  else outer.foldl (fun scope b => if declares scope b.lead then scope else scope ++ [b]) own

/-- The prefix of the nearest declaration of a namespace. The default namespace has none. -/
def leadOf? (scope : Scope) (uri : String) : Option String :=
  if uri = xmlUri then some "xml" else (scope.find? (·.uri == uri)).bind (·.lead)

end Scope

end Docweave.Xml
