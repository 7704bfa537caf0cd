import Docweave.Tree.Basic

set_option autoImplicit false

/-! # Places in a tree

A node of a tree is named by the child positions that lead to it from the root. -/

namespace Docweave

/-- The positions, counted from zero, that lead from the root to a node. -/
abbrev Location := List Nat

/-- A location as it is shown: a dot for the root, else each position after a slash. -/
def Location.display (place : Location) : String :=
  if place.isEmpty then "." else String.join (place.map fun i => "/" ++ toString i)

/-- An element together with its place below the root of its tree. -/
structure Located where
  /-- The positions that lead to the element, the last of them first. -/
  ascent : List Nat
  /-- The element itself. -/
  element : Element

/-- Elements that are children of the node at the end of `ascent`, the first of them at position
`first`. -/
def locateChildren (ascent : List Nat) : Nat → List Element → List Located
  | _, [] => []
  | first, e :: rest => ⟨first :: ascent, e⟩ :: locateChildren ascent (first + 1) rest

namespace Located

/-- The root of a tree. -/
def root (e : Element) : Located := ⟨[], e⟩

/-- Where the node stands. -/
def place (node : Located) : Location := node.ascent.reverse

/-- The children of a node. -/
def children (node : Located) : List Located := locateChildren node.ascent 0 node.element.children

end Located

namespace Element

mutual

/-- The children of an element at the end of `ascent`, then those of each child in turn: one list for
each parent, in the order in which a walk meets the parents. -/
def childGroups (ascent : List Nat) : Element → List (List Located)
  | ⟨_, _, _, _, children⟩ => locateChildren ascent 0 children :: childGroupsAll ascent 0 children

/-- The groups below elements that are children of the node at the end of `ascent`. -/
def childGroupsAll (ascent : List Nat) : Nat → List Element → List (List Located)
  | _, [] => []
  | first, e :: rest => childGroups (first :: ascent) e ++ childGroupsAll ascent (first + 1) rest

end

/-- The element at a place below this one. -/
def at? (e : Element) : Location → Option Element
  | [] => some e
  | i :: rest => e.children[i]?.bind (·.at? rest)

/-- The tree with the element at a place replaced by its image, or nothing if there is no such
place. -/
def modifyAt? (f : Element → Element) (e : Element) : Location → Option Element
  | [] => some (f e)
  | i :: rest => do
    let child ← e.children[i]?
    let changed ← modifyAt? f child rest
    some { e with children := e.children.set i changed }

end Element

end Docweave
