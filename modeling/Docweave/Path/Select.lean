import Docweave.Path.Basic

set_option autoImplicit false

/-! # Following a path

A step takes the nodes it starts from to groups of nodes that share a parent; no parent has two groups.
The predicates then thin out every group on its own, so that a position counts among the nodes that
the predicates before it have kept. -/

namespace Docweave

namespace Predicate

/-- What a predicate says of a node by itself; a position says nothing. -/
def holds (e : Element) : Predicate → Bool
  | hasAttr name => (e.attr? name).isSome
  | attrEquals name value => e.attr? name == some value
  | hasChild test => e.children.any fun c => test.accepts c.name
  | childEquals test value => e.children.any fun c => test.accepts c.name && c.textOrEmpty == value
  | position _ | fromLast _ => true

/-- The nodes of a group that a predicate keeps. -/
def filter (group : List Located) : Predicate → List Located
  | position n => if n = 0 then [] else group[n - 1]?.toList
  | fromLast offset =>
    if offset < group.length then group[group.length - offset - 1]?.toList else []
  | predicate => group.filter fun node => predicate.holds node.element

end Predicate

/-- Nodes without those that stand below an earlier one, or where it stands; `seen` holds the places
of the earlier ones. -/
def outermost (seen : List Location) : List Located → List Located
  | [] => []
  | node :: rest =>
    let place := node.place
    if seen.any (·.isPrefixOf place) then outermost seen rest
    else node :: outermost (place :: seen) rest

/-- The groups that an axis leads to from some nodes. A walk from a node below an earlier one would
only meet parents that were met before. -/
def Axis.groups (nodes : List Located) : Axis → List (List Located)
  | itself => nodes.map fun node => [node]
  | child => nodes.map (·.children)
  | descendant => (outermost [] nodes).flatMap fun node => node.element.childGroups node.ascent

namespace Step

/-- The groups that a step finds from some nodes, before its predicates. -/
def groups (step : Step) (nodes : List Located) : List (List Located) :=
  (step.axis.groups nodes).map fun group => group.filter fun n => step.test.accepts n.element.name

/-- The nodes that a step finds from the nodes it starts from. -/
def select (step : Step) (nodes : List Located) : List Located :=
  let found := step.predicates.foldl (fun groups p => groups.map (p.filter ·)) (step.groups nodes)
  found.flatten

end Step

namespace ElementPath

/-- The nodes that a path finds, each with its place below the element it starts from. -/
def locate (path : ElementPath) (e : Element) : List Located :=
  path.steps.foldl (fun nodes step => step.select nodes) [.root e]

/-- The elements that a path finds. -/
def select (path : ElementPath) (e : Element) : List Element :=
  (path.locate e).map (·.element)

/-- The first element that a path finds. -/
def first? (path : ElementPath) (e : Element) : Option Element := (path.select e).head?

/-- The text of the first element that a path finds; empty if that element has none. -/
def firstText? (path : ElementPath) (e : Element) : Option String :=
  (path.first? e).map (·.textOrEmpty)

end ElementPath

end Docweave
