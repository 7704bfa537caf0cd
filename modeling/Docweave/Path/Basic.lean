import Docweave.Tree.Location

set_option autoImplicit false

/-! # Element paths

A path leads from an element to others in steps: to the element itself, to its children, or to
everything below it. Each step keeps the nodes whose name passes a test, and of those the ones that
all its predicates accept. -/

namespace Docweave

/-- Which nodes a step looks at. -/
inductive Axis where
  /-- The node itself. -/
  | itself
  /-- Its children. -/
  | child
  /-- Everything below it. -/
  | descendant
deriving DecidableEq, Repr

/-- A condition on the name of an element. -/
inductive NameTest where
  /-- Every name. -/
  | any
  /-- A local part, in whatever namespace. -/
  | tagged (localPart : String)
  /-- A local part in a given namespace. -/
  | inNamespace (uri localPart : String)
deriving DecidableEq, Repr

/-- The name passes the test. -/
def NameTest.accepts : NameTest → QName → Bool
  | any, _ => true
  | tagged localPart, name => name.localPart == localPart
  | inNamespace uri localPart, name => name.isIn uri localPart

/-- A condition on a node that has passed the name test of a step. -/
inductive Predicate where
  /-- The node has the attribute. -/
  | hasAttr (name : String)
  /-- The attribute has the value. -/
  | attrEquals (name value : String)
  /-- A child passes the name test. -/
  | hasChild (test : NameTest)
  /-- A child that passes the name test has the text. -/
  | childEquals (test : NameTest) (value : String)
  /-- The place, counted from one, among the nodes with the same parent. -/
  | position (n : Nat)
  /-- The place counted from the last node with the same parent, which has offset zero. -/
  | fromLast (offset : Nat)
deriving DecidableEq, Repr

/-- One step of a path. -/
structure Step where
  /-- Which nodes the step looks at. -/
  axis : Axis
  /-- The names that it keeps. -/
  test : NameTest
  /-- What it asks of the nodes it keeps, one after the other. -/
  predicates : List Predicate
deriving DecidableEq, Repr

/-- A path. -/
structure ElementPath where
  /-- The path as it was written. -/
  source : String
  /-- The steps in order. -/
  steps : List Step
deriving DecidableEq, Repr

/-- Why a text is not a path. -/
inductive PathError where
  /-- There is nothing but blanks. -/
  | empty
  /-- The path starts with a slash. -/
  | absolute (path : String)
  /-- A step goes to the parent. -/
  | parent (path : String)
  /-- Two slashes with no step after them. -/
  | missingStep (path : String)
  /-- A bracket, a brace or a quotation mark is not closed. -/
  | unterminatedPredicate (path : String)
  /-- What stands in brackets is no predicate. -/
  | invalidPredicate (path predicate : String)
  /-- The name test is malformed. -/
  | invalidName (path name : String)
deriving DecidableEq, Repr

/-- The wording of a path error. -/
def PathError.message : PathError → String
  | empty => "empty path"
  | absolute path => "absolute paths are not supported: '" ++ path ++ "'"
  | parent path => "parent steps are not supported: '" ++ path ++ "'"
  | missingStep path => "missing step after '//' in '" ++ path ++ "'"
  | unterminatedPredicate path => "unterminated predicate in '" ++ path ++ "'"
  | invalidPredicate path predicate =>
    "invalid predicate '[" ++ predicate ++ "]' in '" ++ path ++ "'"
  | invalidName path name => "invalid name test '" ++ name ++ "' in '" ++ path ++ "'"

end Docweave
