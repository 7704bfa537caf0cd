import Docweave.Path.Basic
import Docweave.Xml.Element

set_option autoImplicit false

/-! # What can be wrong with a script -/

namespace Docweave

/-- Why a statement is not one. -/
inductive ScriptProblem where
  /-- An `append` with nothing after it. -/
  | emptyFragment
  /-- What is to be appended is no document. -/
  | badFragment (error : Xml.Error)
  /-- A string literal with no closing quotation mark. -/
  | unterminatedString
  /-- A backslash in front of a character that has no escape. -/
  | unknownEscape (c : Char)
  /-- A malformed path or key. -/
  | badPath (error : PathError)
  /-- A malformed condition. -/
  | badCondition
  /-- A malformed count. -/
  | badCount (text : String)
  /-- The words after a known keyword do not fit it. -/
  | wrongArguments (keyword : String)
  /-- An unknown keyword. -/
  | unknownStatement (keyword : String)
deriving DecidableEq, Repr

/-- How a statement with fixed arguments is written; nothing for the other keywords. -/
def usage? : String → Option String
  | "sort" => some "usage: sort KEY"
  | "reversesort" => some "usage: reversesort KEY"
  | "reverse" => some "usage: reverse"
  | "limit" => some "usage: limit N"
  | "skip" => some "usage: skip N"
  | "set" => some "usage: set TAG \"value\""
  | "attr" => some "usage: attr NAME \"value\""
  | "remove" => some "usage: remove TAG"
  | "emit" => some "usage: emit \"text\""
  | "print" => some "usage: print PATH"
  | "assert" => some "usage: assert PATH"
  | _ => none

namespace ScriptProblem

/-- The wording of a problem. -/
def message : ScriptProblem → String
  | emptyFragment => "append needs an XML fragment"
  | badFragment error => "invalid append fragment: " ++ error.message
  | unterminatedString => "unterminated string literal"
  | unknownEscape c => "unknown escape '\\" ++ String.singleton c ++ "'"
  | badPath error => error.message
  | badCondition => "expected PATH, PATH = \"value\" or PATH contains \"value\""
  | badCount text => "expected a non-negative number, found '" ++ text ++ "'"
  | wrongArguments keyword => "wrong arguments for '" ++ keyword ++ "'"
  | unknownStatement keyword => "unknown statement '" ++ keyword ++ "'"

/-- The notes that go with a problem: how the statement is written. -/
def notes : ScriptProblem → List String
  | wrongArguments keyword => (usage? keyword).toList
  | _ => []

end ScriptProblem

/-- A problem and the part of the script that it concerns. -/
structure ScriptFault where
  /-- What is wrong. -/
  problem : ScriptProblem
  /-- The bytes of the script that it concerns. -/
  span : Text.Span
deriving DecidableEq, Repr

end Docweave
