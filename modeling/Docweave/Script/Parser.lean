import Docweave.Path.Parser
import Docweave.Script.Basic
import Docweave.Script.Word

set_option autoImplicit false

/-! # Reading a script

Each line holds one statement: a keyword and its arguments. Blank lines and lines that start with `#`
are left out. The first line that is no statement makes the whole script fail. -/

namespace Docweave

open Docweave.Text

/-! ## Arguments -/

/-- A path as an argument. -/
def readPathWord (path : String) : Except ScriptProblem ElementPath :=
  (ElementPath.parse path).mapError .badPath

/-- A count as an argument. -/
def readCountWord (text : String) : Except ScriptProblem Nat :=
  match count? text.toList with
  | some n => .ok n
  | none => .error (.badCount text)

/-- The condition that words write: a path alone, or a path, an operator and a string. -/
def readCondition : List Word → Except ScriptProblem Condition
  | [.bare path] => (readPathWord path).map .found
  | [.bare path, .bare operator, .quoted value] =>
    match operator with
    | "=" => (readPathWord path).map (.equals · value)
    | "contains" => (readPathWord path).map (.contains · value)
    | _ => .error .badCondition
  | _ => .error .badCondition

/-- The command of a statement, other than `append`, from its keyword and the words after it. -/
def readCommand (keyword : String) (words : List Word) : Except ScriptProblem Command :=
  match keyword, words with
  | "sort", [.bare key] =>
    ((ElementPath.descendant key).mapError .badPath).map fun _ => .sort key false
  | "reversesort", [.bare key] =>
    ((ElementPath.descendant key).mapError .badPath).map fun _ => .sort key true
  | "reverse", [] => .ok .reverse
  | "keep", words => (readCondition words).map .keep
  | "drop", words => (readCondition words).map .drop
  | "limit", [.bare n] => (readCountWord n).map .limit
  | "skip", [.bare n] => (readCountWord n).map .skip
  | "set", [.bare tag, .quoted value] => .ok (.setText tag value)
  | "attr", [.bare name, .quoted value] => .ok (.setAttr name value)
  | "remove", [.bare tag] => .ok (.remove tag)
  | "emit", [.quoted text] => .ok (.emit text)
  | "print", [.bare path] => (readPathWord path).map .print
  | "assert", [.bare path] => (readPathWord path).map .require
  | keyword, _ =>
    if (usage? keyword).isSome then .error (.wrongArguments keyword)
    else .error (.unknownStatement keyword)

/-- The record that an `append` adds. -/
def readFragment (s : List Char) : Except ScriptProblem Command :=
  if s.isEmpty then .error .emptyFragment
  else (Xml.parse s |>.mapError .badFragment).map .append

/-! ## Lines -/

/-- A line that holds a statement, without the blanks around it. -/
structure StatementLine where
  /-- The byte offset of its first character in the script. -/
  start : Nat
  /-- The characters of the statement. -/
  text : List Char
deriving DecidableEq, Repr

namespace StatementLine

/-- The bytes of the statement. -/
def span (line : StatementLine) : Span := ⟨line.start, line.start + byteLength line.text⟩

/-- The statement of a line, which starts at byte `start` of the script; none on a blank line and
on a comment. -/
def ofLine? (start : Nat) (line : List Char) : Option StatementLine :=
  let line := dropEndWhile (fun c => c == '\n' || c == '\r') line
  match trimStart line with
  | [] => none
  | '#' :: _ => none
  | text => some ⟨start + (byteLength line - byteLength text), trimEnd text⟩

/-- The keyword of a statement, and the rest without the blanks around it. -/
def parts (line : StatementLine) : List Char × List Char :=
  match splitAtFirst? isBlank line.text with
  | some (keyword, rest) => (keyword, trim rest)
  | none => (line.text, [])

/-- The part of the script that a problem of this line concerns: the statement, or the place of the
fault in a fragment. -/
def spanOf (line : StatementLine) : ScriptProblem → Span
  | .badFragment error =>
    .point (line.start + (byteLength line.text - byteLength line.parts.2) + error.offset)
  | _ => line.span

/-- The command of a line. -/
def command (line : StatementLine) : Except ScriptProblem Command :=
  let (keyword, rest) := line.parts
  if keyword = ['a', 'p', 'p', 'e', 'n', 'd'] then readFragment rest
  else match readWords rest with
    | .error problem => .error problem
    | .ok words => readCommand (.ofList keyword) words

/-- The statement of a line. -/
def statement (line : StatementLine) : Except ScriptFault Statement :=
  match line.command with
  | .ok command => .ok ⟨command, line.span⟩
  | .error problem => .error ⟨problem, line.spanOf problem⟩

end StatementLine

/-- The statements of lines of which the first starts at byte `start`. -/
def readLines (start : Nat) : List (List Char) → Except ScriptFault (List Statement)
  | [] => .ok []
  | line :: rest =>
    match StatementLine.ofLine? start line with
    | none => readLines (start + byteLength line) rest
    | some found =>
      match found.statement with
      | .error fault => .error fault
      | .ok statement => (readLines (start + byteLength line) rest).map (statement :: ·)

/-- The script that a text writes. -/
def Script.parse (source : List Char) : Except ScriptFault Script :=
  (readLines 0 (splitLines source)).map fun statements => ⟨statements⟩

end Docweave
