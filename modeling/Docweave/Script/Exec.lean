import Docweave.Path.Select
import Docweave.Records.Sort
import Docweave.Script.Basic
import Docweave.Text.Search

set_option autoImplicit false

/-! # Running a script

A command changes the bound tree and the emitted text. All commands but one work on any tree; only a
requirement that some record does not meet stops the script. -/

namespace Docweave

open Docweave.Text

/-- What a script works on and leaves behind. -/
structure ScriptOutput where
  /-- The bound tree, whose children are the records. -/
  tree : Element
  /-- The text emitted so far. -/
  text : String
deriving BEq, Repr

/-- Why a script stops. -/
inductive ScriptFailure where
  /-- A record, counted from one, in which a required path finds nothing. -/
  | noMatch (record : Nat) (path : ElementPath)
  /-- A sort key that is no name. -/
  | badKey (error : PathError)
deriving DecidableEq, Repr

/-- The wording of a failure. -/
def ScriptFailure.message : ScriptFailure → String
  | noMatch record path =>
    "record " ++ toString record ++ " has no match for '" ++ path.source ++ "'"
  | badKey error => error.message

/-- The record meets the condition. -/
def Condition.holds (record : Element) : Condition → Bool
  | found path => (path.first? record).isSome
  | equals path value => path.firstText? record == some value
  | contains path value =>
    match path.firstText? record with
    | some text => occursIn value.toList text.toList
    | none => false

/-- The first child with a tag given a text, or a new such child at the end. -/
def setChildText (tag value : String) : List Element → List Element
  | [] => [.ofText tag value]
  | child :: rest =>
    if child.name.localPart = tag then { child with text := some value } :: rest
    else child :: setChildText tag value rest

/-- A template with the number of records and the name of the root in their places. -/
def fillTemplate (template : String) (count : Nat) (name : String) : String :=
  let counted := replaceAll "\x7bcount\x7d".toList (toString count).toList template.toList
  .ofList (replaceAll "\x7bname\x7d".toList name.toList counted)

namespace ScriptOutput

/-- The output with its records replaced by their image. -/
def mapRecords (output : ScriptOutput) (f : List Element → List Element) : ScriptOutput :=
  { output with tree := { output.tree with children := f output.tree.children } }

/-- The output with more text. -/
def emit (output : ScriptOutput) (text : String) : ScriptOutput :=
  { output with text := output.text ++ text }

/-- The output after a command. -/
def apply (output : ScriptOutput) : Command → Except ScriptFailure ScriptOutput
  | .append record => .ok (output.mapRecords (· ++ [record]))
  | .sort key descending =>
    match sortRecords key descending output.tree.children with
    | .ok records => .ok (output.mapRecords fun _ => records)
    | .error error => .error (.badKey error)
  | .reverse => .ok (output.mapRecords List.reverse)
  | .keep condition => .ok (output.mapRecords (·.filter condition.holds))
  | .drop condition => .ok (output.mapRecords (·.filter fun r => !condition.holds r))
  | .limit count => .ok (output.mapRecords (·.take count))
  | .skip count => .ok (output.mapRecords (·.drop count))
  | .setText tag value =>
    .ok (output.mapRecords (·.map fun r => { r with children := setChildText tag value r.children }))
  | .setAttr name value => .ok (output.mapRecords (·.map (·.setAttr name value)))
  | .remove tag =>
    .ok (output.mapRecords (·.map fun r =>
      { r with children := r.children.filter (·.name.localPart != tag) }))
  | .emit template =>
    .ok (output.emit
      (fillTemplate template output.tree.children.length output.tree.name.display))
  | .print path =>
    .ok (output.emit (String.join (output.tree.children.filterMap path.firstText?)))
  | .require path =>
    match output.tree.children.findIdx? fun r => (path.first? r).isNone with
    | some i => .error (.noMatch (i + 1) path)
    | none => .ok output

/-- The output after commands in order, or the first failure. -/
def applyAll (output : ScriptOutput) : List Statement → Except ScriptFailure ScriptOutput
  | [] => .ok output
  | statement :: rest =>
    match output.apply statement.command with
    | .ok output => output.applyAll rest
    | .error failure => .error failure

variable {output left : ScriptOutput} {statement : Statement} {rest : List Statement}

theorem applyAll_cons_eq_ok_iff :
    output.applyAll (statement :: rest) = .ok left ↔
      ∃ next, output.apply statement.command = .ok next ∧ next.applyAll rest = .ok left := by
  rw [applyAll]
  cases output.apply statement.command with
  | ok next => simp
  | error failure => simp

theorem applyAll_cons_eq_error_iff {failure : ScriptFailure} :
    output.applyAll (statement :: rest) = .error failure ↔
      output.apply statement.command = .error failure ∨
        ∃ next, output.apply statement.command = .ok next ∧ next.applyAll rest = .error failure := by
  rw [applyAll]
  cases output.apply statement.command with
  | ok next => simp
  | error failure => simp

end ScriptOutput

/-- What a script leaves of a tree. -/
def Script.execute (script : Script) (tree : Element) : Except ScriptFailure ScriptOutput :=
  ScriptOutput.applyAll ⟨tree, ""⟩ script.statements

end Docweave
