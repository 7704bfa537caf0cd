import Docweave.Script.Exec
import Mathlib.Data.List.Perm.Subperm

set_option autoImplicit false

/-! # What a command makes of the records

A command leaves the root but for the records. It selects some of these, or adds one at the end, or
rewrites each of them: `changes_of_apply`. -/

namespace Docweave

namespace Command

/-- The record that the command adds. -/
def addition? : Command → Option Element
  | append record => some record
  | _ => none

/-- What the command makes of each record. -/
def rewrite? : Command → Option (Element → Element)
  | setText tag value => some fun r => r.withChildren (setChildText tag value r.children)
  | setAttr name value => some (·.setAttr name value)
  | remove tag => some fun r => r.withChildren (r.children.filter (·.name.localPart != tag))
  | _ => none

/-- The command selects some of the records, in any order, or adds one at the end, or rewrites each of
them. -/
inductive Changes (command : Command) (records : List Element) : List Element → Prop where
  | selected {left : List Element} (h : left.Subperm records) : Changes command records left
  | added {record : Element} (h : command.addition? = some record) :
      Changes command records (records ++ [record])
  | rewritten {rewrite : Element → Element} (h : command.rewrite? = some rewrite) :
      Changes command records (records.map rewrite)

end Command

namespace ScriptOutput

/-- A command that succeeds leaves the root but for the records. -/
theorem changes_of_apply {output left : ScriptOutput} {command : Command}
    (h : output.apply command = .ok left) :
    left.tree = output.tree.withChildren left.tree.children ∧
      command.Changes output.tree.children left.tree.children := by
  cases command with
  | append record =>
    cases h
    exact ⟨rfl, .added rfl⟩
  | sort key descending =>
    rw [apply] at h
    cases hsort : sortRecords key descending output.tree.children with
    | error error =>
      rw [hsort] at h
      cases h
    | ok records =>
      rw [hsort] at h
      cases h
      exact ⟨rfl, .selected (perm_of_sortRecords hsort).subperm⟩
  | reverse =>
    cases h
    exact ⟨rfl, .selected (List.reverse_perm _).subperm⟩
  | keep condition =>
    cases h
    exact ⟨rfl, .selected List.filter_sublist.subperm⟩
  | drop condition =>
    cases h
    exact ⟨rfl, .selected List.filter_sublist.subperm⟩
  | limit count =>
    cases h
    exact ⟨rfl, .selected (List.take_sublist count _).subperm⟩
  | skip count =>
    cases h
    exact ⟨rfl, .selected (List.drop_sublist count _).subperm⟩
  | setText tag value =>
    cases h
    exact ⟨rfl, .rewritten rfl⟩
  | setAttr name value =>
    cases h
    exact ⟨rfl, .rewritten rfl⟩
  | remove tag =>
    cases h
    exact ⟨rfl, .rewritten rfl⟩
  | emit template =>
    cases h
    exact ⟨(Element.withChildren_children _).symm, .selected (List.Subperm.refl _)⟩
  | print path =>
    cases h
    exact ⟨(Element.withChildren_children _).symm, .selected (List.Subperm.refl _)⟩
  | require path =>
    rw [apply] at h
    split at h
    · cases h
    · cases h
      exact ⟨(Element.withChildren_children _).symm, .selected (List.Subperm.refl _)⟩

end ScriptOutput

end Docweave
