import Docweave.Proofs.Script.Compiled
import Docweave.Proofs.Script.OneLine

set_option autoImplicit false

/-! # Scripts that sort

Records can be sorted by an action, or by a script that an action holds. `sortScript` is the script for
a key; it is read as one statement, which sorts by that key, as long as the key is one bare word. -/

namespace Docweave

open Docweave.Text

/-- The key can be written as the argument of a sort statement, and records can be sorted by it. -/
structure IsSortKey (key : String) : Prop where
  nonempty : key ≠ ""
  unbroken : ∀ c ∈ key.toList, isBlank c = false
  unquoted : key.toList.head? ≠ some '"'
  accepted : ∃ path, ElementPath.descendant key = .ok path

/-- The keyword of a statement that sorts. -/
def sortKeyword (descending : Bool) : String := if descending then "reversesort" else "sort"

/-- The script with one statement, which sorts by a key. -/
def sortScript (key : String) (descending : Bool) : String := sortKeyword descending ++ " " ++ key

theorem toList_sortScript (key : String) (descending : Bool) :
    (sortScript key descending).toList = (sortKeyword descending).toList ++ ' ' :: key.toList := by
  unfold sortScript
  rw [String.toList_append, String.toList_append, List.append_assoc]
  rfl

theorem isKeyword_sortKeyword (descending : Bool) : IsKeyword (sortKeyword descending).toList := by
  cases descending
  all_goals decide

/-- A key that is accepted sorts any records. -/
theorem exists_sortRecords_eq_ok {key : String} (h : ∃ path, ElementPath.descendant key = .ok path)
    (descending : Bool) (records : List Element) :
    ∃ sorted, sortRecords key descending records = .ok sorted := by
  obtain ⟨path, hpath⟩ := h
  unfold sortRecords
  split
  · exact ⟨_, rfl⟩
  · rw [hpath]
    exact ⟨_, rfl⟩

namespace IsSortKey

variable {key : String} (h : IsSortKey key) (descending : Bool)

include h

theorem toList_ne_nil : key.toList ≠ [] := by
  intro hnil
  exact h.nonempty (String.toList_inj.1 hnil)

/-! ## Reading the script -/

theorem trim_toList : trim key.toList = key.toList :=
  trim_eq_self (fun c hc => h.unbroken c (List.mem_of_head? hc))
    fun c hc => h.unbroken c (List.mem_of_getLast? hc)

theorem readCommand_sortKeyword :
    readCommand (sortKeyword descending) [.bare key] = .ok (.sort key descending) := by
  obtain ⟨path, hpath⟩ := h.accepted
  cases descending with
  | false | true =>
    change ((ElementPath.descendant key).mapError ScriptProblem.badPath).map _ = _
    rw [hpath]
    rfl

/-- The script is read as the one command that sorts by the key. -/
theorem parse_sortScript :
    Script.parse (sortScript key descending).toList =
      .ok ⟨[⟨.sort key descending, ⟨0, byteLength (sortScript key descending).toList⟩⟩]⟩ := by
  have happend : (sortKeyword descending).toList ≠ ['a', 'p', 'p', 'e', 'n', 'd'] := by
    cases descending
    all_goals decide
  have hline : '\n' ∉ key.toList := fun hmem => absurd (h.unbroken _ hmem) (by decide)
  have hend : trimEnd key.toList = key.toList :=
    dropEndWhile_eq_self fun c hc => h.unbroken c (List.mem_of_getLast? hc)
  have hspan : (oneLine (sortKeyword descending).toList key.toList).span =
      ⟨0, byteLength (sortScript key descending).toList⟩ := by
    rw [StatementLine.span, oneLine, hend, toList_sortScript, Nat.zero_add]
  have hwords := readWords_bare h.toList_ne_nil h.unbroken h.unquoted
  rw [String.ofList_toList] at hwords
  have hrest : trim key.toList ≠ [] := by
    rw [h.trim_toList]
    exact h.toList_ne_nil
  rw [← hspan, toList_sortScript,
    Script.parse_oneLine_eq_ok_iff (isKeyword_sortKeyword descending) happend hrest hline,
    h.trim_toList, String.ofList_toList]
  exact ⟨_, _, hwords, h.readCommand_sortKeyword descending, rfl⟩

/-- The script is compiled to the one command that sorts by the key. -/
theorem compileText_sortScript :
    ScriptRunner.compileText (sortScript key descending) =
      .ok ⟨[⟨.sort key descending, ⟨0, byteLength (sortScript key descending).toList⟩⟩]⟩ := by
  have hreturn : '\r' ∉ (sortScript key descending).toList := by
    rw [toList_sortScript, List.mem_append, List.mem_cons, not_or, not_or]
    exact ⟨fun hmem => absurd ((isKeyword_sortKeyword descending).unbroken _ hmem) (by decide),
      by decide, fun hmem => absurd (h.unbroken _ hmem) (by decide)⟩
  unfold ScriptRunner.compileText Script.parseText
  simp only [normalizeNewlines_of_notMem hreturn, h.parse_sortScript descending]
  rfl

/-! ## Running the script -/

/-- On any tree the script does what sorting the records does, and emits nothing. -/
theorem run_sortScript {texts : Set String} {runner : ScriptRunner} (hruns : runner.Holds texts)
    (hdigests : CollisionFree texts) (hmem : sortScript key descending ∈ texts) (tree : Element)
    {sorted : List Element} (hsorted : sortRecords key descending tree.children = .ok sorted) :
    (runner.run (sortScript key descending) tree).1 = .ok ⟨tree.withChildren sorted, ""⟩ := by
  rw [ScriptRunner.run_of_holds hruns hdigests hmem, h.compileText_sortScript descending]
  change ((Script.execute _ tree).mapError _) = _
  simp only [Script.execute, ScriptOutput.applyAll, ScriptOutput.apply, hsorted]
  rfl

end IsSortKey

end Docweave
