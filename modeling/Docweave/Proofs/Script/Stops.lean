import Docweave.Proofs.Script.Checked
import Docweave.Script.Runner

set_option autoImplicit false

/-! # Where a script stops

The keys of sorts are tried when a script is read, so that a script that was read can stop at a
requirement only. `execute_eq_error_iff` says when it does, and what the failure names: the first record
without a match at the first requirement that some record does not meet. -/

namespace Docweave

/-! ## Sorts of a script that was read -/

/-- If the command is a sort, its key is a name that records can be sorted by. -/
def Command.HasUsableKey (command : Command) : Prop :=
  ∀ key descending, command = .sort key descending → ∃ path, ElementPath.descendant key = .ok path

theorem Command.IsChecked.hasUsableKey {command : Command} (h : command.IsChecked) :
    command.HasUsableKey := by
  rintro key descending rfl
  exact h

/-- Every sort of a script that was read has a usable key. -/
theorem Script.gives_parse (source : List Char) :
    Gives (Script.parse source) fun script =>
      ∀ statement ∈ script.statements, statement.command.HasUsableKey :=
  fun script hread statement hmem =>
    (Script.isChecked_of_parse source script hread statement hmem).hasUsableKey

/-! ## Single commands -/

/-- The record at the position is the first one in which the path finds nothing. -/
structure ElementPath.FirstMissing (path : ElementPath) (records : List Element) (position : Nat) :
    Prop where
  missing : ∃ record, records[position]? = some record ∧ path.first? record = none
  earlier : ∀ before < position, ∀ record, records[before]? = some record →
    ∃ found, path.first? record = some found

theorem ElementPath.firstMissing_iff {path : ElementPath} {records : List Element} {position : Nat} :
    path.FirstMissing records position ↔
      records.findIdx? (fun record => (path.first? record).isNone) = some position := by
  rw [List.findIdx?_eq_some_iff_getElem]
  constructor
  · rintro ⟨⟨record, hrecord, hmissing⟩, hearlier⟩
    obtain ⟨hlt, rfl⟩ := List.getElem?_eq_some_iff.1 hrecord
    refine ⟨hlt, by rw [hmissing]; rfl, fun before hbefore hnone => ?_⟩
    obtain ⟨found, hfound⟩ := hearlier before hbefore _ (List.getElem?_eq_getElem _)
    rw [hfound] at hnone
    cases hnone
  · rintro ⟨hlt, hmissing, hearlier⟩
    refine ⟨⟨_, List.getElem?_eq_getElem hlt, Option.isNone_iff_eq_none.1 hmissing⟩, ?_⟩
    intro before hbefore record hrecord
    obtain ⟨hlt', rfl⟩ := List.getElem?_eq_some_iff.1 hrecord
    exact Option.ne_none_iff_exists'.1 fun hnone => hearlier before hbefore (by rw [hnone]; rfl)

namespace ScriptOutput

/-- Whatever is no requirement succeeds. -/
theorem exists_apply_eq_ok {command : Command} (hkey : command.HasUsableKey)
    (hrequire : ∀ path, command ≠ .require path) (output : ScriptOutput) :
    ∃ left, output.apply command = .ok left := by
  cases command with
  | sort key descending =>
    obtain ⟨path, hpath⟩ := hkey key descending rfl
    rw [apply, sortRecords, hpath]
    split
    · exact ⟨_, rfl⟩
    · next h => split at h <;> cases h
  | require path => exact absurd rfl (hrequire path)
  | append | reverse | keep | drop | limit | skip | setText | setAttr | remove | emit | print =>
    exact ⟨_, rfl⟩

theorem apply_require_eq_error_iff {path : ElementPath} {output : ScriptOutput}
    {failure : ScriptFailure} :
    output.apply (.require path) = .error failure ↔
      ∃ position, path.FirstMissing output.tree.children position ∧
        failure = .noMatch (position + 1) path := by
  simp only [ElementPath.firstMissing_iff]
  rw [apply]
  cases h : output.tree.children.findIdx? fun record => (path.first? record).isNone with
  | none => simp
  | some position =>
    simp only [Except.error.injEq, Option.some.injEq, exists_eq_left']
    exact eq_comm

/-! ## Statements in a row -/

/-- A row of statements stops at a requirement that some record does not meet, in the tree that the
statements before it leave. -/
theorem applyAll_eq_error_iff {statements : List Statement}
    (hkeys : ∀ statement ∈ statements, statement.command.HasUsableKey) {output : ScriptOutput}
    {failure : ScriptFailure} :
    output.applyAll statements = .error failure ↔
      ∃ before statement after path left position, statements = before ++ statement :: after ∧
        statement.command = .require path ∧ output.applyAll before = .ok left ∧
        path.FirstMissing left.tree.children position ∧ failure = .noMatch (position + 1) path := by
  induction statements generalizing output with
  | nil => simp [applyAll]
  | cons first rest ih =>
    obtain ⟨hfirst, hrest⟩ := List.forall_mem_cons.1 hkeys
    rw [applyAll_cons_eq_error_iff]
    constructor
    · rintro (hstep | ⟨next, hstep, h⟩)
      · by_cases hrequire : ∃ path, first.command = .require path
        · obtain ⟨path, hpath⟩ := hrequire
          rw [hpath] at hstep
          obtain ⟨position, hmissing, hfailure⟩ := apply_require_eq_error_iff.1 hstep
          exact ⟨[], first, rest, path, output, position, rfl, hpath, rfl, hmissing, hfailure⟩
        · obtain ⟨left, hleft⟩ := exists_apply_eq_ok hfirst (not_exists.1 hrequire) output
          rw [hleft] at hstep
          cases hstep
      · obtain ⟨before, statement, after, path, left, position, rfl, hpath, hleft, hmissing, hfailure⟩ :=
          (ih hrest).1 h
        exact ⟨first :: before, statement, after, path, left, position, rfl, hpath,
          applyAll_cons_eq_ok_iff.2 ⟨next, hstep, hleft⟩, hmissing, hfailure⟩
    · rintro ⟨before, statement, after, path, left, position, hsplit, hpath, hleft, hmissing, hfailure⟩
      cases before with
      | nil =>
        obtain ⟨rfl, rfl⟩ := List.cons.inj hsplit
        cases hleft
        rw [hpath]
        exact .inl (apply_require_eq_error_iff.2 ⟨position, hmissing, hfailure⟩)
      | cons head before =>
        obtain ⟨rfl, rfl⟩ := List.cons.inj hsplit
        obtain ⟨next, hstep, hleft⟩ := applyAll_cons_eq_ok_iff.1 hleft
        exact .inr ⟨next, hstep, (ih hrest).2 ⟨before, statement, after, path, left, position, rfl, hpath,
          hleft, hmissing, hfailure⟩⟩

end ScriptOutput

/-! ## Scripts -/

namespace ScriptRunner

/-- A script that was read fails on a tree just when some requirement of it is not met by a record of the
tree that the statements before it leave. As these have not failed, it is the first such requirement;
the failure names the first such record, counted from one, and the path. No other statement can
fail. -/
theorem execute_eq_error_iff {source : List Char} {script : Script}
    (hread : Script.parse source = .ok script) (runner : ScriptRunner) (tree : Element) :
    (∀ failure, (runner.execute script tree).1 = .error failure ↔
      ∃ before statement after path left position,
        script.statements = before ++ statement :: after ∧ statement.command = .require path ∧
          ScriptOutput.applyAll ⟨tree, ""⟩ before = .ok left ∧
          path.FirstMissing left.tree.children position ∧
          failure = .scriptExecution (.noMatch (position + 1) path) ∧
          failure.message = "extension script failed: " ++ ("record " ++ toString (position + 1) ++
            " has no match for '" ++ path.source ++ "'")) ∧
      ∀ statement ∈ script.statements, (∀ path, statement.command ≠ .require path) →
        ∀ output : ScriptOutput, ∃ left, output.apply statement.command = .ok left := by
  have hkeys := Script.gives_parse source script hread
  refine ⟨fun failure => ?_, fun statement hmem hrequire output =>
    ScriptOutput.exists_apply_eq_ok (hkeys statement hmem) hrequire output⟩
  unfold execute Script.execute
  simp only
  constructor
  · intro h
    cases hrun : ScriptOutput.applyAll ⟨tree, ""⟩ script.statements with
    | ok output =>
      rw [hrun] at h
      cases h
    | error stopped =>
      rw [hrun] at h
      cases h
      obtain ⟨before, statement, after, path, left, position, hsplit, hpath, hleft, hmissing, rfl⟩ :=
        (ScriptOutput.applyAll_eq_error_iff hkeys).1 hrun
      exact ⟨before, statement, after, path, left, position, hsplit, hpath, hleft, hmissing, rfl, rfl⟩
  · rintro ⟨before, statement, after, path, left, position, hsplit, hpath, hleft, hmissing, rfl, -⟩
    have hrun := (ScriptOutput.applyAll_eq_error_iff hkeys).2
      ⟨before, statement, after, path, left, position, hsplit, hpath, hleft, hmissing, rfl⟩
    rw [hrun]
    rfl

/-- Two records, of which the second one has no name. -/
def halfNamed : Element :=
  .ofChildren "root" [.ofChildren "item" [.ofText "name" "a"], .ofTag "item"]

/-- The record without a name is brought to the front, where the requirement meets it. -/
theorem execute_eq_error_iff_halfNamed :
    let path : ElementPath := ⟨"name", [⟨.child, .tagged "name", []⟩]⟩
    ∃ script, Script.parse "reverse\nassert name\nsort name".toList = .ok script ∧
      (fresh.execute script halfNamed).1 = .error (.scriptExecution (.noMatch 1 path)) ∧
      ∃ before statement after left, script.statements = before ++ statement :: after ∧
        statement.command = .require path ∧ ScriptOutput.applyAll ⟨halfNamed, ""⟩ before = .ok left ∧
        path.FirstMissing left.tree.children 0 := by
  intro path
  have hfails : ((Script.parse "reverse\nassert name\nsort name".toList).toOption.bind fun script =>
      match (fresh.execute script halfNamed).1 with
      | .error failure => some failure
      | .ok _ => none) = some (.scriptExecution (.noMatch 1 path)) := by decide +kernel
  cases hread : Script.parse "reverse\nassert name\nsort name".toList with
  | error fault =>
    rw [hread] at hfails
    cases hfails
  | ok script =>
    rw [hread] at hfails
    cases hrun : (fresh.execute script halfNamed).1 with
    | ok output => simp [Except.toOption, hrun] at hfails
    | error failure =>
      simp only [Except.toOption, Option.bind_some, hrun, Option.some.injEq] at hfails
      subst hfails
      obtain ⟨before, statement, after, _, left, _, hsplit, hpath, hleft, hmissing, hfailure, -⟩ :=
        ((execute_eq_error_iff hread fresh halfNamed).1 _).1 hrun
      cases hfailure
      exact ⟨script, rfl, hrun, before, statement, after, left, hsplit, hpath, hleft, hmissing⟩

end ScriptRunner

end Docweave
