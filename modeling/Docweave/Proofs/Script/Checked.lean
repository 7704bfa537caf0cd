import Docweave.Proofs.Gives
import Docweave.Script.Parser

set_option autoImplicit false

/-! # What is checked when a script is read

The key of a sort is tried and the fragment of an `append` is read when the script is. The words of `set`,
`attr` and `remove` are taken as they stand. -/

namespace Docweave

/-- The key of a sort is a name that records can be sorted by, and the record that is added was read from
a text. -/
def Command.IsChecked : Command → Prop
  | .sort key _ => ∃ path, ElementPath.descendant key = .ok path
  | .append record => ∃ text, Xml.parse text = .ok record
  | _ => True

theorem gives_readSort (key : String) (descending : Bool) :
    Gives (((ElementPath.descendant key).mapError ScriptProblem.badPath).map fun _ =>
      Command.sort key descending) Command.IsChecked := by
  have hpath : Gives (ElementPath.descendant key) fun path => ElementPath.descendant key = .ok path :=
    fun path h => h
  exact gives_map (gives_mapError _ hpath) fun path h => ⟨path, h⟩

theorem gives_readCommand (keyword : String) (words : List Word) :
    Gives (readCommand keyword words) Command.IsChecked := by
  unfold readCommand
  split
  · exact gives_readSort _ false
  · exact gives_readSort _ true
  · exact gives_ok trivial
  · exact gives_map (gives_true _) fun _ _ => trivial
  · exact gives_map (gives_true _) fun _ _ => trivial
  · exact gives_map (gives_true _) fun _ _ => trivial
  · exact gives_map (gives_true _) fun _ _ => trivial
  · exact gives_ok trivial
  · exact gives_ok trivial
  · exact gives_ok trivial
  · exact gives_ok trivial
  · exact gives_map (gives_true _) fun _ _ => trivial
  · exact gives_map (gives_true _) fun _ _ => trivial
  · split
    · exact gives_error _
    · exact gives_error _

theorem gives_readFragment (s : List Char) : Gives (readFragment s) Command.IsChecked := by
  unfold readFragment
  split
  · exact gives_error _
  · have hread : Gives (Xml.parse s) fun record => Xml.parse s = .ok record := fun record h => h
    exact gives_map (gives_mapError _ hread) fun record h => ⟨s, h⟩

theorem gives_command (line : StatementLine) : Gives line.command Command.IsChecked := by
  unfold StatementLine.command
  simp only
  split
  · exact gives_readFragment _
  · split
    · exact gives_error _
    · exact gives_readCommand _ _

theorem gives_statement (line : StatementLine) :
    Gives line.statement fun statement => statement.command.IsChecked := by
  have hcommand := gives_command line
  unfold StatementLine.statement
  cases h : line.command with
  | ok command => exact gives_ok (hcommand command h)
  | error problem => exact gives_error _

theorem gives_readLines (start : Nat) (lines : List (List Char)) :
    Gives (readLines start lines) fun statements =>
      ∀ statement ∈ statements, statement.command.IsChecked := by
  induction lines generalizing start with
  | nil => exact gives_ok fun _ h => absurd h List.not_mem_nil
  | cons line rest ih =>
    rw [readLines]
    split
    · exact ih _
    · next found _ =>
      have hfound := gives_statement found
      cases h : found.statement with
      | error fault => exact gives_error fault
      | ok statement =>
        exact gives_map (ih _) fun _ hrest => List.forall_mem_cons.2 ⟨hfound statement h, hrest⟩

/-- Every statement of a script that was read is checked. -/
theorem Script.isChecked_of_parse (source : List Char) :
    Gives (Script.parse source) fun script =>
      ∀ statement ∈ script.statements, statement.command.IsChecked :=
  gives_map (gives_readLines 0 _) fun _ h => h

end Docweave
