import Docweave.Proofs.Script.StatementLines

set_option autoImplicit false

/-! # Scripts of one line

A script that is one line with a keyword, a space and something more is the one statement that the
keyword and the words behind it make (`Script.parse_oneLine_eq_ok_iff`). Blanks at the end of the line
and more blanks behind the keyword have no part in it. -/

namespace Docweave

open Docweave.Text

/-- The text is in one piece and does not start a comment. -/
structure IsKeyword (keyword : List Char) : Prop where
  nonempty : keyword ≠ []
  unbroken : IsUnbroken keyword
  noComment : keyword.head? ≠ some '#'

instance : DecidablePred IsKeyword := fun keyword =>
  decidable_of_iff
    (keyword ≠ [] ∧ IsUnbroken keyword ∧ keyword.head? ≠ some '#')
    ⟨fun h => ⟨h.1, h.2.1, h.2.2⟩, fun h => ⟨h.nonempty, h.unbroken, h.noComment⟩⟩

/-- The statement of a script that is a keyword and, behind a space, the text `rest`. -/
def oneLine (keyword rest : List Char) : StatementLine := ⟨0, keyword ++ ' ' :: trimEnd rest⟩

namespace IsKeyword

variable {keyword : List Char} (h : IsKeyword keyword)

include h

/-- The line holds a statement, unless there are only blanks behind the keyword. -/
theorem ofLine?_eq {rest : List Char} (hrest : trim rest ≠ []) :
    StatementLine.ofLine? 0 (keyword ++ ' ' :: rest) = some (oneLine keyword rest) := by
  obtain ⟨before, after, hend, hrest', -, hafter⟩ := exists_blanks_trimEnd hrest
  have hne : trimEnd rest ≠ [] := by
    rw [hend]
    exact List.append_ne_nil_of_right_ne_nil before hrest
  have htext : IsTrimmed (keyword ++ ' ' :: trimEnd rest) := by
    constructor
    · rw [List.head?_append_of_ne_nil _ h.nonempty]
      exact fun c hc => h.unbroken c (List.mem_of_mem_head? hc)
    · rw [List.append_cons, List.getLast?_append_of_ne_nil _ hne, hend,
        List.getLast?_append_of_ne_nil _ hrest]
      exact (isTrimmed_trim rest).last
  have hcomment : (keyword ++ ' ' :: trimEnd rest).head? ≠ some '#' := by
    rw [List.head?_append_of_ne_nil _ h.nonempty]
    exact h.noComment
  have hline := StatementLine.ofLine?_trimmed .nil hafter htext (by simp) 0
  rw [if_neg hcomment, List.nil_append, List.append_assoc, List.cons_append, ← hrest'] at hline
  exact hline

theorem parts_eq (rest : List Char) : (oneLine keyword rest).parts = (keyword, trim rest) := by
  unfold StatementLine.parts oneLine
  simp only [splitAtFirst?_append h.unbroken (show isBlank ' ' = true by decide), trim_trimEnd]

end IsKeyword

namespace Script

theorem parse_oneLine {keyword rest : List Char} (hkeyword : IsKeyword keyword)
    (hrest : trim rest ≠ []) (hline : '\n' ∉ rest) :
    parse (keyword ++ ' ' :: rest) = (oneLine keyword rest).statement.map fun s => ⟨[s]⟩ := by
  have hfeed : '\n' ∉ keyword ++ ' ' :: rest := by
    rw [List.mem_append, List.mem_cons, not_or, not_or]
    exact ⟨fun hmem => absurd (hkeyword.unbroken _ hmem) (by decide), by decide, hline⟩
  unfold parse
  rw [splitLines_of_notMem hfeed (by simp), readLines, hkeyword.ofLine?_eq hrest]
  simp only [readLines]
  cases (oneLine keyword rest).statement with
  | error fault => rfl
  | ok statement => rfl

/-- A script of one line is accepted if the words behind the keyword fit it, and is then the one
statement that they make. -/
theorem parse_oneLine_eq_ok_iff {keyword rest : List Char} (hkeyword : IsKeyword keyword)
    (happend : keyword ≠ ['a', 'p', 'p', 'e', 'n', 'd']) (hrest : trim rest ≠ [])
    (hline : '\n' ∉ rest) {script : Script} :
    parse (keyword ++ ' ' :: rest) = .ok script ↔
      ∃ words command, readWords (trim rest) = .ok words ∧
        readCommand (.ofList keyword) words = .ok command ∧
        script = ⟨[⟨command, (oneLine keyword rest).span⟩]⟩ := by
  rw [parse_oneLine hkeyword hrest hline, map_eq_ok_iff]
  unfold StatementLine.statement StatementLine.command
  rw [hkeyword.parts_eq]
  simp only [if_neg happend]
  cases hwords : readWords (trim rest) with
  | error problem => simp
  | ok words =>
    cases hcommand : readCommand (.ofList keyword) words with
    | error problem => simp [hcommand]
    | ok command => simp [hcommand, eq_comm]

end Script

end Docweave
