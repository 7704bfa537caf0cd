import Docweave.ParseError
import Docweave.Proofs.Text.Spaced

set_option autoImplicit false

/-! # One script after another

A script is read line by line, so that two texts with a line feed between them give the statements of
the first and then those of the second (`parseText_append_newline`). All that the first text has to do
with the reading of the second is the number of bytes in front of it. -/

namespace Docweave

open Docweave.Text

/-! ## Lines of two texts -/

theorem splitLines_ne_nil {s : List Char} (h : s ≠ []) : splitLines s ≠ [] := by
  intro hnil
  have hflat := flatten_splitLines s
  rw [hnil] at hflat
  exact h hflat.symm

theorem splitLines_cons_of_ne {c : Char} (hc : c ≠ '\n') {s line : List Char}
    {lines : List (List Char)} (h : splitLines s = line :: lines) :
    splitLines (c :: s) = (c :: line) :: lines := by
  rw [splitLines, if_neg hc, h]

/-- A line feed ends the last line of what is in front of it. -/
theorem splitLines_append_newline (a b : List Char) :
    splitLines (a ++ '\n' :: b) = splitLines (a ++ ['\n']) ++ splitLines b := by
  induction a with
  | nil => rfl
  | cons c a ih =>
    rw [List.cons_append, List.cons_append]
    by_cases hc : c = '\n'
    · rw [splitLines, if_pos hc, ih, splitLines, if_pos hc, List.cons_append]
    · obtain ⟨line, lines, hlines⟩ :=
        List.exists_cons_of_ne_nil (splitLines_ne_nil (s := a ++ ['\n']) (by simp))
      rw [hlines, List.cons_append] at ih
      rw [splitLines_cons_of_ne hc ih, splitLines_cons_of_ne hc hlines, List.cons_append]

/-- A line feed at the end of a text is part of the last line, unless that line has one already. -/
theorem splitLines_concat_newline (a : List Char) :
    splitLines (a ++ ['\n']) = splitLines a ++ [['\n']] ∨
      ∃ front last, splitLines a = front ++ [last] ∧
        splitLines (a ++ ['\n']) = front ++ [last ++ ['\n']] := by
  induction a with
  | nil => exact .inl rfl
  | cons c a ih =>
    rw [List.cons_append]
    by_cases hc : c = '\n'
    · rw [splitLines, if_pos hc, splitLines, if_pos hc]
      rcases ih with h | ⟨front, last, ha, h⟩
      · exact .inl (by rw [h, List.cons_append])
      · exact .inr ⟨[c] :: front, last, by rw [ha, List.cons_append], by rw [h, List.cons_append]⟩
    · rcases ih with h | ⟨front, last, ha, h⟩
      · cases hlines : splitLines a with
        | nil =>
          rw [hlines] at h
          exact .inr ⟨[], [c], by rw [splitLines, if_neg hc, hlines]; rfl,
            splitLines_cons_of_ne hc h⟩
        | cons line lines =>
          rw [hlines] at h
          exact .inl (by rw [splitLines_cons_of_ne hc h, splitLines_cons_of_ne hc hlines]; rfl)
      · cases front with
        | nil =>
          exact .inr ⟨[], c :: last, splitLines_cons_of_ne hc ha, splitLines_cons_of_ne hc h⟩
        | cons line front =>
          exact .inr ⟨(c :: line) :: front, last, splitLines_cons_of_ne hc ha,
            splitLines_cons_of_ne hc h⟩

/-! ## Places further on -/

/-- The range `shift` bytes further on. -/
def Text.Span.later (shift : Nat) (span : Span) : Span := ⟨shift + span.start, shift + span.stop⟩

/-- The statement `shift` bytes further on. -/
def Statement.later (shift : Nat) (statement : Statement) : Statement :=
  { statement with span := statement.span.later shift }

/-- The problem `shift` bytes further on. -/
def ScriptFault.later (shift : Nat) (fault : ScriptFault) : ScriptFault :=
  { fault with span := fault.span.later shift }

/-- The error `shift` bytes further on. -/
def ParseError.later (shift : Nat) (error : ParseError) : ParseError :=
  { error with span := error.span.later shift }

namespace StatementLine

/-- The line `shift` bytes further on. -/
def later (shift : Nat) (line : StatementLine) : StatementLine :=
  { line with start := shift + line.start }

theorem span_later (shift : Nat) (line : StatementLine) :
    (line.later shift).span = line.span.later shift := by
  rw [span, Span.later, later, Nat.add_assoc]
  rfl

theorem spanOf_later (shift : Nat) (line : StatementLine) (problem : ScriptProblem) :
    (line.later shift).spanOf problem = (line.spanOf problem).later shift := by
  cases problem with
  | badFragment error =>
    simp only [spanOf, later, parts, Span.later, Span.point, Nat.add_assoc]
  | _ => exact span_later shift line

/-- What a line says does not depend on where it stands. -/
theorem statement_later (shift : Nat) (line : StatementLine) :
    (line.later shift).statement =
      (line.statement.map (·.later shift)).mapError (·.later shift) := by
  have hcommand : (line.later shift).command = line.command := rfl
  unfold statement
  rw [hcommand]
  cases line.command with
  | ok command =>
    simp only [span_later]
    rfl
  | error problem =>
    simp only [spanOf_later]
    rfl

theorem ofLine?_add (shift start : Nat) (line : List Char) :
    ofLine? (shift + start) line = (ofLine? start line).map (·.later shift) := by
  unfold ofLine?
  simp only
  split
  · rfl
  · rfl
  · rw [Nat.add_assoc]
    rfl

/-- A line feed at the end of a line is no part of the statement. -/
theorem ofLine?_concat_newline (start : Nat) (line : List Char) :
    ofLine? start (line ++ ['\n']) = ofLine? start line := by
  have hfeed : ∀ c ∈ ['\n'], (c == '\n' || c == '\r') = true := by simp
  unfold ofLine?
  rw [dropEndWhile_append_of_pos hfeed]

end StatementLine

/-! ## Reading lines -/

/-- Lines further on give the same statements further on. -/
theorem readLines_add (shift start : Nat) (lines : List (List Char)) :
    readLines (shift + start) lines =
      ((readLines start lines).map (·.map (·.later shift))).mapError (·.later shift) := by
  induction lines generalizing start with
  | nil => rfl
  | cons line lines ih =>
    rw [readLines, readLines, StatementLine.ofLine?_add, Nat.add_assoc, ih]
    cases StatementLine.ofLine? start line with
    | none => rfl
    | some found =>
      simp only [Option.map_some, StatementLine.statement_later]
      cases found.statement with
      | error fault => rfl
      | ok statement =>
        cases readLines (start + byteLength line) lines with
        | error fault => rfl
        | ok statements => rfl

/-- Lines are read in order, each at its place. -/
theorem readLines_append (start : Nat) (lines more : List (List Char)) :
    readLines start (lines ++ more) = do
      let statements ← readLines start lines
      let others ← readLines (start + byteLength lines.flatten) more
      return statements ++ others := by
  induction lines generalizing start with
  | nil => exact (bind_pure (readLines start more)).symm
  | cons line lines ih =>
    rw [List.cons_append, readLines, readLines, List.flatten_cons, byteLength_append,
      ← Nat.add_assoc, ih]
    cases StatementLine.ofLine? start line with
    | none => rfl
    | some found =>
      simp only
      cases found.statement with
      | error fault => rfl
      | ok statement =>
        cases readLines (start + byteLength line) lines with
        | error fault => rfl
        | ok statements =>
          cases readLines (start + byteLength line + byteLength lines.flatten) more with
          | error fault => rfl
          | ok others => rfl

/-- A line feed at the end of a script changes nothing. -/
theorem readLines_concat_newline (start : Nat) (a : List Char) :
    readLines start (splitLines (a ++ ['\n'])) = readLines start (splitLines a) := by
  rcases splitLines_concat_newline a with h | ⟨front, last, ha, h⟩
  · have hblank (start : Nat) : readLines start [['\n']] = .ok [] := rfl
    rw [h, readLines_append, hblank]
    cases readLines start (splitLines a) with
    | error fault => rfl
    | ok statements => exact congrArg Except.ok (List.append_nil statements)
  · have hlast (start : Nat) : readLines start [last ++ ['\n']] = readLines start [last] := by
      rw [readLines, readLines, StatementLine.ofLine?_concat_newline]
      rfl
    rw [h, ha, readLines_append, readLines_append, hlast]

/-! ## Reading scripts -/

namespace Script

/-- Two texts with a line feed between them are read one after the other. If the first one is refused,
so are both, with its error; if only the second one is refused, both are with its error, which is
then further on by the bytes of the first one and of the line feed, and otherwise as it was; and if
neither is refused, the statements of the second one follow those of the first, further on as well. -/
theorem parseText_append_newline (file : Nat) (a b : List Char) :
    parseText file (a ++ '\n' :: b) =
      match parseText file a, parseText file b with
      | .error error, _ => .error error
      | .ok _, .error error => .error (error.later (byteLength a + 1))
      | .ok first, .ok second =>
        .ok ⟨first.statements ++ second.statements.map (·.later (byteLength a + 1))⟩ := by
  have hbytes : byteLength (splitLines (a ++ ['\n'])).flatten = byteLength a + 1 + 0 := by
    rw [flatten_splitLines, byteLength_append]
    rfl
  have hboth : readLines 0 (splitLines (a ++ '\n' :: b)) = do
      let statements ← readLines 0 (splitLines a)
      let others ← ((readLines 0 (splitLines b)).map (·.map (·.later (byteLength a + 1)))).mapError
        (·.later (byteLength a + 1))
      return statements ++ others := by
    rw [splitLines_append_newline, readLines_append, readLines_concat_newline, Nat.zero_add, hbytes,
      readLines_add]
  unfold parseText parse
  rw [hboth]
  cases readLines 0 (splitLines a) with
  | error fault => rfl
  | ok statements =>
    cases readLines 0 (splitLines b) with
    | error fault => rfl
    | ok others => rfl

end Script

end Docweave
