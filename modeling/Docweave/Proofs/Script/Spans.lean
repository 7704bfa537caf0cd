import Docweave.ParseError
import Docweave.Proofs.Script.StatementLines
import Docweave.Proofs.Text.Marks
import Docweave.Proofs.Text.Places
import Mathlib.Data.List.Forall2

set_option autoImplicit false

/-! # The ranges of statements and of errors

A report shows the part of a text that a statement or an error is about, so its range has to lie in the
text and must not cut a character. The statements of an accepted script are its lines, without comments
and without the blanks around them. What is wrong with a rejected script is wrong with its first line that
is no script by itself, and the error lies on that line (`spans_of_parse`). -/

namespace Docweave

open Docweave.Text

/-! ## Ranges in a text -/

/-- The range runs forwards, from one boundary of the text to another. -/
structure Text.Span.Fits (span : Span) (s : List Char) : Prop where
  forwards : span.start ≤ span.stop
  start : IsBoundary s span.start
  stop : IsBoundary s span.stop

theorem Text.Span.Cuts.fits {span : Span} {s part : List Char} (h : span.Cuts s part) : span.Fits s := by
  refine ⟨?_, h.isBoundary_start, h.isBoundary_stop⟩
  obtain ⟨before, after, -, rfl⟩ := h
  exact Nat.le_add_right _ _

theorem Text.Span.fits_point {s : List Char} {offset : Nat} (h : IsBoundary s offset) :
    (Span.point offset).Fits s :=
  ⟨Nat.le_refl _, h, h⟩

/-- A range in a part of a text is one in the text, and does not leave the part. -/
theorem Text.Span.Fits.later {outer span : Span} {s part : List Char} (h : span.Fits part)
    (houter : outer.Cuts s part) :
    (span.later outer.start).Fits s ∧ outer.start ≤ (span.later outer.start).start ∧
      (span.later outer.start).stop ≤ outer.stop := by
  have hstop := h.stop.le
  obtain ⟨before, after, rfl, rfl⟩ := houter
  refine ⟨⟨Nat.add_le_add_left h.forwards _, h.start.within before after, h.stop.within before after⟩,
    Nat.le_add_right _ _, Nat.add_le_add_left hstop _⟩

/-! ## Problems that no words make -/

/-- The problem is not one of a fragment. -/
def ScriptProblem.NoFragment (problem : ScriptProblem) : Prop := ∀ error, problem ≠ .badFragment error

theorem noFragment_of_readString {s : List Char} {problem : ScriptProblem}
    (h : readString s = .error problem) : problem.NoFragment := by
  fun_induction readString s with
  | case1 | case3 | case5 =>
    cases h
    intro error heq
    cases heq
  | case2 => cases h
  | case4 c rest d _ ih => exact ih (map_eq_error h)
  | case6 c rest _ _ _ ih => exact ih (map_eq_error h)

theorem noFragment_of_readWords {s : List Char} {problem : ScriptProblem}
    (h : readWords s = .error problem) : problem.NoFragment := by
  fun_induction readWords s with
  | case1 => cases h
  | case2 c rest _ ih => exact ih h
  | case3 rest error hstring =>
    cases h
    exact noFragment_of_readString hstring
  | case4 rest text after _ _ ih => exact ih (map_eq_error h)
  | case5 c rest _ _ _ ih => exact ih (map_eq_error h)

theorem noFragment_of_readPathWord {path : String} {problem : ScriptProblem}
    (h : readPathWord path = .error problem) : problem.NoFragment := by
  unfold readPathWord at h
  cases hpath : ElementPath.parse path with
  | ok parsed =>
    rw [hpath] at h
    cases h
  | error error =>
    rw [hpath] at h
    cases h
    nofun

theorem noFragment_of_readCondition {words : List Word} {problem : ScriptProblem}
    (h : readCondition words = .error problem) : problem.NoFragment := by
  unfold readCondition at h
  split at h
  · exact noFragment_of_readPathWord (map_eq_error h)
  · split at h
    · exact noFragment_of_readPathWord (map_eq_error h)
    · exact noFragment_of_readPathWord (map_eq_error h)
    · cases h
      nofun
  · cases h
    nofun

theorem noFragment_of_readCountWord {text : String} {problem : ScriptProblem}
    (h : readCountWord text = .error problem) : problem.NoFragment := by
  unfold readCountWord at h
  split at h
  · cases h
  · cases h
    nofun

theorem noFragment_of_descendant {key : String} {problem : ScriptProblem}
    (h : (ElementPath.descendant key).mapError .badPath = .error problem) : problem.NoFragment := by
  cases hpath : ElementPath.descendant key with
  | ok parsed =>
    rw [hpath] at h
    cases h
  | error error =>
    rw [hpath] at h
    cases h
    nofun

theorem noFragment_of_readCommand {keyword : String} {words : List Word} {problem : ScriptProblem}
    (h : readCommand keyword words = .error problem) : problem.NoFragment := by
  unfold readCommand at h
  split at h
  · exact noFragment_of_descendant (map_eq_error h)
  · exact noFragment_of_descendant (map_eq_error h)
  · cases h
  · exact noFragment_of_readCondition (map_eq_error h)
  · exact noFragment_of_readCondition (map_eq_error h)
  · exact noFragment_of_readCountWord (map_eq_error h)
  · exact noFragment_of_readCountWord (map_eq_error h)
  · cases h
  · cases h
  · cases h
  · cases h
  · exact noFragment_of_readPathWord (map_eq_error h)
  · exact noFragment_of_readPathWord (map_eq_error h)
  · split at h
    · cases h
      nofun
    · cases h
      nofun

/-! ## Where a line is wrong -/

/-- A fault is placed where a part of the document ends. -/
theorem Xml.Fault.exists_place_eq (fault : Xml.Fault) (document : List Char) :
    ∃ before after, document = before ++ after ∧ fault.place document = RowCol.after before := by
  unfold Xml.Fault.place
  split
  · exact ⟨[], document, rfl, rfl⟩
  · exact ⟨_, _, (List.take_append_drop _ document).symm, rfl⟩

/-- The row and column that a problem is worded with and its offset are one place of the document. -/
theorem Xml.place_of_parse {s : List Char} {error : Xml.Error} (h : Xml.parse s = .error error) :
    ∃ before after, s = before ++ after ∧ error.place = RowCol.after before ∧
      error.offset = byteLength before := by
  unfold Xml.parse at h
  cases hdocument : Xml.readDocument s with
  | ok document =>
    rw [hdocument] at h
    cases h
  | error fault =>
    rw [hdocument] at h
    cases h
    obtain ⟨before, after, rfl, hplace⟩ := fault.exists_place_eq s
    exact ⟨before, after, rfl, hplace, by simp only [hplace, byteOffset_after]⟩

theorem Xml.isBoundary_of_parse {s : List Char} {error : Xml.Error} (h : Xml.parse s = .error error) :
    IsBoundary s error.offset := by
  obtain ⟨before, after, hs, -, hoffset⟩ := Xml.place_of_parse h
  exact ⟨before, after, hs, hoffset⟩

namespace StatementLine

variable {line : StatementLine}

/-- What follows the keyword ends the statement. -/
theorem exists_append_parts (h : IsTrimmed line.text) : ∃ front, line.text = front ++ line.parts.2 := by
  unfold parts
  cases hsplit : splitAtFirst? isBlank line.text with
  | none => exact ⟨line.text, (List.append_nil _).symm⟩
  | some cut =>
    obtain ⟨keyword, rest⟩ := cut
    obtain ⟨blank, htext, -⟩ := exists_of_splitAtFirst? hsplit
    obtain ⟨before, after, hrest, -, hafter⟩ := exists_blanks_trim rest
    have hparts : line.text = keyword ++ blank :: before ++ trim rest ++ after := by
      rw [htext]
      conv_lhs => rw [hrest]
      simp
    obtain rfl : after = [] := (hparts ▸ h).eq_nil_of_allBlank hafter
    exact ⟨keyword ++ blank :: before, by rw [hparts, List.append_nil]⟩

/-- The words of a statement have their own problems, and a fragment has those of a document. -/
theorem parse_of_command {error : Xml.Error} (h : line.command = .error (.badFragment error)) :
    Xml.parse line.parts.2 = .error error := by
  unfold command at h
  simp only at h
  split at h
  · unfold readFragment at h
    split at h
    · cases h
    · have hproblem := map_eq_error h
      cases hparse : Xml.parse line.parts.2 with
      | ok element =>
        rw [hparse] at hproblem
        cases hproblem
      | error found =>
        rw [hparse] at hproblem
        cases hproblem
        rfl
  · split at h
    · next hwords =>
      cases h
      exact absurd rfl (noFragment_of_readWords hwords error)
    · exact absurd rfl (noFragment_of_readCommand h error)

/-- A problem of a line lies on the line. -/
theorem fits_spanOf (hstart : line.start = 0) (htext : IsTrimmed line.text) {problem : ScriptProblem}
    (h : line.command = .error problem) : (line.spanOf problem).Fits line.text := by
  have hcuts : line.span.Cuts line.text line.text := ⟨[], [], by simp, by rw [span, hstart]; rfl⟩
  have hwhole : line.span.Fits line.text := hcuts.fits
  cases problem with
  | badFragment error =>
    obtain ⟨front, hfront⟩ := exists_append_parts htext
    have hbytes : byteLength line.text = byteLength front + byteLength line.parts.2 :=
      (congrArg byteLength hfront).trans (byteLength_append _ _)
    have hplace := (Xml.isBoundary_of_parse (parse_of_command h)).within front []
    rw [List.append_nil, ← hfront] at hplace
    have hspan : line.spanOf (.badFragment error) = .point (byteLength front + error.offset) := by
      unfold spanOf
      simp only [hstart, hbytes, Nat.add_sub_cancel_right, Nat.zero_add]
    rw [hspan]
    exact Span.fits_point hplace
  | _ => exact hwhole

end StatementLine

/-! ## Scripts of one line -/

section Alone

variable {text : List Char} (htext : IsTrimmed text) (hne : text ≠ []) (hfeed : '\n' ∉ text)

include htext hne hfeed

theorem readLines_alone (start : Nat) :
    readLines start (splitLines text) =
      if text.head? = some '#' then .ok []
      else (StatementLine.statement ⟨start, text⟩).map ([·]) := by
  have hline := StatementLine.ofLine?_trimmed .nil .nil htext hne start
  rw [List.nil_append, List.append_nil, byteLength_nil, Nat.add_zero] at hline
  rw [splitLines_of_notMem hfeed hne, readLines, hline]
  by_cases hcomment : text.head? = some '#'
  · simp only [if_pos hcomment]
    rfl
  · simp only [if_neg hcomment]
    cases StatementLine.statement ⟨start, text⟩ with
    | ok statement => rfl
    | error fault => rfl

/-- A comment by itself is a script without statements. -/
theorem Script.parseText_comment (file : Nat) (hcomment : text.head? = some '#') :
    Script.parseText file text = .ok ⟨[]⟩ := by
  unfold parseText parse
  rw [readLines_alone htext hne hfeed, if_pos hcomment]
  rfl

/-- A line that is no comment is a script of the one statement that it makes. -/
theorem Script.parseText_alone (file : Nat) (hcomment : text.head? ≠ some '#') :
    Script.parseText file text =
      match StatementLine.statement ⟨0, text⟩ with
      | .ok statement => .ok ⟨[statement]⟩
      | .error fault => .error ⟨.script fault.problem, fault.span, file⟩ := by
  unfold parseText parse
  rw [readLines_alone htext hne hfeed, if_neg hcomment]
  cases StatementLine.statement ⟨0, text⟩ with
  | ok statement => rfl
  | error fault => rfl

end Alone

theorem StatementLine.statement_eq (line : StatementLine) :
    line.statement =
      ((StatementLine.statement ⟨0, line.text⟩).map (·.later line.start)).mapError (·.later line.start) :=
  StatementLine.statement_later line.start ⟨0, line.text⟩

/-! ## Accepted scripts -/

/-- The statements stand in order on the lines that are neither blank nor comments, one on each, and
without the blanks around them. -/
structure Script.StandsOnLines (source : List Char) (script : Script) : Prop where
  /-- Each statement ends before the next one starts. -/
  apart : script.statements.Pairwise fun a b => a.span.stop < b.span.start
  nonempty : ∀ statement ∈ script.statements, statement.span.start < statement.span.stop
  fits : ∀ statement ∈ script.statements, statement.span.Fits source
  lines : ∀ span, span ∈ script.statements.map (·.span) ↔
    ∃ text, IsStrippedLine source span text ∧ text.head? ≠ some '#'

theorem StatementLine.span_of_statement {line : StatementLine} {statement : Statement}
    (h : line.statement = .ok statement) : statement.span = line.span := by
  unfold StatementLine.statement at h
  split at h
  · cases h
    rfl
  · cases h

theorem map_span_of_readLines {start : Nat} {lines : List (List Char)} {statements : List Statement}
    (h : readLines start lines = .ok statements) :
    statements.map (·.span) = (statementLines start lines).map (·.span) := by
  rw [← List.forall₂_eq_eq_eq, List.forall₂_map_left_iff, List.forall₂_map_right_iff]
  exact (forall₂_of_readLines h).flip.imp fun _ _ => StatementLine.span_of_statement

theorem Script.standsOnLines_of_parse {source : List Char} {script : Script}
    (h : Script.parse source = .ok script) : script.StandsOnLines source := by
  obtain ⟨statements, hlines, rfl⟩ := map_eq_ok_iff.1 h
  have hspans := map_span_of_readLines hlines
  have hstripped (span : Span) : span ∈ statements.map (·.span) ↔
      ∃ text, IsStrippedLine source span text ∧ text.head? ≠ some '#' := by
    rw [hspans, List.mem_map]
    constructor
    · rintro ⟨line, hmem, rfl⟩
      exact ⟨line.text, mem_statementLines_iff.1 hmem⟩
    · rintro ⟨text, hline, hcomment⟩
      have hspan : (⟨span.start, text⟩ : StatementLine).span = span := by
        obtain ⟨before, lead, trail, after, -, -, -, -, -, rfl⟩ := hline
        rfl
      exact ⟨⟨span.start, text⟩, mem_statementLines hline hcomment, hspan⟩
  refine ⟨?_, fun statement hmem => ?_, fun statement hmem => ?_, hstripped⟩
  · have hapart := pairwise_statementLines 0 source
    rw [← List.pairwise_map (R := fun a b : Span => a.stop < b.start)] at hapart ⊢
    rwa [hspans]
  · obtain ⟨text, hline, -⟩ := (hstripped _).1 (List.mem_map_of_mem hmem)
    exact hline.cuts.start_lt_stop hline.ne_nil
  · obtain ⟨text, hline, -⟩ := (hstripped _).1 (List.mem_map_of_mem hmem)
    exact hline.cuts.fits

/-! ## Rejected scripts -/

/-- The error is the one that a line makes by itself, at its place, and the first such line is the one
that has the bytes `line`. -/
structure IsFirstFault (file : Nat) (source : List Char) (error : ParseError) (line : Span)
    (text : List Char) : Prop where
  stripped : IsStrippedLine source line text
  alone : ∃ own, Script.parseText file text = .error own ∧ error = own.later line.start
  first : ∀ earlier before, IsStrippedLine source earlier before → earlier.start < line.start →
    ∃ script, Script.parseText file before = .ok script
  fits : error.span.Fits source
  within : line.start ≤ error.span.start ∧ error.span.stop ≤ line.stop

/-- The problem of a line is the one that its text makes by itself. -/
theorem StatementLine.exists_problem_of_statement {line : StatementLine} {fault : ScriptFault}
    (h : line.statement = .error fault) :
    ∃ problem, StatementLine.command ⟨0, line.text⟩ = .error problem ∧
      fault = ⟨problem, (StatementLine.spanOf ⟨0, line.text⟩ problem).later line.start⟩ := by
  rw [StatementLine.statement_eq, StatementLine.statement] at h
  cases hcommand : StatementLine.command ⟨0, line.text⟩ with
  | ok command =>
    rw [hcommand] at h
    cases h
  | error problem =>
    rw [hcommand] at h
    cases h
    exact ⟨problem, rfl, rfl⟩

/-- A line that starts before another one is read before it. -/
theorem mem_of_start_lt {source : List Char} {passed rest : List StatementLine}
    {line earlier : StatementLine}
    (hlines : statementLines 0 (splitLines source) = passed ++ line :: rest)
    (hmem : earlier ∈ statementLines 0 (splitLines source)) (hlt : earlier.start < line.start) :
    earlier ∈ passed := by
  have hapart := pairwise_statementLines 0 source
  rw [hlines] at hmem hapart
  rcases List.mem_append.1 hmem with hpast | hafter
  · exact hpast
  -- the line itself and those behind it do not start before it
  · rcases List.mem_cons.1 hafter with rfl | hafter
    · exact absurd hlt (Nat.lt_irrefl _)
    · have hlater := List.rel_of_pairwise_cons (List.pairwise_append.1 hapart).2.1 hafter
      have hlong : line.start ≤ line.span.stop := Nat.le_add_right _ _
      have hback : line.span.stop < earlier.start := hlater
      omega

/-- A line is a script by itself if it is a comment or has a statement. -/
theorem Text.IsStrippedLine.exists_parseText {source text : List Char} {span : Span}
    (h : IsStrippedLine source span text) (file : Nat)
    (hstatement : text.head? ≠ some '#' →
      ∃ statement, StatementLine.statement ⟨span.start, text⟩ = .ok statement) :
    ∃ script, Script.parseText file text = .ok script := by
  by_cases hcomment : text.head? = some '#'
  · exact ⟨_, Script.parseText_comment h.isTrimmed h.ne_nil h.newline_notMem file hcomment⟩
  · obtain ⟨statement, hstatement⟩ := hstatement hcomment
    rw [StatementLine.statement_eq] at hstatement
    rw [Script.parseText_alone h.isTrimmed h.ne_nil h.newline_notMem file hcomment]
    cases hown : StatementLine.statement ⟨0, text⟩ with
    | ok own => exact ⟨_, rfl⟩
    | error fault =>
      rw [hown] at hstatement
      cases hstatement

theorem exists_isFirstFault (file : Nat) {source : List Char} {error : ParseError}
    (h : Script.parseText file source = .error error) :
    ∃ line text, IsFirstFault file source error line text := by
  obtain ⟨fault, hfault, rfl⟩ : ∃ fault, readLines 0 (splitLines source) = .error fault ∧
      error = ⟨.script fault.problem, fault.span, file⟩ := by
    unfold Script.parseText Script.parse at h
    cases hlines : readLines 0 (splitLines source) with
    | ok statements =>
      rw [hlines] at h
      cases h
    | error fault =>
      rw [hlines] at h
      cases h
      exact ⟨fault, rfl, rfl⟩
  obtain ⟨passed, line, rest, hlines, hpassed, hline⟩ := exists_first_of_readLines hfault
  have hmem : line ∈ statementLines 0 (splitLines source) :=
    hlines ▸ List.mem_append_right _ List.mem_cons_self
  obtain ⟨hstripped, hcomment⟩ := mem_statementLines_iff.1 hmem
  obtain ⟨problem, hcommand, hown⟩ := StatementLine.exists_problem_of_statement hline
  have hstart : StatementLine.start ⟨0, line.text⟩ = 0 := rfl
  have hfits := StatementLine.fits_spanOf hstart hstripped.isTrimmed hcommand
  obtain ⟨hwhole, hwithin⟩ := hfits.later hstripped.cuts
  refine ⟨line.span, line.text, hstripped, ?_, fun earlier before hbefore hlt => ?_, hown ▸ hwhole,
    hown ▸ hwithin⟩
  · rw [Script.parseText_alone hstripped.isTrimmed hstripped.ne_nil hstripped.newline_notMem file
      hcomment, StatementLine.statement, hcommand]
    exact ⟨_, rfl, by rw [hown]; rfl⟩
  · refine hbefore.exists_parseText file fun hcomment' => ?_
    exact hpassed _ (mem_of_start_lt hlines (mem_statementLines hbefore hcomment') hlt)

/-! ## All ranges -/

/-- Of an accepted script the ranges of the statements are its lines without comments, blank lines and
the blanks around them. The error of a rejected script is the one that its first faulty line makes by
itself, and its range lies on that line. The error of a document is at a boundary of its text. -/
theorem spans_of_parse (file : Nat) (source : List Char) :
    (∀ script, Script.parseText file source = .ok script → script.StandsOnLines source) ∧
      (∀ error, Script.parseText file source = .error error →
        ∃ line text, IsFirstFault file source error line text) ∧
      ∀ error, Element.parse file (.ofList source) = .error error → error.span.Fits source := by
  refine ⟨fun script h => ?_, fun error h => exists_isFirstFault file h, fun error h => ?_⟩
  · unfold Script.parseText at h
    cases hparse : Script.parse source with
    | ok found =>
      rw [hparse] at h
      cases h
      exact Script.standsOnLines_of_parse hparse
    | error fault =>
      rw [hparse] at h
      cases h
  · unfold Element.parse at h
    rw [String.toList_ofList] at h
    cases hparse : Xml.parse source with
    | ok element =>
      rw [hparse] at h
      cases h
    | error found =>
      rw [hparse] at h
      cases h
      exact Span.fits_point (Xml.isBoundary_of_parse hparse)

/-- The attribute of the fragment on the last line has no quotation marks, and the error points there. -/
theorem spans_of_parse_unquoted :
    let source := "  limit 2\n# one more\n\tappend <item id=1/>\n".toList
    ∃ error line text, Script.parseText 0 source = .error error ∧ error.span = .point 38 ∧
      IsFirstFault 0 source error line text := by
  intro source
  have hspan : (match Script.parseText 0 source with
      | .error error => some error.span
      | .ok _ => none) = some (.point 38) := by decide +kernel
  cases hparse : Script.parseText 0 source with
  | ok script =>
    rw [hparse] at hspan
    cases hspan
  | error error =>
    rw [hparse] at hspan
    obtain ⟨line, text, hfault⟩ := (spans_of_parse 0 source).2.1 error hparse
    exact ⟨error, line, text, rfl, Option.some.inj hspan, hfault⟩

end Docweave
