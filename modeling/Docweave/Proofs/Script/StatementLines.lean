import Docweave.Proofs.Gives
import Docweave.Proofs.Script.Sequence
import Docweave.Proofs.Text.Lines

set_option autoImplicit false

/-! # The lines that hold statements

The reader of a script comes down to two things: which lines hold statements, and what each of them
says. `mem_statementLines_iff` says that the first are the lines which are neither blank nor comments,
without the blanks at their ends, and each at its place. A script is accepted with one statement for each
of them, or refused with the problem of the first one that is no statement. -/

namespace Docweave

open Docweave.Text

/-! ## Single lines -/

namespace StatementLine

variable {start : Nat}

theorem ofLine?_of_allBlank {line : List Char} (h : AllBlank line) : ofLine? start line = none := by
  have hstart : trimStart (dropEndWhile (fun c => c == '\n' || c == '\r') line) = [] := by
    refine List.dropWhile_eq_nil_iff.2 fun c hc => h c ?_
    unfold dropEndWhile at hc
    exact List.mem_reverse.1 (List.dropWhile_sublist _ |>.subset (List.mem_reverse.1 hc))
  unfold ofLine?
  simp only [hstart]

/-- What is left of a line is its statement, unless it is a comment. -/
theorem ofLine?_trimmed {lead text trail : List Char} (hlead : AllBlank lead) (htrail : AllBlank trail)
    (htext : IsTrimmed text) (hne : text ≠ []) (start : Nat) :
    ofLine? start (lead ++ (text ++ trail)) =
      if text.head? = some '#' then none else some ⟨start + byteLength lead, text⟩ := by
  -- the line end that is cut off first is part of the blanks behind the text
  obtain ⟨blanks, hblanks, hend⟩ : ∃ blanks, AllBlank blanks ∧
      dropEndWhile (fun c => c == '\n' || c == '\r') (lead ++ (text ++ trail)) =
        lead ++ (text ++ blanks) := by
    obtain ⟨front, last, rfl⟩ := List.eq_nil_or_concat text |>.resolve_left hne
    have hlast : isBlank last = false := htext.last last (by simp)
    have hstays : (last == '\n' || last == '\r') = false := by
      rw [Bool.eq_false_iff]
      intro hfeed
      rw [Bool.or_eq_true, beq_iff_eq, beq_iff_eq] at hfeed
      rcases hfeed with rfl | rfl
      · exact absurd hlast (by decide)
      · exact absurd hlast (by decide)
    refine ⟨dropEndWhile (fun c => c == '\n' || c == '\r') trail, fun c hc => htrail c ?_, ?_⟩
    · unfold dropEndWhile at hc
      exact List.mem_reverse.1 (List.dropWhile_sublist _ |>.subset (List.mem_reverse.1 hc))
    · have hdrop := dropEndWhile_append_cons (p := fun c => c == '\n' || c == '\r') hstays (lead ++ front) trail
      simpa using hdrop
  have hstart : trimStart (lead ++ (text ++ blanks)) = text ++ blanks := by
    unfold trimStart
    rw [List.dropWhile_append_of_pos hlead]
    refine trimStart_eq_self ?_
    rw [List.head?_append_of_ne_nil _ hne]
    exact htext.head
  have htrim : trimEnd (text ++ blanks) = text := by
    unfold trimEnd
    rw [dropEndWhile_append_of_pos hblanks]
    exact dropEndWhile_eq_self htext.last
  unfold ofLine?
  simp only [hend, hstart]
  obtain ⟨c, rest, rfl⟩ := List.exists_cons_of_ne_nil hne
  by_cases hc : c = '#'
  · subst hc
    simp
  · simp only [List.cons_append] at htrim ⊢
    split
    · next heq => cases heq
    · next heq => exact absurd (List.cons.inj heq).1 hc
    · rw [htrim, if_neg (by simpa using hc)]
      simp

theorem ofLine?_eq_some_iff {line : List Char} {found : StatementLine} :
    ofLine? start line = some found ↔ ∃ lead trail, line = lead ++ (found.text ++ trail) ∧
      AllBlank lead ∧ AllBlank trail ∧ IsTrimmed found.text ∧ found.text ≠ [] ∧
      found.text.head? ≠ some '#' ∧ found.start = start + byteLength lead := by
  constructor
  · intro h
    rcases allBlank_or_exists_trimmed line with hblank | ⟨lead, text, trail, rfl, hlead, htrail, htext, hne⟩
    · rw [ofLine?_of_allBlank hblank] at h
      cases h
    · rw [ofLine?_trimmed hlead htrail htext hne] at h
      split at h
      · cases h
      · next hcomment =>
        cases h
        exact ⟨lead, trail, rfl, hlead, htrail, htext, hne, hcomment, rfl⟩
  · obtain ⟨at', text⟩ := found
    rintro ⟨lead, trail, rfl, hlead, htrail, htext, hne, hcomment, rfl⟩
    rw [ofLine?_trimmed hlead htrail htext hne, if_neg hcomment]

end StatementLine

/-! ## All lines -/

/-- The statements on some lines, of which the first starts at byte `start`. -/
def statementLines (start : Nat) : List (List Char) → List StatementLine
  | [] => []
  | line :: rest =>
    (StatementLine.ofLine? start line).toList ++ statementLines (start + byteLength line) rest

theorem statementLines_append (start : Nat) (lines more : List (List Char)) :
    statementLines start (lines ++ more) =
      statementLines start lines ++ statementLines (start + byteLength lines.flatten) more := by
  induction lines generalizing start with
  | nil => rfl
  | cons line lines ih =>
    rw [List.cons_append, statementLines, ih, statementLines, List.append_assoc, List.flatten_cons,
      byteLength_append, Nat.add_assoc]

/-- The first line of a text is looked at without its line feed. -/
theorem statementLines_line (start : Nat) {line : List Char} (h : '\n' ∉ line) (rest : List Char) :
    statementLines start (splitLines (line ++ '\n' :: rest)) =
      (StatementLine.ofLine? start line).toList ++
        statementLines (start + (byteLength line + 1)) (splitLines rest) := by
  rw [splitLines_line h, statementLines, StatementLine.ofLine?_concat_newline, byteLength_append]
  rfl

theorem statementLines_last (start : Nat) {line : List Char} (h : '\n' ∉ line) :
    statementLines start (splitLines line) = (StatementLine.ofLine? start line).toList := by
  by_cases hnil : line = []
  · subst hnil
    rfl
  · rw [splitLines_of_notMem h hnil]
    exact List.append_nil _

section Places

variable {source : List Char} {line : StatementLine}

/-- A statement on a line is what is left of the line. -/
theorem isStrippedLine_of_ofLine? {before part after : List Char} (hline : IsLine source before part after)
    (h : StatementLine.ofLine? (byteLength before) part = some line) :
    IsStrippedLine source line.span line.text ∧ line.text.head? ≠ some '#' := by
  obtain ⟨lead, trail, rfl, hlead, htrail, htext, hne, hcomment, hstart⟩ :=
    StatementLine.ofLine?_eq_some_iff.1 h
  refine ⟨⟨before, lead, trail, after, hline, hlead, htrail, htext, hne, ?_⟩, hcomment⟩
  rw [StatementLine.span, hstart]

theorem isStrippedLine_of_mem {before : List Char} (hstarts : before = [] ∨ before.getLast? = some '\n')
    (s : List Char) (h : line ∈ statementLines (byteLength before) (splitLines s)) :
    IsStrippedLine (before ++ s) line.span line.text ∧ line.text.head? ≠ some '#' := by
  induction s using lines_induction generalizing before with
  | last part hpart =>
    rw [statementLines_last _ hpart, Option.mem_toList] at h
    exact isStrippedLine_of_ofLine? ⟨by simp, hstarts, hpart, .inl rfl⟩ h
  | more part rest hpart ih =>
    rw [statementLines_line _ hpart, List.mem_append, Option.mem_toList] at h
    rcases h with h | h
    · exact isStrippedLine_of_ofLine? ⟨rfl, hstarts, hpart, .inr rfl⟩ h
    · have hbytes : byteLength before + (byteLength part + 1) =
          byteLength (before ++ (part ++ ['\n'])) := by
        rw [byteLength_append, byteLength_append]
        rfl
      rw [hbytes] at h
      have hrest := ih (.inr (by simp)) h
      simpa using hrest

/-- A line that is neither blank nor a comment is found at its place. -/
theorem mem_statementLines {span : Span} {text : List Char} (h : IsStrippedLine source span text)
    (hcomment : text.head? ≠ some '#') : ⟨span.start, text⟩ ∈ statementLines 0 (splitLines source) := by
  obtain ⟨before, lead, trail, after, hline, hlead, htrail, htext, hne, rfl⟩ := h
  have hfound : StatementLine.ofLine? (byteLength before) (lead ++ (text ++ trail)) =
      some ⟨byteLength before + byteLength lead, text⟩ := by
    rw [StatementLine.ofLine?_trimmed hlead htrail htext hne, if_neg hcomment]
  have hhere : ⟨byteLength before + byteLength lead, text⟩ ∈
      statementLines (byteLength before) (splitLines (lead ++ (text ++ trail) ++ after)) := by
    rcases hline.ends with rfl | hends
    · rw [List.append_nil, statementLines_last _ hline.whole, hfound]
      exact List.mem_singleton_self _
    · obtain ⟨rest, rfl⟩ := List.head?_eq_some_iff.1 hends
      rw [statementLines_line _ hline.whole, hfound]
      exact List.mem_append_left _ (List.mem_singleton_self _)
  rw [hline.source]
  rcases hline.starts with rfl | hstarts
  · exact hhere
  · obtain ⟨front, rfl⟩ := List.getLast?_eq_some_iff.1 hstarts
    rw [List.append_assoc, List.singleton_append, splitLines_append_newline, statementLines_append,
      flatten_splitLines, Nat.zero_add]
    exact List.mem_append_right _ hhere

/-- The statements of a script stand on the lines that are neither blank nor comments. -/
theorem mem_statementLines_iff :
    line ∈ statementLines 0 (splitLines source) ↔
      IsStrippedLine source line.span line.text ∧ line.text.head? ≠ some '#' := by
  refine ⟨fun h => ?_, fun h => mem_statementLines h.1 h.2⟩
  have hnone : ([] : List Char) = [] ∨ ([] : List Char).getLast? = some '\n' := .inl rfl
  exact isStrippedLine_of_mem hnone source h

end Places

/-! ## Their order -/

theorem start_le_of_mem {start : Nat} {lines : List (List Char)} {line : StatementLine}
    (h : line ∈ statementLines start lines) : start ≤ line.start := by
  induction lines generalizing start with
  | nil => exact absurd h List.not_mem_nil
  | cons part rest ih =>
    rw [statementLines, List.mem_append, Option.mem_toList] at h
    rcases h with h | h
    · obtain ⟨lead, -, -, -, -, -, -, -, hstart⟩ := StatementLine.ofLine?_eq_some_iff.1 h
      omega
    · have hle := ih h
      omega

/-- Each statement ends before the next one starts. -/
theorem pairwise_statementLines (start : Nat) (s : List Char) :
    (statementLines start (splitLines s)).Pairwise fun a b => a.span.stop < b.span.start := by
  induction s using lines_induction generalizing start with
  | last line hline =>
    rw [statementLines_last _ hline]
    cases StatementLine.ofLine? start line with
    | none => exact .nil
    | some found => exact List.pairwise_singleton _ _
  | more line rest hline ih =>
    rw [statementLines_line _ hline, List.pairwise_append]
    refine ⟨?_, ih _, fun a ha b hb => ?_⟩
    · cases StatementLine.ofLine? start line with
      | none => exact .nil
      | some found => exact List.pairwise_singleton _ _
    · rw [Option.mem_toList] at ha
      obtain ⟨lead, trail, hparts, -, -, -, -, -, hstart⟩ := StatementLine.ofLine?_eq_some_iff.1 ha
      have hnext := start_le_of_mem hb
      have hbytes : byteLength line = byteLength lead + (byteLength a.text + byteLength trail) := by
        rw [hparts, byteLength_append, byteLength_append]
      change a.start + byteLength a.text < b.start
      omega

/-! ## What they say -/

theorem forall₂_of_readLines {start : Nat} {lines : List (List Char)} {statements : List Statement}
    (h : readLines start lines = .ok statements) :
    List.Forall₂ (fun line statement => StatementLine.statement line = .ok statement)
      (statementLines start lines) statements := by
  induction lines generalizing start statements with
  | nil =>
    cases h
    exact .nil
  | cons line rest ih =>
    rw [readLines] at h
    rw [statementLines]
    cases hfound : StatementLine.ofLine? start line with
    | none =>
      rw [hfound] at h
      exact ih h
    | some found =>
      simp only [hfound] at h
      cases hstatement : found.statement with
      | error fault =>
        rw [hstatement] at h
        cases h
      | ok statement =>
        rw [hstatement] at h
        obtain ⟨later, hlater, rfl⟩ := map_eq_ok_iff.1 h
        exact .cons hstatement (ih hlater)

/-- The first line that holds no statement decides how a script is refused. -/
theorem exists_first_of_readLines {start : Nat} {lines : List (List Char)} {fault : ScriptFault}
    (h : readLines start lines = .error fault) :
    ∃ passed line rest, statementLines start lines = passed ++ line :: rest ∧
      (∀ earlier ∈ passed, ∃ statement, StatementLine.statement earlier = .ok statement) ∧
      line.statement = .error fault := by
  induction lines generalizing start with
  | nil => cases h
  | cons line rest ih =>
    rw [readLines] at h
    rw [statementLines]
    cases hfound : StatementLine.ofLine? start line with
    | none =>
      rw [hfound] at h
      exact ih h
    | some found =>
      simp only [hfound] at h
      cases hstatement : found.statement with
      | error problem =>
        rw [hstatement] at h
        cases h
        exact ⟨[], found, _, rfl, fun _ hmem => absurd hmem List.not_mem_nil, hstatement⟩
      | ok statement =>
        rw [hstatement] at h
        cases hrest : readLines (start + byteLength line) rest with
        | ok statements =>
          simp only [hrest] at h
          cases h
        | error problem =>
          simp only [hrest] at h
          cases h
          obtain ⟨passed, last, later, hlines, hpassed, hlast⟩ := ih hrest
          refine ⟨found :: passed, last, later, ?_, ?_, hlast⟩
          · rw [hlines]
            rfl
          · exact List.forall_mem_cons.2 ⟨⟨statement, hstatement⟩, hpassed⟩

end Docweave
