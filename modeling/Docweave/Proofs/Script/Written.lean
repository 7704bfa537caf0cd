import Docweave.ParseError
import Docweave.Proofs.Script.OneLine
import Docweave.Proofs.Script.StatementLines
import Docweave.Proofs.Script.Words
import Docweave.Proofs.Text.Counts
import Docweave.Proofs.Text.Marks

set_option autoImplicit false

/-! # Writing scripts

Every command but `append` is a keyword with words behind it, and can be written as one line: the words
in order, each behind a space, and the strings among them as literals. A script that is written line by
line in this way is read as the commands that it was written from (`Script.parseText_written`), whatever
the strings are. The words have to be words: not empty, without blanks, and without a quotation mark in
front. -/

namespace Docweave

open Docweave.Text

/-! ## Words -/

/-- The text can be written as a bare word. -/
structure IsWord (text : List Char) : Prop where
  nonempty : text ≠ []
  unbroken : IsUnbroken text
  noQuote : text.head? ≠ some '"'

instance : DecidablePred IsWord := fun text =>
  decidable_of_iff (text ≠ [] ∧ IsUnbroken text ∧ text.head? ≠ some '"')
    ⟨fun h => ⟨h.1, h.2.1, h.2.2⟩, fun h => ⟨h.nonempty, h.unbroken, h.noQuote⟩⟩

namespace Word

/-- The word as it is written. -/
def written : Word → List Char
  | .bare text => text.toList
  | .quoted text => stringLiteral text.toList

/-- The word is read as it is written: any string literal is. -/
def IsWritable : Word → Prop
  | .bare text => IsWord text.toList
  | .quoted _ => True

theorem isTrimmed_written {word : Word} (h : word.IsWritable) :
    IsTrimmed word.written ∧ word.written ≠ [] := by
  cases word with
  | bare text =>
    exact ⟨h.unbroken.isTrimmed, h.nonempty⟩
  | quoted text =>
    refine ⟨⟨fun c hc => ?_, fun c hc => ?_⟩, List.cons_ne_nil _ _⟩
    · cases hc
      decide
    · rw [written, getLast?_stringLiteral] at hc
      cases hc
      decide

theorem newline_notMem_written {word : Word} (h : word.IsWritable) : '\n' ∉ word.written := by
  cases word with
  | bare text => exact fun hmem => absurd (h.unbroken _ hmem) (by decide)
  | quoted text => exact newline_notMem_stringLiteral _

end Word

/-- Words as they are written behind a keyword. -/
def writtenWords (words : List Word) : List Char := words.flatMap fun word => ' ' :: word.written

@[simp] theorem writtenWords_nil : writtenWords [] = [] := rfl

@[simp] theorem writtenWords_cons (word : Word) (words : List Word) :
    writtenWords (word :: words) = ' ' :: (word.written ++ writtenWords words) := rfl

section Words

variable {words : List Word} (h : ∀ word ∈ words, word.IsWritable)

include h

theorem isTrimmed_append_writtenWords {s : List Char} (hs : IsTrimmed s) (hne : s ≠ []) :
    IsTrimmed (s ++ writtenWords words) := by
  induction words generalizing s with
  | nil => simpa using hs
  | cons word words ih =>
    obtain ⟨hword, hmore⟩ := List.forall_mem_cons.1 h
    obtain ⟨htrimmed, hwritten⟩ := Word.isTrimmed_written hword
    have hfirst : IsTrimmed (s ++ ' ' :: word.written) := by
      refine ⟨fun c hc => ?_, fun c hc => ?_⟩
      · rw [List.head?_append_of_ne_nil _ hne] at hc
        exact hs.head c hc
      · rw [List.append_cons, List.getLast?_append_of_ne_nil _ hwritten] at hc
        exact htrimmed.last c hc
    have hrest := ih hmore hfirst (by simp)
    rwa [List.append_assoc] at hrest

theorem newline_notMem_writtenWords : '\n' ∉ writtenWords words := by
  intro hmem
  obtain ⟨word, hword, hc⟩ := List.mem_flatMap.1 hmem
  rcases List.mem_cons.1 hc with hc | hc
  · cases hc
  · exact Word.newline_notMem_written (h word hword) hc

/-- Words are read as they are written. -/
theorem readWords_writtenWords : readWords (writtenWords words) = .ok words := by
  induction words with
  | nil => rw [writtenWords_nil, readWords]
  | cons word words ih =>
    obtain ⟨hword, hmore⟩ := List.forall_mem_cons.1 h
    have hrest := ih hmore
    rw [writtenWords_cons, readWords_blank (by decide)]
    cases word with
    | quoted text =>
      rw [Word.written, readWords_stringLiteral_append, hrest, String.ofList_toList]
      rfl
    | bare text =>
      rw [Word.written]
      cases words with
      | nil =>
        rw [writtenWords_nil, List.append_nil,
          readWords_bare hword.nonempty hword.unbroken hword.noQuote, String.ofList_toList]
      | cons next more =>
        rw [writtenWords_cons, readWords_blank (by decide)] at hrest
        rw [writtenWords_cons, readWords_bare_append hword.nonempty hword.unbroken hword.noQuote
          (by decide), hrest, String.ofList_toList]
        rfl

end Words

/-- A line with a keyword and words is read by what these make of it. -/
theorem StatementLine.command_written {keyword : List Char} (hkeyword : IsKeyword keyword)
    (happend : keyword ≠ ['a', 'p', 'p', 'e', 'n', 'd']) {words : List Word}
    (h : ∀ word ∈ words, word.IsWritable) (start : Nat) :
    StatementLine.command ⟨start, keyword ++ writtenWords words⟩ = readCommand (.ofList keyword) words := by
  obtain ⟨rest, hparts, hread⟩ : ∃ rest,
      StatementLine.parts ⟨start, keyword ++ writtenWords words⟩ = (keyword, rest) ∧
        readWords rest = .ok words := by
    have hall := readWords_writtenWords h
    unfold parts
    cases words with
    | nil =>
      have hwhole : splitAtFirst? isBlank (keyword ++ writtenWords []) = none := by
        cases hsplit : splitAtFirst? isBlank (keyword ++ writtenWords []) with
        | none => rfl
        | some cut =>
          obtain ⟨blank, hcut, hblank, -⟩ := exists_of_splitAtFirst? hsplit
          have hmem : blank ∈ keyword ++ writtenWords [] :=
            hcut ▸ List.mem_append_right _ List.mem_cons_self
          rw [writtenWords_nil, List.append_nil] at hmem
          rw [hkeyword.unbroken _ hmem] at hblank
          cases hblank
      simp only [hwhole]
      exact ⟨[], by rw [writtenWords_nil, List.append_nil], hall⟩
    | cons word words =>
      obtain ⟨hword, hmore⟩ := List.forall_mem_cons.1 h
      obtain ⟨htrimmed, hne⟩ := Word.isTrimmed_written hword
      rw [writtenWords_cons, readWords_blank (by decide)] at hall
      simp only [writtenWords_cons,
        splitAtFirst?_append hkeyword.unbroken (show isBlank ' ' = true by decide)]
      exact ⟨_, by rw [(isTrimmed_append_writtenWords hmore htrimmed hne).trim_eq], hall⟩
  unfold command
  rw [hparts]
  simp only [if_neg happend, hread]

/-! ## Commands -/

namespace Condition

/-- The path of a condition. -/
def path : Condition → ElementPath
  | .found path => path
  | .equals path _ => path
  | .contains path _ => path

/-- The words that a condition is written with. -/
def words : Condition → List Word
  | .found path => [.bare path.source]
  | .equals path value => [.bare path.source, .bare "=", .quoted value]
  | .contains path value => [.bare path.source, .bare "contains", .quoted value]

end Condition

/-- The path is the one that its source writes, and this is a word. -/
structure ElementPath.IsWritable (path : ElementPath) : Prop where
  isWord : IsWord path.source.toList
  parse : ElementPath.parse path.source = .ok path

theorem readPathWord_source {path : ElementPath} (h : path.IsWritable) :
    readPathWord path.source = .ok path := by
  rw [readPathWord, h.parse]
  rfl

namespace Condition

variable {condition : Condition} (h : condition.path.IsWritable)

include h

theorem isWritable_words : ∀ word ∈ condition.words, word.IsWritable := by
  have hequals : (Word.bare "=").IsWritable := show IsWord _ by decide
  have hcontains : (Word.bare "contains").IsWritable := show IsWord _ by decide
  cases condition with
  | found path => exact List.forall_mem_singleton.2 h.isWord
  | equals path value =>
    exact List.forall_mem_cons.2
      ⟨h.isWord, List.forall_mem_cons.2 ⟨hequals, List.forall_mem_singleton.2 trivial⟩⟩
  | contains path value =>
    exact List.forall_mem_cons.2
      ⟨h.isWord, List.forall_mem_cons.2 ⟨hcontains, List.forall_mem_singleton.2 trivial⟩⟩

theorem readCondition_words : readCondition condition.words = .ok condition := by
  have hpath := readPathWord_source h
  cases condition with
  | found path => exact congrArg (Except.map found) hpath
  | equals path value => exact congrArg (Except.map (equals · value)) hpath
  | contains path value => exact congrArg (Except.map (contains · value)) hpath

end Condition

namespace Command

/-- The keyword that a command is written with. -/
def keyword : Command → String
  | .append _ => "append"
  | .sort _ false => "sort"
  | .sort _ true => "reversesort"
  | .reverse => "reverse"
  | .keep _ => "keep"
  | .drop _ => "drop"
  | .limit _ => "limit"
  | .skip _ => "skip"
  | .setText _ _ => "set"
  | .setAttr _ _ => "attr"
  | .remove _ => "remove"
  | .emit _ => "emit"
  | .print _ => "print"
  | .require _ => "assert"

/-- The words behind the keyword. What follows an `append` is no list of words. -/
def words : Command → List Word
  | .append _ => []
  | .sort key _ => [.bare key]
  | .reverse => []
  | .keep condition => condition.words
  | .drop condition => condition.words
  | .limit count => [.bare (toString count)]
  | .skip count => [.bare (toString count)]
  | .setText tag value => [.bare tag, .quoted value]
  | .setAttr name value => [.bare name, .quoted value]
  | .remove tag => [.bare tag]
  | .emit template => [.quoted template]
  | .print path => [.bare path.source]
  | .require path => [.bare path.source]

/-- The line for a command other than `append`. -/
def written (command : Command) : List Char := command.keyword.toList ++ writtenWords command.words

/-- The command is no `append`, its words can be written, its keys and paths are ones, and its count is
below the bound. -/
def IsWritable : Command → Prop
  | .append _ => False
  | .sort key _ => IsWord key.toList ∧ ∃ path, ElementPath.descendant key = .ok path
  | .reverse => True
  | .keep condition => condition.path.IsWritable
  | .drop condition => condition.path.IsWritable
  | .limit count => count < countBound
  | .skip count => count < countBound
  | .setText tag _ => IsWord tag.toList
  | .setAttr name _ => IsWord name.toList
  | .remove tag => IsWord tag.toList
  | .emit _ => True
  | .print path => path.IsWritable
  | .require path => path.IsWritable

/-- The keywords of the statements whose arguments are words. -/
def wordKeywords : List String :=
  ["sort", "reversesort", "reverse", "keep", "drop", "limit", "skip", "set", "attr", "remove", "emit",
    "print", "assert"]

theorem isKeyword_of_mem : ∀ keyword ∈ wordKeywords,
    IsKeyword keyword.toList ∧ keyword.toList ≠ ['a', 'p', 'p', 'e', 'n', 'd'] := by
  decide

variable {command : Command} (h : command.IsWritable)

include h

theorem keyword_mem : command.keyword ∈ wordKeywords := by
  cases command with
  | append record => exact absurd h id
  | sort key descending => cases descending <;> simp [keyword, wordKeywords]
  | _ => simp [keyword, wordKeywords]

theorem isWritable_words : ∀ word ∈ command.words, word.IsWritable := by
  have hcount {count : Nat} (hcount : count < countBound) : (Word.bare (toString count)).IsWritable := by
    have hread := count?_toDigits hcount
    rw [← Nat.toList_repr] at hread
    refine ⟨ne_nil_of_count? hread, isUnbroken_of_count? hread, fun hquote => ?_⟩
    exact notMem_of_count? hread (by decide) (by decide) (List.mem_of_mem_head? hquote)
  have hvalue {text value : String} (htext : IsWord text.toList) :
      ∀ word ∈ [Word.bare text, .quoted value], word.IsWritable :=
    List.forall_mem_cons.2 ⟨htext, List.forall_mem_singleton.2 trivial⟩
  cases command with
  | append record => exact absurd h id
  | sort key descending => exact List.forall_mem_singleton.2 h.1
  | reverse => exact fun _ hmem => absurd hmem List.not_mem_nil
  | keep condition => exact Condition.isWritable_words h
  | drop condition => exact Condition.isWritable_words h
  | limit count => exact List.forall_mem_singleton.2 (hcount h)
  | skip count => exact List.forall_mem_singleton.2 (hcount h)
  | setText tag value => exact hvalue h
  | setAttr name value => exact hvalue h
  | remove tag => exact List.forall_mem_singleton.2 h
  | emit template => exact List.forall_mem_singleton.2 trivial
  | print path => exact List.forall_mem_singleton.2 h.isWord
  | require path => exact List.forall_mem_singleton.2 h.isWord

theorem readCommand_words : readCommand command.keyword command.words = .ok command := by
  have hcount {count : Nat} (hcount : count < countBound) :
      readCountWord (toString count) = .ok count := by
    have hread := count?_toDigits hcount
    rw [← Nat.toList_repr] at hread
    unfold readCountWord
    rw [show (toString count).toList = count.repr.toList from rfl, hread]
  cases command with
  | append record => exact absurd h id
  | sort key descending =>
    obtain ⟨-, path, hpath⟩ := h
    cases descending with
    | false => simp [keyword, words, readCommand, hpath, Except.mapError, Except.map]
    | true => simp [keyword, words, readCommand, hpath, Except.mapError, Except.map]
  | reverse => rfl
  | keep condition => exact congrArg (Except.map keep) (Condition.readCondition_words h)
  | drop condition => exact congrArg (Except.map drop) (Condition.readCondition_words h)
  | limit count => exact congrArg (Except.map limit) (hcount h)
  | skip count => exact congrArg (Except.map skip) (hcount h)
  | setText tag value => rfl
  | setAttr name value => rfl
  | remove tag => rfl
  | emit template => rfl
  | print path => exact congrArg (Except.map print) (readPathWord_source h)
  | require path => exact congrArg (Except.map require) (readPathWord_source h)

/-- The line for a command is a statement, and has no line feed in it. -/
theorem isTrimmed_written : IsTrimmed command.written ∧ command.written ≠ [] ∧
    command.written.head? ≠ some '#' ∧ '\n' ∉ command.written := by
  obtain ⟨hkeyword, -⟩ := isKeyword_of_mem _ (keyword_mem h)
  have hwords := isWritable_words h
  refine ⟨isTrimmed_append_writtenWords hwords hkeyword.unbroken.isTrimmed hkeyword.nonempty,
    List.append_ne_nil_of_left_ne_nil hkeyword.nonempty _, ?_, fun hmem => ?_⟩
  · rw [written, List.head?_append_of_ne_nil _ hkeyword.nonempty]
    exact hkeyword.noComment
  · rcases List.mem_append.1 hmem with hmem | hmem
    · exact absurd (hkeyword.unbroken _ hmem) (by decide)
    · exact newline_notMem_writtenWords hwords hmem

theorem statement_written (start : Nat) :
    StatementLine.statement ⟨start, command.written⟩ =
      .ok ⟨command, (⟨start, command.written⟩ : StatementLine).span⟩ := by
  obtain ⟨hkeyword, happend⟩ := isKeyword_of_mem _ (keyword_mem h)
  have hcommand : StatementLine.command ⟨start, command.written⟩ = .ok command := by
    rw [written, StatementLine.command_written hkeyword happend (isWritable_words h),
      String.ofList_toList, readCommand_words h]
  rw [StatementLine.statement, hcommand]

end Command

/-! ## Scripts -/

namespace Script

/-- Commands with a line feed behind each are read as they are. -/
theorem readLines_written {commands : List Command} (h : ∀ command ∈ commands, command.IsWritable)
    (start : Nat) :
    ∃ statements, readLines start (splitLines (commands.flatMap (·.written ++ ['\n']))) = .ok statements ∧
      statements.map (·.command) = commands := by
  induction commands generalizing start with
  | nil => exact ⟨[], rfl, rfl⟩
  | cons command commands ih =>
    obtain ⟨hcommand, hmore⟩ := List.forall_mem_cons.1 h
    obtain ⟨htrimmed, hne, hcomment, hfeed⟩ := Command.isTrimmed_written hcommand
    have hline := StatementLine.ofLine?_trimmed .nil .nil htrimmed hne start
    rw [List.nil_append, List.append_nil, byteLength_nil, Nat.add_zero, if_neg hcomment] at hline
    obtain ⟨statements, hstatements, hcommands⟩ := ih hmore (start + byteLength (command.written ++ ['\n']))
    rw [List.flatMap_cons, List.append_assoc, List.singleton_append, splitLines_line hfeed, readLines,
      StatementLine.ofLine?_concat_newline, hline]
    simp only [Command.statement_written hcommand, hstatements]
    exact ⟨_, rfl, congrArg (command :: ·) hcommands⟩

/-- Lines with a line feed between them lack only the last one of the lines with a line feed behind
each. -/
theorem flatMap_concat_newline {lines : List (List Char)} (hne : lines ≠ []) :
    lines.flatMap (· ++ ['\n']) = ['\n'].intercalate lines ++ ['\n'] := by
  induction lines with
  | nil => exact absurd rfl hne
  | cons line lines ih =>
    cases lines with
    | nil => simp
    | cons next more =>
      rw [List.flatMap_cons, ih (List.cons_ne_nil _ _), List.intercalate_cons_cons]
      simp

/-- A script that is written line by line from commands is read as these commands, whether there is a
line feed behind the last one or not. The strings in the commands can be any. -/
theorem parseText_written (file : Nat) {commands : List Command}
    (h : ∀ command ∈ commands, command.IsWritable) :
    ∃ script, script.statements.map (·.command) = commands ∧
      parseText file (['\n'].intercalate (commands.map (·.written))) = .ok script ∧
      parseText file (commands.flatMap (·.written ++ ['\n'])) = .ok script := by
  obtain ⟨statements, hstatements, hcommands⟩ := readLines_written h 0
  have hsame : readLines 0 (splitLines (['\n'].intercalate (commands.map (·.written)))) =
      .ok statements := by
    by_cases hnil : commands = []
    · subst hnil
      exact hstatements
    · have hlines := flatMap_concat_newline (List.map_eq_nil_iff.not.2 hnil : commands.map (·.written) ≠ [])
      rw [List.flatMap_map] at hlines
      rw [hlines, readLines_concat_newline] at hstatements
      exact hstatements
  refine ⟨⟨statements⟩, hcommands, ?_, ?_⟩
  · rw [parseText, parse, hsame]
    rfl
  · rw [parseText, parse, hstatements]
    rfl

/-- A string with everything that is escaped in a literal, and with more that ends lines and words and
starts comments. -/
theorem parseText_written_escaped :
    let path : ElementPath := ⟨"name", [⟨.child, .tagged "name", []⟩]⟩
    let value := "\\ \"a\"\t=\r\n# b"
    let commands : List Command := [.sort "name" true, .keep (.equals path value), .limit 12, .emit value]
    (∀ command ∈ commands, command.IsWritable) ∧
      ∃ script, script.statements.map (·.command) = commands ∧
        parseText 0 (['\n'].intercalate (commands.map (·.written))) = .ok script := by
  intro path value commands
  have hname : IsWord "name".toList := by decide
  have hpath : path.IsWritable := ⟨hname, by decide +kernel⟩
  have hkey : ∃ path, ElementPath.descendant "name" = .ok path :=
    ⟨⟨".//name", [⟨.itself, .any, []⟩, ⟨.descendant, .tagged "name", []⟩]⟩, by decide +kernel⟩
  have hwritable : ∀ command ∈ commands, command.IsWritable := by
    intro command hmem
    simp only [commands, List.mem_cons, List.not_mem_nil, or_false] at hmem
    rcases hmem with rfl | rfl | rfl | rfl
    · exact ⟨hname, hkey⟩
    · exact hpath
    · exact show 12 < countBound by decide
    · trivial
  obtain ⟨script, hcommands, hread, -⟩ := parseText_written 0 hwritable
  exact ⟨hwritable, script, hcommands, hread⟩

end Script

end Docweave
