import Docweave.Path.Select
import Docweave.Proofs.Path.Bracketed
import Docweave.Proofs.Script.OneLine
import Docweave.Proofs.Script.Words

set_option autoImplicit false

/-! # Statements about a path

Four statements take a path and nothing else. The words of a statement end at blanks, also inside the
brackets and quotation marks of a path: `parse_pathStatement` says that a path can be written in such a
statement just if it has no blanks but those around it, and that the statement then is about the same
nodes. -/

namespace Docweave

open Docweave.Text

/-! ## The ends of a path -/

/-- A quotation mark of a string literal stands at neither end of the text. -/
structure IsUnquoted (s : List Char) : Prop where
  head : s.head? ≠ some '"'
  last : s.getLast? ≠ some '"'

theorem IsUnquoted.append {s t : List Char} (hs : IsUnquoted s) (ht : IsUnquoted t) :
    IsUnquoted (s ++ t) := by
  constructor
  · rw [List.head?_append]
    cases h : s.head? with
    | none => exact ht.head
    | some c => exact fun hc => hs.head (h.trans hc)
  · rw [List.getLast?_append]
    cases h : t.getLast? with
    | none => exact hs.last
    | some c => exact fun hc => ht.last (h.trans hc)

theorem isUnquoted_nil : IsUnquoted [] := ⟨nofun, nofun⟩

theorem isUnquoted_singleton {c : Char} (h : c ≠ '"') : IsUnquoted [c] :=
  ⟨fun hc => h (Option.some.inj hc), fun hc => h (Option.some.inj hc)⟩

theorem NameTest.WrittenAs.isUnquoted {test : NameTest} {name : List Char}
    (h : test.WrittenAs name) : IsUnquoted name := by
  refine ⟨h.head?_ne_quote, ?_⟩
  obtain ⟨rest, c, rfl, hc⟩ := h.exists_concat
  rw [List.getLast?_concat]
  intro hquote
  obtain rfl : c = '"' := Option.some.inj hquote
  rcases hc with hc | hc
  all_goals cases hc

/-- Predicates start with an opening bracket and end with a closing one. -/
theorem isUnquoted_of_readPredicates {text : String} {s : List Char} {predicates : List Predicate}
    (h : readPredicates text s = .ok predicates) : IsUnquoted s := by
  replace h := inBrackets_of_readPredicates h
  induction h with
  | nil => exact isUnquoted_nil
  | @cons rest inner after predicate later hclose _ _ ih =>
    have hrest := (closedAfter_of_splitAtClose? hclose).1
    have hbrackets : IsUnquoted ('[' :: (inner ++ [']'])) := by
      refine ⟨by simp, ?_⟩
      rw [← List.cons_append, List.getLast?_concat]
      simp
    have happend := hbrackets.append ih
    rw [hrest]
    simpa using happend

theorem isUnquoted_of_readStep {text : String} {below : Bool} {segment : List Char} {step : Step}
    (h : readStep text below segment = .ok step) : IsUnquoted segment := by
  obtain ⟨predicates, hpredicates, hname⟩ := readStep_eq_ok_iff.1 h
  have hends : IsUnquoted (segment.takeWhile (· != '[')) := by
    rcases hname with ⟨hself, -, -⟩ | ⟨test, htest, -⟩
    · exact hself ▸ isUnquoted_singleton (by decide)
    · exact htest.isUnquoted
  have happend := hends.append (isUnquoted_of_readPredicates hpredicates)
  rwa [List.takeWhile_append_dropWhile] at happend

theorem isUnquoted_of_readSteps {text : String} {below : Bool} {segments : List (List Char)}
    {steps : List Step} (h : readSteps text below segments = .ok steps) :
    IsUnquoted (['/'].intercalate segments) := by
  induction segments generalizing below steps with
  | nil => exact isUnquoted_nil
  | cons segment rest ih =>
    have hparts : IsUnquoted segment ∧ IsUnquoted (['/'].intercalate rest) := by
      cases segment with
      | nil => exact ⟨isUnquoted_nil, ih (readSteps_nil_cons_eq_ok_iff.1 h).2⟩
      | cons c name =>
        obtain ⟨step, later, hstep, hlater, -⟩ :=
          (readSteps_cons_eq_ok_iff (List.cons_ne_nil _ _)).1 h
        exact ⟨isUnquoted_of_readStep hstep, ih hlater⟩
    cases rest with
    | nil =>
      rw [List.intercalate_singleton]
      exact hparts.1
    | cons next rest =>
      rw [List.intercalate_cons_cons]
      exact (hparts.1.append (isUnquoted_singleton (by decide))).append hparts.2

namespace ElementPath

theorem isUnquoted_of_parse {p : String} {path : ElementPath} (h : parse p = .ok path) :
    IsUnquoted (trim p.toList) := by
  obtain ⟨c, rest, segments, steps, htrim, -, hsegments, hsteps, -⟩ := parse_eq_ok_iff.1 h
  have hsteps := isUnquoted_of_readSteps hsteps
  rw [intercalate_of_splitSegments? hsegments, ← htrim] at hsteps
  rcases eq_dropFinal_or '/' (trim p.toList) with heq | heq
  · rwa [← heq] at hsteps
  · rw [heq]
    exact hsteps.append (isUnquoted_singleton (by decide))

theorem trim_ne_nil_of_parse {p : String} {path : ElementPath} (h : parse p = .ok path) :
    trim p.toList ≠ [] := by
  obtain ⟨c, rest, segments, steps, htrim, -⟩ := parse_eq_ok_iff.1 h
  rw [htrim]
  exact List.cons_ne_nil _ _

/-- The blanks around a path have no part in its steps. -/
theorem parse_trim {p : String} {path : ElementPath} (h : parse p = .ok path) :
    parse (.ofList (trim p.toList)) = .ok ⟨.ofList (trim p.toList), path.steps⟩ := by
  obtain ⟨c, rest, segments, steps, htrim, hc, hsegments, hsteps, rfl⟩ := parse_eq_ok_iff.1 h
  have hagain : trim (String.ofList (trim p.toList)).toList = c :: rest := by
    rw [String.toList_ofList, (isTrimmed_trim _).trim_eq, htrim]
  exact parse_eq_ok_iff.2 ⟨c, rest, segments, steps, hagain, hc, hsegments,
    readSteps_congr hsteps _, rfl⟩

end ElementPath

/-! ## The four statements -/

/-- What is done with a path. -/
inductive PathVerb where
  /-- The text that the path finds in each record is emitted. -/
  | print
  /-- The path must find something in each record. -/
  | require
  /-- The records in which the path finds something are kept. -/
  | keep
  /-- The records in which the path finds something are dropped. -/
  | drop
deriving DecidableEq, Repr

namespace PathVerb

/-- The keyword of the statement. -/
def keyword : PathVerb → String
  | print => "print"
  | require => "assert"
  | keep => "keep"
  | drop => "drop"

/-- The command of the statement. -/
def command (path : ElementPath) : PathVerb → Command
  | print => .print path
  | require => .require path
  | keep => .keep (.found path)
  | drop => .drop (.found path)

/-- The script with the one statement about a path. -/
def script (p : String) (verb : PathVerb) : List Char := verb.keyword.toList ++ ' ' :: p.toList

theorem isKeyword (verb : PathVerb) : IsKeyword verb.keyword.toList := by
  cases verb
  all_goals decide

/-- One bare word is read as a path. -/
theorem readCommand_bare (verb : PathVerb) (word : String) :
    readCommand verb.keyword [.bare word] = (readPathWord word).map (verb.command ·) := by
  cases verb with
  | print | require => rfl
  | keep | drop =>
    change ((readPathWord word).map _).map _ = _
    cases readPathWord word with
    | error problem => rfl
    | ok path => rfl

/-- More than one word is accepted only with a string literal at the end. -/
theorem getLast?_of_readCommand {verb : PathVerb} {first second : Word} {more : List Word}
    {command : Command} (h : readCommand verb.keyword (first :: second :: more) = .ok command) :
    ∃ value, (first :: second :: more).getLast? = some (.quoted value) := by
  have hcondition {condition : Condition}
      (h : readCondition (first :: second :: more) = .ok condition) :
      ∃ value, (first :: second :: more).getLast? = some (.quoted value) := by
    unfold readCondition at h
    split at h
    · next heq => cases heq
    · next value heq =>
      cases heq
      exact ⟨value, rfl⟩
    · cases h
  cases verb with
  | print | require =>
    cases first
    all_goals cases h
  | keep | drop =>
    obtain ⟨condition, hread, -⟩ := map_eq_ok_iff.1 h
    exact hcondition hread

end PathVerb

/-- A text without a quotation mark at its ends is accepted just if it is one bare word. -/
theorem unbroken_of_readCommand {verb : PathVerb} {s : List Char} {words : List Word}
    {command : Command} (htrim : IsTrimmed s) (hends : IsUnquoted s) (hwords : readWords s = .ok words)
    (h : readCommand verb.keyword words = .ok command) : IsUnbroken s := by
  cases s with
  | nil => exact fun c hc => absurd hc List.not_mem_nil
  | cons c rest =>
    have hblank : isBlank c = false := htrim.head c rfl
    have hquote : c ≠ '"' := fun hc => hends.head (congrArg some hc)
    have hparts : c :: rest = (c :: rest.takeWhile (!isBlank ·)) ++ rest.dropWhile (!isBlank ·) := by
      rw [List.cons_append, List.takeWhile_append_dropWhile]
    have hread := hwords
    rw [readWords_cons hblank hquote] at hread
    obtain ⟨more, hmore, rfl⟩ := map_eq_ok_iff.1 hread
    cases more with
    | nil =>
      have hnil := (hparts ▸ htrim).eq_nil_of_allBlank (allBlank_of_readWords hmore)
      rw [hnil, List.append_nil] at hparts
      intro d hd
      rw [hparts] at hd
      rcases List.mem_cons.1 hd with rfl | hd
      · exact hblank
      · simpa using List.mem_takeWhile_imp hd
    | cons second more =>
      -- the last word is a literal, but the text does not end like one
      obtain ⟨value, hvalue⟩ := PathVerb.getLast?_of_readCommand h
      obtain ⟨before, after, htext, hafter⟩ := exists_append_of_readWords hwords hvalue
      rw [htext, List.append_cons] at htrim
      rw [htext, htrim.eq_nil_of_allBlank hafter] at hends
      exact absurd List.getLast?_concat hends.last

namespace Script

/-- The path can be given to a statement just if there is no blank in it but around it. The statement
then is about the nodes that the path finds. -/
theorem parse_pathStatement {p : String} {path : ElementPath} (hpath : ElementPath.parse p = .ok path)
    (hline : '\n' ∉ p.toList) (verb : PathVerb) :
    ((∃ script, parse (verb.script p) = .ok script) ↔ IsUnbroken (trim p.toList)) ∧
      ∀ script, parse (verb.script p) = .ok script →
        ∃ same span, script = ⟨[⟨verb.command same, span⟩]⟩ ∧
          ∀ e : Element, same.locate e = path.locate e := by
  have haccepted {script : Script} : parse (verb.script p) = .ok script ↔
      ∃ words command, readWords (trim p.toList) = .ok words ∧
        readCommand verb.keyword words = .ok command ∧
        script = ⟨[⟨command, (oneLine verb.keyword.toList p.toList).span⟩]⟩ := by
    have happend : verb.keyword.toList ≠ ['a', 'p', 'p', 'e', 'n', 'd'] := by cases verb <;> decide
    have hne := ElementPath.trim_ne_nil_of_parse hpath
    have hiff : parse (verb.script p) = .ok script ↔ _ :=
      parse_oneLine_eq_ok_iff verb.isKeyword happend hne hline
    rwa [String.ofList_toList] at hiff
  have hunbroken {words : List Word} {command : Command}
      (hwords : readWords (trim p.toList) = .ok words)
      (hcommand : readCommand verb.keyword words = .ok command) :=
    unbroken_of_readCommand (isTrimmed_trim _) (ElementPath.isUnquoted_of_parse hpath) hwords hcommand
  -- without a blank the words are the one bare word, which is read as the path
  have hbare (h : IsUnbroken (trim p.toList)) :
      readWords (trim p.toList) = .ok [.bare (.ofList (trim p.toList))] ∧
        readCommand verb.keyword [.bare (.ofList (trim p.toList))] =
          .ok (verb.command ⟨.ofList (trim p.toList), path.steps⟩) := by
    refine ⟨readWords_bare (ElementPath.trim_ne_nil_of_parse hpath) h
      (ElementPath.isUnquoted_of_parse hpath).head, ?_⟩
    rw [verb.readCommand_bare, readPathWord, ElementPath.parse_trim hpath]
    rfl
  refine ⟨⟨?_, fun h => ⟨_, haccepted.2 ⟨_, _, (hbare h).1, (hbare h).2, rfl⟩⟩⟩, fun script h => ?_⟩
  · rintro ⟨script, h⟩
    obtain ⟨words, command, hwords, hcommand, -⟩ := haccepted.1 h
    exact hunbroken hwords hcommand
  · obtain ⟨words, command, hwords, hcommand, rfl⟩ := haccepted.1 h
    obtain ⟨hbareWords, hbareCommand⟩ := hbare (hunbroken hwords hcommand)
    rw [hbareWords] at hwords
    cases hwords
    rw [hbareCommand] at hcommand
    cases hcommand
    exact ⟨_, _, rfl, fun e => rfl⟩

/-- Blanks around a path and quotation marks in its brackets do no harm. -/
theorem parse_pathStatement_quoted :
    ∃ path same span, ElementPath.parse " ./a[b='c'] " = .ok path ∧ '\n' ∉ " ./a[b='c'] ".toList ∧
      parse (PathVerb.keep.script " ./a[b='c'] ") = .ok ⟨[⟨.keep (.found same), span⟩]⟩ ∧
      ∀ e : Element, same.locate e = path.locate e := by
  have hpath : ElementPath.parse " ./a[b='c'] " = .ok ⟨" ./a[b='c'] ",
      [⟨.itself, .any, []⟩, ⟨.child, .tagged "a", [.childEquals (.tagged "b") "c"]⟩]⟩ := by
    decide +kernel
  have hline : '\n' ∉ " ./a[b='c'] ".toList := by decide
  obtain ⟨haccepted, hsame⟩ := parse_pathStatement hpath hline .keep
  obtain ⟨script, hscript⟩ := haccepted.2 (by decide +kernel)
  obtain ⟨same, span, rfl, hlocate⟩ := hsame script hscript
  exact ⟨_, same, span, hpath, hline, hscript, hlocate⟩

/-- A blank in a literal ends the word that the path should be. -/
theorem not_parse_pathStatement :
    ¬ ∀ (p : String) (path : ElementPath) (verb : PathVerb), ElementPath.parse p = .ok path →
      '\n' ∉ p.toList → ∃ same span, parse (verb.script p) = .ok ⟨[⟨verb.command same, span⟩]⟩ ∧
        ∀ e : Element, same.locate e = path.locate e := by
  intro h
  have hpath : ElementPath.parse "./a[title='Hello World']" = .ok ⟨"./a[title='Hello World']",
      [⟨.itself, .any, []⟩,
        ⟨.child, .tagged "a", [.childEquals (.tagged "title") "Hello World"]⟩]⟩ := by
    decide +kernel
  have hrefused : (parse (PathVerb.print.script "./a[title='Hello World']")).isOk = false := by
    decide +kernel
  obtain ⟨same, span, hscript, -⟩ := h _ _ .print hpath (by decide)
  rw [hscript] at hrefused
  cases hrefused

end Script

end Docweave
