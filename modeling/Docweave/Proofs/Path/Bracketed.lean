import Docweave.Proofs.Path.Segments
import Mathlib.Data.List.Forall2

set_option autoImplicit false

/-! # The predicates of a path

What stands in brackets in a path is cut out at the first closing bracket outside of literals
(`Bracketed`), and a text is a path only if each of these contents is one of the forms that can be
written in brackets. `brackets_of_parse` says so, and what it leaves to be said of the forms: the name
of an attribute can be any text, a literal can hold the mark that delimits it, and a count can have a
plus sign. So two comparisons that are joined by a word are read as one, with a long literal. -/

namespace Docweave

open Docweave.Text

/-! ## Up to the closing bracket -/

/-- A text in which all literals are closed, and no closing bracket is outside of them. -/
inductive IsClosed : List Char → Prop
  | nil : IsClosed []
  | plain {c : Char} {rest : List Char} (hquote : ¬ IsQuote c) (hclose : c ≠ ']')
      (h : IsClosed rest) : IsClosed (c :: rest)
  | literal {mark : Char} {value rest : List Char} (hmark : IsQuote mark) (hvalue : mark ∉ value)
      (h : IsClosed rest) : IsClosed (mark :: (value ++ mark :: rest))

/-- What a text holds before the closing bracket if a literal may be open at its start. -/
def ClosedAfter (quote : Option Char) (content : List Char) : Prop :=
  match quote with
  | none => IsClosed content
  | some mark => ∃ value rest, content = value ++ mark :: rest ∧ mark ∉ value ∧ IsClosed rest

theorem closedAfter_of_splitAtClose? {quote : Option Char} {s content rest : List Char}
    (h : splitAtClose? quote s = some (content, rest)) :
    s = content ++ ']' :: rest ∧ ClosedAfter quote content := by
  induction s generalizing quote content with
  | nil => cases h
  | cons c s ih =>
    have keep {quote : Option Char}
        (h : (splitAtClose? quote s).map (fun got => (c :: got.1, got.2)) = some (content, rest)) :
        ∃ inner, content = c :: inner ∧ s = inner ++ ']' :: rest ∧ ClosedAfter quote inner := by
      obtain ⟨got, hgot, heq⟩ := Option.map_eq_some_iff.1 h
      cases heq
      exact ⟨got.1, rfl, ih hgot⟩
    unfold splitAtClose? at h
    cases quote with
    | some mark =>
      obtain ⟨inner, rfl, rfl, hinner⟩ := keep h
      refine ⟨rfl, ?_⟩
      by_cases hc : c = mark
      · rw [if_pos hc] at hinner
        exact ⟨[], inner, by rw [hc]; rfl, List.not_mem_nil, hinner⟩
      · rw [if_neg hc] at hinner
        obtain ⟨value, after, rfl, hvalue, hafter⟩ := hinner
        refine ⟨c :: value, after, rfl, ?_, hafter⟩
        rw [List.mem_cons, not_or]
        exact ⟨Ne.symm hc, hvalue⟩
    | none =>
      simp only at h
      split at h
      · next hquote =>
        obtain ⟨inner, rfl, rfl, value, after, rfl, hvalue, hafter⟩ := keep h
        exact ⟨rfl, .literal (isQuote_iff.1 hquote) hvalue hafter⟩
      · next hquote =>
        split at h
        · next hclose =>
          cases h
          exact ⟨by rw [hclose]; rfl, .nil⟩
        · next hclose =>
          obtain ⟨inner, rfl, rfl, hinner⟩ := keep h
          exact ⟨rfl, .plain (fun hq => hquote (isQuote_iff.2 hq)) hclose hinner⟩

/-- Inside of a literal only its mark is looked for. -/
theorem splitAtClose?_literal {mark : Char} {value : List Char} (h : mark ∉ value) (rest : List Char) :
    splitAtClose? (some mark) (value ++ mark :: rest) =
      (splitAtClose? none rest).map fun got => (value ++ mark :: got.1, got.2) := by
  induction value with
  | nil =>
    rw [List.nil_append, splitAtClose?]
    simp only [if_true, List.nil_append]
  | cons c value ih =>
    rw [List.mem_cons, not_or] at h
    rw [List.cons_append, splitAtClose?]
    simp only [if_neg (Ne.symm h.1), ih h.2, Option.map_map, Function.comp_def, List.cons_append]

theorem IsClosed.splitAtClose?_eq {content : List Char} (h : IsClosed content) (rest : List Char) :
    splitAtClose? none (content ++ ']' :: rest) = some (content, rest) := by
  induction h with
  | nil => rfl
  | @plain c content hquote hclose _ ih =>
    have hquote : ¬ (decide (c = '\'') || decide (c = '"')) = true := fun h => hquote (isQuote_iff.1 h)
    rw [List.cons_append, splitAtClose?]
    simp only [hquote, hclose, Bool.false_eq_true, if_false, ih, Option.map_some]
  | @literal mark value content hmark hvalue _ ih =>
    have hmark := isQuote_iff.2 hmark
    have hinner := splitAtClose?_literal hvalue (content ++ ']' :: rest)
    rw [ih] at hinner
    rw [List.cons_append, List.append_assoc, List.cons_append, splitAtClose?]
    simp only [hmark, if_true, hinner, Option.map_some]

/-- The contents of brackets end at the first closing bracket outside of literals. -/
theorem splitAtClose?_eq_some_iff {s content rest : List Char} :
    splitAtClose? none s = some (content, rest) ↔ s = content ++ ']' :: rest ∧ IsClosed content := by
  constructor
  · exact closedAfter_of_splitAtClose?
  · rintro ⟨rfl, hclosed⟩
    exact hclosed.splitAtClose?_eq rest

theorem isClosed_iff {content : List Char} :
    IsClosed content ↔ splitAtClose? none (content ++ [']']) = some (content, []) := by
  rw [splitAtClose?_eq_some_iff, and_iff_right rfl]

instance : DecidablePred IsClosed := fun _ => decidable_of_iff _ isClosed_iff.symm

/-! ## What stands in brackets -/

/-- The contents of all brackets in a text. -/
inductive Bracketed : List Char → List (List Char) → Prop
  | none {s : List Char} (h : '[' ∉ s) : Bracketed s []
  | next {before content rest : List Char} {contents : List (List Char)} (hbefore : '[' ∉ before)
      (hcontent : IsClosed content) (h : Bracketed rest contents) :
      Bracketed (before ++ '[' :: (content ++ ']' :: rest)) (content :: contents)

namespace Bracketed

/-- There is only one way to take the contents of brackets out of a text. -/
theorem unique {s : List Char} {contents contents' : List (List Char)} (h : Bracketed s contents)
    (h' : Bracketed s contents') : contents = contents' := by
  induction h generalizing contents' with
  | none hnone =>
    cases h' with
    | none => rfl
    | next => exact absurd (List.mem_append_right _ List.mem_cons_self) hnone
  | @next before content rest contents hbefore hcontent _ ih =>
    generalize hs : before ++ '[' :: (content ++ ']' :: rest) = s at h'
    cases h' with
    | none hnone => exact absurd (hs ▸ List.mem_append_right _ List.mem_cons_self) hnone
    | @next before' content' rest' contents' hbefore' hcontent' h' =>
      have hcut := splitAtFirst?_mark hbefore (content ++ ']' :: rest)
      rw [hs, splitAtFirst?_mark hbefore'] at hcut
      have hinner : content' ++ ']' :: rest' = content ++ ']' :: rest :=
        congrArg Prod.snd (Option.some.inj hcut)
      have hclose := hcontent.splitAtClose?_eq rest
      rw [← hinner, hcontent'.splitAtClose?_eq] at hclose
      cases hclose
      rw [ih h']

theorem before_append {s before : List Char} {contents : List (List Char)} (h : Bracketed s contents)
    (hbefore : '[' ∉ before) : Bracketed (before ++ s) contents := by
  cases h with
  | none hnone => exact .none fun hmem => (List.mem_append.1 hmem).elim hbefore hnone
  | next hmore hcontent h =>
    rw [← List.append_assoc]
    exact .next (fun hmem => (List.mem_append.1 hmem).elim hbefore hmore) hcontent h

theorem append {s t : List Char} {contents more : List (List Char)} (hs : Bracketed s contents)
    (ht : Bracketed t more) : Bracketed (s ++ t) (contents ++ more) := by
  induction hs with
  | none hnone => exact ht.before_append hnone
  | next hbefore hcontent _ ih =>
    rw [List.append_assoc, List.cons_append, List.append_assoc, List.cons_append]
    exact .next hbefore hcontent ih

end Bracketed

/-! ## Reading all brackets of a text -/

/-- The brackets of a part of the path `text` hold the predicates, in order. -/
def BracketsHold (text : String) (s : List Char) (predicates : List Predicate) : Prop :=
  ∃ contents, Bracketed s contents ∧
    List.Forall₂ (fun predicate content => readPredicate text content = .ok predicate)
      predicates contents

section BracketsHold

variable {text : String}

theorem bracketsHold_nil_of_notMem {s : List Char} (h : '[' ∉ s) : BracketsHold text s [] :=
  ⟨[], .none h, .nil⟩

theorem BracketsHold.append {s t : List Char} {predicates more : List Predicate}
    (hs : BracketsHold text s predicates) (ht : BracketsHold text t more) :
    BracketsHold text (s ++ t) (predicates ++ more) := by
  obtain ⟨contents, hcontents, hread⟩ := hs
  obtain ⟨contents', hcontents', hread'⟩ := ht
  exact ⟨contents ++ contents', hcontents.append hcontents', List.rel_append hread hread'⟩

theorem bracketsHold_of_readPredicates {s : List Char} {predicates : List Predicate}
    (h : readPredicates text s = .ok predicates) : BracketsHold text s predicates := by
  replace h := inBrackets_of_readPredicates h
  induction h with
  | nil => exact bracketsHold_nil_of_notMem List.not_mem_nil
  | @cons rest inner after predicate later hclose hfirst _ ih =>
    obtain ⟨contents, hcontents, hread⟩ := ih
    obtain ⟨rfl, hinner⟩ := splitAtClose?_eq_some_iff.1 hclose
    exact ⟨inner :: contents, .next List.not_mem_nil hinner hcontents, .cons hfirst hread⟩

theorem bracketsHold_of_readStep {below : Bool} {segment : List Char} {step : Step}
    (h : readStep text below segment = .ok step) : BracketsHold text segment step.predicates := by
  obtain ⟨predicates, hpredicates, hname⟩ := readStep_eq_ok_iff.1 h
  have hstep : step.predicates = predicates := by
    rcases hname with ⟨-, -, rfl⟩ | ⟨test, -, rfl⟩
    · rfl
    · rfl
  have hnot : '[' ∉ segment.takeWhile (· != '[') := fun hmem => by
    simpa using List.mem_takeWhile_imp hmem
  have happend := (bracketsHold_nil_of_notMem hnot).append (bracketsHold_of_readPredicates hpredicates)
  rw [List.takeWhile_append_dropWhile] at happend
  exact hstep ▸ happend

theorem bracketsHold_intercalate_cons {segment : List Char} {rest : List (List Char)}
    {predicates more : List Predicate} (hsegment : BracketsHold text segment predicates)
    (hrest : BracketsHold text (['/'].intercalate rest) more) :
    BracketsHold text (['/'].intercalate (segment :: rest)) (predicates ++ more) := by
  cases rest with
  | nil =>
    rw [List.intercalate_singleton, ← List.append_nil segment]
    exact hsegment.append hrest
  | cons next rest =>
    rw [List.intercalate_cons_cons]
    have hslash : BracketsHold text ['/'] [] := bracketsHold_nil_of_notMem (by decide)
    have happend := (hsegment.append hslash).append hrest
    rwa [List.append_nil] at happend

theorem bracketsHold_of_readSteps {below : Bool} {segments : List (List Char)} {steps : List Step}
    (h : readSteps text below segments = .ok steps) :
    BracketsHold text (['/'].intercalate segments) (steps.flatMap (·.predicates)) := by
  induction segments generalizing below steps with
  | nil =>
    cases below with
    | true => cases h
    | false =>
      cases h
      exact bracketsHold_nil_of_notMem List.not_mem_nil
  | cons segment rest ih =>
    cases segment with
    | nil =>
      obtain ⟨-, hrest⟩ := readSteps_nil_cons_eq_ok_iff.1 h
      exact bracketsHold_intercalate_cons (bracketsHold_nil_of_notMem List.not_mem_nil) (ih hrest)
    | cons c name =>
      obtain ⟨step, later, hstep, hlater, rfl⟩ :=
        (readSteps_cons_eq_ok_iff (List.cons_ne_nil _ _)).1 h
      exact bracketsHold_intercalate_cons (bracketsHold_of_readStep hstep) (ih hlater)

/-- The brackets of a path hold the predicates of its steps. -/
theorem bracketsHold_of_parse {path : ElementPath} (h : ElementPath.parse text = .ok path) :
    BracketsHold text text.toList (path.steps.flatMap (·.predicates)) := by
  obtain ⟨c, rest, segments, steps, htrim, -, hsegments, hsteps, rfl⟩ :=
    ElementPath.parse_eq_ok_iff.1 h
  have hsteps := bracketsHold_of_readSteps hsteps
  rw [intercalate_of_splitSegments? hsegments, ← htrim] at hsteps
  have hfinal : BracketsHold text (trim text.toList) (steps.flatMap (·.predicates)) := by
    rcases eq_dropFinal_or '/' (trim text.toList) with heq | heq
    · rwa [← heq] at hsteps
    · have happend := hsteps.append (bracketsHold_nil_of_notMem (s := ['/']) (by decide))
      rwa [← heq, List.append_nil] at happend
  obtain ⟨before, after, htext, hbefore, hafter⟩ := exists_blanks_trim text.toList
  have happend := (bracketsHold_nil_of_notMem (hbefore.notMem (by decide))).append
    (hfinal.append (bracketsHold_nil_of_notMem (hafter.notMem (by decide))))
  rw [List.nil_append, List.append_nil, ← htext] at happend
  exact happend

end BracketsHold

/-! ## Forms as they are meant -/

/-- The name of an attribute: a name, alone or behind a prefix. -/
def IsAttributeName (name : List Char) : Prop :=
  ∃ localPart : String, (NameTest.tagged localPart).WrittenAs name

theorem IsAttributeName.isTrimmed {name : List Char} (h : IsAttributeName name) : IsTrimmed name := by
  obtain ⟨localPart, h⟩ := h
  exact h.isTrimmed

theorem IsAttributeName.ne_nil {name : List Char} (h : IsAttributeName name) : name ≠ [] := by
  obtain ⟨localPart, h⟩ := h
  exact h.ne_nil

theorem IsAttributeName.notMem {name : List Char} (h : IsAttributeName name) : '=' ∉ name := by
  obtain ⟨localPart, h⟩ := h
  cases h with
  | tagged hbase => exact notMem_of_isPathName hbase (by decide)
  | prefixed hlead hbase =>
    rw [List.mem_append, List.mem_cons, not_or, not_or]
    exact ⟨notMem_of_isPathName hlead (by decide), by decide,
      notMem_of_isPathName hbase (by decide)⟩

namespace PredicateForm

/-- A form as it is meant to be written: names are names, a literal is free of the mark that delimits
it, and counts are digits. -/
def IsProper : PredicateForm → Prop
  | hasAttr name => IsAttributeName name
  | attrEquals name mark value => IsAttributeName name ∧ IsQuote mark ∧ mark ∉ value
  | hasChild name => ∃ test : NameTest, test.WrittenAs name
  | childEquals name mark value =>
    (∃ test : NameTest, test.WrittenAs name) ∧ IsQuote mark ∧ mark ∉ value
  | position count | lastBut count => count ≠ [] ∧ ∀ c ∈ count, c.isDigit = true
  | last => True

/-- What is read although it is not meant to be written: an attribute with another name, a literal
that holds its own mark, or a count with a plus sign. -/
def IsLax : PredicateForm → Prop
  | hasAttr name => ¬ IsAttributeName name
  | attrEquals name mark value => ¬ IsAttributeName name ∨ mark ∈ value
  | childEquals _ mark value => mark ∈ value
  | position count | lastBut count => count.head? = some '+'
  | hasChild _ | last => False

/-- Properly written contents that start with an at sign are about an attribute. -/
theorem IsProper.of_at {form : PredicateForm} {content : List Char} (h : form.IsProper)
    (hwritten : form.WrittenAs content) (hat : content.head? = some '@') :
    (∃ name, form = .hasAttr name) ∨ ∃ name mark value, form = .attrEquals name mark value := by
  have hblank : ∀ c ∈ content.head?, isBlank c = false := by
    rw [hat]
    rintro c ⟨⟩
    decide
  have hdigit {count : List Char} (hdigits : count ≠ [] ∧ ∀ c ∈ count, c.isDigit = true) :
      count.head? ≠ some '@' := by
    intro hhead
    have hmem := hdigits.2 _ (List.mem_of_mem_head? hhead)
    cases hmem
  cases form with
  | hasAttr name => exact .inl ⟨name, rfl⟩
  | attrEquals name mark value => exact .inr ⟨name, mark, value, rfl⟩
  | hasChild name =>
    obtain ⟨test, htest⟩ := h
    exact absurd ((Spaced.head?_eq hwritten hblank htest.ne_nil).trans hat) htest.head?_ne_at
  | childEquals name mark value =>
    obtain ⟨⟨test, htest⟩, -⟩ := h
    exact absurd ((Spaced.head?_eq hwritten hblank htest.ne_nil).trans hat) htest.head?_ne_at
  | position count => exact absurd ((Spaced.head?_eq hwritten hblank h.1).trans hat) (hdigit h)
  | last =>
    exact absurd ((Spaced.head?_eq hwritten hblank (by decide)).trans hat) (by decide)
  | lastBut count =>
    exact absurd ((Spaced.head?_eq hwritten hblank (by decide)).trans hat) (by decide)

/-- What is read is written properly but for these three. -/
theorem Means.isProper_or_isLax {form : PredicateForm} {predicate : Predicate}
    (h : form.Means predicate) : form.IsProper ∨ form.IsLax := by
  have hcounted {count : List Char} {n : Nat} (h : count? count = some n) :
      (count ≠ [] ∧ ∀ c ∈ count, c.isDigit = true) ∨ count.head? = some '+' :=
    (head?_or_isDigit_of_count? h).symm.imp_right And.left
  cases h with
  | @hasAttr name => exact Classical.em (IsAttributeName name)
  | @attrEquals name mark value _ _ hmark =>
    by_cases hname : IsAttributeName name
    · by_cases hvalue : mark ∈ value
      · exact .inr (.inr hvalue)
      · exact .inl ⟨hname, hmark, hvalue⟩
    · exact .inr (.inl hname)
  | hasChild htest => exact .inl ⟨_, htest⟩
  | @childEquals test name mark value htest _ hmark =>
    by_cases hvalue : mark ∈ value
    · exact .inr hvalue
    · exact .inl ⟨⟨test, htest⟩, hmark, hvalue⟩
  | position hcount => exact hcounted hcount
  | last => exact .inl trivial
  | lastBut hcount => exact hcounted hcount

end PredicateForm

namespace ElementPath

/-- The brackets of a path hold one form for each of its predicates, properly written or not, and a
text with brackets that hold anything else is no path. -/
theorem brackets_of_parse (text : String) :
    (∀ path, parse text = .ok path → ∃ contents, Bracketed text.toList contents ∧
      List.Forall₂ (fun predicate content => ∃ form : PredicateForm, form.WrittenAs content ∧
          form.Means predicate ∧ (form.IsProper ∨ form.IsLax))
        (path.steps.flatMap (·.predicates)) contents) ∧
    ∀ contents, Bracketed text.toList contents → ∀ content ∈ contents,
      (∀ (form : PredicateForm) (predicate : Predicate), form.WrittenAs content →
        ¬ form.Means predicate) → ∃ error, parse text = .error error := by
  constructor
  · intro path h
    obtain ⟨contents, hcontents, hread⟩ := bracketsHold_of_parse h
    refine ⟨contents, hcontents, hread.imp fun predicate content h => ?_⟩
    obtain ⟨form, hwritten, hmeans⟩ := readPredicate_eq_ok_iff.1 h
    exact ⟨form, hwritten, hmeans, hmeans.isProper_or_isLax⟩
  · intro contents hcontents content hmem hnone
    cases h : parse text with
    | error error => exact ⟨error, rfl⟩
    | ok path =>
      exfalso
      obtain ⟨contents', hcontents', hread⟩ := bracketsHold_of_parse h
      obtain rfl := hcontents.unique hcontents'
      obtain ⟨before, after, rfl⟩ := List.append_of_mem hmem
      obtain ⟨predicate, -, hread, -, -⟩ :=
        List.forall₂_cons_right_iff.1 (List.forall₂_drop_append _ _ _ hread)
      obtain ⟨form, hwritten, hmeans⟩ := readPredicate_eq_ok_iff.1 hread
      exact hnone form predicate hwritten hmeans

/-- A literal is behind the equals sign up to the closing bracket, and nothing else. -/
theorem brackets_of_parse_unclosed :
    (∃ contents, Bracketed "a[b='c'][last()]".toList contents ∧ contents.length = 2) ∧
      ∃ error, parse "a[@b='c' and @d]" = .error error := by
  constructor
  · have hpath : parse "a[b='c'][last()]" = .ok ⟨"a[b='c'][last()]",
        [⟨.child, .tagged "a", [.childEquals (.tagged "b") "c", .fromLast 0]⟩]⟩ := by
      decide +kernel
    obtain ⟨contents, hcontents, hforms⟩ := (brackets_of_parse _).1 _ hpath
    exact ⟨contents, hcontents, hforms.length_eq.symm⟩
  · have htext : "a[@b='c' and @d]".toList = ['a'] ++ '[' :: ("@b='c' and @d".toList ++ [']']) := by
      decide
    have hcontents : Bracketed "a[@b='c' and @d]".toList ["@b='c' and @d".toList] :=
      htext ▸ .next (by decide) (by decide) (.none List.not_mem_nil)
    have hread : readPredicate "" "@b='c' and @d".toList =
        .error (.invalidPredicate "" "@b='c' and @d") := by decide +kernel
    refine (brackets_of_parse _).2 _ hcontents _ List.mem_cons_self fun form predicate hw hm => ?_
    rw [readPredicate_eq_ok_iff.2 ⟨form, hw, hm⟩] at hread
    cases hread

/-- Two comparisons that are joined by a word are one comparison, and not properly written. -/
theorem not_brackets_of_parse :
    ¬ ∀ (text : String) (path : ElementPath), parse text = .ok path →
      ∃ contents, Bracketed text.toList contents ∧
        ∀ content ∈ contents, ∃ form : PredicateForm, form.WrittenAs content ∧ form.IsProper := by
  intro h
  have hpath : parse ".//e[@a='x' and @b='y']" = .ok ⟨".//e[@a='x' and @b='y']",
      [⟨.itself, .any, []⟩, ⟨.descendant, .tagged "e", [.attrEquals "a" "x' and @b='y"]⟩]⟩ := by
    decide +kernel
  obtain ⟨contents, hcontents, hproper⟩ := h _ _ hpath
  have htext : ".//e[@a='x' and @b='y']".toList =
      ".//e".toList ++ '[' :: ("@a='x' and @b='y'".toList ++ [']']) := by decide
  have hcontents' : Bracketed ".//e[@a='x' and @b='y']".toList ["@a='x' and @b='y'".toList] :=
    htext ▸ .next (by decide) (by decide) (.none List.not_mem_nil)
  rw [hcontents.unique hcontents'] at hproper
  obtain ⟨form, hwritten, hform⟩ := hproper _ List.mem_cons_self
  have hread : readPredicate "" "@a='x' and @b='y'".toList =
      .ok (.attrEquals "a" "x' and @b='y") := by decide +kernel
  rcases hform.of_at hwritten (by decide) with ⟨name, rfl⟩ | ⟨name, mark, value, rfl⟩
  · have hname : IsAttributeName name := hform
    rw [readPredicate_hasAttr hwritten hname.isTrimmed hname.ne_nil hname.notMem] at hread
    cases hread
  · obtain ⟨hname, hmark, hvalue⟩ := hform
    rw [readPredicate_attrEquals hwritten hname.isTrimmed hname.notMem hmark] at hread
    have hvalue' : value = "x' and @b='y".toList := by
      injection hread with hread
      injection hread with _ hvalue'
      rw [← hvalue', String.toList_ofList]
    -- the literal holds the one mark, and the other is not in the text
    rcases hmark with rfl | rfl
    · exact hvalue (by rw [hvalue']; decide)
    · have hpart : quoted '"' value ∈ (PredicateForm.attrEquals name '"' value).parts := by
        simp [PredicateForm.parts]
      have hmem : '"' ∈ "@a='x' and @b='y'".toList :=
        Spaced.subset hwritten hpart List.mem_cons_self
      exact absurd hmem (by decide)

end ElementPath

end Docweave
