import Docweave.Proofs.Gives
import Docweave.Proofs.Path.NameTests
import Docweave.Proofs.Text.Counts

set_option autoImplicit false

/-! # What can be written in brackets

The contents of brackets in a path are one of seven forms, each made of parts that may have blanks
between them. `readPredicate_eq_ok_iff` says that reading accepts just these forms, and what it takes
each of them for: the name of an attribute is whatever stands in front of the first equals sign, and a
literal ends with the last character of the contents. -/

namespace Docweave

open Docweave.Text

/-! ## Forms -/

/-- The character is a quotation mark. -/
def IsQuote (c : Char) : Prop := c = '\'' ∨ c = '"'

/-- A literal: a text between two quotation marks of one kind. -/
def quoted (mark : Char) (value : List Char) : List Char := mark :: (value ++ [mark])

/-- What stands for the last of the nodes that are counted together. -/
def lastCall : List Char := ['l', 'a', 's', 't', '(', ')']

/-- What is written in brackets. -/
inductive PredicateForm where
  | hasAttr (name : List Char)
  | attrEquals (name : List Char) (mark : Char) (value : List Char)
  | hasChild (test : List Char)
  | childEquals (test : List Char) (mark : Char) (value : List Char)
  | position (count : List Char)
  | last
  | lastBut (count : List Char)

namespace PredicateForm

/-- The parts that a form is written with. -/
def parts : PredicateForm → List (List Char)
  | hasAttr name => [['@'], name]
  | attrEquals name mark value => [['@'], name, ['='], quoted mark value]
  | hasChild test => [test]
  | childEquals test mark value => [test, ['='], quoted mark value]
  | position count => [count]
  | last => [lastCall]
  | lastBut count => [lastCall, ['-'], count]

/-- The contents of brackets are the form, up to blanks. -/
def WrittenAs (form : PredicateForm) (contents : List Char) : Prop := Spaced form.parts contents

/-- What a form is taken for. The name of an attribute is any text without an equals sign, and only in
a comparison may it be empty; the value of a literal is any text. -/
inductive Means : PredicateForm → Predicate → Prop
  | hasAttr {name : List Char} (htrim : IsTrimmed name) (hne : name ≠ []) (hfree : '=' ∉ name) :
      Means (.hasAttr name) (.hasAttr (.ofList name))
  | attrEquals {name : List Char} {mark : Char} {value : List Char} (htrim : IsTrimmed name)
      (hfree : '=' ∉ name) (hmark : IsQuote mark) :
      Means (.attrEquals name mark value) (.attrEquals (.ofList name) (.ofList value))
  | hasChild {test : NameTest} {written : List Char} (htest : test.WrittenAs written)
      (hfree : '=' ∉ written) (hcount : count? written = none) :
      Means (.hasChild written) (.hasChild test)
  | childEquals {test : NameTest} {written : List Char} {mark : Char} {value : List Char}
      (htest : test.WrittenAs written) (hfree : '=' ∉ written) (hmark : IsQuote mark) :
      Means (.childEquals written mark value) (.childEquals test (.ofList value))
  | position {count : List Char} {n : Nat} (hcount : count? count = some n) (hn : n ≠ 0) :
      Means (.position count) (.position n)
  | last : Means .last (.fromLast 0)
  | lastBut {count : List Char} {offset : Nat} (hcount : count? count = some offset) :
      Means (.lastBut count) (.fromLast offset)

end PredicateForm

/-! ## Literals -/

theorem isQuote_iff {c : Char} : (decide (c = '\'') || decide (c = '"')) = true ↔ IsQuote c := by
  rw [Bool.or_eq_true, decide_eq_true_eq, decide_eq_true_eq]
  rfl

theorem IsQuote.isBlank {c : Char} (h : IsQuote c) : isBlank c = false := by
  rcases h with rfl | rfl
  · decide
  · decide

theorem isTrimmed_quoted {mark : Char} (h : IsQuote mark) (value : List Char) :
    IsTrimmed (quoted mark value) := by
  refine ⟨fun c hc => ?_, fun c hc => ?_⟩
  · obtain rfl : mark = c := Option.some.inj hc
    exact h.isBlank
  · have hlast : (quoted mark value).getLast? = some mark :=
      List.getLast?_concat (l := mark :: value)
    obtain rfl : mark = c := Option.some.inj (hlast.symm.trans hc)
    exact h.isBlank

/-- A literal is what stands between the first and the last character. -/
theorem unquote?_eq_some_iff {s : List Char} {text : String} :
    unquote? s = some text ↔
      ∃ mark value, trim s = quoted mark value ∧ IsQuote mark ∧ text = .ofList value := by
  unfold unquote?
  constructor
  · intro h
    split at h
    · next q rest htrim =>
      split at h
      · next hq =>
        rw [Bool.and_eq_true, isQuote_iff, beq_iff_eq] at hq
        obtain ⟨hmark, hlast⟩ := hq
        cases h
        obtain ⟨value, rfl⟩ := List.getLast?_eq_some_iff.1 hlast
        exact ⟨q, value, htrim, hmark, by rw [List.dropLast_concat]⟩
      · cases h
    · cases h
  · rintro ⟨mark, value, htrim, hmark, rfl⟩
    rw [htrim]
    have hlast : (value ++ [mark]).getLast? = some mark := List.getLast?_concat ..
    simp only [quoted, hlast, isQuote_iff.2 hmark, beq_self_eq_true, Bool.and_self, if_true,
      List.dropLast_concat]

/-- A literal that is read stands in the text, with blanks around it. -/
theorem exists_quoted_of_unquote? {s : List Char} {text : String} (h : unquote? s = some text) :
    ∃ mark value, Spaced [quoted mark value] s ∧ IsQuote mark ∧ text = .ofList value := by
  obtain ⟨mark, value, htrim, hmark, htext⟩ := unquote?_eq_some_iff.1 h
  exact ⟨mark, value, htrim ▸ spaced_singleton_trim s, hmark, htext⟩

/-- The two sides of an equals sign, with blanks around each. -/
theorem spaced_comparison (name : List Char) {literal value : List Char}
    (h : Spaced [literal] value) : Spaced [trim name, ['='], literal] (name ++ '=' :: value) :=
  (spaced_singleton_trim name).append ((spaced_self ['=']).append h)

/-! ## Names -/

/-- A name test does not start like `last()`, whose brackets are in no name. -/
theorem stripStart?_lastCall_eq_none {test : NameTest} {name : List Char} (h : test.WrittenAs name)
    {more : List Char} (hmore : ∀ c ∈ more.head?, c ∉ lastCall) :
    stripStart? lastCall (name ++ more) = none := by
  cases hstrip : stripStart? lastCall (name ++ more) with
  | none => rfl
  | some rest =>
    exfalso
    have hbrace : name.head? ≠ some '\x7b' := by
      intro hhead
      obtain ⟨c, tail, rfl, -⟩ := h.exists_cons
      have heq := eq_append_of_stripStart? hstrip
      rw [Option.some.inj hhead] at heq
      exact absurd (List.cons.inj heq).1 (by decide)
    have hnot : '(' ∉ name := fun hmem => by
      rcases h.isPathNameChar_of_mem hbrace hmem with hc | hc | hc
      all_goals cases hc
    rcases List.append_eq_append_iff.1 (eq_append_of_stripStart? hstrip) with
      ⟨tail, hname, -⟩ | ⟨tail, hcall, hrest⟩
    · refine hnot ?_
      rw [hname]
      exact List.mem_append_left _ (by decide)
    · cases tail with
      | nil =>
        rw [List.append_nil] at hcall
        exact hnot (hcall ▸ by decide)
      | cons c tail =>
        refine hmore c (by rw [hrest]; rfl) ?_
        rw [hcall]
        exact List.mem_append_right _ List.mem_cons_self

/-! ## Reading what is in brackets -/

/-- What is read behind an at sign is one of the two forms about an attribute. -/
theorem exists_form_of_at {text : String} {inner written : List Char} {predicate : Predicate}
    (hinner : trim inner = '@' :: written) (h : readPredicate text inner = .ok predicate) :
    ∃ form : PredicateForm, Spaced form.parts ('@' :: written) ∧ form.Means predicate := by
  unfold readPredicate at h
  simp only [hinner] at h
  split at h
  · next name value hsplit =>
    obtain ⟨rfl, hname⟩ := splitAtFirst?_eq_some_iff.1 hsplit
    split at h
    · next literal hvalue =>
      cases h
      obtain ⟨mark, content, hquoted, hmark, rfl⟩ := exists_quoted_of_unquote? hvalue
      exact ⟨.attrEquals (trim name) mark content,
        (spaced_self ['@']).append (spaced_comparison name hquoted),
        .attrEquals (isTrimmed_trim name) (fun hmem => hname (mem_of_mem_trim hmem)) hmark⟩
    · cases h
  · next hsplit =>
    split at h
    · cases h
    · next hne =>
      cases h
      exact ⟨.hasAttr (trim written), (spaced_self ['@']).append (spaced_singleton_trim written),
        .hasAttr (isTrimmed_trim written) (fun hnil => hne (List.isEmpty_iff.2 hnil))
          fun hmem => splitAtFirst?_eq_none_iff.1 hsplit (mem_of_mem_trim hmem)⟩

/-- What is read is one of the forms. -/
theorem exists_form_of_readPredicate {text : String} {inner : List Char} {predicate : Predicate}
    (h : readPredicate text inner = .ok predicate) :
    ∃ form : PredicateForm, form.WrittenAs inner ∧ form.Means predicate := by
  suffices hform : ∃ form : PredicateForm, Spaced form.parts (trim inner) ∧ form.Means predicate by
    obtain ⟨form, hparts, hmeans⟩ := hform
    exact ⟨form, hparts.of_trim, hmeans⟩
  have hread := h
  unfold readPredicate at h
  simp only at h
  split at h
  · cases h
  · next written hinner =>
    rw [hinner]
    exact exists_form_of_at hinner hread
  · generalize trim inner = s at h ⊢
    split at h
    · next n hcount =>
      split at h
      · cases h
      · next hn =>
        cases h
        exact ⟨.position s, spaced_self s, .position hcount hn⟩
    · next hcount =>
      split at h
      · next rest hstrip =>
        obtain rfl := eq_append_of_stripStart? hstrip
        split at h
        · next hrest =>
          cases h
          have hrest : Spaced [] rest := Spaced.of_trim (hrest ▸ AllBlank.nil)
          exact ⟨.last, (spaced_self lastCall).append hrest, .last⟩
        · next written hrest =>
          split at h
          · next offset hoffset =>
            cases h
            have hrest : Spaced [['-'], trim written] rest := Spaced.of_trim
              (hrest ▸ (spaced_self ['-']).append (spaced_singleton_trim written))
            exact ⟨.lastBut (trim written), (spaced_self lastCall).append hrest, .lastBut hoffset⟩
          · cases h
        · cases h
      · split at h
        · next name value hsplit =>
          obtain ⟨rfl, hname⟩ := splitAtFirst?_eq_some_iff.1 hsplit
          obtain ⟨test, htest, h⟩ := bind_eq_ok_iff.1 h
          obtain ⟨literal, hvalue, h⟩ := bind_eq_ok_iff.1 h
          cases h
          split at hvalue
          · next hunquote =>
            cases hvalue
            obtain ⟨mark, content, hquoted, hmark, rfl⟩ := exists_quoted_of_unquote? hunquote
            exact ⟨.childEquals (trim name) mark content, spaced_comparison name hquoted, .childEquals
              (readNameTest_eq_ok_iff.1 htest) (fun hmem => hname (mem_of_mem_trim hmem)) hmark⟩
          · cases hvalue
        · next hsplit =>
          obtain ⟨test, htest, rfl⟩ := map_eq_ok_iff.1 h
          exact ⟨.hasChild s, spaced_self s, .hasChild (readNameTest_eq_ok_iff.1 htest)
            (splitAtFirst?_eq_none_iff.1 hsplit) hcount⟩

/-! ## Writing each form -/

section Written

variable {text : String} {inner : List Char}

/-- The first equals sign is the one behind a name that has none. -/
theorem splitAtFirst?_spaced {name s : List Char} (h : Spaced [name, ['=']] s) (hfree : '=' ∉ name)
    (more : List Char) :
    ∃ front behind, splitAtFirst? (· == '=') (s ++ more) = some (front, behind ++ more) ∧
      Spaced [name] front ∧ AllBlank behind := by
  obtain ⟨before, rest, rfl, hbefore, blanks, behind, rfl, hblanks, hbehind⟩ := h
  refine ⟨before ++ (name ++ blanks), behind, ?_, ⟨before, blanks, rfl, hbefore, hblanks⟩, hbehind⟩
  have hnot : '=' ∉ before ++ (name ++ blanks) := by
    rw [List.mem_append, List.mem_append, not_or, not_or]
    exact ⟨hbefore.notMem (by decide), hfree, hblanks.notMem (by decide)⟩
  have hcut := splitAtFirst?_mark hnot (behind ++ more)
  simpa only [List.append_assoc, List.cons_append, List.nil_append] using hcut

/-- Blanks in front of a literal are left out. -/
theorem unquote?_blanks_quoted {blanks : List Char} (hb : AllBlank blanks) {mark : Char}
    (h : IsQuote mark) (value : List Char) :
    unquote? (blanks ++ quoted mark value) = some (.ofList value) :=
  unquote?_eq_some_iff.2 ⟨mark, value,
    ((spaced_self _).blanks_append hb).trim_eq (isTrimmed_quoted h value), h, rfl⟩

theorem readPredicate_hasAttr {name : List Char} (hw : Spaced [['@'], name] inner)
    (htrim : IsTrimmed name) (hne : name ≠ []) (hfree : '=' ∉ name) :
    readPredicate text inner = .ok (.hasAttr (.ofList name)) := by
  obtain ⟨between, hinner, hbetween⟩ := Spaced.exists_trim [] hw
    (isTrimmed_singleton (by decide)) (List.cons_ne_nil _ _) htrim hne
  have hsplit : splitAtFirst? (· == '=') (between ++ name) = none :=
    splitAtFirst?_eq_none_iff.2 fun hmem => (List.mem_append.1 hmem).elim
      (hbetween.notMem (by decide)) hfree
  have hname : trim (between ++ name) = name :=
    ((spaced_self name).blanks_append hbetween).trim_eq htrim
  unfold readPredicate
  simp only [hinner, List.cons_append, List.nil_append, hsplit, hname]
  rw [if_neg (by rwa [List.isEmpty_iff])]

theorem readPredicate_attrEquals {name value : List Char} {mark : Char}
    (hw : Spaced [['@'], name, ['='], quoted mark value] inner) (htrim : IsTrimmed name)
    (hfree : '=' ∉ name) (hmark : IsQuote mark) :
    readPredicate text inner = .ok (.attrEquals (.ofList name) (.ofList value)) := by
  obtain ⟨between, hinner, hbetween⟩ := Spaced.exists_trim [name, ['=']] hw
    (isTrimmed_singleton (by decide)) (List.cons_ne_nil _ _) (isTrimmed_quoted hmark value)
    (List.cons_ne_nil _ _)
  obtain ⟨front, behind, hsplit, hfront, hbehind⟩ := splitAtFirst?_spaced hbetween hfree
    (quoted mark value)
  unfold readPredicate
  simp only [hinner, List.cons_append, List.nil_append, hsplit, hfront.trim_eq htrim,
    unquote?_blanks_quoted hbehind hmark]
  rfl

theorem readPredicate_position {count : List Char} {n : Nat} (hw : Spaced [count] inner)
    (hcount : count? count = some n) (hn : n ≠ 0) :
    readPredicate text inner = .ok (.position n) := by
  have hinner : trim inner = count := hw.trim_eq (isTrimmed_of_count? hcount)
  unfold readPredicate
  simp only [hinner]
  split
  · cases hcount
  · exact absurd List.mem_cons_self (notMem_of_count? hcount (by decide) (by decide))
  · simp only [hcount, if_neg hn]

theorem readPredicate_last (hw : Spaced [lastCall] inner) :
    readPredicate text inner = .ok (.fromLast 0) := by
  have hinner : trim inner = lastCall := hw.trim_eq (isTrimmed_iff.2 (by decide))
  unfold readPredicate
  simp only [hinner]
  rfl

theorem readPredicate_lastBut {count : List Char} {offset : Nat}
    (hw : Spaced [lastCall, ['-'], count] inner) (hcount : count? count = some offset) :
    readPredicate text inner = .ok (.fromLast offset) := by
  have htrim := isTrimmed_of_count? hcount
  obtain ⟨between, hinner, hbetween⟩ := Spaced.exists_trim [['-']] hw
    (isTrimmed_iff.2 (by decide)) (List.cons_ne_nil _ _) htrim (ne_nil_of_count? hcount)
  obtain ⟨blanks, hrest, hblanks⟩ := Spaced.exists_trim [] (hbetween.append (spaced_self count))
    (isTrimmed_singleton (by decide)) (List.cons_ne_nil _ _) htrim (ne_nil_of_count? hcount)
  have hoffset : trim (blanks ++ count) = count :=
    ((spaced_self count).blanks_append hblanks).trim_eq htrim
  have hstrip : stripStart? ['l', 'a', 's', 't', '(', ')'] (lastCall ++ (between ++ count)) =
      some (between ++ count) := rfl
  have hnone : count? (lastCall ++ (between ++ count)) = none := rfl
  unfold readPredicate
  simp only [hinner]
  split
  · next heq => cases heq
  · next heq => cases heq
  · simp only [hnone, hstrip, hrest, List.cons_append, List.nil_append, hoffset, hcount]

theorem readPredicate_hasChild {test : NameTest} {written : List Char} (hw : Spaced [written] inner)
    (htest : test.WrittenAs written) (hfree : '=' ∉ written) (hcount : count? written = none) :
    readPredicate text inner = .ok (.hasChild test) := by
  have hinner : trim inner = written := hw.trim_eq htest.isTrimmed
  have hstrip : stripStart? ['l', 'a', 's', 't', '(', ')'] written = none := by
    have hend : ∀ c ∈ ([] : List Char).head?, c ∉ lastCall := nofun
    have hcall := stripStart?_lastCall_eq_none htest hend
    rwa [List.append_nil] at hcall
  unfold readPredicate
  simp only [hinner]
  split
  · exact absurd rfl htest.ne_nil
  · exact absurd rfl htest.head?_ne_at
  · simp only [hcount, hstrip, splitAtFirst?_eq_none_iff.2 hfree, readNameTest_eq_ok_iff.2 htest]
    rfl

theorem readPredicate_childEquals {test : NameTest} {written value : List Char} {mark : Char}
    (hw : Spaced [written, ['='], quoted mark value] inner) (htest : test.WrittenAs written)
    (hfree : '=' ∉ written) (hmark : IsQuote mark) :
    readPredicate text inner = .ok (.childEquals test (.ofList value)) := by
  obtain ⟨between, hinner, hbetween⟩ := Spaced.exists_trim [['=']] hw htest.isTrimmed htest.ne_nil
    (isTrimmed_quoted hmark value) (List.cons_ne_nil _ _)
  obtain ⟨front, behind, hsplit, hfront, hbehind⟩ := splitAtFirst?_spaced
    ((spaced_self written).append hbetween) hfree (quoted mark value)
  rw [List.append_assoc] at hsplit
  have hnone : count? (written ++ (between ++ quoted mark value)) = none := by
    obtain ⟨blanks, rest, rfl, -⟩ := hbetween
    cases hcount : count? (written ++ (blanks ++ (['='] ++ rest) ++ quoted mark value)) with
    | none => rfl
    | some n => exact absurd (by simp) (notMem_of_count? hcount (c := '=') (by decide) (by decide))
  have hstrip : stripStart? ['l', 'a', 's', 't', '(', ')']
      (written ++ (between ++ quoted mark value)) = none := by
    refine stripStart?_lastCall_eq_none htest fun c hc hcall => ?_
    obtain ⟨blanks, rest, rfl, hblanks, -⟩ := hbetween
    cases blanks with
    | nil =>
      obtain rfl : '=' = c := Option.some.inj hc
      exact absurd hcall (by decide)
    | cons d blanks =>
      obtain rfl : d = c := Option.some.inj hc
      have hnot : (lastCall.all fun c => isBlank c == false) = true := by decide
      have hd : isBlank d = false := beq_iff_eq.1 (List.all_eq_true.1 hnot d hcall)
      exact AllBlank.notMem hblanks hd List.mem_cons_self
  unfold readPredicate
  simp only [hinner]
  split
  · next heq => exact absurd (List.append_eq_nil_iff.1 heq).1 htest.ne_nil
  · next heq =>
    have hhead := congrArg List.head? heq
    rw [List.head?_append_of_ne_nil _ htest.ne_nil] at hhead
    exact absurd hhead htest.head?_ne_at
  · simp only [hnone, hstrip, hsplit, hfront.trim_eq htest.isTrimmed, readNameTest_eq_ok_iff.2 htest,
      unquote?_blanks_quoted hbehind hmark]
    rfl

end Written

/-- What is written in brackets is read for what it means, and nothing else is read. -/
theorem readPredicate_eq_ok_iff {text : String} {inner : List Char} {predicate : Predicate} :
    readPredicate text inner = .ok predicate ↔
      ∃ form : PredicateForm, form.WrittenAs inner ∧ form.Means predicate := by
  refine ⟨exists_form_of_readPredicate, ?_⟩
  rintro ⟨form, hw, hm⟩
  cases hm with
  | hasAttr htrim hne hfree => exact readPredicate_hasAttr hw htrim hne hfree
  | attrEquals htrim hfree hmark => exact readPredicate_attrEquals hw htrim hfree hmark
  | hasChild htest hfree hcount => exact readPredicate_hasChild hw htest hfree hcount
  | childEquals htest hfree hmark => exact readPredicate_childEquals hw htest hfree hmark
  | position hcount hn => exact readPredicate_position hw hcount hn
  | last => exact readPredicate_last hw
  | lastBut hcount => exact readPredicate_lastBut hw hcount

end Docweave
