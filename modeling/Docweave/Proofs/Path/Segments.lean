import Docweave.Proofs.Path.PredicateForms
import Mathlib.Tactic.SplitIfs

set_option autoImplicit false

/-! # How the text of a path is cut up

A path is read in two stages: its text is cut into segments at the slashes outside of brackets and
braces, and the segments are read as steps. Both stages take texts that are joined by a slash one after
the other, and the text that a fault names has no part in what is read. -/

namespace Docweave

open Docweave.Text

/-! ## Cutting at slashes -/

/-- A character either ends a segment, or belongs to the first of the segments that follow. -/
theorem splitSegments?_cons (depth : Nat) (quote : Option Char) (c : Char) :
    (c = '/' ∧ depth = 0 ∧ quote = none) ∨
      ∃ depth' quote', ∀ rest, splitSegments? depth quote (c :: rest) =
        (splitSegments? depth' quote' rest).map (extendFirst c) := by
  cases quote with
  | some q => exact .inr ⟨_, _, fun _ => rfl⟩
  | none =>
    simp only [splitSegments?]
    split_ifs with h₁ h₂ h₃ h₄ h₅
    · exact .inr ⟨_, _, fun _ => rfl⟩
    · exact .inr ⟨_, _, fun _ => rfl⟩
    · exact .inr ⟨_, _, fun _ => rfl⟩
    · exact .inr ⟨_, _, fun _ => rfl⟩
    · rw [Bool.and_eq_true, decide_eq_true_eq, decide_eq_true_eq] at h₅
      exact .inl ⟨h₅.1, h₅.2, trivial⟩
    · exact .inr ⟨_, _, fun _ => rfl⟩

/-- A slash outside of brackets and braces ends a segment. -/
theorem splitSegments?_slash (rest : List Char) :
    splitSegments? 0 none ('/' :: rest) = (splitSegments? 0 none rest).map ([] :: ·) := rfl

/-- Where a text ends, no bracket and no brace is open. -/
theorem splitSegments?_nil_eq_some {depth : Nat} {quote : Option Char} {segments : List (List Char)}
    (h : splitSegments? depth quote [] = some segments) :
    depth = 0 ∧ quote = none ∧ segments = [[]] := by
  unfold splitSegments? at h
  split at h
  · cases h
  · next hopen =>
    cases h
    simpa using hopen

theorem ne_nil_of_splitSegments? {depth : Nat} {quote : Option Char} {s : List Char}
    {segments : List (List Char)} (h : splitSegments? depth quote s = some segments) :
    segments ≠ [] := by
  cases s with
  | nil =>
    rw [(splitSegments?_nil_eq_some h).2.2]
    exact List.cons_ne_nil _ _
  | cons c rest =>
    rcases splitSegments?_cons depth quote c with ⟨rfl, rfl, rfl⟩ | ⟨depth', quote', hstep⟩
    · rw [splitSegments?_slash] at h
      obtain ⟨later, _, rfl⟩ := Option.map_eq_some_iff.1 h
      exact List.cons_ne_nil _ _
    · rw [hstep] at h
      obtain ⟨later, _, rfl⟩ := Option.map_eq_some_iff.1 h
      cases later with
      | nil | cons => exact List.cons_ne_nil _ _

theorem extendFirst_append {segments : List (List Char)} (h : segments ≠ []) (c : Char)
    (later : List (List Char)) :
    extendFirst c (segments ++ later) = extendFirst c segments ++ later := by
  cases segments with
  | nil => exact absurd rfl h
  | cons segment rest => rfl

/-- Behind a slash the segments of a text start anew. -/
theorem splitSegments?_append {depth : Nat} {quote : Option Char} {s : List Char}
    {segments : List (List Char)} (h : splitSegments? depth quote s = some segments)
    (rest : List Char) :
    splitSegments? depth quote (s ++ '/' :: rest) =
      (splitSegments? 0 none rest).map (segments ++ ·) := by
  induction s generalizing depth quote segments with
  | nil =>
    obtain ⟨rfl, rfl, rfl⟩ := splitSegments?_nil_eq_some h
    exact splitSegments?_slash rest
  | cons c s ih =>
    rw [List.cons_append]
    rcases splitSegments?_cons depth quote c with ⟨rfl, rfl, rfl⟩ | ⟨depth', quote', hstep⟩
    · rw [splitSegments?_slash] at h ⊢
      obtain ⟨later, hlater, rfl⟩ := Option.map_eq_some_iff.1 h
      rw [ih hlater, Option.map_map]
      rfl
    · rw [hstep] at h ⊢
      obtain ⟨later, hlater, rfl⟩ := Option.map_eq_some_iff.1 h
      rw [ih hlater, Option.map_map]
      refine congrArg (Option.map · _) (funext fun more => ?_)
      exact extendFirst_append (ne_nil_of_splitSegments? hlater) c more

theorem intercalate_extendFirst (c : Char) {segments : List (List Char)} (h : segments ≠ []) :
    ['/'].intercalate (extendFirst c segments) = c :: ['/'].intercalate segments := by
  match segments, h with
  | [segment], _ => simp [extendFirst]
  | segment :: next :: rest, _ => simp [extendFirst, List.intercalate_cons_cons]

/-- The segments with slashes between them are the text. -/
theorem intercalate_of_splitSegments? {depth : Nat} {quote : Option Char} {s : List Char}
    {segments : List (List Char)} (h : splitSegments? depth quote s = some segments) :
    ['/'].intercalate segments = s := by
  induction s generalizing depth quote segments with
  | nil => rw [(splitSegments?_nil_eq_some h).2.2, List.intercalate_singleton]
  | cons c s ih =>
    rcases splitSegments?_cons depth quote c with ⟨rfl, rfl, rfl⟩ | ⟨depth', quote', hstep⟩
    · rw [splitSegments?_slash] at h
      obtain ⟨later, hlater, rfl⟩ := Option.map_eq_some_iff.1 h
      obtain ⟨segment, rest, rfl⟩ := List.exists_cons_of_ne_nil (ne_nil_of_splitSegments? hlater)
      rw [List.intercalate_cons_cons, ih hlater]
      rfl
    · rw [hstep] at h
      obtain ⟨later, hlater, rfl⟩ := Option.map_eq_some_iff.1 h
      rw [intercalate_extendFirst c (ne_nil_of_splitSegments? hlater), ih hlater]

/-! ## Reading segments -/

theorem readPredicate_congr {text : String} {inner : List Char} {predicate : Predicate}
    (h : readPredicate text inner = .ok predicate) (other : String) :
    readPredicate other inner = .ok predicate :=
  readPredicate_eq_ok_iff.2 (readPredicate_eq_ok_iff.1 h)

theorem readPredicates_cons {text : String} {rest inner after : List Char} {predicate : Predicate}
    {predicates : List Predicate} (hclose : splitAtClose? none rest = some (inner, after))
    (hfirst : readPredicate text inner = .ok predicate)
    (hlater : readPredicates text after = .ok predicates) :
    readPredicates text ('[' :: rest) = .ok (predicate :: predicates) := by
  rw [readPredicates]
  split
  · next hnone =>
    rw [hclose] at hnone
    cases hnone
  · next hsome =>
    rw [hclose] at hsome
    cases hsome
    rw [hfirst, hlater]
    rfl

/-- The text is a row of brackets, with one of the predicates in each. -/
inductive InBrackets (text : String) : List Char → List Predicate → Prop where
  | nil : InBrackets text [] []
  | cons {rest inner after : List Char} {predicate : Predicate} {predicates : List Predicate}
      (hclose : splitAtClose? none rest = some (inner, after))
      (hfirst : readPredicate text inner = .ok predicate) (hlater : InBrackets text after predicates) :
      InBrackets text ('[' :: rest) (predicate :: predicates)

theorem inBrackets_of_readPredicates {text : String} {s : List Char} {predicates : List Predicate}
    (h : readPredicates text s = .ok predicates) : InBrackets text s predicates := by
  fun_induction readPredicates text s generalizing predicates with
  | case1 =>
    cases h
    exact .nil
  | case2 => cases h
  | case3 => cases h
  | case4 rest inner after hclose predicate hfirst ih =>
    obtain ⟨later, hlater, rfl⟩ := map_eq_ok_iff.1 h
    exact .cons hclose hfirst (ih hlater)
  | case5 => cases h

theorem readPredicates_congr {text : String} {s : List Char} {predicates : List Predicate}
    (h : readPredicates text s = .ok predicates) (other : String) :
    readPredicates other s = .ok predicates := by
  replace h := inBrackets_of_readPredicates h
  induction h with
  | nil => rw [readPredicates]
  | cons hclose hfirst _ ih => exact readPredicates_cons hclose (readPredicate_congr hfirst other) ih

/-- A step is a dot, or a name test, with predicates behind it. -/
theorem readStep_eq_ok_iff {text : String} {below : Bool} {segment : List Char} {step : Step} :
    readStep text below segment = .ok step ↔
      ∃ predicates, readPredicates text (segment.dropWhile (· != '[')) = .ok predicates ∧
        ((segment.takeWhile (· != '[') = ['.'] ∧ below = false ∧ step = ⟨.itself, .any, predicates⟩) ∨
          ∃ test : NameTest, test.WrittenAs (segment.takeWhile (· != '[')) ∧
            step = ⟨if below then .descendant else .child, test, predicates⟩) := by
  generalize hname : segment.takeWhile (· != '[') = name
  unfold readStep
  simp only [hname]
  refine bind_eq_ok_iff.trans (exists_congr fun predicates => and_congr_right fun _ => ?_)
  constructor
  · intro h
    split at h
    · next hself =>
      rw [Bool.and_eq_true, decide_eq_true_eq, Bool.not_eq_true'] at hself
      exact .inl ⟨hself.1, hself.2, (Except.ok.inj h).symm⟩
    · split at h
      · cases h
      · obtain ⟨test, htest, h⟩ := bind_eq_ok_iff.1 h
        exact .inr ⟨test, readNameTest_eq_ok_iff.1 htest, (Except.ok.inj h).symm⟩
  · rintro (⟨rfl, rfl, rfl⟩ | ⟨test, htest, rfl⟩)
    · rfl
    · -- neither one dot nor two are a name test
      have hdot : name ≠ ['.'] := by
        rintro rfl
        cases readNameTest?_eq_some_iff.2 htest
      have hdots : name ≠ ['.', '.'] := by
        rintro rfl
        cases readNameTest?_eq_some_iff.2 htest
      rw [if_neg (by simp [hdot]), if_neg hdots]
      exact bind_eq_ok_iff.2 ⟨test, readNameTest_eq_ok_iff.2 htest, rfl⟩

theorem readStep_congr {text : String} {below : Bool} {segment : List Char} {step : Step}
    (h : readStep text below segment = .ok step) (other : String) :
    readStep other below segment = .ok step := by
  obtain ⟨predicates, hpredicates, hname⟩ := readStep_eq_ok_iff.1 h
  exact readStep_eq_ok_iff.2 ⟨predicates, readPredicates_congr hpredicates other, hname⟩

/-- The step of a segment comes before those of the segments behind it. -/
theorem readSteps_cons_eq_ok_iff {text : String} {below : Bool} {segment : List Char}
    (hne : segment ≠ []) {rest : List (List Char)} {steps : List Step} :
    readSteps text below (segment :: rest) = .ok steps ↔
      ∃ step later, readStep text below segment = .ok step ∧ readSteps text false rest = .ok later ∧
        steps = step :: later := by
  rw [readSteps, if_neg (by rwa [List.isEmpty_iff])]
  constructor
  · intro h
    obtain ⟨step, hstep, h⟩ := bind_eq_ok_iff.1 h
    obtain ⟨later, hlater, h⟩ := bind_eq_ok_iff.1 h
    exact ⟨step, later, hstep, hlater, (Except.ok.inj h).symm⟩
  · rintro ⟨step, later, hstep, hlater, rfl⟩
    exact bind_eq_ok_iff.2 ⟨step, hstep, bind_eq_ok_iff.2 ⟨later, hlater, rfl⟩⟩

/-- Behind an empty segment everything below is looked at, and only one segment may be empty. -/
theorem readSteps_nil_cons_eq_ok_iff {text : String} {below : Bool} {rest : List (List Char)}
    {steps : List Step} :
    readSteps text below ([] :: rest) = .ok steps ↔
      below = false ∧ readSteps text true rest = .ok steps := by
  rw [readSteps, if_pos List.isEmpty_nil]
  cases below with
  | false => simp only [Bool.false_eq_true, if_false, true_and]
  | true => simp only [if_true, reduceCtorEq, false_and]

/-- Segments that can be read are read in the same way in front of others. -/
theorem readSteps_append {text other : String} {below : Bool} {segments more : List (List Char)}
    {steps later : List Step} (h : readSteps text below segments = .ok steps)
    (hmore : readSteps other false more = .ok later) :
    readSteps other below (segments ++ more) = .ok (steps ++ later) := by
  induction segments generalizing below steps with
  | nil =>
    cases below with
    | true => cases h
    | false =>
      cases h
      exact hmore
  | cons segment rest ih =>
    rw [List.cons_append]
    cases segment with
    | nil =>
      obtain ⟨hbelow, hrest⟩ := readSteps_nil_cons_eq_ok_iff.1 h
      exact readSteps_nil_cons_eq_ok_iff.2 ⟨hbelow, ih hrest⟩
    | cons c name =>
      have hne : c :: name ≠ [] := List.cons_ne_nil _ _
      obtain ⟨step, steps, hstep, hsteps, rfl⟩ := (readSteps_cons_eq_ok_iff hne).1 h
      exact (readSteps_cons_eq_ok_iff hne).2 ⟨step, steps ++ later, readStep_congr hstep other,
        ih hsteps, rfl⟩

theorem readSteps_congr {text : String} {below : Bool} {segments : List (List Char)}
    {steps : List Step} (h : readSteps text below segments = .ok steps) (other : String) :
    readSteps other below segments = .ok steps := by
  have happend := readSteps_append h (show readSteps other false [] = .ok [] from rfl)
  rwa [List.append_nil, List.append_nil] at happend

/-! ## Whole texts -/

/-- A text is a path if there is something in it, with no slash in front, that can be cut into
segments and read. -/
theorem ElementPath.parse_eq_ok_iff {text : String} {path : ElementPath} :
    ElementPath.parse text = .ok path ↔
      ∃ c rest segments steps, trim text.toList = c :: rest ∧ c ≠ '/' ∧
        splitSegments? 0 none (dropFinal '/' (c :: rest)) = some segments ∧
        readSteps text false segments = .ok steps ∧ path = ⟨text, steps⟩ := by
  unfold ElementPath.parse
  constructor
  · intro h
    split at h
    · cases h
    · cases h
    · next hne habs =>
      split at h
      · cases h
      · next segments hsegments =>
        obtain ⟨steps, hsteps, rfl⟩ := map_eq_ok_iff.1 h
        cases hs : trim text.toList with
        | nil => exact absurd hs hne
        | cons c rest =>
          rw [hs] at hsegments
          exact ⟨c, rest, segments, steps, rfl, fun hc => habs rest (by rw [hs, hc]), hsegments,
            hsteps, rfl⟩
  · rintro ⟨c, rest, segments, steps, htrim, hc, hsegments, hsteps, rfl⟩
    simp only [htrim]
    split
    · next heq => cases heq
    · next heq =>
      cases heq
      exact absurd rfl hc
    · rw [hsegments]
      exact map_eq_ok_iff.2 ⟨steps, hsteps, rfl⟩

/-- Two paths joined by a slash are a path with the steps of both. -/
theorem ElementPath.parse_joined {p q : String} {first second : ElementPath}
    (hp : ElementPath.parse p = .ok first) (hq : ElementPath.parse q = .ok second)
    (htrim : trim p.toList = p.toList) (htrim' : trim q.toList = q.toList)
    (hslash : p.toList.getLast? ≠ some '/') :
    ElementPath.parse (p ++ "/" ++ q) = .ok ⟨p ++ "/" ++ q, first.steps ++ second.steps⟩ := by
  obtain ⟨c, rest, segments, steps, hs, hc, hsegments, hsteps, rfl⟩ := parse_eq_ok_iff.1 hp
  obtain ⟨d, more, segments', later, hs', -, hsegments', hlater, rfl⟩ := parse_eq_ok_iff.1 hq
  have hpl := htrim.symm.trans hs
  have hql := htrim'.symm.trans hs'
  have htext : (p ++ "/" ++ q).toList = c :: (rest ++ '/' :: d :: more) := by
    rw [String.toList_append, String.toList_append, hpl, hql]
    simp
  have hends : IsTrimmed (c :: (rest ++ '/' :: d :: more)) := by
    have hhead := (isTrimmed_iff.2 htrim).head
    have hlast := (isTrimmed_iff.2 htrim').last
    rw [hpl] at hhead
    rw [hql] at hlast
    refine ⟨hhead, ?_⟩
    rw [← List.cons_append, List.getLast?_append_of_ne_nil _ (List.cons_ne_nil _ _),
      List.getLast?_cons_cons]
    exact hlast
  have hdrop : dropFinal '/' (c :: (rest ++ '/' :: d :: more)) =
      (c :: rest) ++ '/' :: dropFinal '/' (d :: more) := by
    have hfinal := dropFinal_append (c :: (rest ++ ['/'])) (List.cons_ne_nil d more) '/'
    simpa using hfinal
  rw [dropFinal_eq_self (hpl ▸ hslash)] at hsegments
  have hjoined : trim (p ++ "/" ++ q).toList = c :: (rest ++ '/' :: d :: more) := by
    rw [htext, hends.trim_eq]
  refine parse_eq_ok_iff.2 ⟨c, _, segments ++ segments', steps ++ later, hjoined, hc, ?_,
    readSteps_append hsteps (readSteps_congr hlater _), rfl⟩
  rw [hdrop, splitSegments?_append hsegments, hsegments']
  rfl

end Docweave
