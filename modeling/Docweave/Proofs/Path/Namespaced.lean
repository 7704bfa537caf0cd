import Docweave.Proofs.Path.DocumentOrder
import Docweave.Proofs.Path.Segments

set_option autoImplicit false

/-! # Names in a namespace

The URI of a namespace stands in braces, where slashes and quotation marks are characters like others.
An opening bracket is not: while the text is cut into segments the braces shield it, but where the
predicates of a segment begin is looked up as if there were no braces. `parse_inNamespace_iff` says that
this is the only character that a URI must not have, apart from the closing brace, and that the path
then finds the elements below that have the name, each once. -/

namespace Docweave

open Docweave.Text

/-! ## A name in braces as a segment -/

/-- A text without brackets, braces and slashes is one segment. -/
theorem splitSegments?_of_forall {s : List Char} (h : ∀ c ∈ s, c ∉ ['\x7b', '[', ']', '/']) :
    splitSegments? 0 none s = some [s] := by
  induction s with
  | nil => rfl
  | cons c s ih =>
    obtain ⟨hc, hs⟩ := List.forall_mem_cons.1 h
    simp only [List.mem_cons, List.not_mem_nil, or_false, not_or] at hc
    obtain ⟨hbrace, hopen, hclose, hslash⟩ := hc
    rw [splitSegments?]
    simp only [hbrace, hopen, hclose, hslash, ih hs, gt_iff_lt, Nat.lt_irrefl, decide_false,
      Bool.and_false, Bool.false_and, Bool.false_eq_true, if_false, Option.map_some]
    rfl

/-- Up to its closing brace, what is in braces belongs to one segment. -/
theorem splitSegments?_braced {uri rest segment : List Char} {later : List (List Char)}
    (huri : '\x7d' ∉ uri) (h : splitSegments? 0 none rest = some (segment :: later)) :
    splitSegments? 0 none ('\x7b' :: (uri ++ '\x7d' :: rest)) =
      some (('\x7b' :: (uri ++ '\x7d' :: segment)) :: later) := by
  have hinner : splitSegments? 0 (some '\x7d') (uri ++ '\x7d' :: rest) =
      some ((uri ++ '\x7d' :: segment) :: later) := by
    induction uri with
    | nil =>
      rw [List.nil_append, splitSegments?]
      simp only [if_true, h, Option.map_some]
      rfl
    | cons c uri ih =>
      rw [List.mem_cons, not_or] at huri
      rw [List.cons_append, splitSegments?]
      simp only [if_neg (Ne.symm huri.1), ih huri.2, Option.map_some]
      rfl
  rw [splitSegments?]
  simp only [gt_iff_lt, Nat.lt_irrefl, decide_false, Bool.and_false, Bool.false_eq_true, if_false,
    decide_true, Bool.and_self, if_true, hinner, Option.map_some]
  rfl

theorem notMem_marks_of_isPathName {name : List Char} (h : isPathName name = true) :
    ∀ c ∈ name, c ∉ ['\x7b', '[', ']', '/'] := by
  intro c hc hmark
  have hchar := isPathNameChar_of_isPathName h hc
  simp only [List.mem_cons, List.not_mem_nil, or_false] at hmark
  rcases hmark with rfl | rfl | rfl | rfl
  all_goals cases hchar

/-! ## One segment behind two slashes -/

theorem readStep_self (text : String) :
    readStep text false ['.'] = .ok ⟨.itself, .any, []⟩ := by
  simp [readStep, readPredicates]

/-- A path to everything below is one segment, read as a descendant step. -/
theorem ElementPath.parse_below_eq_ok_iff {text : String} {segment : List Char}
    (htext : text.toList = '.' :: '/' :: '/' :: segment) (hne : segment ≠ [])
    (hends : IsTrimmed segment) (hslash : segment.getLast? ≠ some '/')
    (hsegment : splitSegments? 0 none segment = some [segment]) {path : ElementPath} :
    ElementPath.parse text = .ok path ↔
      ∃ step, readStep text true segment = .ok step ∧
        path = ⟨text, [⟨.itself, .any, []⟩, step]⟩ := by
  have hlast : ('.' :: '/' :: '/' :: segment).getLast? = segment.getLast? :=
    List.getLast?_append_of_ne_nil ['.', '/', '/'] hne
  have htrim : trim text.toList = '.' :: '/' :: '/' :: segment := by
    rw [htext]
    refine IsTrimmed.trim_eq ⟨fun c hc => ?_, hlast ▸ hends.last⟩
    obtain rfl : '.' = c := Option.some.inj hc
    decide
  have hsegments : splitSegments? 0 none (dropFinal '/' ('.' :: '/' :: '/' :: segment)) =
      some [['.'], [], segment] := by
    rw [dropFinal_eq_self (hlast ▸ hslash)]
    have hjoin := splitSegments?_append (show splitSegments? 0 none ['.'] = some [['.']] by decide)
      ('/' :: segment)
    rw [splitSegments?_slash, hsegment] at hjoin
    exact hjoin
  rw [parse_eq_ok_iff]
  constructor
  · rintro ⟨c, rest, segments, steps, hs, -, hcut, hsteps, rfl⟩
    rw [htrim] at hs
    cases hs
    rw [hsegments] at hcut
    cases hcut
    obtain ⟨first, later, hfirst, hlater, rfl⟩ :=
      (readSteps_cons_eq_ok_iff (List.cons_ne_nil _ _)).1 hsteps
    obtain ⟨-, hlater⟩ := readSteps_nil_cons_eq_ok_iff.1 hlater
    obtain ⟨step, none, hstep, hnone, rfl⟩ := (readSteps_cons_eq_ok_iff hne).1 hlater
    cases hnone
    rw [readStep_self] at hfirst
    cases hfirst
    exact ⟨step, hstep, rfl⟩
  · rintro ⟨step, hstep, rfl⟩
    refine ⟨'.', _, _, _, htrim, by decide, hsegments, ?_, rfl⟩
    refine (readSteps_cons_eq_ok_iff (List.cons_ne_nil _ _)).2 ⟨_, [step], readStep_self text, ?_, rfl⟩
    refine readSteps_nil_cons_eq_ok_iff.2 ⟨rfl, ?_⟩
    exact (readSteps_cons_eq_ok_iff hne).2 ⟨step, [], hstep, rfl, rfl⟩

/-! ## Brackets in a URI -/

theorem takeWhile_bracket {name : List Char} (h : '[' ∉ name) :
    name.takeWhile (· != '[') = name ∧ name.dropWhile (· != '[') = [] := by
  have hall : ∀ c ∈ name, (c != '[') = true := fun c hc =>
    bne_iff_ne.2 fun (heq : c = '[') => h (heq ▸ hc)
  exact ⟨List.takeWhile_eq_self_iff.2 hall, List.dropWhile_eq_nil_iff.2 hall⟩

theorem takeWhile_append_bracket {name : List Char} (h : '[' ∉ name) (rest : List Char) :
    (name ++ '[' :: rest).takeWhile (· != '[') = name := by
  rw [List.takeWhile_append_of_pos fun c hc => bne_iff_ne.2 fun (heq : c = '[') => h (heq ▸ hc),
    List.takeWhile_cons_of_neg (by decide), List.append_nil]

/-- A name in braces can be read just if there is no opening bracket in front of its local part. -/
theorem readStep_inNamespace_eq_ok_iff {text : String} {uri base : List Char} (huri : '\x7d' ∉ uri)
    (hbase : isPathName base = true) {step : Step} :
    readStep text true ('\x7b' :: (uri ++ '\x7d' :: base)) = .ok step ↔
      '[' ∉ uri ∧ step = ⟨.descendant, .inNamespace (.ofList uri) (.ofList base), []⟩ := by
  have hwritten := NameTest.WrittenAs.inNamespace huri hbase
  rw [readStep_eq_ok_iff]
  by_cases hopen : '[' ∈ uri
  · refine ⟨?_, fun h => absurd hopen h.1⟩
    rintro ⟨predicates, -, ⟨-, hbelow, -⟩ | ⟨test, htest, -⟩⟩
    · cases hbelow
    · -- what stands in front of the bracket has no closing brace
      obtain ⟨before, after, rfl, hbefore⟩ := List.eq_append_cons_of_mem hopen
      have hname : '[' ∉ '\x7b' :: before := by
        rw [List.mem_cons, not_or]
        exact ⟨by decide, hbefore⟩
      have hfree : '\x7d' ∉ before := fun hmem => huri (List.mem_append_left _ hmem)
      have hcut := takeWhile_append_bracket hname (after ++ '\x7d' :: base)
      have hsegment : '\x7b' :: (before ++ '[' :: after ++ '\x7d' :: base) =
          ('\x7b' :: before) ++ '[' :: (after ++ '\x7d' :: base) := by simp
      rw [hsegment, hcut, ← readNameTest?_eq_some_iff] at htest
      unfold readNameTest? at htest
      simp only [splitAtFirst?_eq_none_iff.2 hfree] at htest
      cases htest
  · have hsegment : '[' ∉ '\x7b' :: (uri ++ '\x7d' :: base) := by
      simp only [List.mem_cons, List.mem_append, not_or]
      exact ⟨by decide, hopen, by decide, fun hmem =>
        notMem_marks_of_isPathName hbase _ hmem (by decide)⟩
    obtain ⟨htake, hdrop⟩ := takeWhile_bracket hsegment
    rw [htake, hdrop, readPredicates]
    constructor
    · rintro ⟨predicates, hpredicates, ⟨-, hbelow, -⟩ | ⟨test, htest, rfl⟩⟩
      · cases hbelow
      · cases hpredicates
        have hsame := (readNameTest?_eq_some_iff.2 hwritten).symm.trans
          (readNameTest?_eq_some_iff.2 htest)
        rw [Option.some.inj hsame]
        exact ⟨hopen, rfl⟩
    · rintro ⟨-, rfl⟩
      exact ⟨[], rfl, .inr ⟨_, hwritten, rfl⟩⟩

/-! ## What the path finds -/

namespace ElementPath

/-- Of all nodes below an element, those that a descendant step keeps. -/
theorem locate_below (text : String) (test : NameTest) (e : Element) :
    (ElementPath.mk text [⟨.itself, .any, []⟩, ⟨.descendant, test, []⟩]).locate e =
      (everything.locate e).filter fun node => test.accepts node.element.name := by
  rw [locate_everything]
  simp [locate, Step.select, Step.groups, Axis.groups, NameTest.accepts, outermost,
    Located.root, Element.childGroups_eq, Element.nodes, Function.comp_def, List.filter_flatten]

/-- The path to everything below an element finds each node below it once. -/
theorem locate_everything_perm (e : Element) : (everything.locate e).Perm e.nodes.tail := by
  have hwalk : e.nodes.Pairwise Located.Precedes := Element.pairwise_walk [] e
  refine (List.perm_ext_iff_of_nodup ?_ (hwalk.sublist (List.tail_sublist _)).nodup).2 fun node =>
    mem_locate_everything
  exact (everything.nodup_locate e).of_map

/-- A name in a namespace is a path just if no opening bracket is in front of its local part. -/
theorem parse_inNamespace_eq_ok_iff {uri localPart : String} (huri : '\x7d' ∉ uri.toList)
    (hname : isPathName localPart.toList = true) {path : ElementPath} :
    parse (".//\x7b" ++ uri ++ "\x7d" ++ localPart) = .ok path ↔
      '[' ∉ uri.toList ∧ path = ⟨".//\x7b" ++ uri ++ "\x7d" ++ localPart,
        [⟨.itself, .any, []⟩, ⟨.descendant, .inNamespace uri localPart, []⟩]⟩ := by
  have hwritten := NameTest.WrittenAs.inNamespace huri hname
  have htext : (".//\x7b" ++ uri ++ "\x7d" ++ localPart).toList =
      '.' :: '/' :: '/' :: '\x7b' :: (uri.toList ++ '\x7d' :: localPart.toList) := by
    simp [String.toList_append]
  have hslash : ('\x7b' :: (uri.toList ++ '\x7d' :: localPart.toList)).getLast? ≠ some '/' := by
    obtain ⟨rest, c, hconcat, hc⟩ := hwritten.exists_concat
    rw [hconcat, List.getLast?_concat]
    rintro ⟨⟩
    rcases hc with hc | hc
    all_goals cases hc
  have hsegment := splitSegments?_braced huri
    (splitSegments?_of_forall (notMem_marks_of_isPathName hname))
  rw [parse_below_eq_ok_iff htext (List.cons_ne_nil _ _) hwritten.isTrimmed hslash hsegment]
  simp only [readStep_inNamespace_eq_ok_iff huri hname, String.ofList_toList]
  constructor
  · rintro ⟨step, ⟨hopen, rfl⟩, rfl⟩
    exact ⟨hopen, rfl⟩
  · rintro ⟨hopen, rfl⟩
    exact ⟨_, ⟨hopen, rfl⟩, rfl⟩

/-- A name in a namespace can be looked for below an element just if no opening bracket is in the URI,
and then the nodes found are all those below the element that have the name, each once. -/
theorem parse_inNamespace_iff {uri localPart : String} (huri : '\x7d' ∉ uri.toList)
    (hname : isPathName localPart.toList = true) :
    ((∃ path, parse (".//\x7b" ++ uri ++ "\x7d" ++ localPart) = .ok path) ↔ '[' ∉ uri.toList) ∧
      ∀ path, parse (".//\x7b" ++ uri ++ "\x7d" ++ localPart) = .ok path → ∀ e : Element,
        (path.locate e).Perm (e.nodes.tail.filter fun node =>
          node.element.name.uri = some uri ∧ node.element.name.localPart = localPart) ∧
        (path.select e).Perm (e.descendants.filter fun below =>
          below.name.uri = some uri ∧ below.name.localPart = localPart) := by
  have hparse := @parse_inNamespace_eq_ok_iff uri localPart huri hname
  refine ⟨⟨fun ⟨path, h⟩ => (hparse.1 h).1, fun hopen => ⟨_, hparse.2 ⟨hopen, rfl⟩⟩⟩, fun path h e => ?_⟩
  obtain ⟨-, rfl⟩ := hparse.1 h
  have haccepts : (fun node : Located =>
      (NameTest.inNamespace uri localPart).accepts node.element.name) = fun node : Located =>
        decide (node.element.name.uri = some uri ∧ node.element.name.localPart = localPart) := by
    funext node
    rw [NameTest.accepts, QName.isIn, Bool.eq_iff_iff]
    simp only [Bool.and_eq_true, beq_iff_eq, decide_eq_true_eq]
  have hlocate := (locate_everything_perm e).filter fun node =>
    decide (node.element.name.uri = some uri ∧ node.element.name.localPart = localPart)
  rw [← haccepts, ← locate_below (".//\x7b" ++ uri ++ "\x7d" ++ localPart)] at hlocate
  refine ⟨haccepts ▸ hlocate, ?_⟩
  have hbelow : e.nodes.tail.map (·.element) = e.descendants := by
    rw [List.map_tail, Element.nodes, Element.map_element_walk]
    rfl
  rw [← hbelow, List.filter_map]
  rw [haccepts] at hlocate
  exact hlocate.map (·.element)

/-- Slashes, quotation marks and equals signs in a URI are characters like others. -/
theorem parse_inNamespace_query :
    ∃ path, parse (".//\x7b" ++ "http://a.b/?c='/'" ++ "\x7d" ++ "d") = .ok path ∧
      ∀ e : Element, (path.select e).Perm (e.descendants.filter fun below =>
        below.name.uri = some "http://a.b/?c='/'" ∧ below.name.localPart = "d") := by
  have huri : '\x7d' ∉ "http://a.b/?c='/'".toList := by decide
  have hname : isPathName "d".toList = true := by decide
  obtain ⟨haccepted, hfound⟩ := parse_inNamespace_iff huri hname
  obtain ⟨path, hpath⟩ := haccepted.2 (by decide)
  exact ⟨path, hpath, fun e => (hfound path hpath e).2⟩

/-- A host can be written in brackets, and is taken for a predicate. -/
theorem not_parse_inNamespace :
    ¬ ∀ uri localPart : String, '\x7d' ∉ uri.toList → isPathName localPart.toList = true →
      ∃ path, parse (".//\x7b" ++ uri ++ "\x7d" ++ localPart) = .ok path := by
  intro h
  obtain ⟨path, hpath⟩ := h "http://[::1]/a" "d" (by decide) (by decide)
  have huri : '\x7d' ∉ "http://[::1]/a".toList := by decide
  exact absurd ((parse_inNamespace_eq_ok_iff huri (by decide)).1 hpath).1 (by decide)

end ElementPath

end Docweave
