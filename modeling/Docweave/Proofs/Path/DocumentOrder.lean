import Docweave.Path.Parser
import Docweave.Proofs.Path.Steps
import Mathlib.Data.List.Pairwise

set_option autoImplicit false

/-! # The order of nodes found against document order

A step takes up its starts in order and lists the children of one node side by side before anything
below them. So nodes come out of document order in one way only: on the ways to two nodes, some step
puts the later one below a sibling in front of the earlier one (`Overtakes`).
`inDocumentOrder_locate_iff` says that this is exactly when a path does not find its nodes in document
order, and that `.//*` lists the descendants of an element exactly if only last children have children
themselves. `not_inDocumentOrder_locate` is the smallest tree on which it does not. -/

namespace Docweave

/-! ## Below an elder sibling -/

/-- The node `low` is below a sibling that stands before the node `high`. -/
def BelowElder (high low : List Nat) : Prop :=
  ∃ parent i j, i < j ∧ high = j :: parent ∧ i :: parent <:+ low ∧ low ≠ i :: parent

theorem BelowElder.leftOf {high low : List Nat} (h : BelowElder high low) : LeftOf low high := by
  obtain ⟨parent, i, j, hij, rfl, hi, _⟩ := h
  exact ⟨parent, i, j, hij, hi, List.suffix_refl _⟩

theorem BelowElder.length_lt {high low : List Nat} (h : BelowElder high low) :
    high.length < low.length := by
  obtain ⟨parent, i, j, _, rfl, hi, hne⟩ := h
  exact Nat.lt_of_le_of_ne hi.length_le fun hlen => hne (hi.eq_of_length hlen).symm

/-- Nodes below two nodes that stand apart are not below each other's elder siblings. -/
theorem not_belowElder_of_apart {a b c d : List Nat} (hcd : ¬ c <:+ d) (hdc : ¬ d <:+ c)
    (hca : c <:+ a) (hne : c ≠ a) (hdb : d <:+ b) : ¬ BelowElder a b := by
  rintro ⟨parent, i, j, _, rfl, hi, _⟩
  have hcb : c <:+ b :=
    (isSuffix_of_isSuffix_cons hca hne).trans ((List.suffix_cons i parent).trans hi)
  rcases List.suffix_or_suffix_of_suffix hcb hdb with h | h
  · exact hcd h
  · exact hdc h

/-- Nodes below two nodes that stand apart stand like those. -/
theorem leftOf_iff_of_apart {a b c d : List Nat} (hcd : ¬ c <:+ d) (hdc : ¬ d <:+ c)
    (hca : c <:+ a) (hdb : d <:+ b) : LeftOf b a ↔ LeftOf d c := by
  refine ⟨fun h => ?_, fun h => h.mono hdb hca⟩
  rcases isSuffix_or_leftOf c d with hs | hs | hl | hl
  · exact absurd hs hcd
  · exact absurd hs hdc
  · exact absurd h (hl.mono hca hdb).asymm
  · exact hl

/-- The child of one node is left behind by the child of another, which is not above the first: it is
below an elder sibling, or the parents stand apart in the wrong order. -/
theorem leftOf_children {c d : List Nat} (i j : Nat) (hdc : ¬ d <:+ c) :
    (LeftOf (j :: d) (i :: c) ↔ BelowElder (i :: c) (j :: d) ∨ LeftOf d c) ∧
      ¬ BelowElder (j :: d) (i :: c) := by
  have hd : d ≠ j :: d := fun h => absurd (congrArg List.length h) (by simp)
  have hc : c ≠ i :: c := fun h => absurd (congrArg List.length h) (by simp)
  by_cases hcd : c <:+ d
  · refine ⟨⟨fun h => .inl ?_, ?_⟩, ?_⟩
    · -- the ways part at `c`, for the way to `i :: c` ends right below it
      obtain ⟨parent, k, l, hkl, hk, hl⟩ := h
      rcases List.suffix_cons_iff.1 hl with heq | hl
      · obtain ⟨rfl, rfl⟩ := List.cons.inj heq
        exact ⟨parent, k, l, hkl, rfl, hk,
          fun he => hdc ((List.cons.inj he).2 ▸ List.suffix_refl _)⟩
      · exact absurd (eq_of_cons_isSuffix hk ((hl.trans hcd).trans (List.suffix_cons j d)))
          (Nat.ne_of_lt hkl)
    · rintro (h | h)
      · exact h.leftOf
      · exact absurd hcd h.not_isSuffix'
    · rintro ⟨parent, k, l, _, heq, hk, _⟩
      cases heq
      have hlen : d.length ≤ c.length := by simpa using hk.length_le
      have heq : c = d := hcd.eq_of_length (Nat.le_antisymm hcd.length_le hlen)
      exact hdc (heq ▸ List.suffix_refl _)
  · refine ⟨?_, not_belowElder_of_apart hdc hcd (List.suffix_cons j d) hd (List.suffix_cons i c)⟩
    rw [leftOf_iff_of_apart hcd hdc (List.suffix_cons i c) (List.suffix_cons j d)]
    refine ⟨.inr, fun h => h.resolve_left ?_⟩
    exact not_belowElder_of_apart hcd hdc (List.suffix_cons i c) hc (List.suffix_cons j d)

/-! ## The ways to the nodes found -/

/-- The place from which a step gets to a node: for a descendant step the first of its starts that the
node is below. -/
def Axis.origin (starts : List Located) (ascent : List Nat) : Axis → List Nat
  | itself => ascent
  | child => ascent.tail
  | descendant => ((starts.find? fun start => start.ascent <:+ ascent).map (·.ascent)).getD ascent

/-- On the ways to two nodes, some step gets below a sibling in front of the node `high`, or of one on
the way to it, and is only then on the way to `low`. The steps are given last step first. -/
def Overtakes (e : Element) : List Step → List Nat → List Nat → Prop
  | [], _, _ => False
  | step :: before, high, low =>
    let starts := ElementPath.nodesAfter e before
    BelowElder high low ∨
      Overtakes e before (step.axis.origin starts high) (step.axis.origin starts low)

theorem not_overtakes_self (e : Element) (steps : List Step) (a : List Nat) :
    ¬ Overtakes e steps a a := by
  induction steps generalizing a with
  | nil => exact id
  | cons step before ih =>
    rintro (h | h)
    · exact h.leftOf.not_isSuffix (List.suffix_refl a)
    · exact ih _ h

/-- The walks of a descendant step start at the first nodes above. -/
theorem find?_of_mem_outermost {seen : List Location} {starts : List Located} {o : Located}
    {a : List Nat} (h : TopDown starts) (hseen : ∀ place ∈ seen, ¬ place <+: a.reverse)
    (ho : o ∈ outermost seen starts) (hoa : o.ascent <:+ a) :
    starts.find? (fun start => start.ascent <:+ a) = some o := by
  induction starts generalizing seen with
  | nil => simp [outermost] at ho
  | cons start rest ih =>
    obtain ⟨hstart, hrest⟩ := List.pairwise_cons.1 h
    rw [outermost] at ho
    by_cases hsa : start.ascent <:+ a
    · rw [List.find?_cons_of_pos (by simpa using hsa)]
      split at ho
      · next hs =>
        obtain ⟨place, hplace, hpre⟩ := List.any_eq_true.1 hs
        have hpre : place <+: start.place := List.isPrefixOf_iff_prefix.1 hpre
        exact absurd (hpre.trans (List.reverse_prefix.2 hsa)) (hseen place hplace)
      · rcases List.mem_cons.1 ho with rfl | ho
        · rfl
        · exfalso
          rcases List.suffix_or_suffix_of_suffix hsa hoa with hs | hs
          · exact not_isPrefix_of_mem_outermost ho List.mem_cons_self (List.reverse_prefix.2 hs)
          · exact hstart o ((outermost_sublist _ rest).subset ho) hs
    · rw [List.find?_cons_of_neg (by simpa using hsa)]
      split at ho
      · exact ih hrest hseen ho
      · have ho := (List.mem_cons.1 ho).resolve_left fun heq => hsa (heq ▸ hoa)
        refine ih hrest (fun place hp => ?_) ho
        rcases List.mem_cons.1 hp with rfl | hp
        · exact fun hpre => hsa (List.reverse_prefix.1 hpre)
        · exact hseen place hp

theorem origin_of_mem_outermost {starts : List Located} {o : Located} {a : List Nat}
    (h : TopDown starts) (ho : o ∈ outermost [] starts) (hoa : o.ascent <:+ a) :
    Axis.origin starts a .descendant = o.ascent := by
  rw [Axis.origin, find?_of_mem_outermost h (by simp) ho hoa]
  rfl

/-! ## What a step makes of the order of its starts -/

/-- Two nodes found one after the other: the second is left of the first only if it is overtaken, and
it does not overtake the first. -/
def InTurn (e : Element) (steps : List Step) (a b : List Nat) : Prop :=
  (LeftOf b a ↔ Overtakes e steps a b) ∧ ¬ Overtakes e steps b a ∧ ¬ BelowElder b a

section Steps

variable {e : Element} {before : List Step} {step : Step} {a b : List Nat}

/-- Nodes to which a step gets from one place. -/
theorem inTurn_of_origin_eq
    (heq : step.axis.origin (ElementPath.nodesAfter e before) a =
      step.axis.origin (ElementPath.nodesAfter e before) b)
    (h : LeftOf b a ↔ BelowElder a b) (hba : ¬ BelowElder b a) : InTurn e (step :: before) a b := by
  have hself := not_overtakes_self e before
  refine ⟨?_, ?_, hba⟩
  · rw [Overtakes, heq, h, or_iff_left (hself _)]
  · rw [Overtakes, heq, or_iff_left (hself _)]
    exact hba

/-- Nodes to which a step gets from two places that it took up in turn. -/
theorem inTurn_of_origin
    (h : InTurn e before (step.axis.origin (ElementPath.nodesAfter e before) a)
      (step.axis.origin (ElementPath.nodesAfter e before) b))
    (hab : LeftOf b a ↔ BelowElder a b ∨
      LeftOf (step.axis.origin (ElementPath.nodesAfter e before) b)
        (step.axis.origin (ElementPath.nodesAfter e before) a))
    (hba : ¬ BelowElder b a) : InTurn e (step :: before) a b := by
  refine ⟨?_, ?_, hba⟩
  · rw [Overtakes, hab, h.1]
  · rw [Overtakes, not_or]
    exact ⟨hba, h.2.1⟩

/-- Siblings. -/
theorem leftOf_siblings {i j : Nat} (c : List Nat) (hij : i < j) :
    (LeftOf (j :: c) (i :: c) ↔ BelowElder (i :: c) (j :: c)) ∧ ¬ BelowElder (j :: c) (i :: c) := by
  have hleft : LeftOf (i :: c) (j :: c) :=
    ⟨c, i, j, hij, List.suffix_refl _, List.suffix_refl _⟩
  refine ⟨⟨fun h => absurd h hleft.asymm, fun h => h.leftOf⟩, fun h => ?_⟩
  have hlen := h.length_lt
  simp only [List.length_cons, Nat.lt_irrefl] at hlen

end Steps

/-- What holds of siblings in order, and of the children of nodes in the order of a list, holds of the
children of the list. -/
theorem pairwise_children {S : List Nat → List Nat → Prop} {nodes : List Located}
    (hsame : ∀ node ∈ nodes, ∀ i j, i < j → S (i :: node.ascent) (j :: node.ascent))
    (hapart : nodes.Pairwise fun c d => ∀ i j, S (i :: c.ascent) (j :: d.ascent)) :
    (nodes.map Located.children).flatten.Pairwise fun a b => S a.ascent b.ascent := by
  refine List.pairwise_flatten.2 ⟨?_, List.pairwise_map.2 (hapart.imp ?_)⟩
  · intro group hg
    obtain ⟨node, hn, rfl⟩ := List.mem_map.1 hg
    refine (pairwise_locateChildren node.ascent 0 node.element.children).imp ?_
    rintro a b ⟨i, j, hij, ha, hb⟩
    rw [ha, hb]
    exact hsame node hn i j hij
  · intro c d hcd a ha b hb
    obtain ⟨i, _, hi⟩ := ascent_of_mem_locateChildren ha
    obtain ⟨j, _, hj⟩ := ascent_of_mem_locateChildren hb
    rw [hi, hj]
    exact hcd i j

theorem pairwise_inTurn_groups {e : Element} {before : List Step} (step : Step)
    (h : (ElementPath.nodesAfter e before).Pairwise fun a b => InTurn e before a.ascent b.ascent) :
    (step.axis.groups (ElementPath.nodesAfter e before)).flatten.Pairwise fun a b =>
      InTurn e (step :: before) a.ascent b.ascent := by
  have htop := ElementPath.topDown_nodesAfter e before
  obtain ⟨axis, test, predicates⟩ := step
  cases axis with
  | itself =>
    have hflat : (Axis.groups (ElementPath.nodesAfter e before) .itself).flatten =
        ElementPath.nodesAfter e before := by
      simp only [Axis.groups, ← List.flatMap_def, List.flatMap_singleton']
    rw [hflat]
    refine h.imp fun {a b} hab => inTurn_of_origin hab ?_ hab.2.2
    exact ⟨.inr, fun hl => hl.elim BelowElder.leftOf id⟩
  | child =>
    refine pairwise_children (fun node _ i j hij => ?_) ((htop.and h).imp fun {c d} hcd i j => ?_)
    · exact inTurn_of_origin_eq rfl (leftOf_siblings node.ascent hij).1
        (leftOf_siblings node.ascent hij).2
    · have hij := leftOf_children i j hcd.1
      exact inTurn_of_origin hcd.2 hij.1 hij.2
  | descendant =>
    have horigin {o : Located} {a : List Nat}
        (ho : o ∈ outermost [] (ElementPath.nodesAfter e before)) (hoa : o.ascent <:+ a) :
        Axis.origin (ElementPath.nodesAfter e before) a .descendant = o.ascent :=
      origin_of_mem_outermost htop ho hoa
    have hout := ((htop.and h).sublist (outermost_sublist [] _)).and (pairwise_outermost [] _)
    simp only [Axis.groups, List.flatMap_def, List.flatten_flatten, List.map_map]
    refine List.pairwise_flatten.2 ⟨?_, List.pairwise_map.2 (hout.imp_of_mem ?_)⟩
    · -- one walk: the children of its nodes, which come in document order
      intro walked hw
      obtain ⟨o, ho, rfl⟩ := List.mem_map.1 hw
      simp only [Function.comp_apply, Element.childGroups_eq]
      have hbelow {node : Located} (hn : node ∈ Element.walk o.ascent o.element) (i : Nat) :
          Axis.origin (ElementPath.nodesAfter e before) (i :: node.ascent) .descendant = o.ascent :=
        horigin ho ((Element.isSuffix_of_mem_walk _ hn).trans (List.suffix_cons i _))
      refine pairwise_children (fun node hn i j hij => ?_)
        ((Element.pairwise_walk o.ascent o.element).imp_of_mem fun {c d} hc hd hcd i j => ?_)
      · refine inTurn_of_origin_eq ((hbelow hn i).trans (hbelow hn j).symm) ?_ ?_
        · exact (leftOf_siblings node.ascent hij).1
        · exact (leftOf_siblings node.ascent hij).2
      · have hij := leftOf_children i j hcd.not_isSuffix
        rw [or_iff_left fun hl => hcd.asymm (.inr hl)] at hij
        exact inTurn_of_origin_eq ((hbelow hc i).trans (hbelow hd j).symm) hij.1 hij.2
    · -- two walks, from nodes that stand apart
      intro c d hc hd hcd a ha b hb
      obtain ⟨steps, hsteps, ha⟩ := Element.ascent_of_mem_childGroups _ ha
      obtain ⟨steps', hsteps', hb⟩ := Element.ascent_of_mem_childGroups _ hb
      have hca : c.ascent <:+ a.ascent := ⟨steps, ha.symm⟩
      have hdb : d.ascent <:+ b.ascent := ⟨steps', hb.symm⟩
      have hcne : c.ascent ≠ a.ascent := fun heq => hsteps (by simpa [ha] using heq)
      have hdne : d.ascent ≠ b.ascent := fun heq => hsteps' (by simpa [hb] using heq)
      obtain ⟨⟨hdc, hturn⟩, hcd⟩ := hcd
      refine inTurn_of_origin ?_ ?_ (not_belowElder_of_apart hdc hcd hdb hdne hca)
      · rw [horigin hc hca, horigin hd hdb]
        exact hturn
      · rw [horigin hc hca, horigin hd hdb, leftOf_iff_of_apart hcd hdc hca hdb,
          or_iff_right (not_belowElder_of_apart hcd hdc hca hcne hdb)]

theorem pairwise_inTurn_nodesAfter (e : Element) (steps : List Step) :
    (ElementPath.nodesAfter e steps).Pairwise fun a b => InTurn e steps a.ascent b.ascent := by
  induction steps with
  | nil => exact List.pairwise_singleton ..
  | cons step before ih => exact (pairwise_inTurn_groups step ih).sublist (step.select_sublist _)

/-! ## When the nodes found come in document order -/

namespace ElementPath

/-- On the ways of a path to two of its nodes, some step gets below a sibling in front of where the way
to `a` is, and is only then on the way to `b`. -/
def Overtakes (path : ElementPath) (e : Element) (a b : Located) : Prop :=
  Docweave.Overtakes e path.steps.reverse a.ascent b.ascent

theorem inDocumentOrder_iff_not_overtakes (path : ElementPath) (e : Element) :
    InDocumentOrder e (path.locate e) ↔
      ∀ a ∈ path.locate e, ∀ b ∈ path.locate e, ¬ path.Overtakes e a b := by
  have hturn := pairwise_inTurn_nodesAfter e path.steps.reverse
  have htop := path.topDown_locate e
  rw [← path.locate_eq e] at hturn
  rw [inDocumentOrder_iff fun node hn => mem_nodes_of_mem_nodesAfter (path.locate_eq e ▸ hn)]
  constructor
  · intro horder
    have hnot := (horder.and hturn).imp fun {a b} h =>
      (show ¬ path.Overtakes e a b ∧ ¬ path.Overtakes e b a from
        ⟨fun ho => h.1.asymm (.inr (h.2.1.2 ho)), h.2.2.1⟩)
    intro a ha b hb
    by_cases hab : a = b
    · rw [hab]
      exact not_overtakes_self e _ b.ascent
    · have : Std.Symm fun a b => ¬ path.Overtakes e a b ∧ ¬ path.Overtakes e b a :=
        ⟨fun _ _ h => h.symm⟩
      exact (hnot.forall ha hb hab).1
  · intro hnot
    refine (htop.and hturn).imp_of_mem fun {a b} ha hb h => ?_
    rcases isSuffix_or_leftOf a.ascent b.ascent with hs | hs | hl | hl
    · exact .inl ⟨hs, fun heq => h.1 (heq ▸ List.suffix_refl _)⟩
    · exact absurd hs h.1
    · exact .inr hl
    · exact absurd (h.2.1.1 hl) (hnot a ha b hb)

/-- Without descendant steps the ways to all nodes found are equally long. -/
theorem length_eq_of_mem_nodesAfter {e : Element} {steps : List Step}
    (h : ∀ step ∈ steps, step.axis ≠ .descendant) {a b : Located} (ha : a ∈ nodesAfter e steps)
    (hb : b ∈ nodesAfter e steps) : a.ascent.length = b.ascent.length := by
  induction steps generalizing a b with
  | nil => rw [List.mem_singleton.1 ha, List.mem_singleton.1 hb]
  | cons step before ih =>
    obtain ⟨hstep, hbefore⟩ := List.forall_mem_cons.1 h
    replace ha := (step.select_sublist _).subset ha
    replace hb := (step.select_sublist _).subset hb
    cases haxis : step.axis with
    | itself =>
      rw [haxis, Axis.groups, ← List.flatMap_def, List.flatMap_singleton'] at ha hb
      exact ih hbefore ha hb
    | child =>
      rw [haxis, Axis.groups, ← List.flatMap_def, List.mem_flatMap] at ha hb
      obtain ⟨c, hc, ha⟩ := ha
      obtain ⟨d, hd, hb⟩ := hb
      obtain ⟨i, _, hi⟩ := ascent_of_mem_locateChildren ha
      obtain ⟨j, _, hj⟩ := ascent_of_mem_locateChildren hb
      rw [hi, hj, List.length_cons, List.length_cons, ih hbefore hc hd]
    | descendant => exact absurd haxis hstep

theorem not_overtakes_of_length_eq {e : Element} {steps : List Step}
    (h : ∀ step ∈ steps, step.axis ≠ .descendant) {a b : List Nat} (hab : a.length = b.length) :
    ¬ Docweave.Overtakes e steps a b := by
  induction steps generalizing a b with
  | nil => exact id
  | cons step before ih =>
    obtain ⟨hstep, hbefore⟩ := List.forall_mem_cons.1 h
    rintro (hbelow | hover)
    · exact absurd hab (Nat.ne_of_lt hbelow.length_lt)
    · refine ih hbefore ?_ hover
      cases haxis : step.axis with
      | itself => exact hab
      | child => simpa [Axis.origin] using congrArg (· - 1) hab
      | descendant => exact absurd haxis hstep

theorem inDocumentOrder_of_ne_descendant {path : ElementPath} (e : Element)
    (h : ∀ step ∈ path.steps, step.axis ≠ .descendant) : InDocumentOrder e (path.locate e) := by
  have hsteps : ∀ step ∈ path.steps.reverse, step.axis ≠ .descendant := by simpa using h
  refine (path.inDocumentOrder_iff_not_overtakes e).2 fun a ha b hb => ?_
  rw [path.locate_eq e] at ha hb
  exact not_overtakes_of_length_eq hsteps (length_eq_of_mem_nodesAfter hsteps ha hb)

/-! ### All descendants -/

/-- The path to everything below an element. -/
def everything : ElementPath := ⟨".//*", [⟨.itself, .any, []⟩, ⟨.descendant, .any, []⟩]⟩

theorem parse_of_trim {path : String} {c : Char} {rest : List Char}
    (ht : Text.trim path.toList = c :: rest) (hc : c ≠ '/') :
    parse path =
      match splitSegments? 0 none (Text.dropFinal '/' (c :: rest)) with
      | none => .error (.unterminatedPredicate path)
      | some segments => (readSteps path false segments).map fun steps => ⟨path, steps⟩ := by
  rw [parse, ht]
  split
  · next h => cases h
  · next h => cases h; exact absurd rfl hc
  · rfl

theorem parse_everything : parse ".//*" = .ok everything := by
  have htrim : Text.trim ".//*".toList = ['.', '/', '/', '*'] := by decide
  have hsegments : splitSegments? 0 none (Text.dropFinal '/' ['.', '/', '/', '*']) =
      some [['.'], [], ['*']] := by decide
  have hsteps : readSteps ".//*" false [['.'], [], ['*']] = .ok everything.steps := by
    simp [readSteps, readStep, readPredicates, readNameTest, readNameTest?, everything]
    rfl
  rw [parse_of_trim htrim (by decide), hsegments]
  exact congrArg (Except.map fun steps => (⟨".//*", steps⟩ : ElementPath)) hsteps

theorem locate_everything (e : Element) :
    everything.locate e = (e.nodes.map Located.children).flatten := by
  simp [locate, everything, Step.select, Step.groups, Axis.groups, NameTest.accepts, outermost,
    Located.root, Element.childGroups_eq, Element.nodes, Function.comp_def]

theorem mem_locate_everything {e : Element} {node : Located} :
    node ∈ everything.locate e ↔ node ∈ e.nodes.tail := by
  rw [locate_everything, Element.mem_tail_nodes_iff, List.mem_flatten]
  simp only [List.mem_map, exists_exists_and_eq_and]

theorem overtakes_everything {e : Element} {a b : Located} :
    everything.Overtakes e a b ↔ BelowElder a.ascent b.ascent := by
  have horigin (x : List Nat) : Axis.origin (nodesAfter e [⟨.itself, .any, []⟩]) x .descendant = [] := by
    simp [Axis.origin, nodesAfter, Step.select, Step.groups, Axis.groups, NameTest.accepts, Located.root]
  change BelowElder a.ascent b.ascent ∨ Docweave.Overtakes e [⟨.itself, .any, []⟩] _ _ ↔ _
  rw [horigin, horigin, or_iff_left (not_overtakes_self e _ [])]

/-- Some node is below a sibling in front of another one if a child that is not the last one has
children. -/
theorem exists_belowElder_iff (e : Element) :
    (∃ a ∈ e.nodes.tail, ∃ b ∈ e.nodes.tail, BelowElder a.ascent b.ascent) ↔
      ∃ node ∈ e.nodes, ∃ child ∈ node.element.children.dropLast, ¬ child.isLeaf := by
  constructor
  · rintro ⟨a, ha, b, hb, parent, i, j, hij, haj, hi, hne⟩
    obtain ⟨node, hnode, ha⟩ := Element.mem_tail_nodes_iff.1 ha
    obtain ⟨j', haj', hj⟩ := mem_locateChildren_iff.1 ha
    rw [haj, Nat.zero_add] at haj'
    obtain ⟨rfl, rfl⟩ := List.cons.inj haj'
    obtain ⟨steps, hsteps⟩ := hi
    have hb := Element.mem_nodes_iff.1 (List.mem_of_mem_tail hb)
    rw [Located.place, ← hsteps, List.reverse_append, List.reverse_cons, Element.at?_append,
      Element.at?_append, ← Located.place, Element.mem_nodes_iff.1 hnode, Option.bind_some] at hb
    obtain ⟨child, hc, hb⟩ := Option.bind_eq_some_iff.1 hb
    obtain ⟨child', hc', heq⟩ := Option.bind_eq_some_iff.1 hc
    cases heq
    refine ⟨node, hnode, child, ?_, fun hleaf => ?_⟩
    · have hlen := (List.getElem?_eq_some_iff.1 hj).1
      exact List.mem_of_getElem? (i := i) (by rw [List.getElem?_dropLast, if_pos (by omega), hc'])
    · cases hsteps' : steps.reverse with
      | nil => exact hne (by rw [← hsteps, List.reverse_eq_nil_iff.1 hsteps', List.nil_append])
      | cons k below =>
        rw [hsteps'] at hb
        obtain ⟨grandchild, hk, _⟩ := Option.bind_eq_some_iff.1 hb
        rw [Element.isLeaf, List.isEmpty_iff] at hleaf
        simp [hleaf] at hk
  · rintro ⟨node, hnode, child, hchild, hleaf⟩
    obtain ⟨i, hi⟩ := List.mem_iff_getElem?.1 hchild
    rw [List.getElem?_dropLast] at hi
    split at hi
    · next hlen =>
      obtain ⟨younger, hy⟩ : ∃ younger, node.element.children[i + 1]? = some younger :=
        ⟨_, List.getElem?_eq_getElem (by omega)⟩
      rw [Element.isLeaf, List.isEmpty_iff] at hleaf
      obtain ⟨grandchild, rest, hg⟩ := List.exists_cons_of_ne_nil hleaf
      have hmem : (⟨i :: node.ascent, child⟩ : Located) ∈ node.children :=
        mem_locateChildren_iff.2 ⟨i, by simp, hi⟩
      refine ⟨⟨(i + 1) :: node.ascent, younger⟩, ?_, ⟨0 :: i :: node.ascent, grandchild⟩, ?_,
        node.ascent, i, i + 1, Nat.lt_succ_self i, rfl, List.suffix_cons _ _, by simp⟩
      · exact Element.mem_tail_nodes_iff.2
          ⟨node, hnode, mem_locateChildren_iff.2 ⟨i + 1, by simp, hy⟩⟩
      · exact Element.mem_tail_nodes_iff.2 ⟨_, Element.mem_nodes_of_mem_children hnode hmem,
          mem_locateChildren_iff.2 ⟨0, by simp, by simp [hg]⟩⟩
    · cases hi

theorem locate_everything_eq_iff (e : Element) :
    everything.locate e = e.nodes.tail ↔
      ∀ node ∈ e.nodes, ∀ child ∈ node.element.children.dropLast, child.isLeaf := by
  have hcond : InDocumentOrder e (everything.locate e) ↔
      ∀ node ∈ e.nodes, ∀ child ∈ node.element.children.dropLast, child.isLeaf := by
    rw [inDocumentOrder_iff_not_overtakes, ← not_iff_not]
    simpa [mem_locate_everything, overtakes_everything] using exists_belowElder_iff e
  rw [← hcond]
  constructor
  · intro heq
    rw [heq]
    exact List.tail_sublist _
  · intro horder
    have hwalk : e.nodes.Pairwise Located.Precedes := Element.pairwise_walk [] e
    exact (hwalk.sublist horder).eq_of_mem_iff (hwalk.sublist (List.tail_sublist _))
      fun _ => mem_locate_everything

/-- A path finds its nodes in document order exactly if none of them overtakes another, and the path
to everything below an element lists its descendants exactly if only last children have children. -/
theorem inDocumentOrder_locate_iff (e : Element) :
    (∀ path : ElementPath, InDocumentOrder e (path.locate e) ↔
      ∀ a ∈ path.locate e, ∀ b ∈ path.locate e, ¬ path.Overtakes e a b) ∧
    parse ".//*" = .ok everything ∧
    (everything.locate e = e.nodes.tail ↔
      ∀ node ∈ e.nodes, ∀ child ∈ node.element.children.dropLast, child.isLeaf) ∧
    e.nodes.map (·.element) = e :: e.descendants :=
  ⟨fun path => path.inDocumentOrder_iff_not_overtakes e, parse_everything,
    locate_everything_eq_iff e, Element.map_element_walk [] e⟩

/-- A tree whose first child has a child, and is followed by another. -/
def unevenTree : Element :=
  .ofChildren "r" [.ofChildren "a" [.ofTag "b"], .ofTag "c"]

theorem not_inDocumentOrder_locate :
    ¬ ∀ (e : Element) (text : String) (path : ElementPath), parse text = .ok path →
      InDocumentOrder e (path.locate e) ∧ (text = ".//*" → path.select e = e.descendants) := by
  intro h
  have horder := (h unevenTree ".//*" everything parse_everything).1
  have hplaces := horder.map (·.ascent)
  have hfound : (everything.locate unevenTree).map (·.ascent) = [[0], [1], [0, 0]] := by decide
  have hwalk : unevenTree.nodes.map (·.ascent) = [[], [0], [0, 0], [1]] := by decide
  rw [hfound, hwalk] at hplaces
  exact absurd hplaces (by decide)

end ElementPath

end Docweave
