import Docweave.Proofs.Path.Steps
import Mathlib.Data.Set.Card

set_option autoImplicit false

/-! # What a path means

The meaning of a path is given here on sets of nodes, with no word about lists, groups or walks: a step
takes every node that its axis leads to and its name test accepts, and each predicate keeps some of
what the predicates before it have kept. A position counts the nodes with the same parent that come
before a node, or after it. `locate_eq_meaning` says that following a path finds just these nodes. -/

namespace Docweave

/-! ## The meaning -/

namespace Located

/-- Two nodes have the same parent. -/
def SameParent (a b : Located) : Prop :=
  ∃ i j parent, a.ascent = i :: parent ∧ b.ascent = j :: parent

/-- The second node is a child of the first one. -/
def ParentOf (parent node : Located) : Prop := node ∈ parent.children

/-- The second node is below the first one. -/
def Above : Located → Located → Prop := Relation.TransGen ParentOf

end Located

/-- The name is one that the test asks for. -/
def NameTest.Admits : NameTest → QName → Prop
  | any, _ => True
  | tagged localPart, name => name.localPart = localPart
  | inNamespace uri localPart, name => name.uri = some uri ∧ name.localPart = localPart

/-- The first attribute of the name has the value. -/
def Element.HasAttr (e : Element) (name value : String) : Prop :=
  ∃ before after, e.attributes = before ++ ⟨name, value⟩ :: after ∧ ∀ a ∈ before, a.name ≠ name

/-- What a predicate says of a node by itself; a position says nothing. -/
def Predicate.IsTrueOf (e : Element) : Predicate → Prop
  | hasAttr name => ∃ a ∈ e.attributes, a.name = name
  | attrEquals name value => e.HasAttr name value
  | hasChild test => ∃ child ∈ e.children, test.Admits child.name
  | childEquals test value =>
    ∃ child ∈ e.children, test.Admits child.name ∧ child.text.getD "" = value
  | position _ | fromLast _ => True

/-- The nodes that an axis leads to. -/
def Axis.reached (starts : Set Located) : Axis → Set Located
  | itself => starts
  | child => {node | ∃ start ∈ starts, start.ParentOf node}
  | descendant => {node | ∃ start ∈ starts, start.Above node}

/-- The nodes that a position is counted among: those with the same parent, or the node alone if the
step led to the node itself. -/
def Axis.peers (nodes : Set Located) (node : Located) : Axis → Set Located
  | itself => {node}
  | child | descendant => {other ∈ nodes | other.SameParent node}

/-- The nodes that a predicate keeps of those that the predicates before it have kept. -/
def Predicate.kept (axis : Axis) (nodes : Set Located) : Predicate → Set Located
  | position n =>
    {node ∈ nodes | {other ∈ axis.peers nodes node | other.Precedes node}.encard + 1 = n}
  | fromLast offset =>
    {node ∈ nodes | {other ∈ axis.peers nodes node | node.Precedes other}.encard = offset}
  | predicate => {node ∈ nodes | predicate.IsTrueOf node.element}

/-- The nodes that a step leads to and keeps. -/
def Step.meaning (step : Step) (starts : Set Located) : Set Located :=
  step.predicates.foldl (fun nodes p => p.kept step.axis nodes)
    {node ∈ step.axis.reached starts | step.test.Admits node.element.name}

/-- The nodes that a path leads to from the root of a tree. -/
def ElementPath.meaning (path : ElementPath) (e : Element) : Set Located :=
  path.steps.foldl (fun nodes step => step.meaning nodes) {.root e}

/-! ## The tests of a single node -/

theorem NameTest.accepts_iff {test : NameTest} {name : QName} :
    test.accepts name = true ↔ test.Admits name := by
  cases test with
  | any => exact iff_of_true rfl trivial
  | tagged localPart => exact beq_iff_eq
  | inNamespace uri localPart =>
    rw [accepts, QName.isIn, Bool.and_eq_true, beq_iff_eq, beq_iff_eq]
    rfl

theorem Element.attr?_eq_some_iff {e : Element} {name value : String} :
    e.attr? name = some value ↔ e.HasAttr name value := by
  rw [attr?, Option.map_eq_some_iff]
  constructor
  · rintro ⟨⟨other, value⟩, hfind, rfl⟩
    obtain ⟨hname, before, after, hattributes, hbefore⟩ := List.find?_eq_some_iff_append.1 hfind
    obtain rfl : other = name := eq_of_beq hname
    exact ⟨before, after, hattributes, fun a ha => by simpa using hbefore a ha⟩
  · rintro ⟨before, after, hattributes, hbefore⟩
    refine ⟨⟨name, value⟩, List.find?_eq_some_iff_append.2 ⟨beq_self_eq_true _, before, after,
      hattributes, fun a ha => ?_⟩, rfl⟩
    simpa using hbefore a ha

/-- What the test of a node says, for each form of a predicate. -/
theorem Predicate.holds_iff {e : Element} {predicate : Predicate} :
    predicate.holds e = true ↔ predicate.IsTrueOf e := by
  cases predicate with
  | hasAttr name => simp [holds, IsTrueOf, Element.attr?]
  | attrEquals name value => rw [holds, beq_iff_eq, Element.attr?_eq_some_iff, IsTrueOf]
  | hasChild test => simp only [holds, IsTrueOf, List.any_eq_true, NameTest.accepts_iff]
  | childEquals test value =>
    simp only [holds, IsTrueOf, List.any_eq_true, Bool.and_eq_true, beq_iff_eq, NameTest.accepts_iff,
      Element.textOrEmpty]
  | position | fromLast => exact iff_of_true rfl trivial

/-! ## Below a node -/

namespace Element

/-- The walk from a node meets the node and what is below it. -/
theorem mem_walk_iff_reflTransGen {start node : Located} :
    node ∈ walk start.ascent start.element ↔
      Relation.ReflTransGen Located.ParentOf start node := by
  constructor
  · intro h
    obtain ⟨place, ha, hat⟩ := (mem_walk_iff _).1 h
    -- the way from `start` down to `node`, one child after the other
    induction place generalizing start with
    | nil =>
      obtain ⟨ascent, element⟩ := start
      obtain ⟨ascent', element'⟩ := node
      simp only [List.reverse_nil, List.nil_append] at ha
      simp only [at?, Option.some.injEq] at hat
      rw [ha, hat]
    | cons i place ih =>
      obtain ⟨c, hc, hat⟩ := Option.bind_eq_some_iff.1 hat
      have hchild : start.ParentOf ⟨i :: start.ascent, c⟩ :=
        mem_locateChildren_iff.2 ⟨i, by rw [Nat.zero_add], hc⟩
      have ha' : node.ascent = place.reverse ++ i :: start.ascent := by simpa using ha
      exact .head hchild (ih ((mem_walk_iff _).2 ⟨place, ha', hat⟩) ha' hat)
  · intro h
    induction h with
    | refl =>
      rw [walk_eq]
      exact List.mem_cons_self
    | tail _ hn ih => exact mem_walk_trans ih (mem_walk_of_mem_children hn)

/-- A node of a tree that stands below another one is met on the walk from that one. -/
theorem mem_walk_of_isSuffix {e : Element} {start node : Located} (hs : start ∈ e.nodes)
    (hn : node ∈ e.nodes) (h : start.ascent <:+ node.ascent) :
    node ∈ walk start.ascent start.element := by
  obtain ⟨steps, hsteps⟩ := h
  have hplace : node.place = start.place ++ steps.reverse := by
    rw [Located.place, ← hsteps, List.reverse_append, Located.place]
  rw [mem_nodes_iff] at hs hn
  rw [hplace, at?_append, hs, Option.bind_some] at hn
  exact (mem_walk_iff _).2 ⟨steps.reverse, by rw [List.reverse_reverse, hsteps], hn⟩

/-- A tree has one node at a place. -/
theorem eq_of_mem_nodes {e : Element} {a b : Located} (ha : a ∈ e.nodes) (hb : b ∈ e.nodes)
    (h : a.ascent = b.ascent) : a = b := by
  obtain ⟨ascent, element⟩ := a
  obtain ⟨ascent', element'⟩ := b
  rw [mem_nodes_iff] at ha hb
  subst h
  simp only [Located.mk.injEq, true_and]
  exact Option.some.inj (ha.symm.trans hb)

end Element

/-- What is left out of the outermost nodes stands below one of them, or below an earlier place. -/
theorem exists_mem_outermost (seen : List Location) {nodes : List Located} {node : Located}
    (h : node ∈ nodes) (hseen : ∀ place ∈ seen, ¬ place <+: node.place) :
    ∃ outer ∈ outermost seen nodes, outer.ascent <:+ node.ascent := by
  induction nodes generalizing seen with
  | nil => simp at h
  | cons first rest ih =>
    rw [outermost]
    split
    · rename_i hany
      rcases List.mem_cons.1 h with rfl | h
      · obtain ⟨place, hp, hpre⟩ := List.any_eq_true.1 hany
        exact absurd (List.isPrefixOf_iff_prefix.1 hpre) (hseen place hp)
      · exact ih seen h hseen
    · by_cases hpre : first.place <+: node.place
      · exact ⟨first, List.mem_cons_self, List.reverse_prefix.1 hpre⟩
      · have hrest : node ∈ rest := by
          rcases List.mem_cons.1 h with rfl | h
          · exact absurd (List.prefix_refl _) hpre
          · exact h
        obtain ⟨outer, ho, hs⟩ :=
          ih (first.place :: seen) hrest (List.forall_mem_cons.2 ⟨hpre, hseen⟩)
        exact ⟨outer, List.mem_cons_of_mem _ ho, hs⟩

/-! ## Where an axis leads -/

/-- An axis that leads away from a node leads to the children of its parents. -/
theorem Axis.mem_reached_iff {e : Element} {starts : List Located}
    (hs : ∀ start ∈ starts, start ∈ e.nodes) {axis : Axis} (haxis : axis ≠ itself) {node : Located} :
    node ∈ axis.reached {start | start ∈ starts} ↔
      ∃ parent ∈ axis.parents starts, parent.ParentOf node := by
  cases axis with
  | itself => exact absurd rfl haxis
  | child => rfl
  | descendant =>
    constructor
    · rintro ⟨start, hstart, habove⟩
      -- the walk that passes `start` meets every parent below it as well
      obtain ⟨outer, ho, hsuf⟩ := exists_mem_outermost [] hstart (by simp)
      have hwalk := Element.mem_walk_of_isSuffix (hs outer ((outermost_sublist [] starts).subset ho))
        (hs start hstart) hsuf
      obtain ⟨parent, hp, hn⟩ := Relation.TransGen.tail'_iff.1 habove
      refine ⟨parent, List.mem_flatMap.2 ⟨outer, ho, ?_⟩, hn⟩
      exact Element.mem_walk_trans hwalk (Element.mem_walk_iff_reflTransGen.2 hp)
    · rintro ⟨parent, hp, hn⟩
      obtain ⟨start, hstart, hp⟩ := List.mem_flatMap.1 hp
      exact ⟨start, (outermost_sublist [] starts).subset hstart,
        .tail' (Element.mem_walk_iff_reflTransGen.1 hp) hn⟩

/-- The children of a node are those with the same parent as one of them. -/
theorem parentOf_of_sameParent {e : Element} {parent other node sibling : Located}
    (hp : parent ∈ e.nodes) (ho : other ∈ e.nodes) (hn : parent.ParentOf node)
    (hs : other.ParentOf sibling) (h : sibling.SameParent node) : parent.ParentOf sibling := by
  obtain ⟨i, hi, _⟩ := mem_locateChildren_iff.1 hn
  obtain ⟨j, hj, _⟩ := mem_locateChildren_iff.1 hs
  obtain ⟨k, l, above, hk, hl⟩ := h
  rw [hi] at hl
  rw [hj] at hk
  have heq : other = parent :=
    Element.eq_of_mem_nodes ho hp ((List.cons.inj hk).2.trans (List.cons.inj hl).2.symm)
  exact heq ▸ hs

theorem sameParent_of_parentOf {parent node sibling : Located} (hn : parent.ParentOf node)
    (hs : parent.ParentOf sibling) : sibling.SameParent node := by
  obtain ⟨i, hi, _⟩ := mem_locateChildren_iff.1 hn
  obtain ⟨j, hj, _⟩ := mem_locateChildren_iff.1 hs
  exact ⟨_, _, _, hj, hi⟩

/-! ## Counting in a group -/

theorem encard_setOf_mem {nodes : List Located} (h : nodes.Nodup) :
    {node | node ∈ nodes}.encard = nodes.length := by
  classical
  rw [← List.coe_toFinset, Set.encard_coe_eq_coe_finsetCard, List.toFinset_card_of_nodup h]

section Counting

variable {left right : List Located} {node : Located}
  (h : (left ++ node :: right).Pairwise Located.Precedes)

include h

theorem encard_before :
    {other | other ∈ left ++ node :: right ∧ other.Precedes node}.encard = left.length := by
  obtain ⟨hleft, hright, hcross⟩ := List.pairwise_append.1 h
  rw [← encard_setOf_mem hleft.nodup]
  refine congrArg _ (Set.ext fun other => ⟨?_, fun ho => ?_⟩)
  · rintro ⟨ho, hprec⟩
    rcases List.mem_append.1 ho with ho | ho
    · exact ho
    · rcases List.mem_cons.1 ho with rfl | ho
      · exact absurd hprec (Earlier.irrefl _)
      · exact absurd hprec (List.rel_of_pairwise_cons hright ho).asymm
  · exact ⟨List.mem_append_left _ ho, hcross other ho node List.mem_cons_self⟩

theorem encard_after :
    {other | other ∈ left ++ node :: right ∧ node.Precedes other}.encard = right.length := by
  obtain ⟨_, hright, hcross⟩ := List.pairwise_append.1 h
  rw [← encard_setOf_mem hright.of_cons.nodup]
  refine congrArg _ (Set.ext fun other => ⟨?_, fun ho => ?_⟩)
  · rintro ⟨ho, hprec⟩
    rcases List.mem_append.1 ho with ho | ho
    · exact absurd hprec (hcross other ho node List.mem_cons_self).asymm
    · rcases List.mem_cons.1 ho with rfl | ho
      · exact absurd hprec (Earlier.irrefl _)
      · exact ho
  · exact ⟨List.mem_append_right _ (List.mem_cons_of_mem _ ho), List.rel_of_pairwise_cons hright ho⟩

theorem getElem?_eq_some_iff_length_eq {i : Nat} :
    (left ++ node :: right)[i]? = some node ↔ left.length = i := by
  constructor
  · intro hi
    have hlen : left.length < (left ++ node :: right).length := by simp
    exact (List.getElem?_inj hlen h.nodup).1 (by rw [hi]; simp)
  · rintro rfl
    simp

/-- A place in a group is the number of the nodes that come before, and one more. -/
theorem mem_filter_position_iff {n : Nat} :
    node ∈ Predicate.filter (left ++ node :: right) (.position n) ↔
      {other | other ∈ left ++ node :: right ∧ other.Precedes node}.encard + 1 = n := by
  rw [encard_before h, Predicate.filter]
  norm_cast
  split
  · rename_i hn
    simp [hn]
  · rename_i hn
    rw [Option.mem_toList, getElem?_eq_some_iff_length_eq h]
    omega

/-- The place counted from the last node of a group is the number of the nodes that come after. -/
theorem mem_filter_fromLast_iff {offset : Nat} :
    node ∈ Predicate.filter (left ++ node :: right) (.fromLast offset) ↔
      {other | other ∈ left ++ node :: right ∧ node.Precedes other}.encard = offset := by
  rw [encard_after h, Predicate.filter]
  norm_cast
  have hlen : (left ++ node :: right).length = left.length + right.length + 1 := by
    rw [List.length_append, List.length_cons, Nat.add_assoc]
  split
  · rename_i hlt
    rw [Option.mem_toList, getElem?_eq_some_iff_length_eq h]
    omega
  · rename_i hge
    simp only [List.not_mem_nil, false_iff]
    omega

end Counting

/-! ## Groups of nodes -/

/-- Groups hold the nodes of a set, each group all nodes that are counted together, in document
order. -/
structure Grouping (axis : Axis) (groups : List (List Located)) (nodes : Set Located) : Prop where
  mem_iff : ∀ {node}, node ∈ nodes ↔ ∃ group ∈ groups, node ∈ group
  peers_eq : ∀ {group}, group ∈ groups → ∀ {node}, node ∈ group →
    axis.peers nodes node = {other | other ∈ group}
  pairwise : ∀ {group}, group ∈ groups → group.Pairwise Located.Precedes

/-- Of fewer nodes, those that are counted together are the same with some left out. -/
theorem Axis.peers_of_subset {axis : Axis} {nodes kept : Set Located} {node : Located}
    (hsub : kept ⊆ nodes) (hn : node ∈ kept) :
    axis.peers kept node = axis.peers nodes node ∩ kept := by
  cases axis with
  | itself =>
    rw [peers, peers, Set.singleton_inter_of_mem hn]
  | child | descendant =>
    ext other
    constructor
    · rintro ⟨ho, hs⟩
      exact ⟨⟨hsub ho, hs⟩, ho⟩
    · rintro ⟨⟨_, hs⟩, ho⟩
      exact ⟨ho, hs⟩

namespace Grouping

variable {axis : Axis} {groups : List (List Located)} {nodes : Set Located}

/-- Thinning out every group thins out the set. -/
theorem thin (h : Grouping axis groups nodes) {thin : List Located → List Located}
    {kept : Set Located} (hsub : ∀ group, (thin group).Sublist group) (hkept : kept ⊆ nodes)
    (hmem : ∀ group ∈ groups, ∀ node ∈ group, (node ∈ thin group ↔ node ∈ kept)) :
    Grouping axis (groups.map thin) kept where
  mem_iff := by
    intro node
    constructor
    · intro hn
      obtain ⟨group, hg, hng⟩ := h.mem_iff.1 (hkept hn)
      exact ⟨thin group, List.mem_map_of_mem hg, (hmem group hg node hng).2 hn⟩
    · rintro ⟨_, ht, hn⟩
      obtain ⟨group, hg, rfl⟩ := List.mem_map.1 ht
      exact (hmem group hg node ((hsub group).subset hn)).1 hn
  peers_eq := by
    intro thinned ht node hn
    obtain ⟨group, hg, rfl⟩ := List.mem_map.1 ht
    have hng := (hsub group).subset hn
    rw [Axis.peers_of_subset hkept ((hmem group hg node hng).1 hn), h.peers_eq hg hng]
    ext other
    constructor
    · rintro ⟨ho, hok⟩
      exact (hmem group hg other ho).2 hok
    · intro ho
      have hog := (hsub group).subset ho
      exact ⟨hog, (hmem group hg other hog).1 ho⟩
  pairwise := by
    intro thinned ht
    obtain ⟨group, hg, rfl⟩ := List.mem_map.1 ht
    exact (h.pairwise hg).sublist (hsub group)

theorem filter (h : Grouping axis groups nodes) {keep : Located → Bool} {Kept : Located → Prop}
    (hkeep : ∀ node, keep node = true ↔ Kept node) :
    Grouping axis (groups.map (·.filter keep)) {node ∈ nodes | Kept node} := by
  refine h.thin (fun _ => List.filter_sublist) (fun _ => And.left) fun group hg node hn => ?_
  rw [List.mem_filter, hkeep]
  exact ⟨fun hk => ⟨h.mem_iff.2 ⟨group, hg, hn⟩, hk.2⟩, fun hk => ⟨hn, hk.2⟩⟩

/-- A predicate thins out the groups just as it thins out the set. -/
theorem kept (h : Grouping axis groups nodes) (p : Predicate) :
    Grouping axis (groups.map (p.filter ·)) (p.kept axis nodes) := by
  cases p with
  | position n =>
    refine h.thin (Predicate.filter_sublist · _) (fun _ => And.left) fun group hg node hn => ?_
    have hkept : node ∈ Predicate.kept axis nodes (.position n) ↔
        {other ∈ axis.peers nodes node | other.Precedes node}.encard + 1 = n :=
      and_iff_right (h.mem_iff.2 ⟨group, hg, hn⟩)
    rw [hkept, h.peers_eq hg hn]
    -- the place of the node in its group is where it splits the group
    obtain ⟨left, right, rfl⟩ := List.append_of_mem hn
    exact mem_filter_position_iff (h.pairwise hg)
  | fromLast offset =>
    refine h.thin (Predicate.filter_sublist · _) (fun _ => And.left) fun group hg node hn => ?_
    have hkept : node ∈ Predicate.kept axis nodes (.fromLast offset) ↔
        {other ∈ axis.peers nodes node | node.Precedes other}.encard = offset :=
      and_iff_right (h.mem_iff.2 ⟨group, hg, hn⟩)
    rw [hkept, h.peers_eq hg hn]
    obtain ⟨left, right, rfl⟩ := List.append_of_mem hn
    exact mem_filter_fromLast_iff (h.pairwise hg)
  | hasAttr | attrEquals | hasChild | childEquals => exact h.filter fun _ => Predicate.holds_iff

/-- The groups that an axis leads to from nodes of a tree. -/
theorem ofAxis {e : Element} {starts : List Located} (hs : ∀ start ∈ starts, start ∈ e.nodes)
    (axis : Axis) : Grouping axis (axis.groups starts) (axis.reached {start | start ∈ starts}) := by
  by_cases haxis : axis = .itself
  · -- every group is one start
    subst haxis
    refine ⟨fun {node} => ?_, fun hg node hn => ?_, fun hg => ?_⟩
    · simp [Axis.reached, Axis.groups]
    · obtain ⟨start, _, rfl⟩ := List.mem_map.1 hg
      rw [List.mem_singleton.1 hn]
      ext other
      exact List.mem_singleton.symm
    · obtain ⟨start, _, rfl⟩ := List.mem_map.1 hg
      exact List.pairwise_singleton _ _
  · -- the groups are the children of single nodes, and nodes of a tree have one parent
    rw [Axis.groups_eq starts haxis]
    have hreached := @Axis.mem_reached_iff e starts hs axis haxis
    have hparents : ∀ parent ∈ axis.parents starts, parent ∈ e.nodes :=
      fun _ hp => Axis.mem_nodes_of_mem_parents hs hp
    refine ⟨fun {node} => ?_, fun hg node hn => ?_, fun hg => ?_⟩
    · rw [hreached]
      constructor
      · rintro ⟨parent, hp, hn⟩
        exact ⟨parent.children, List.mem_map_of_mem hp, hn⟩
      · rintro ⟨_, hg, hn⟩
        obtain ⟨parent, hp, rfl⟩ := List.mem_map.1 hg
        exact ⟨parent, hp, hn⟩
    · obtain ⟨parent, hp, rfl⟩ := List.mem_map.1 hg
      have hpeers : axis.peers (axis.reached {start | start ∈ starts}) node =
          {other ∈ axis.reached {start | start ∈ starts} | other.SameParent node} := by
        cases axis with
        | itself => exact absurd rfl haxis
        | child | descendant => rfl
      rw [hpeers]
      ext other
      constructor
      · rintro ⟨ho, hsame⟩
        obtain ⟨parent', hp', ho⟩ := hreached.1 ho
        exact parentOf_of_sameParent (hparents parent hp) (hparents parent' hp') hn ho hsame
      · intro ho
        exact ⟨hreached.2 ⟨parent, hp, ho⟩, sameParent_of_parentOf hn ho⟩
    · obtain ⟨parent, _, rfl⟩ := List.mem_map.1 hg
      exact pairwise_precedes_locateChildren ..

theorem foldl_kept (h : Grouping axis groups nodes) (ps : List Predicate) :
    Grouping axis (ps.foldl (fun groups p => groups.map (p.filter ·)) groups)
      (ps.foldl (fun nodes p => p.kept axis nodes) nodes) := by
  induction ps generalizing groups nodes with
  | nil => exact h
  | cons p rest ih => exact ih (h.kept p)

end Grouping

/-! ## Steps and paths -/

/-- A step finds what it means, from whatever nodes of a tree it starts. -/
theorem Step.mem_select_iff {e : Element} {starts : List Located}
    (hs : ∀ start ∈ starts, start ∈ e.nodes) (step : Step) {node : Located} :
    node ∈ step.select starts ↔ node ∈ step.meaning {start | start ∈ starts} := by
  have htest (node : Located) : step.test.accepts node.element.name = true ↔
      step.test.Admits node.element.name := NameTest.accepts_iff
  have hgroups := ((Grouping.ofAxis hs step.axis).filter htest).foldl_kept step.predicates
  rw [Step.meaning, hgroups.mem_iff, Step.select, List.mem_flatten]
  rfl

namespace ElementPath

theorem mem_foldl_select_iff {e : Element} (steps : List Step) {starts : List Located}
    (hs : ∀ start ∈ starts, start ∈ e.nodes) {node : Located} :
    node ∈ steps.foldl (fun nodes step => step.select nodes) starts ↔
      node ∈ steps.foldl (fun nodes step => step.meaning nodes) {start | start ∈ starts} := by
  induction steps generalizing starts with
  | nil => rfl
  | cons step rest ih =>
    rw [List.foldl_cons, List.foldl_cons, ih fun _ => Step.mem_nodes_of_mem_select hs]
    have hstep : {node | node ∈ step.select starts} = step.meaning {start | start ∈ starts} :=
      Set.ext fun _ => step.mem_select_iff hs
    rw [hstep]

theorem mem_locate_iff {path : ElementPath} {e : Element} {node : Located} :
    node ∈ path.locate e ↔ node ∈ path.meaning e := by
  have hroot : ∀ start ∈ [Located.root e], start ∈ e.nodes := by
    intro start h
    rw [List.mem_singleton.1 h, Element.mem_nodes_iff]
    rfl
  have hset : {start | start ∈ [Located.root e]} = ({.root e} : Set Located) :=
    Set.ext fun _ => List.mem_singleton
  rw [locate, mem_foldl_select_iff path.steps hroot, hset]
  rfl

/-- Following a path finds the nodes that the path means, each once and at its place in the tree. -/
theorem locate_eq_meaning (path : ElementPath) (e : Element) :
    path.select e = (path.locate e).map (·.element) ∧
      {node | node ∈ path.locate e} = path.meaning e ∧
      ((path.locate e).map (·.place)).Nodup ∧
      ∀ node ∈ path.locate e, e.at? node.place = some node.element := by
  refine ⟨rfl, Set.ext fun _ => mem_locate_iff, path.nodup_locate e, fun node hn => ?_⟩
  rw [locate_eq] at hn
  exact Element.mem_nodes_iff.1 (mem_nodes_of_mem_nodesAfter hn)

end ElementPath

end Docweave
