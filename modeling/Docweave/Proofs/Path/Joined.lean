import Docweave.Proofs.Path.Segments
import Docweave.Proofs.Path.Starts

set_option autoImplicit false

/-! # Two paths joined by a slash

Joining two paths by a slash makes a path that leads wherever the second one leads from what the first
one finds (`select_joined`). The steps of the second path are followed from all nodes that the first
one finds at once; that they find the same as from one node after the other is
`follow_eq_dropRepeats`. Below a node the steps find the same as in the tree that the node is the root
of, at places that are seen from there. -/

namespace Docweave

/-- A node of the tree at the end of `ascent`, as a node of the whole tree. -/
def Located.below (ascent : List Nat) (node : Located) : Located :=
  ⟨node.ascent ++ ascent, node.element⟩

/-! ## Steps below a node -/

theorem place_below (ascent : List Nat) (node : Located) :
    (node.below ascent).place = ascent.reverse ++ node.place :=
  List.reverse_append

theorem locateChildren_below (ascent above : List Nat) (first : Nat) (es : List Element) :
    locateChildren (above ++ ascent) first es =
      (locateChildren above first es).map (·.below ascent) := by
  induction es generalizing first with
  | nil => rfl
  | cons e rest ih =>
    rw [locateChildren, ih]
    rfl

namespace Element

mutual

theorem childGroups_below (ascent above : List Nat) : (e : Element) →
    e.childGroups (above ++ ascent) = (e.childGroups above).map (·.map (·.below ascent))
  | ⟨_, _, _, _, children⟩ => by
    rw [childGroups, childGroups, List.map_cons, locateChildren_below,
      childGroupsAll_below ascent above 0 children]

theorem childGroupsAll_below (ascent above : List Nat) (first : Nat) : (es : List Element) →
    childGroupsAll (above ++ ascent) first es =
      (childGroupsAll above first es).map (·.map (·.below ascent))
  | [] => rfl
  | e :: rest => by
    rw [childGroupsAll, childGroupsAll, List.map_append, ← childGroups_below ascent (first :: above) e,
      childGroupsAll_below ascent above (first + 1) rest]
    rfl

end

end Element

theorem outermost_below (ascent : List Nat) (seen : List Location) (nodes : List Located) :
    outermost (seen.map (ascent.reverse ++ ·)) (nodes.map (·.below ascent)) =
      (outermost seen nodes).map (·.below ascent) := by
  induction nodes generalizing seen with
  | nil => rfl
  | cons node rest ih =>
    have hany : (seen.map (ascent.reverse ++ ·)).any (·.isPrefixOf (node.below ascent).place) =
        seen.any (·.isPrefixOf node.place) := by
      rw [List.any_map, place_below]
      refine congrArg _ (funext fun place => ?_)
      rw [Bool.eq_iff_iff, Function.comp_apply, List.isPrefixOf_iff_prefix,
        List.isPrefixOf_iff_prefix, List.prefix_append_right_inj]
    rw [List.map_cons, outermost, outermost, hany]
    split
    · exact ih seen
    · rw [List.map_cons, ← ih, List.map_cons, place_below]

theorem Axis.groups_below (axis : Axis) (ascent : List Nat) (nodes : List Located) :
    axis.groups (nodes.map (·.below ascent)) =
      (axis.groups nodes).map (·.map (·.below ascent)) := by
  cases axis with
  | itself => simp only [groups, List.map_map, Function.comp_def, List.map_cons, List.map_nil]
  | child =>
    simp only [groups, List.map_map]
    refine List.map_congr_left fun node _ => ?_
    exact locateChildren_below ascent node.ascent 0 node.element.children
  | descendant =>
    have hout := outermost_below ascent [] nodes
    rw [List.map_nil] at hout
    rw [groups, groups, hout, List.flatMap_map, List.map_flatMap]
    exact List.flatMap_congr fun node _ =>
      Element.childGroups_below ascent node.ascent node.element

theorem Predicate.filter_below (p : Predicate) (ascent : List Nat) (group : List Located) :
    p.filter (group.map (·.below ascent)) = (p.filter group).map (·.below ascent) := by
  cases p with
  | position n =>
    rw [filter, filter]
    split
    · rfl
    · rw [List.getElem?_map, Option.toList_map]
  | fromLast offset =>
    rw [filter, filter, List.length_map]
    split
    · rw [List.getElem?_map, Option.toList_map]
    · rfl
  | hasAttr | attrEquals | hasChild | childEquals => exact List.filter_map

theorem Step.groups_below (step : Step) (ascent : List Nat) (nodes : List Located) :
    step.groups (nodes.map (·.below ascent)) =
      (step.groups nodes).map (·.map (·.below ascent)) := by
  rw [groups, groups, Axis.groups_below, List.map_map, List.map_map]
  exact List.map_congr_left fun group _ => List.filter_map

theorem Step.thin_below (step : Step) (ascent : List Nat) (group : List Located) :
    step.thin (group.map (·.below ascent)) = (step.thin group).map (·.below ascent) := by
  unfold thin
  induction step.predicates generalizing group with
  | nil => rfl
  | cons p ps ih => rw [List.foldl_cons, List.foldl_cons, p.filter_below, ih]

theorem Step.select_below (step : Step) (ascent : List Nat) (nodes : List Located) :
    step.select (nodes.map (·.below ascent)) = (step.select nodes).map (·.below ascent) := by
  rw [select_eq_flatMap_thin, select_eq_flatMap_thin, groups_below, List.flatMap_map,
    List.map_flatMap]
  exact List.flatMap_congr fun group _ => step.thin_below ascent group

theorem follow_below (steps : List Step) (ascent : List Nat) (nodes : List Located) :
    follow steps (nodes.map (·.below ascent)) = (follow steps nodes).map (·.below ascent) := by
  induction steps generalizing nodes with
  | nil => rfl
  | cons step rest ih =>
    change follow rest (step.select (nodes.map (·.below ascent))) = _
    rw [step.select_below, ih]
    rfl

/-! ## Joining -/

namespace ElementPath

/-- What a second path finds from each node that a first one finds, in order, each node once. -/
def locateInTurn (first second : ElementPath) (e : Element) : List Located :=
  dropRepeats [] ((first.locate e).flatMap fun node =>
    (second.locate node.element).map (·.below node.ascent))

/-- From a node of a tree, steps find what they find in the tree below it. -/
theorem follow_singleton (path : ElementPath) (node : Located) :
    follow path.steps [node] = (path.locate node.element).map (·.below node.ascent) :=
  follow_below path.steps node.ascent [.root node.element]

/-- Two paths joined by a slash are a path, and it finds what the second one finds from each node that
the first one finds, in order, without later repeats of a node. -/
theorem select_joined {p q : String} {first second : ElementPath} (hp : parse p = .ok first)
    (hq : parse q = .ok second) (htrim : Text.trim p.toList = p.toList)
    (htrim' : Text.trim q.toList = q.toList) (hslash : p.toList.getLast? ≠ some '/') :
    ∃ joined, parse (p ++ "/" ++ q) = .ok joined ∧
      ∀ e, joined.locate e = locateInTurn first second e ∧
        joined.select e = (locateInTurn first second e).map (·.element) := by
  refine ⟨_, parse_joined hp hq htrim htrim' hslash, fun e => ?_⟩
  have hnodes : ∀ node ∈ first.locate e, node ∈ e.nodes := by
    intro node hn
    rw [locate_eq] at hn
    exact mem_nodes_of_mem_nodesAfter hn
  have hlocate : (ElementPath.mk (p ++ "/" ++ q) (first.steps ++ second.steps)).locate e =
      locateInTurn first second e := by
    calc follow (first.steps ++ second.steps) [.root e]
        = follow second.steps (first.locate e) := follow_append ..
      _ = dropRepeats [] ((first.locate e).flatMap fun node => follow second.steps [node]) :=
          follow_eq_dropRepeats second.steps hnodes (first.topDown_locate e)
      _ = locateInTurn first second e := by
          simp only [follow_singleton]
          rfl
  exact ⟨hlocate, congrArg _ hlocate⟩

/-- A node below two nested nodes is found from both, and listed once. -/
theorem select_joined_nested :
    ∃ joined, parse (".//a" ++ "/" ++ ".//b[1]") = .ok joined ∧
      places (joined.locate (.ofChildren "r" [.ofChildren "a" [.ofChildren "a" [.ofTag "b"]]])) =
        [[0, 0, 0]] := by
  have hp : parse ".//a" =
      .ok ⟨".//a", [⟨.itself, .any, []⟩, ⟨.descendant, .tagged "a", []⟩]⟩ := by
    decide +kernel
  have hq : parse ".//b[1]" =
      .ok ⟨".//b[1]", [⟨.itself, .any, []⟩, ⟨.descendant, .tagged "b", [.position 1]⟩]⟩ := by
    decide +kernel
  obtain ⟨joined, hjoined, hfound⟩ := select_joined hp hq (by decide) (by decide) (by decide)
  refine ⟨joined, hjoined, ?_⟩
  rw [(hfound _).1]
  decide

end ElementPath

end Docweave
