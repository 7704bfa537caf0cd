import Docweave.Proofs.Tree.Walk

set_option autoImplicit false

/-! # The steps of a path one after the other

What holds of the nodes after every step: none stands above an earlier one, and all of them are nodes
of the tree. -/

namespace Docweave

/-! ## Nodes of a tree -/

namespace Element

/-- A walk from a node on another walk stays on that walk. -/
theorem mem_walk_trans {start middle node : Located} (hm : middle ∈ walk start.ascent start.element)
    (hn : node ∈ walk middle.ascent middle.element) : node ∈ walk start.ascent start.element := by
  obtain ⟨place, ha, hat⟩ := (mem_walk_iff _).1 hm
  obtain ⟨below, hb, hbt⟩ := (mem_walk_iff _).1 hn
  refine (mem_walk_iff _).2 ⟨place ++ below, ?_, ?_⟩
  · rw [hb, ha, List.reverse_append, List.append_assoc]
  · rw [at?_append, hat, Option.bind_some, hbt]

/-- What is below a node of a tree is in the tree. -/
theorem mem_nodes_of_mem_walk {e : Element} {start node : Located} (hs : start ∈ e.nodes)
    (hn : node ∈ walk start.ascent start.element) : node ∈ e.nodes :=
  @mem_walk_trans (.root e) start node hs hn

/-- The children of a node are met on the walk from the node. -/
theorem mem_walk_of_mem_children {start node : Located} (h : node ∈ start.children) :
    node ∈ walk start.ascent start.element := by
  obtain ⟨i, ha, hc⟩ := mem_locateChildren_iff.1 h
  refine (mem_walk_iff _).2 ⟨[i], by simpa using ha, ?_⟩
  rw [at?, hc]
  rfl

theorem mem_nodes_of_mem_children {e : Element} {start node : Located} (hs : start ∈ e.nodes)
    (hn : node ∈ start.children) : node ∈ e.nodes :=
  mem_nodes_of_mem_walk hs (mem_walk_of_mem_children hn)

end Element

/-! ## One step -/

/-- The nodes whose children an axis leads to, if it is not the one to the node itself. -/
def Axis.parents (starts : List Located) : Axis → List Located
  | itself | child => starts
  | descendant => (outermost [] starts).flatMap fun start => start.element.walk start.ascent

theorem Axis.groups_eq {axis : Axis} (starts : List Located) (h : axis ≠ itself) :
    axis.groups starts = (axis.parents starts).map Located.children := by
  cases axis with
  | itself => exact absurd rfl h
  | child => rfl
  | descendant => simp only [Axis.groups, Axis.parents, Element.childGroups_eq, List.map_flatMap]

theorem Axis.mem_nodes_of_mem_parents {e : Element} {starts : List Located} {node : Located}
    (hs : ∀ start ∈ starts, start ∈ e.nodes) {axis : Axis} (h : node ∈ axis.parents starts) :
    node ∈ e.nodes := by
  cases axis with
  | itself | child => exact hs node h
  | descendant =>
    obtain ⟨start, hstart, hn⟩ := List.mem_flatMap.1 h
    exact Element.mem_nodes_of_mem_walk (hs start ((outermost_sublist [] starts).subset hstart)) hn

namespace Step

/-- A step leaves out some of the nodes that its axis leads to, and keeps the order of the others. -/
theorem select_sublist (step : Step) (starts : List Located) :
    (step.select starts).Sublist (step.axis.groups starts).flatten :=
  (Predicate.flatten_foldl_filter_sublist _ _).trans
    (flatten_map_sublist _ (fun _ => List.filter_sublist) _)

theorem mem_nodes_of_mem_select {e : Element} {starts : List Located} {step : Step} {node : Located}
    (hs : ∀ start ∈ starts, start ∈ e.nodes) (h : node ∈ step.select starts) : node ∈ e.nodes := by
  have hg := (step.select_sublist starts).subset h
  by_cases haxis : step.axis = .itself
  · rw [haxis, Axis.groups, ← List.flatMap_def, List.flatMap_singleton'] at hg
    exact hs node hg
  · rw [Axis.groups_eq starts haxis] at hg
    obtain ⟨group, hgroup, hn⟩ := List.mem_flatten.1 hg
    obtain ⟨parent, hp, rfl⟩ := List.mem_map.1 hgroup
    exact Element.mem_nodes_of_mem_children (Axis.mem_nodes_of_mem_parents hs hp) hn

end Step

/-! ## All steps of a path -/

namespace ElementPath

/-- The nodes that steps find below an element. The steps are given last step first. -/
def nodesAfter (e : Element) : List Step → List Located
  | [] => [.root e]
  | step :: before => step.select (nodesAfter e before)

theorem locate_eq (path : ElementPath) (e : Element) :
    path.locate e = nodesAfter e path.steps.reverse := by
  have h : ∀ steps : List Step,
      nodesAfter e steps = steps.foldr (fun step nodes => step.select nodes) [.root e] := by
    intro steps
    induction steps with
    | nil => rfl
    | cons step before ih => rw [nodesAfter, List.foldr_cons, ih]
  rw [h, List.foldr_reverse, locate]

theorem topDown_nodesAfter (e : Element) (steps : List Step) : TopDown (nodesAfter e steps) := by
  induction steps with
  | nil => exact List.pairwise_singleton ..
  | cons step before ih => exact step.topDown_select ih

theorem mem_nodes_of_mem_nodesAfter {e : Element} {steps : List Step} {node : Located}
    (h : node ∈ nodesAfter e steps) : node ∈ e.nodes := by
  induction steps generalizing node with
  | nil =>
    rw [nodesAfter, List.mem_singleton] at h
    rw [h, Element.nodes, Element.walk_eq]
    exact List.mem_cons_self
  | cons step before ih => exact Step.mem_nodes_of_mem_select (fun _ => ih) h

end ElementPath

end Docweave
