import Docweave.Proofs.Path.Meaning

set_option autoImplicit false

/-! # Following steps from several nodes

What steps find from several nodes is what they find from each of them in turn, each node once
(`follow_eq_dropRepeats`). Groups never mix the children of two nodes, so one step finds from its
starts just what it finds from each; and a start that a descendant step does not walk from, for the
walk from an earlier one passes it, leads to nothing new. So a path finds the same nodes if every step
walks from all its starts, and leaves out what it meets again before it counts
(`locate_eq_foldl_selectFromEach`). -/

namespace Docweave

/-! ## Each node once -/

/-- Nodes without those that stand where an earlier one stands; `seen` holds the places of the earlier
ones. -/
def dropRepeats (seen : List Location) : List Located → List Located
  | [] => []
  | node :: rest =>
    if node.place ∈ seen then dropRepeats seen rest
    else node :: dropRepeats (node.place :: seen) rest

/-- Where some nodes stand. -/
def places (nodes : List Located) : List Location := nodes.map (·.place)

theorem places_append (nodes more : List Located) :
    places (nodes ++ more) = places nodes ++ places more := List.map_append

theorem dropRepeats_of_mem {seen : List Location} {node : Located} (h : node.place ∈ seen)
    (rest : List Located) : dropRepeats seen (node :: rest) = dropRepeats seen rest := by
  rw [dropRepeats, if_pos h]

theorem dropRepeats_of_notMem {seen : List Location} {node : Located} (h : node.place ∉ seen)
    (rest : List Located) :
    dropRepeats seen (node :: rest) = node :: dropRepeats (node.place :: seen) rest := by
  rw [dropRepeats, if_neg h]

theorem dropRepeats_congr {seen seen' : List Location} (h : ∀ place, place ∈ seen ↔ place ∈ seen')
    (nodes : List Located) : dropRepeats seen nodes = dropRepeats seen' nodes := by
  induction nodes generalizing seen seen' with
  | nil => rfl
  | cons node rest ih =>
    by_cases hnode : node.place ∈ seen
    · rw [dropRepeats_of_mem hnode, dropRepeats_of_mem ((h _).1 hnode), ih h]
    · rw [dropRepeats_of_notMem hnode, dropRepeats_of_notMem fun hmem => hnode ((h _).2 hmem)]
      refine congrArg _ (ih fun place => ?_)
      rw [List.mem_cons, List.mem_cons, h]

theorem dropRepeats_append (seen : List Location) (nodes more : List Located) :
    dropRepeats seen (nodes ++ more) =
      dropRepeats seen nodes ++ dropRepeats (places nodes ++ seen) more := by
  induction nodes generalizing seen with
  | nil => rfl
  | cons node rest ih =>
    rw [List.cons_append]
    by_cases hnode : node.place ∈ seen
    · rw [dropRepeats_of_mem hnode, dropRepeats_of_mem hnode, ih]
      refine congrArg _ (dropRepeats_congr (fun place => ?_) more)
      simp only [places, List.map_cons, List.cons_append, List.mem_cons, List.mem_append]
      exact ⟨.inr, fun h => h.elim (fun heq => .inr (heq ▸ hnode)) id⟩
    · rw [dropRepeats_of_notMem hnode, dropRepeats_of_notMem hnode, ih, List.cons_append]
      refine congrArg _ (congrArg _ (dropRepeats_congr (fun place => ?_) more))
      simp only [places, List.map_cons, List.cons_append, List.mem_cons, List.mem_append]
      exact or_left_comm

/-- Where all have been before, none is left. -/
theorem dropRepeats_of_subset {seen : List Location} {nodes : List Located}
    (h : places nodes ⊆ seen) : dropRepeats seen nodes = [] := by
  induction nodes with
  | nil => rfl
  | cons node rest ih =>
    obtain ⟨hnode, hrest⟩ := List.cons_subset.1 h
    rw [dropRepeats_of_mem hnode, ih hrest]

/-- Nodes that all stand in different places are kept. -/
theorem dropRepeats_eq_self {seen : List Location} {nodes : List Located}
    (h : (places nodes).Nodup) (hseen : ∀ place ∈ places nodes, place ∉ seen) :
    dropRepeats seen nodes = nodes := by
  induction nodes generalizing seen with
  | nil => rfl
  | cons node rest ih =>
    obtain ⟨hnode, hrest⟩ := List.nodup_cons.1 h
    rw [dropRepeats_of_notMem (hseen _ List.mem_cons_self), ih hrest fun place hp hmem => ?_]
    rcases List.mem_cons.1 hmem with rfl | hmem
    · exact hnode hp
    · exact hseen place (List.mem_cons_of_mem _ hp) hmem

theorem mem_places_dropRepeats {seen : List Location} {nodes : List Located} {place : Location} :
    place ∈ places (dropRepeats seen nodes) ↔ place ∈ places nodes ∧ place ∉ seen := by
  induction nodes generalizing seen with
  | nil => simp [places, dropRepeats]
  | cons node rest ih =>
    have hcons (nodes : List Located) : place ∈ places (node :: nodes) ↔
        place = node.place ∨ place ∈ places nodes := List.mem_cons
    by_cases hnode : node.place ∈ seen
    · rw [dropRepeats_of_mem hnode, ih, hcons]
      exact ⟨fun h => ⟨.inr h.1, h.2⟩,
        fun h => ⟨h.1.resolve_left fun heq => h.2 (heq ▸ hnode), h.2⟩⟩
    · rw [dropRepeats_of_notMem hnode, hcons, ih, hcons, List.mem_cons, not_or]
      by_cases heq : place = node.place
      · simp only [heq, true_or, hnode, not_false_eq_true, and_self]
      · simp only [heq, false_or, not_false_eq_true, true_and]

theorem dropRepeats_dropRepeats {seen seen' : List Location} (h : seen' ⊆ seen)
    (nodes : List Located) : dropRepeats seen (dropRepeats seen' nodes) = dropRepeats seen nodes := by
  induction nodes generalizing seen seen' with
  | nil => rfl
  | cons node rest ih =>
    by_cases hnode' : node.place ∈ seen'
    · rw [dropRepeats_of_mem hnode', dropRepeats_of_mem (h hnode'), ih h]
    · rw [dropRepeats_of_notMem hnode']
      by_cases hnode : node.place ∈ seen
      · rw [dropRepeats_of_mem hnode, dropRepeats_of_mem hnode,
          ih (List.cons_subset.2 ⟨hnode, h⟩)]
      · rw [dropRepeats_of_notMem hnode, dropRepeats_of_notMem hnode,
          ih (List.cons_subset_cons _ h)]

/-- It makes no difference whether the repeats are left out of the parts before. -/
theorem dropRepeats_flatMap (seen : List Location) (nodes : List Located)
    (found : Located → List Located) :
    dropRepeats seen (nodes.flatMap fun node => dropRepeats [] (found node)) =
      dropRepeats seen (nodes.flatMap found) := by
  induction nodes generalizing seen with
  | nil => rfl
  | cons node rest ih =>
    rw [List.flatMap_cons, List.flatMap_cons, dropRepeats_append, dropRepeats_append,
      dropRepeats_dropRepeats (List.nil_subset _), ih]
    refine congrArg _ (dropRepeats_congr (fun place => ?_) _)
    rw [List.mem_append, List.mem_append, mem_places_dropRepeats]
    simp only [List.not_mem_nil, not_false_eq_true, and_true]

theorem TopDown.nodup_places {nodes : List Located} (h : TopDown nodes) : (places nodes).Nodup := by
  refine List.pairwise_map.2 (List.Pairwise.imp (fun {a b} hab heq => hab ?_) h)
  rw [Located.place, Located.place, List.reverse_inj] at heq
  exact heq ▸ List.suffix_refl _

/-! ## One step -/

/-- The nodes that an axis looks from. -/
def Axis.lookouts (nodes : List Located) : Axis → List Located
  | itself | child => nodes
  | descendant => outermost [] nodes

theorem Axis.lookouts_sublist (axis : Axis) (nodes : List Located) :
    (axis.lookouts nodes).Sublist nodes := by
  cases axis with
  | itself | child => exact List.Sublist.refl _
  | descendant => exact outermost_sublist [] nodes

theorem Axis.groups_eq_flatMap (axis : Axis) (nodes : List Located) :
    axis.groups nodes = (axis.lookouts nodes).flatMap fun node => axis.groups [node] := by
  cases axis with
  | itself => exact List.map_eq_flatMap
  | child => exact List.map_eq_flatMap
  | descendant =>
    refine List.flatMap_congr fun node _ => ?_
    exact (List.append_nil _).symm

namespace Step

/-- What the predicates of a step leave of a group. -/
def thin (step : Step) (group : List Located) : List Located :=
  step.predicates.foldl (fun group p => p.filter group) group

/-- The predicates of a step thin out every group on its own. -/
theorem select_eq_flatMap_thin (step : Step) (nodes : List Located) :
    step.select nodes = (step.groups nodes).flatMap step.thin := by
  have hfold (ps : List Predicate) (groups : List (List Located)) :
      ps.foldl (fun groups p => groups.map (p.filter ·)) groups =
        groups.map fun group => ps.foldl (fun group p => p.filter group) group := by
    induction ps generalizing groups with
    | nil => exact (List.map_id _).symm
    | cons p ps ih =>
      rw [List.foldl_cons, ih, List.map_map]
      rfl
  rw [List.flatMap_def, select, hfold]
  rfl

theorem groups_eq_flatMap (step : Step) (nodes : List Located) :
    step.groups nodes = (step.axis.lookouts nodes).flatMap fun node => step.groups [node] := by
  rw [groups, Axis.groups_eq_flatMap, List.map_flatMap]
  rfl

/-- A step finds from the nodes that its axis looks from what it finds from each of them. -/
theorem select_eq_flatMap (step : Step) (nodes : List Located) :
    step.select nodes = (step.axis.lookouts nodes).flatMap fun node => step.select [node] := by
  rw [select_eq_flatMap_thin, groups_eq_flatMap, List.flatMap_assoc]
  exact List.flatMap_congr fun node _ => (step.select_eq_flatMap_thin [node]).symm

/-- A descendant step meets the groups below a node on the walk from one above. -/
theorem groups_subset_of_isSuffix {e : Element} {above node : Located} (ha : above ∈ e.nodes)
    (hn : node ∈ e.nodes) (h : above.ascent <:+ node.ascent) {step : Step}
    (haxis : step.axis = .descendant) : step.groups [node] ⊆ step.groups [above] := by
  have hwalk := Element.mem_walk_of_isSuffix ha hn h
  refine List.map_subset _ fun group hgroup => ?_
  rw [haxis, Axis.groups_eq _ (by decide)] at hgroup ⊢
  obtain ⟨parent, hp, rfl⟩ := List.mem_map.1 hgroup
  refine List.mem_map_of_mem ?_
  simp only [Axis.parents, outermost, List.any_nil, Bool.false_eq_true, if_false,
    List.flatMap_cons, List.flatMap_nil, List.append_nil] at hp ⊢
  exact Element.mem_walk_trans hwalk hp

theorem select_subset_of_isSuffix {e : Element} {above node : Located} (ha : above ∈ e.nodes)
    (hn : node ∈ e.nodes) (h : above.ascent <:+ node.ascent) {step : Step}
    (haxis : step.axis = .descendant) : step.select [node] ⊆ step.select [above] := by
  intro found hfound
  rw [select_eq_flatMap_thin, List.mem_flatMap] at hfound ⊢
  obtain ⟨group, hgroup, hkept⟩ := hfound
  exact ⟨group, groups_subset_of_isSuffix ha hn h haxis hgroup, hkept⟩

end Step

/-! ## All steps -/

/-- The nodes that steps find from some nodes. -/
def follow (steps : List Step) (nodes : List Located) : List Located :=
  steps.foldl (fun nodes step => step.select nodes) nodes

theorem follow_append (steps later : List Step) (nodes : List Located) :
    follow (steps ++ later) nodes = follow later (follow steps nodes) :=
  List.foldl_append

/-- A node below an earlier one can be left out where it leads only to places that the earlier one
leads to. -/
theorem dropRepeats_outermost {found : Located → List Located} {nodes : List Located}
    (h : ∀ a ∈ nodes, ∀ b ∈ nodes, a.place <+: b.place → places (found b) ⊆ places (found a)) :
    dropRepeats [] ((outermost [] nodes).flatMap found) = dropRepeats [] (nodes.flatMap found) := by
  suffices hgen : ∀ (above seen : List Location),
      (∀ place ∈ above, ∀ b ∈ nodes, place <+: b.place → places (found b) ⊆ seen) →
      dropRepeats seen ((outermost above nodes).flatMap found) =
        dropRepeats seen (nodes.flatMap found) from hgen [] [] nofun
  induction nodes with
  | nil => exact fun _ _ _ => rfl
  | cons node rest ih =>
    intro above seen hseen
    have ih := ih fun a ha b hb => h a (List.mem_cons_of_mem _ ha) b (List.mem_cons_of_mem _ hb)
    rw [outermost]
    split
    · next hany =>
      obtain ⟨place, hplace, hpre⟩ := List.any_eq_true.1 hany
      have hsub := hseen place hplace node List.mem_cons_self (List.isPrefixOf_iff_prefix.1 hpre)
      rw [List.flatMap_cons, dropRepeats_append, dropRepeats_of_subset hsub, List.nil_append,
        ih above seen fun place hp b hb => hseen place hp b (List.mem_cons_of_mem _ hb)]
      refine (dropRepeats_congr (fun place => ?_) _).symm
      rw [List.mem_append]
      exact ⟨fun hp => hp.elim (@hsub place) id, .inr⟩
    · rw [List.flatMap_cons, List.flatMap_cons, dropRepeats_append, dropRepeats_append,
        ih (node.place :: above)]
      intro place hp b hb hpre
      rcases List.mem_cons.1 hp with rfl | hp
      · exact List.Subset.trans (h node List.mem_cons_self b (List.mem_cons_of_mem _ hb) hpre)
          (List.subset_append_left ..)
      · exact List.Subset.trans (hseen place hp b (List.mem_cons_of_mem _ hb) hpre)
          (List.subset_append_right ..)

/-- What steps find from several nodes is what they find from each in turn, each node once. -/
theorem follow_eq_dropRepeats {e : Element} (steps : List Step) {nodes : List Located}
    (hnodes : ∀ node ∈ nodes, node ∈ e.nodes) (htop : TopDown nodes) :
    follow steps nodes = dropRepeats [] (nodes.flatMap fun node => follow steps [node]) := by
  induction steps generalizing nodes with
  | nil =>
    have hflat : (nodes.flatMap fun node => follow [] [node]) = nodes := List.flatMap_singleton' nodes
    rw [hflat, dropRepeats_eq_self htop.nodup_places fun _ _ => List.not_mem_nil]
    rfl
  | cons step rest ih =>
    have hone {node : Located} (hn : node ∈ nodes) : follow (step :: rest) [node] =
        dropRepeats [] ((step.select [node]).flatMap fun node => follow rest [node]) :=
      ih (fun _ => Step.mem_nodes_of_mem_select (by simpa using hnodes node hn))
        (step.topDown_select (List.pairwise_singleton ..))
    have hlook : dropRepeats [] ((step.axis.lookouts nodes).flatMap fun node =>
        follow (step :: rest) [node]) =
          dropRepeats [] (nodes.flatMap fun node => follow (step :: rest) [node]) := by
      cases haxis : step.axis with
      | itself | child => rfl
      | descendant =>
        refine dropRepeats_outermost fun a ha b hb hpre place hplace => ?_
        rw [hone hb, mem_places_dropRepeats] at hplace
        rw [hone ha, mem_places_dropRepeats]
        have hsub := Step.select_subset_of_isSuffix (hnodes a ha) (hnodes b hb)
          (List.reverse_prefix.1 hpre) haxis
        obtain ⟨found, hfound, rfl⟩ := List.mem_map.1 hplace.1
        obtain ⟨node, hn, hfound⟩ := List.mem_flatMap.1 hfound
        exact ⟨List.mem_map_of_mem (List.mem_flatMap.2 ⟨node, hsub hn, hfound⟩), List.not_mem_nil⟩
    calc follow (step :: rest) nodes
        = follow rest (step.select nodes) := rfl
      _ = dropRepeats [] ((step.select nodes).flatMap fun node => follow rest [node]) :=
          ih (fun _ => Step.mem_nodes_of_mem_select hnodes) (step.topDown_select htop)
      _ = dropRepeats [] ((step.axis.lookouts nodes).flatMap fun node =>
            (step.select [node]).flatMap fun node => follow rest [node]) := by
          rw [step.select_eq_flatMap, List.flatMap_assoc]
      _ = dropRepeats [] ((step.axis.lookouts nodes).flatMap fun node =>
            follow (step :: rest) [node]) := by
          rw [← dropRepeats_flatMap]
          refine congrArg _ (List.flatMap_congr fun node hn => ?_)
          exact (hone ((step.axis.lookouts_sublist nodes).subset hn)).symm
      _ = dropRepeats [] (nodes.flatMap fun node => follow (step :: rest) [node]) := hlook

/-! ## Walking from every start -/

/-- Groups without the nodes that stand where an earlier one stands, in the same group or in another;
`seen` holds the places of the earlier ones. -/
def dropRepeatsOf (seen : List Location) : List (List Located) → List (List Located)
  | [] => []
  | group :: rest => dropRepeats seen group :: dropRepeatsOf (places group ++ seen) rest

theorem dropRepeatsOf_congr {seen seen' : List Location} (h : ∀ place, place ∈ seen ↔ place ∈ seen')
    (groups : List (List Located)) : dropRepeatsOf seen groups = dropRepeatsOf seen' groups := by
  induction groups generalizing seen seen' with
  | nil => rfl
  | cons group rest ih =>
    rw [dropRepeatsOf, dropRepeatsOf, dropRepeats_congr h]
    refine congrArg _ (ih fun place => ?_)
    rw [List.mem_append, List.mem_append, h]

theorem dropRepeatsOf_append (seen : List Location) (groups more : List (List Located)) :
    dropRepeatsOf seen (groups ++ more) =
      dropRepeatsOf seen groups ++ dropRepeatsOf (places groups.flatten ++ seen) more := by
  induction groups generalizing seen with
  | nil => rfl
  | cons group rest ih =>
    rw [List.cons_append, dropRepeatsOf, dropRepeatsOf, ih, List.cons_append]
    refine congrArg _ (congrArg _ (dropRepeatsOf_congr (fun place => ?_) more))
    simp only [List.flatten_cons, places_append, List.mem_append]
    rw [or_assoc, or_left_comm]

theorem dropRepeatsOf_eq_self {seen : List Location} {groups : List (List Located)}
    (h : (places groups.flatten).Nodup) (hseen : ∀ place ∈ places groups.flatten, place ∉ seen) :
    dropRepeatsOf seen groups = groups := by
  induction groups generalizing seen with
  | nil => rfl
  | cons group rest ih =>
    rw [List.flatten_cons, places_append] at h hseen
    obtain ⟨hgroup, hrest, hapart⟩ := List.nodup_append.1 h
    rw [dropRepeatsOf, dropRepeats_eq_self hgroup fun place hp => hseen place
      (List.mem_append_left _ hp), ih hrest fun place hp hmem => ?_]
    rcases List.mem_append.1 hmem with hmem | hmem
    · exact hapart place hmem place hp rfl
    · exact hseen place (List.mem_append_right _ hp) hmem

namespace Step

theorem thin_nil (step : Step) : step.thin [] = [] := by
  unfold thin
  induction step.predicates with
  | nil => rfl
  | cons p ps ih => rw [List.foldl_cons, List.sublist_nil.1 (p.filter_sublist []), ih]

/-- Groups of nodes that have all been met come to nothing. -/
theorem flatMap_thin_of_subset (step : Step) {seen : List Location} {groups : List (List Located)}
    (h : places groups.flatten ⊆ seen) : (dropRepeatsOf seen groups).flatMap step.thin = [] := by
  induction groups generalizing seen with
  | nil => rfl
  | cons group rest ih =>
    rw [List.flatten_cons, places_append, List.append_subset] at h
    rw [dropRepeatsOf, List.flatMap_cons, dropRepeats_of_subset h.1, thin_nil, List.nil_append]
    exact ih fun place hp => List.mem_append_right _ (h.2 hp)

/-- The nodes that a step finds if it walks from every start, and leaves out what it meets again before
its predicates. -/
def selectFromEach (step : Step) (nodes : List Located) : List Located :=
  (dropRepeatsOf [] (nodes.flatMap fun node => step.groups [node])).flatMap step.thin

theorem flatMap_thin_outermost (step : Step) {nodes : List Located} {above seen : List Location}
    (h : ∀ a ∈ nodes, ∀ b ∈ nodes, a.place <+: b.place →
      places (step.groups [b]).flatten ⊆ places (step.groups [a]).flatten)
    (habove : ∀ place ∈ above, ∀ b ∈ nodes, place <+: b.place →
      places (step.groups [b]).flatten ⊆ seen)
    (hnodup : (places ((outermost above nodes).flatMap fun n => step.groups [n]).flatten).Nodup)
    (hseen : ∀ place ∈ places ((outermost above nodes).flatMap fun n => step.groups [n]).flatten,
      place ∉ seen) :
    (dropRepeatsOf seen (nodes.flatMap fun node => step.groups [node])).flatMap step.thin =
      ((outermost above nodes).flatMap fun node => step.groups [node]).flatMap step.thin := by
  induction nodes generalizing above seen with
  | nil => rfl
  | cons node rest ih =>
    have hrest : ∀ a ∈ rest, ∀ b ∈ rest, a.place <+: b.place →
        places (step.groups [b]).flatten ⊆ places (step.groups [a]).flatten :=
      fun a ha b hb => h a (List.mem_cons_of_mem _ ha) b (List.mem_cons_of_mem _ hb)
    rw [outermost] at hnodup hseen ⊢
    rw [List.flatMap_cons, dropRepeatsOf_append, List.flatMap_append]
    split at hnodup
    · next hany =>
      rw [if_pos hany] at hseen ⊢
      obtain ⟨place, hplace, hpre⟩ := List.any_eq_true.1 hany
      have hsub := habove place hplace node List.mem_cons_self (List.isPrefixOf_iff_prefix.1 hpre)
      have hsame (groups : List (List Located)) :
          dropRepeatsOf (places (step.groups [node]).flatten ++ seen) groups =
            dropRepeatsOf seen groups := by
        refine dropRepeatsOf_congr (fun place => ?_) groups
        rw [List.mem_append]
        exact ⟨fun hp => hp.elim (@hsub place) id, .inr⟩
      rw [step.flatMap_thin_of_subset hsub, List.nil_append, hsame]
      exact ih hrest (fun place hp b hb => habove place hp b (List.mem_cons_of_mem _ hb)) hnodup
        hseen
    · next hany =>
      rw [if_neg hany] at hseen ⊢
      rw [List.flatMap_cons, List.flatten_append, places_append] at hnodup hseen
      obtain ⟨hfirst, hlater, hapart⟩ := List.nodup_append.1 hnodup
      rw [List.flatMap_cons, List.flatMap_append, dropRepeatsOf_eq_self hfirst fun place hp =>
        hseen place (List.mem_append_left _ hp)]
      refine congrArg _ (ih hrest (fun place hp b hb hpre => ?_) hlater fun place hp hmem => ?_)
      · rcases List.mem_cons.1 hp with rfl | hp
        · exact List.Subset.trans (h node List.mem_cons_self b (List.mem_cons_of_mem _ hb) hpre)
            (List.subset_append_left ..)
        · exact List.Subset.trans (habove place hp b (List.mem_cons_of_mem _ hb) hpre)
            (List.subset_append_right ..)
      · rcases List.mem_append.1 hmem with hmem | hmem
        · exact hapart place hmem place hp rfl
        · exact hseen place (List.mem_append_right _ hp) hmem

/-- Walks that would only meet nodes again can be left out. -/
theorem select_eq_selectFromEach (step : Step) {e : Element} {nodes : List Located}
    (hnodes : ∀ node ∈ nodes, node ∈ e.nodes) (htop : TopDown nodes) :
    step.select nodes = step.selectFromEach nodes := by
  have hnodup : (places (step.groups nodes).flatten).Nodup := by
    refine TopDown.nodup_places ((topDown_flatten_groups htop step.axis).sublist ?_)
    exact flatten_map_sublist _ (fun _ => List.filter_sublist) _
  rw [select_eq_flatMap_thin, groups_eq_flatMap, selectFromEach]
  rw [groups_eq_flatMap] at hnodup
  cases haxis : step.axis with
  | itself | child =>
    rw [haxis] at hnodup
    exact congrArg _ (dropRepeatsOf_eq_self hnodup fun _ _ => List.not_mem_nil).symm
  | descendant =>
    rw [haxis] at hnodup
    refine (step.flatMap_thin_outermost (fun a ha b hb hpre place hplace => ?_)
      (fun _ hp => absurd hp List.not_mem_nil) hnodup fun _ _ => List.not_mem_nil).symm
    have hsub := groups_subset_of_isSuffix (hnodes a ha) (hnodes b hb) (List.reverse_prefix.1 hpre)
      haxis
    obtain ⟨node, hnode, rfl⟩ := List.mem_map.1 hplace
    obtain ⟨group, hgroup, hnode⟩ := List.mem_flatten.1 hnode
    exact List.mem_map_of_mem (List.mem_flatten.2 ⟨group, hsub hgroup, hnode⟩)

end Step

/-- Following a path is the same with walks from every start. -/
theorem ElementPath.locate_eq_foldl_selectFromEach (path : ElementPath) (e : Element) :
    path.locate e = path.steps.foldl (fun nodes step => step.selectFromEach nodes) [.root e] := by
  have hroot : ∀ node ∈ [Located.root e], node ∈ e.nodes := by
    intro node hn
    rw [List.mem_singleton.1 hn]
    exact mem_nodes_of_mem_nodesAfter (show _ ∈ nodesAfter e [] from List.mem_cons_self)
  have htop : TopDown [Located.root e] := List.pairwise_singleton ..
  unfold locate
  generalize [Located.root e] = nodes at hroot htop
  induction path.steps generalizing nodes with
  | nil => rfl
  | cons step rest ih =>
    rw [List.foldl_cons, List.foldl_cons, ← step.select_eq_selectFromEach hroot htop]
    exact ih _ (fun _ => Step.mem_nodes_of_mem_select hroot) (step.topDown_select htop)

end Docweave
