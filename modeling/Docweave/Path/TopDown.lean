import Docweave.Path.Select

set_option autoImplicit false

/-! # The order of nodes found

Among the nodes that a path finds, none stands above an earlier one, or where it stands. So none is
found twice, and a walk down from a node is only left out if an earlier walk has passed the node. -/

namespace Docweave

/-- No node stands above an earlier one, or where it stands. -/
def TopDown (nodes : List Located) : Prop :=
  nodes.Pairwise fun a b => ¬ b.ascent <:+ a.ascent

theorem TopDown.sublist {nodes kept : List Located} (h : TopDown nodes) (hk : kept.Sublist nodes) :
    TopDown kept :=
  List.Pairwise.sublist hk h

/-! ## Children and walks -/

theorem ascent_of_mem_locateChildren {ascent : List Nat} {first : Nat} {es : List Element}
    {node : Located} (h : node ∈ locateChildren ascent first es) :
    ∃ i, first ≤ i ∧ node.ascent = i :: ascent := by
  induction es generalizing first with
  | nil => simp [locateChildren] at h
  | cons e rest ih =>
    rcases List.mem_cons.1 h with rfl | h
    · exact ⟨first, Nat.le_refl _, rfl⟩
    · obtain ⟨i, hi, hn⟩ := ih h
      exact ⟨i, by omega, hn⟩

theorem topDown_locateChildren (ascent : List Nat) (first : Nat) (es : List Element) :
    TopDown (locateChildren ascent first es) := by
  induction es generalizing first with
  | nil => exact .nil
  | cons e rest ih =>
    refine .cons (fun node hn hs => ?_) (ih (first + 1))
    obtain ⟨i, hi, ha⟩ := ascent_of_mem_locateChildren hn
    have heq := hs.eq_of_length (by simp [ha])
    have hfirst : i = first := by simpa [ha] using heq
    omega

namespace Element

mutual

theorem ascent_of_mem_childGroups {ascent : List Nat} {node : Located} :
    (e : Element) → node ∈ (e.childGroups ascent).flatten →
      ∃ steps, steps ≠ [] ∧ node.ascent = steps ++ ascent
  | ⟨_, _, _, _, children⟩, h => by
    rw [childGroups, List.flatten_cons, List.mem_append] at h
    rcases h with h | h
    · obtain ⟨i, _, ha⟩ := ascent_of_mem_locateChildren h
      exact ⟨[i], by simp, ha⟩
    · obtain ⟨steps, i, _, _, ha⟩ := ascent_of_mem_childGroupsAll children h
      exact ⟨steps ++ [i], by simp, by simp [ha]⟩

theorem ascent_of_mem_childGroupsAll {ascent : List Nat} {first : Nat} {node : Located} :
    (es : List Element) → node ∈ (childGroupsAll ascent first es).flatten →
      ∃ steps i, first ≤ i ∧ steps ≠ [] ∧ node.ascent = steps ++ i :: ascent
  | [], h => by simp [childGroupsAll] at h
  | e :: rest, h => by
    rw [childGroupsAll, List.flatten_append, List.mem_append] at h
    rcases h with h | h
    · obtain ⟨steps, hs, ha⟩ := ascent_of_mem_childGroups e h
      exact ⟨steps, first, Nat.le_refl _, hs, ha⟩
    · obtain ⟨steps, i, hi, hs, ha⟩ := ascent_of_mem_childGroupsAll rest h
      exact ⟨steps, i, by omega, hs, ha⟩

end

end Element

/-- What stands below one of two nodes side by side is not above what stands below the other. -/
theorem not_isSuffix_of_apart {above other : List Nat} (h : ¬ above <:+ other)
    (h' : ¬ other <:+ above) (steps steps' : List Nat) : ¬ steps' ++ other <:+ steps ++ above := by
  intro hs
  have ho : other <:+ steps ++ above := (List.suffix_append steps' other).trans hs
  rcases List.suffix_or_suffix_of_suffix ho (List.suffix_append steps above) with hc | hc
  · exact h' hc
  · exact h hc

theorem not_isSuffix_cons_cons {i j : Nat} (ascent : List Nat) (h : i ≠ j) :
    ¬ i :: ascent <:+ j :: ascent := by
  intro hs
  have heq := hs.eq_of_length rfl
  exact h (by simpa using heq)

namespace Element

mutual

theorem topDown_childGroups (ascent : List Nat) :
    (e : Element) → TopDown (e.childGroups ascent).flatten
  | ⟨_, _, _, _, children⟩ => by
    rw [childGroups, List.flatten_cons]
    refine List.pairwise_append.2 ⟨topDown_locateChildren ..,
      topDown_childGroupsAll ascent 0 children, fun a ha b hb hs => ?_⟩
    obtain ⟨i, _, hai⟩ := ascent_of_mem_locateChildren ha
    obtain ⟨steps, j, _, hne, hbj⟩ := ascent_of_mem_childGroupsAll children hb
    have hlen := hs.length_le
    rw [hai, hbj] at hlen
    have hpos := List.length_pos_iff.2 hne
    simp only [List.length_append, List.length_cons] at hlen
    omega

theorem topDown_childGroupsAll (ascent : List Nat) (first : Nat) :
    (es : List Element) → TopDown (childGroupsAll ascent first es).flatten
  | [] => .nil
  | e :: rest => by
    rw [childGroupsAll, List.flatten_append]
    refine List.pairwise_append.2 ⟨topDown_childGroups (first :: ascent) e,
      topDown_childGroupsAll ascent (first + 1) rest, fun a ha b hb => ?_⟩
    obtain ⟨steps, _, ha⟩ := ascent_of_mem_childGroups e ha
    obtain ⟨steps', j, hj, _, hb⟩ := ascent_of_mem_childGroupsAll rest hb
    rw [ha, hb]
    exact not_isSuffix_of_apart (not_isSuffix_cons_cons _ (by omega))
      (not_isSuffix_cons_cons _ (by omega)) steps steps'

end

end Element

/-! ## Walks from several nodes -/

theorem outermost_sublist (seen : List Location) (nodes : List Located) :
    (outermost seen nodes).Sublist nodes := by
  induction nodes generalizing seen with
  | nil => exact .slnil
  | cons node rest ih =>
    rw [outermost]
    split
    · exact (ih seen).cons node
    · exact (ih _).cons_cons node

theorem not_isPrefix_of_mem_outermost {seen : List Location} {nodes : List Located} {node : Located}
    {place : Location} (h : node ∈ outermost seen nodes) (hp : place ∈ seen) :
    ¬ place <+: node.place := by
  induction nodes generalizing seen with
  | nil => simp [outermost] at h
  | cons first rest ih =>
    rw [outermost] at h
    split at h
    · exact ih h hp
    · rename_i hseen
      rcases List.mem_cons.1 h with rfl | h
      · intro hpre
        exact hseen (List.any_eq_true.2 ⟨place, hp, List.isPrefixOf_iff_prefix.2 hpre⟩)
      · exact ih h (List.mem_cons_of_mem _ hp)

/-- No outermost node stands below an earlier one. -/
theorem pairwise_outermost (seen : List Location) (nodes : List Located) :
    (outermost seen nodes).Pairwise fun a b => ¬ a.ascent <:+ b.ascent := by
  induction nodes generalizing seen with
  | nil => exact .nil
  | cons node rest ih =>
    rw [outermost]
    split
    · exact ih seen
    · refine .cons (fun b hb hs => ?_) (ih _)
      exact not_isPrefix_of_mem_outermost hb List.mem_cons_self (List.reverse_prefix.2 hs)

/-! ## Steps and paths -/

theorem topDown_flatten_groups {nodes : List Located} (h : TopDown nodes) (axis : Axis) :
    TopDown (axis.groups nodes).flatten := by
  cases axis with
  | itself =>
    have hflat : (Axis.groups nodes .itself).flatten = nodes := by
      simp only [Axis.groups, ← List.flatMap_def, List.flatMap_singleton']
    rwa [hflat]
  | child =>
    refine List.pairwise_flatten.2 ⟨?_, List.pairwise_map.2 (h.imp fun {a b} hab c hc d hd => ?_)⟩
    · intro group hg
      obtain ⟨node, _, rfl⟩ := List.mem_map.1 hg
      exact topDown_locateChildren ..
    · obtain ⟨i, _, hi⟩ := ascent_of_mem_locateChildren hc
      obtain ⟨j, _, hj⟩ := ascent_of_mem_locateChildren hd
      rw [hi, hj]
      intro hs
      rcases List.suffix_cons_iff.1 hs with heq | hs
      · exact hab ((List.cons.inj heq).2 ▸ List.suffix_refl _)
      · exact hab ((List.suffix_cons j _).trans hs)
  | descendant =>
    have hout := (h.sublist (outermost_sublist [] nodes)).and (pairwise_outermost [] nodes)
    simp only [Axis.groups]
    generalize outermost [] nodes = starts at hout
    induction starts with
    | nil => exact .nil
    | cons start rest ih =>
      rw [List.flatMap_cons, List.flatten_append]
      obtain ⟨hstart, hrest⟩ := List.pairwise_cons.1 hout
      refine List.pairwise_append.2 ⟨Element.topDown_childGroups .., ih hrest, fun a ha b hb => ?_⟩
      obtain ⟨group, hgroup, hb⟩ := List.mem_flatten.1 hb
      obtain ⟨other, hother, hgroup⟩ := List.mem_flatMap.1 hgroup
      obtain ⟨steps, _, ha⟩ := Element.ascent_of_mem_childGroups _ ha
      obtain ⟨steps', _, hb⟩ :=
        Element.ascent_of_mem_childGroups _ (List.mem_flatten.2 ⟨group, hgroup, hb⟩)
      rw [ha, hb]
      exact not_isSuffix_of_apart (hstart other hother).2 (hstart other hother).1 steps steps'

theorem flatten_map_sublist (thin : List Located → List Located)
    (h : ∀ group, (thin group).Sublist group) (groups : List (List Located)) :
    (groups.map thin).flatten.Sublist groups.flatten := by
  induction groups with
  | nil => exact .slnil
  | cons group rest ih => exact (h group).append ih

theorem toList_getElem?_sublist (group : List Located) (i : Nat) :
    group[i]?.toList.Sublist group := by
  cases h : group[i]? with
  | none => exact List.nil_sublist _
  | some node => exact List.singleton_sublist.2 (List.mem_of_getElem? h)

namespace Predicate

theorem filter_sublist (group : List Located) (p : Predicate) : (p.filter group).Sublist group := by
  cases p with
  | position n =>
    rw [filter]
    split
    · exact List.nil_sublist _
    · exact toList_getElem?_sublist ..
  | fromLast offset =>
    rw [filter]
    split
    · exact toList_getElem?_sublist ..
    · exact List.nil_sublist _
  | _ => exact List.filter_sublist

theorem flatten_foldl_filter_sublist (ps : List Predicate) (groups : List (List Located)) :
    (ps.foldl (fun groups p => groups.map (p.filter ·)) groups).flatten.Sublist groups.flatten := by
  induction ps generalizing groups with
  | nil => exact List.Sublist.refl _
  | cons p rest ih => exact (ih _).trans (flatten_map_sublist _ (filter_sublist · p) groups)

end Predicate

theorem Step.topDown_select (step : Step) {nodes : List Located} (h : TopDown nodes) :
    TopDown (step.select nodes) :=
  ((topDown_flatten_groups h step.axis).sublist
    (flatten_map_sublist _ (fun _ => List.filter_sublist) _)).sublist
    (Predicate.flatten_foldl_filter_sublist _ _)

namespace ElementPath

theorem topDown_locate (path : ElementPath) (e : Element) : TopDown (path.locate e) := by
  have h : ∀ (steps : List Step) {nodes : List Located}, TopDown nodes →
      TopDown (steps.foldl (fun nodes step => step.select nodes) nodes) := by
    intro steps
    induction steps with
    | nil => exact id
    | cons step rest ih => exact fun hn => ih (step.topDown_select hn)
  exact h path.steps (List.pairwise_singleton ..)

/-- A path finds no node twice. -/
theorem nodup_locate (path : ElementPath) (e : Element) :
    ((path.locate e).map (·.place)).Nodup := by
  refine List.pairwise_map.2 ((path.topDown_locate e).imp fun {a b} h heq => h ?_)
  rw [Located.place, Located.place, List.reverse_inj] at heq
  exact heq ▸ List.suffix_refl _

end ElementPath

end Docweave
