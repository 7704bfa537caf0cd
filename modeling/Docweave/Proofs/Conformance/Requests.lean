import Docweave.Conformance.Category
import Mathlib.Data.List.Nodup
import Mathlib.Data.List.Perm.Subperm

set_option autoImplicit false

/-! # Categories that are asked for

A request stands for the category of its name and for those below it (`StandsFor`). Requests are gone
through in their order, each adding to what is selected; one after which no more is selected than before
is told of as if there were no such category. `IsSelected` says what is selected at each point of this
loop, and from it follows when the selection does not grow. `warned_iff_not_found_or_idle` concludes that
a request is told of if it stands for nothing, but also if all its categories were asked for before.
`not_warned_iff_not_found` is a request that is made twice. -/

namespace Docweave.Category

/-! ## What a request stands for -/

/-- The name is the one that is asked for, or lies below it. -/
def StandsFor (request name : String) : Prop :=
  name = requestName request ∨ (requestName request).toList ++ ['/'] <+: name.toList

theorem answers_iff {request : String} {category : Category} :
    answers request category = true ↔ StandsFor request category.name := by
  rw [answers, Bool.or_eq_true, beq_iff_eq, List.isPrefixOf_iff_prefix, String.toList_append]
  rfl

instance (request name : String) : Decidable (StandsFor request name) :=
  inferInstanceAs (Decidable (_ ∨ _))

/-- Some category is one that the request stands for. -/
def IsFound (all : List Category) (request : String) : Prop :=
  ∃ category ∈ all, StandsFor request category.name

/-! ## Categories in order -/

/-- The categories are in the order of their names, so that there is one for each name. -/
def InOrder (categories : List Category) : Prop := categories.Pairwise (·.name < ·.name)

section Put

variable {category other : Category} {selected : List Category}

theorem InOrder.nodup_names (h : InOrder selected) : (selected.map name).Nodup :=
  List.pairwise_map.2 (h.imp fun {a b} hlt (heq : a.name = b.name) => String.lt_irrefl _ (heq ▸ hlt))

theorem mem_of_mem_put (h : other ∈ put category selected) : other = category ∨ other ∈ selected := by
  induction selected with
  | nil => exact .inl (List.mem_singleton.1 h)
  | cons first rest ih =>
    rw [put] at h
    split at h
    · exact List.mem_cons.1 h
    · split at h
      · exact (List.mem_cons.1 h).imp_right (List.mem_cons_of_mem first)
      · rcases List.mem_cons.1 h with rfl | hrest
        · exact .inr List.mem_cons_self
        · exact (ih hrest).imp_right (List.mem_cons_of_mem first)

theorem mem_names_put_iff {wanted : String} :
    wanted ∈ (put category selected).map name ↔ wanted = category.name ∨ wanted ∈ selected.map name := by
  induction selected with
  | nil => rw [put, List.map_singleton, List.mem_singleton]; simp
  | cons first rest ih =>
    rw [put]
    split
    · rw [List.map_cons, List.mem_cons]
    · split
      · next heq => simp [heq]
      · rw [List.map_cons, List.mem_cons, ih, List.map_cons, List.mem_cons, or_left_comm]

theorem InOrder.put (h : InOrder selected) (category : Category) :
    InOrder (Category.put category selected) := by
  induction selected with
  | nil => exact List.pairwise_singleton _ category
  | cons first rest ih =>
    obtain ⟨hfirst, hrest⟩ := List.pairwise_cons.1 h
    rw [Category.put]
    split
    · next hlt =>
      refine List.pairwise_cons.2 ⟨List.forall_mem_cons.2 ⟨hlt, fun other hother => ?_⟩, h⟩
      exact String.lt_trans hlt (hfirst other hother)
    · next hnlt =>
      split
      · next heq => exact List.pairwise_cons.2 ⟨fun other hother => heq ▸ hfirst other hother, hrest⟩
      · next hne =>
        have hgt : first.name < category.name :=
          Std.lt_of_le_of_ne (String.not_lt.1 hnlt) (Ne.symm hne)
        refine List.pairwise_cons.2 ⟨fun other hother => ?_, ih hrest⟩
        rcases mem_of_mem_put hother with rfl | hother
        · exact hgt
        · exact hfirst other hother

end Put

/-! ## One request -/

section PutAnswers

variable {request : String} {selected all : List Category}

theorem mem_of_mem_putAnswers {category : Category} (h : category ∈ putAnswers request selected all) :
    category ∈ all ∨ category ∈ selected := by
  induction all generalizing selected with
  | nil => exact .inr h
  | cons first rest ih =>
    rw [putAnswers] at h
    rcases ih h with hrest | hput
    · exact .inl (List.mem_cons_of_mem first hrest)
    · split at hput
      · rcases mem_of_mem_put hput with rfl | hselected
        · exact .inl List.mem_cons_self
        · exact .inr hselected
      · exact .inr hput

theorem mem_names_putAnswers_iff {wanted : String} :
    wanted ∈ (putAnswers request selected all).map name ↔
      wanted ∈ selected.map name ∨ wanted ∈ all.map name ∧ StandsFor request wanted := by
  induction all generalizing selected with
  | nil => simp [putAnswers]
  | cons first rest ih =>
    rw [putAnswers, ih, List.map_cons, List.mem_cons, or_and_right, ← or_assoc]
    refine or_congr_left ?_
    split
    · next hanswers =>
      rw [mem_names_put_iff, or_comm]
      refine or_congr_right (iff_self_and.2 ?_)
      rintro rfl
      exact answers_iff.1 hanswers
    · next hanswers =>
      refine (or_iff_left ?_).symm
      rintro ⟨rfl, hstands⟩
      exact hanswers (answers_iff.2 hstands)

theorem InOrder.putAnswers (h : InOrder selected) (request : String) (all : List Category) :
    InOrder (Category.putAnswers request selected all) := by
  induction all generalizing selected with
  | nil => exact h
  | cons first rest ih =>
    rw [Category.putAnswers]
    split
    · exact ih (h.put first)
    · exact ih h

end PutAnswers

/-! ## The selection after requests -/

/-- The requests before it stand for all that the request stands for. -/
def IsIdle (all : List Category) (before : List String) (request : String) : Prop :=
  ∀ category ∈ all, StandsFor request category.name →
    ∃ earlier ∈ before, StandsFor earlier category.name

instance (all : List Category) (before : List String) (request : String) :
    Decidable (IsIdle all before request) :=
  inferInstanceAs (Decidable (∀ category ∈ all, _ → _))

/-- What is selected once some requests were gone through: the categories that one of them stands for,
in order. -/
structure IsSelected (all : List Category) (before : List String) (selected : List Category) : Prop where
  inOrder : InOrder selected
  mem_all : ∀ category ∈ selected, category ∈ all
  mem_names_iff : ∀ wanted, wanted ∈ selected.map name ↔
    wanted ∈ all.map name ∧ ∃ request ∈ before, StandsFor request wanted

theorem length_eq_iff_of_subset {α : Type} {fewer more : List α} (hfewer : fewer.Nodup)
    (hmore : more.Nodup) (h : fewer ⊆ more) : more.length = fewer.length ↔ more ⊆ fewer := by
  constructor
  · intro hlength
    exact ((List.subperm_of_subset hfewer h).perm_of_length_le (Nat.le_of_eq hlength)).symm.subset
  · intro hback
    exact ((List.perm_ext_iff_of_nodup hmore hfewer).2 fun a => ⟨(hback ·), (h ·)⟩).length_eq

namespace IsSelected

variable {all selected : List Category} {before : List String}

theorem nil (all : List Category) : IsSelected all [] [] where
  inOrder := List.Pairwise.nil
  mem_all := nofun
  mem_names_iff := by simp

variable (h : IsSelected all before selected)

include h

theorem putAnswers (request : String) :
    IsSelected all (before ++ [request]) (Category.putAnswers request selected all) where
  inOrder := h.inOrder.putAnswers request all
  mem_all category hcategory := (mem_of_mem_putAnswers hcategory).elim id (h.mem_all category)
  mem_names_iff wanted := by
    rw [mem_names_putAnswers_iff, h.mem_names_iff, ← and_or_left]
    simp [or_and_right, exists_or]

/-- The selection grows with a request unless the requests before it stand for all its categories. -/
theorem length_putAnswers_eq_iff (request : String) :
    (Category.putAnswers request selected all).length = selected.length ↔ IsIdle all before request := by
  have hnames := h.inOrder.nodup_names
  have hgrown := (h.putAnswers request).inOrder.nodup_names
  have hsubset : selected.map name ⊆ (Category.putAnswers request selected all).map name :=
    fun wanted hwanted => mem_names_putAnswers_iff.2 (.inl hwanted)
  -- no name is ever lost, so the length stays the same just when no name is new
  have hlength := length_eq_iff_of_subset hnames hgrown hsubset
  rw [List.length_map, List.length_map] at hlength
  rw [hlength]
  constructor
  · intro hback category hcategory hstands
    have hmem : category.name ∈ all.map name := List.mem_map_of_mem hcategory
    exact ((h.mem_names_iff _).1 (hback (mem_names_putAnswers_iff.2 (.inr ⟨hmem, hstands⟩)))).2
  · intro hidle wanted hwanted
    rcases mem_names_putAnswers_iff.1 hwanted with hselected | ⟨hmem, hstands⟩
    · exact hselected
    · obtain ⟨category, hcategory, rfl⟩ := List.mem_map.1 hmem
      exact (h.mem_names_iff _).2 ⟨hmem, hidle category hcategory hstands⟩

theorem selectFrom (requests : List String) :
    IsSelected all (before ++ requests) (selectFrom all selected requests).categories := by
  induction requests generalizing before selected with
  | nil =>
    rw [List.append_nil]
    exact h
  | cons request rest ih =>
    rw [Category.selectFrom, ← List.singleton_append, ← List.append_assoc]
    split <;> exact ih (h.putAnswers request)

end IsSelected

theorem isSelected_selectFrom (all : List Category) (requests : List String) :
    IsSelected all requests (selectFrom all [] requests).categories :=
  (IsSelected.nil all).selectFrom requests

/-- There are no requests, or one of them stands for the name. -/
def IsAskedFor (requests : List String) (name : String) : Prop :=
  requests = [] ∨ ∃ request ∈ requests, StandsFor request name

instance (requests : List String) (name : String) : Decidable (IsAskedFor requests name) :=
  inferInstanceAs (Decidable (_ ∨ _))

/-- Requests select those of the categories that are asked for, and leave their order as it is. -/
theorem categories_select {all : List Category} (h : InOrder all) (requests : List String) :
    (select all requests).categories = all.filter fun category => IsAskedFor requests category.name := by
  cases requests with
  | nil => exact (List.filter_eq_self.2 fun _ _ => decide_eq_true (.inl rfl)).symm
  | cons request rest =>
    have hselected := isSelected_selectFrom all (request :: rest)
    have hfiltered : InOrder (all.filter fun category => IsAskedFor (request :: rest) category.name) :=
      h.sublist List.filter_sublist
    have hasymm (a b : Category) (hab : a.name < b.name) (hba : b.name < a.name) : a = b :=
      absurd (String.lt_trans hab hba) (String.lt_irrefl _)
    -- two lists in the same order are equal once they have the same members
    refine List.Perm.eq_of_pairwise (fun a b _ _ => hasymm a b) hselected.inOrder hfiltered ?_
    refine (List.perm_ext_iff_of_nodup hselected.inOrder.nodup_names.of_map
      hfiltered.nodup_names.of_map).2 fun category => ?_
    rw [List.mem_filter, decide_eq_true_iff, IsAskedFor, or_iff_right (List.cons_ne_nil _ _)]
    constructor
    · intro hcategory
      exact ⟨hselected.mem_all category hcategory,
        ((hselected.mem_names_iff _).1 (List.mem_map_of_mem hcategory)).2⟩
    · rintro ⟨hcategory, hasked⟩
      obtain ⟨other, hother, hname⟩ := List.mem_map.1
        ((hselected.mem_names_iff _).2 ⟨List.mem_map_of_mem hcategory, hasked⟩)
      exact List.inj_on_of_nodup_map h.nodup_names (hselected.mem_all other hother) hcategory hname ▸ hother

/-! ## Warnings -/

/-- The requests that add no category to what those before them stand for. -/
def idleRequests (all : List Category) (before : List String) : List String → List String
  | [] => []
  | request :: rest =>
    let idle := idleRequests all (before ++ [request]) rest
    if IsIdle all before request then request :: idle else idle

/-- Requests are gone through one after the other, and those before a request count for it. -/
theorem idleRequests_append (all : List Category) (before first second : List String) :
    idleRequests all before (first ++ second) =
      idleRequests all before first ++ idleRequests all (before ++ first) second := by
  induction first generalizing before with
  | nil => rw [List.append_nil]; rfl
  | cons request first ih =>
    rw [List.cons_append, idleRequests, idleRequests, ih, List.append_assoc, List.singleton_append]
    split <;> rfl

/-- The loop tells of the idle requests. -/
theorem IsSelected.warnings_selectFrom {all selected : List Category} {before : List String}
    (h : IsSelected all before selected) (requests : List String) :
    (Category.selectFrom all selected requests).warnings =
      (idleRequests all before requests).map (idleWarning all) := by
  induction requests generalizing before selected with
  | nil => rfl
  | cons request rest ih =>
    have hrest := ih (h.putAnswers request)
    rw [Category.selectFrom, idleRequests]
    by_cases hidle : IsIdle all before request
    · rw [if_pos ((h.length_putAnswers_eq_iff request).2 hidle), if_pos hidle, List.map_cons, hrest]
    · rw [if_neg fun hlength => hidle ((h.length_putAnswers_eq_iff request).1 hlength), if_neg hidle, hrest]

/-- What is told about requests that come after others. -/
def warnings (all : List Category) (before requests : List String) : List String :=
  (selectFrom all (selectFrom all [] before).categories requests).warnings

theorem warnings_eq (all : List Category) (before requests : List String) :
    warnings all before requests = (idleRequests all before requests).map (idleWarning all) :=
  (isSelected_selectFrom all before).warnings_selectFrom requests

theorem warnings_select (all : List Category) (requests : List String) :
    (select all requests).warnings = warnings all [] requests := by
  cases requests <;> rfl

theorem warnings_append (all : List Category) (before first second : List String) :
    warnings all before (first ++ second) =
      warnings all before first ++ warnings all (before ++ first) second := by
  rw [warnings_eq, idleRequests_append, List.map_append, ← warnings_eq, ← warnings_eq]

/-- A request is warned about in its turn if it stands for nothing, but also if all that it stands for
was asked for before. -/
theorem warned_iff_not_found_or_idle (all : List Category) (before : List String) (request : String)
    (after : List String) :
    (select all (before ++ request :: after)).warnings =
      warnings all [] before ++ (warnings all before [request] ++
        warnings all (before ++ [request]) after) ∧
    (warnings all before [request] = [idleWarning all request] ∨
      warnings all before [request] = []) ∧
    (warnings all before [request] = [idleWarning all request] ↔
      ¬ IsFound all request ∨ IsIdle all before request) := by
  refine ⟨?_, ?_⟩
  · rw [warnings_select, warnings_append, List.nil_append, ← List.singleton_append (l := after),
      warnings_append]
  · by_cases h : IsIdle all before request
    · have hwarned : warnings all before [request] = [idleWarning all request] := by
        rw [warnings_eq, idleRequests, if_pos h]
        rfl
      exact ⟨.inl hwarned, iff_of_true hwarned (.inr h)⟩
    · have hsilent : warnings all before [request] = [] := by
        rw [warnings_eq, idleRequests, if_neg h]
        rfl
      -- what stands for nothing has nothing to add
      have hfound : IsFound all request := by
        by_contra hnone
        exact h fun category hcategory hstands => absurd ⟨category, hcategory, hstands⟩ hnone
      refine ⟨.inr hsilent, iff_of_false ?_ fun hor => hor.elim (absurd hfound) h⟩
      rw [hsilent]
      exact (List.cons_ne_nil _ _).symm

/-- A category that is asked for twice is there, and is told of as if it were not. -/
theorem not_warned_iff_not_found :
    ¬ ∀ (all : List Category) (before : List String) (request : String),
      warnings all before [request] = [idleWarning all request] ↔ ¬ IsFound all request := by
  intro h
  have hwarned : warnings [⟨"a", []⟩] ["a"] ["a"] = [idleWarning [⟨"a", []⟩] "a"] := by
    decide +kernel
  have hfound : StandsFor "a" "a" := by decide +kernel
  exact (h _ _ _).1 hwarned ⟨_, List.mem_cons_self, hfound⟩

end Docweave.Category
