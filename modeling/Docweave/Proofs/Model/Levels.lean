import Docweave.Proofs.Model.Agree
import Docweave.Proofs.Model.Course
import Docweave.Proofs.Model.Failures

set_option autoImplicit false

/-! # Levels of nesting

A model can nest others, from files that are only known when it is evaluated, and a file can nest
itself. What bounds this is a count of the models around, and the evaluation follows the levels that
are left. `Ends` is the evaluation with the count alone: it ends if all those end that it may go on to,
and `ends_iff` says that it always ends, in one way. `agreeUnlessTooDeep_evalModelAt` compares different
numbers of levels. -/

namespace Docweave

open Eval

/-! ## Settings that nest models in the same way -/

theorem nestedAgree_settingAt (loader : Loader) (levels : Nat) (options : Options) :
    NestedAgree (settingAt loader levels options) := by
  intro run hrun options model
  cases levels with
  | zero => cases hrun
  | succ levels =>
    cases hrun
    exact agree_evalModelAt interchangeable_eq loader levels options fun source _ => Set.mem_univ source

theorem Persistent.nestedLead_settingAt {loader : Loader} {R : SourcePlace → Session → Session → Prop}
    (h : Persistent loader R) (levels : Nat) (options : Options) :
    NestedLead (settingAt loader levels options) (R .anywhere) := by
  intro run hrun options model
  cases levels with
  | zero => cases hrun
  | succ levels =>
    cases hrun
    exact h.leads_evalModelAt levels options model

/-! ## Settings that nest models in different ways -/

section Nested

variable {Rel : ActionRelation} (h : Sequential Rel) (hrefl : ∀ {α : Type} (act : Eval α), Rel α act act)
  (hwithin : ∀ {enter : Session → Session} {leave : Session → Session → Session}
    {act act' : Eval String}, Rel String act act' →
    Rel String (within enter leave act) (within enter leave act'))

include h hrefl hwithin

/-- The evaluations of a model in two settings are related, if those of nested models are. -/
theorem parallel_nested {setting : Setting} {nested : Option (Options → Element → Eval String)}
    (hmodel : ∀ node, Rel String (evalNestedModel setting node)
      (evalNestedModel { setting with nested := nested } node)) :
    Parallel Rel (Element.SameIf fun _ => True) setting { setting with nested := nested } where
  toSequential := h
  kind hnode := congrArg Element.kind hnode.1
  children := by
    rintro node _ ⟨rfl, -⟩ -
    exact Element.forall₂_sameIf fun _ _ => trivial
  began := by
    rintro node _ ⟨rfl, -⟩
    exact hrefl _
  source := by
    rintro node _ ⟨rfl, -⟩ - place
    exact hrefl (evalSource setting place node)
  query := by
    rintro node _ body body' ⟨rfl, -⟩ - hbody
    rw [evalQuery_eq, evalQuery_eq]
    exact h.bind (hrefl _) fun _ => hwithin hbody
  action := by
    rintro node _ body body' ⟨rfl, -⟩ - hbody
    rw [evalAction_eq, evalAction_eq]
    exact h.bind (hrefl _) fun _ => hwithin hbody
  records := by
    rintro node _ ⟨rfl, -⟩ -
    exact hrefl _
  getContent := by
    rintro node _ ⟨rfl, -⟩ - record
    exact hrefl _
  literal hnode _ := congrArg literalText hnode.1
  model := by
    rintro node _ ⟨rfl, -⟩ -
    exact hmodel node
  passThrough := by
    rintro node _ body body' ⟨rfl, -⟩ - hbody
    refine h.bind (hrefl get) fun s => ?_
    simp only
    by_cases hl : node.isLeaf
    · simp only [if_pos hl]
      exact h.pure _
    · simp only [if_neg hl]
      exact h.bind hbody fun _ => h.pure _
  deepened := by
    rintro node _ act act' ⟨rfl, -⟩ hact
    exact Attentive.related_deepen node hact (hwithin hact)

theorem related_evalModel_nested (setting : Setting)
    {nested : Option (Options → Element → Eval String)} (hmodel : ∀ node, Rel String (evalNestedModel setting node)
      (evalNestedModel { setting with nested := nested } node)) (model : Element) :
    Rel String (evalModel setting model) (evalModel { setting with nested := nested } model) := by
  by_cases hk : model.kind = .model
  · exact (parallel_nested h hrefl hwithin hmodel).related_evalModel hk hk
      (Element.forall₂_sameIf fun _ _ => trivial) fun _ => hrefl _
  · unfold evalModel
    rw [if_neg hk, if_neg hk]
    exact hrefl _

omit hwithin in
theorem related_evalNestedModel (setting : Setting) {run run' : Options → Element → Eval String}
    (hrun : setting.nested = some run) (hnested : ∀ baseDir model,
      Rel String
        (recover .nestedModelSkipped (apart (run { setting.options with baseDir := baseDir } model)))
        (recover .nestedModelSkipped (apart (run' { setting.options with baseDir := baseDir } model))))
    (node : Element) : Rel String (evalNestedModel setting node)
      (evalNestedModel { setting with nested := some run' } node) := by
  have hrun' : ({ setting with nested := some run' } : Setting).nested = some run' := rfl
  rw [evalNestedModel_eq hrun, evalNestedModel_eq hrun']
  refine h.bind (hrefl get) fun s => ?_
  cases hm : nestedModel? setting.options s.world.files node with
  | none => exact hrefl _
  | some nested =>
    obtain ⟨options, model⟩ := nested
    obtain ⟨baseDir, rfl⟩ := exists_baseDir_of_nestedModel? hm
    exact hnested baseDir model

end Nested

/-! ## Evaluations that end -/

/-- An evaluation of a model comes to an end as an action, where the models around it are counted: so do
the evaluations of all models that may be nested in it, as long as the limit is not reached. -/
inductive Ends (loader : Loader) : Nat → Options → Element → Eval String → Prop
  | intro {around : Nat} {options : Options} {model : Element} (nested : Options → Element → Eval String)
    (h : around < options.maxNesting → ∀ baseDir inner,
      Ends loader (around + 1) { options with baseDir := baseDir } inner
        (nested { options with baseDir := baseDir } inner)) :
    Ends loader around options model
      (evalModel ⟨options, loader, if around < options.maxNesting then some nested else none⟩ model)

theorem sequential_eq : Sequential fun _ act act' => act = act' where
  pure _ := rfl
  bind := by
    rintro α β act _ next next' rfl hnext
    rw [funext hnext]

/-- Only the models that may be nested matter. -/
theorem evalModel_congr {options : Options} {loader : Loader}
    {run run' : Options → Element → Eval String} (h : ∀ baseDir model,
      run { options with baseDir := baseDir } model = run' { options with baseDir := baseDir } model)
    (model : Element) :
    evalModel ⟨options, loader, some run⟩ model = evalModel ⟨options, loader, some run'⟩ model := by
  have hnested : ∀ node, evalNestedModel ⟨options, loader, some run⟩ node =
      evalNestedModel ⟨options, loader, some run'⟩ node :=
    related_evalNestedModel sequential_eq (fun _ => rfl) ⟨options, loader, some run⟩ rfl
      fun baseDir model => by rw [h]
  exact related_evalModel_nested sequential_eq (fun _ => rfl) (fun hact => by rw [hact])
    ⟨options, loader, some run⟩ hnested model

theorem ends_evalModelAt (loader : Loader) (around : Nat) (options : Options) (model : Element) :
    Ends loader around options model
      (evalModelAt loader (options.maxNesting - around) options model) := by
  induction hlevels : options.maxNesting - around generalizing around options model with
  | zero =>
    have hfull : ¬ around < options.maxNesting := by omega
    have hends := @Ends.intro loader around options model (fun _ _ => pure "") fun hlt => absurd hlt hfull
    rwa [if_neg hfull] at hends
  | succ levels ih =>
    have hroom : around < options.maxNesting := by omega
    have hends := @Ends.intro loader around options model (evalModelAt loader levels)
      fun _ baseDir inner => ih (around + 1) { options with baseDir := baseDir } inner (by simp only; omega)
    rwa [if_pos hroom] at hends

/-- An evaluation always ends, and in one way only: the levels that are left are those up to the
limit. -/
theorem ends_iff {loader : Loader} {around : Nat} {options : Options} {model : Element}
    {act : Eval String} : Ends loader around options model act ↔
      act = evalModelAt loader (options.maxNesting - around) options model := by
  constructor
  · intro hends
    induction hends with
    | @intro around options model nested _ ih =>
      cases hlevels : options.maxNesting - around with
      | zero =>
        rw [if_neg (by omega)]
        rfl
      | succ levels =>
        have hroom : around < options.maxNesting := by omega
        rw [if_pos hroom]
        refine evalModel_congr (fun baseDir inner => ?_) model
        have hbelow : options.maxNesting - (around + 1) = levels := by omega
        rw [ih hroom baseDir inner]
        simp only [hbelow]
  · rintro rfl
    exact ends_evalModelAt loader around options model

/-! ## One level more -/

namespace Eval

variable {α β : Type} {R : Session → Session → Prop}

/-- From related sessions the two actions give the same result and leave related sessions, unless models
are nested too deep for the first one. -/
def AgreeUnlessTooDeep (R : Session → Session → Prop) (act act' : Eval α) : Prop :=
  ∀ s s', R s s' → (∃ levels, (outcome act s).1 = .error (.nestingTooDeep levels)) ∨
    (outcome act s).1 = (outcome act' s').1 ∧ R (outcome act s).2 (outcome act' s').2

namespace AgreeUnlessTooDeep

theorem of_agree {act act' : Eval α} (h : Agree R act act') : AgreeUnlessTooDeep R act act' :=
  fun s s' hs => .inr (h s s' hs)

theorem bind {act act' : Eval α} {next next' : α → Eval β} (hact : AgreeUnlessTooDeep R act act')
    (hnext : ∀ a, AgreeUnlessTooDeep R (next a) (next' a)) :
    AgreeUnlessTooDeep R (act >>= next) (act' >>= next') := by
  intro s s' h
  rcases hact s s' h with ⟨levels, hdeep⟩ | ⟨hresult, hsession⟩
  · exact .inl ⟨levels, result_bind_of_error hdeep next⟩
  · obtain ⟨result, hs, hs'⟩ := exists_result_of_eq hresult
    rw [outcome_bind, outcome_bind, hs, hs']
    cases result with
    | error failure => exact .inr ⟨rfl, hsession⟩
    | ok a => exact hnext a _ _ hsession

theorem within {Q : Session → Session → Prop} {enter enter' : Session → Session}
    {leave leave' : Session → Session → Session} {act act' : Eval α}
    (henter : ∀ s s', R s s' → Q (enter s) (enter' s')) (hact : AgreeUnlessTooDeep Q act act')
    (hleave : ∀ s s' t t', R s s' → Q t t' → R (leave s t) (leave' s' t')) :
    AgreeUnlessTooDeep R (within enter leave act) (within enter' leave' act') := by
  intro s s' h
  rcases hact _ _ (henter s s' h) with hdeep | ⟨hresult, hsession⟩
  · exact .inl hdeep
  · exact .inr ⟨hresult, hleave s s' _ _ h hsession⟩

/-- That models are nested too deep is no failure to be skipped. -/
theorem recover {notice : Failure → Notice} {act act' : Eval String}
    (hact : AgreeUnlessTooDeep Eq act act') :
    AgreeUnlessTooDeep Eq (recover notice act) (recover notice act') := by
  rintro s _ rfl
  rcases hact s s rfl with ⟨levels, hdeep⟩ | ⟨hresult, hsession⟩
  · exact .inl ⟨levels, result_recover_of_error hdeep Bool.false_ne_true⟩
  · have hsame : outcome act s = outcome act' s := Prod.ext hresult hsession
    rw [Eval.recover, Eval.recover, outcome_tryCatch, outcome_tryCatch, hsame]
    exact .inr ⟨rfl, rfl⟩

end AgreeUnlessTooDeep

end Eval

theorem sequential_agreeUnlessTooDeep : Sequential fun _ => AgreeUnlessTooDeep Eq where
  pure a := .of_agree (.pure a)
  bind := .bind

/-- With one level more a model is evaluated in the same way, unless the levels were too few. -/
theorem agreeUnlessTooDeep_evalModelAt (loader : Loader) (levels : Nat) (options : Options)
    (model : Element) :
    AgreeUnlessTooDeep Eq (evalModelAt loader levels options model)
      (evalModelAt loader (levels + 1) options model) := by
  have hrefl : ∀ {α : Type} (act : Eval α), AgreeUnlessTooDeep Eq act act := by
    rintro α act s _ rfl
    exact .inr ⟨rfl, rfl⟩
  have hwithin : ∀ {enter : Session → Session} {leave : Session → Session → Session}
      {act act' : Eval String}, AgreeUnlessTooDeep Eq act act' →
      AgreeUnlessTooDeep Eq (within enter leave act) (within enter leave act') := by
    intro enter leave act act' hact
    exact .within (fun _ _ h => congrArg enter h) hact fun _ _ _ _ h h' => congrArg₂ leave h h'
  induction levels generalizing options model with
  | zero =>
    refine related_evalModel_nested sequential_agreeUnlessTooDeep hrefl hwithin ⟨options, loader, none⟩
      (fun node => ?_) model
    rw [evalNestedModel_of_none rfl]
    exact fun s s' _ => .inl ⟨_, rfl⟩
  | succ levels ih =>
    refine related_evalModel_nested sequential_agreeUnlessTooDeep hrefl hwithin
      ⟨options, loader, some (evalModelAt loader levels)⟩ (fun node => ?_) model
    exact related_evalNestedModel sequential_agreeUnlessTooDeep hrefl
      ⟨options, loader, some (evalModelAt loader levels)⟩ rfl
      (fun baseDir inner => (hwithin (ih _ inner)).recover) node

end Docweave
