import Docweave.Proofs.Model.Replay

set_option autoImplicit false

/-! # Nested models in place

A model can be nested in another one without a file of its own. It is evaluated apart, with a runner and
a context of its own, and one level further down. `run_splice` says that all this makes no difference
right below a root: there its content might as well stand in its place. For between two children of a
root a session is at rest, as it is at the start of a model, and runners only answer from what scripts
say. -/

namespace Docweave

open Eval

/-! ## Sessions at rest -/

/-- The sessions are alike and at rest, and their runners hold scripts of the texts only. -/
structure Session.RestAlike (texts : Set String) (s s' : Session) : Prop where
  alike : s.Alike (ScriptRunner.HoldAlike texts) s'
  rest : s.AtRest

namespace Session.RestAlike

variable {texts : Set String} {s s' t t' : Session} (h : s.RestAlike texts s')

include h

theorem rest' : s'.AtRest where
  context := h.alike.context.symm.trans h.rest.context
  locals := h.alike.sources ▸ h.rest.locals
  primed := h.alike.runner.primed.symm.trans h.rest.primed

theorem enterNode (node : Element) : (s.enterNode node).RestAlike texts s' where
  alike := ⟨h.alike.sources, h.alike.context, h.alike.world, h.alike.runner⟩
  rest := ⟨h.rest.context, h.rest.locals, h.rest.primed⟩

/-- At rest a model may as well be entered. -/
theorem enterModel : s.enterModel.RestAlike texts s' where
  alike := by
    refine ⟨h.alike.sources, h.rest'.context.symm, h.alike.world, h.rest'.primed.symm, ?_, ?_, ?_⟩
    · exact fun source heq => nomatch heq
    · exact ScriptRunner.holds_fresh texts
    · exact h.alike.runner.holds'
  rest := ⟨rfl, h.rest.locals, rfl⟩

/-- So a model may as well be left at rest. -/
theorem leaveModel (ht : t.RestAlike texts t') : (s.leaveModel t).RestAlike texts t' where
  alike := by
    refine ⟨ht.alike.sources, ?_, ht.alike.world, ?_, ?_, h.alike.runner.holds, ht.alike.runner.holds'⟩
    · exact h.rest.context.trans ht.rest'.context.symm
    · exact h.rest.primed.trans ht.rest'.primed.symm
    · exact h.alike.runner.mem
  rest := ⟨h.rest.context, ht.rest.locals, h.rest.primed⟩

end Session.RestAlike

namespace Eval

variable {α : Type} {texts : Set String}

theorem Agree.restAlike {act act' : Eval α}
    (hagree : Agree (Session.Alike (ScriptRunner.HoldAlike texts)) act act')
    (hrestores : Leads (Session.Restores .anywhere) act) : Agree (Session.RestAlike texts) act act' := by
  intro s s' h
  obtain ⟨hresult, halike⟩ := hagree s s' h.alike
  exact ⟨hresult, halike, h.rest.of_restores (hrestores s)⟩

theorem AgreeUnlessTooDeep.trans_agree {R : Session → Session → Prop} {act act' act'' : Eval α}
    (hact : AgreeUnlessTooDeep Eq act act') (hagree : Agree R act' act'') :
    AgreeUnlessTooDeep R act act'' := by
  intro s s'' h
  rcases hact s s rfl with hdeep | ⟨hresult, hsession⟩
  · exact .inl hdeep
  · obtain ⟨hresult', hsession'⟩ := hagree s s'' h
    exact .inr ⟨hresult.trans hresult', hsession ▸ hsession'⟩

end Eval

/-! ## Children of a root -/

section Children

variable {texts : Set String} (hdigests : CollisionFree texts) (loader : Loader) (levels : Nat)
  (options : Options)

include hdigests

/-- Children of a root agree with themselves, and leave the session at rest. -/
theorem agree_evalEach_restAlike {nodes : List Element} (h : ∀ node ∈ nodes, node.ScriptsIn texts) :
    Agree (Session.RestAlike texts)
      (evalEach (settingAt loader levels options) deepen none .anywhere nodes)
      (evalEach (settingAt loader levels options) deepen none .anywhere nodes) := by
  have hparallel := parallel_agree (interchangeable_holdAlike hdigests)
    (nestedAgree_settingAt loader levels options)
  refine Agree.restAlike ?_ ?_
  · exact hparallel.related_evalEach hparallel.deepened none .anywhere nodes nodes
      (Element.forall₂_sameIf h)
  · have hpersistent := Session.persistent_restores loader
    exact hpersistent.leads_evalEach rfl (hpersistent.nestedLead_settingAt levels options) none .anywhere
      (fun node _ => hpersistent.leads_deepen .anywhere node) nodes

/-- A model agrees with itself one level up, unless the levels were too few, and leaves the session at
rest. -/
theorem agreeUnlessTooDeep_restAlike {model : Element} (h : model.ScriptsIn texts) :
    AgreeUnlessTooDeep (Session.RestAlike texts) (evalModelAt loader levels options model)
      (evalModelAt loader (levels + 1) options model) := by
  refine (agreeUnlessTooDeep_evalModelAt loader levels options model).trans_agree (Agree.restAlike ?_ ?_)
  · exact agree_evalModelAt (interchangeable_holdAlike hdigests) loader (levels + 1) options h
  · exact (Session.persistent_restores loader).leads_evalModelAt (levels + 1) options model

end Children

theorem evalEach_append (setting : Setting) (frame : Element → Eval String → Eval String)
    (record : Option Element) (place : SourcePlace) (nodes more : List Element) :
    evalEach setting frame record place (nodes ++ more) = do
      let output ← evalEach setting frame record place nodes
      let rest ← evalEach setting frame record place more
      return output ++ rest := by
  induction nodes with
  | nil => simp only [List.nil_append, evalEach, pure_bind, String.empty_append, bind_pure]
  | cons node nodes ih =>
    rw [List.cons_append, evalEach, evalEach, ih]
    simp only [bind_assoc, pure_bind, String.append_assoc]

/-! ## Models without a file -/

section Inline

variable {loader : Loader} {options : Options} {nested : Element} (hk : nested.kind = .model)

include hk

/-- A model that is written nowhere is its children. -/
theorem evalModelAt_of_unwritten (levels : Nat) (houtput : nested.attr? AttrName.output = none) :
    evalModelAt loader levels options nested =
      evalEach (settingAt loader levels options) deepen none .anywhere nested.children := by
  rw [evalModelAt_eq, evalModel, if_pos hk]
  unfold writeOutput
  simp only [houtput, pure_bind, bind_pure]

/-- A model with content is nested as it is. Its failures get out of it: they are failures of a
model. -/
theorem evalNestedModel_inline (levels : Nat) (hpath : nested.attr? AttrName.path = none)
    (hleaf : ¬ nested.isLeaf) :
    evalNestedModel (settingAt loader (levels + 1) options) nested =
      apart (evalModelAt loader levels options nested) := by
  have hfatal := failsOnly_evalModelAt loader levels options nested hk
  have hrecover : ∀ notice, recover notice (apart (evalModelAt loader levels options nested)) =
      apart (evalModelAt loader levels options nested) :=
    fun _ => FailsOnly.recover_eq fun s failure h => (hfatal.within s failure h).not_isRecoverable
  have hrun : (settingAt loader (levels + 1) options).nested = some (evalModelAt loader levels) := rfl
  refine ext_outcome fun s => ?_
  have hm : nestedModel? options s.world.files nested = some (options, nested) :=
    nestedModel?_of_inline hpath hleaf
  rw [outcome_evalNestedModel hrun hm, hrecover]

/-- A model that is nested at rest leaves what its children would leave, unless it is too deep. -/
theorem agreeUnlessTooDeep_inline {texts : Set String} (hdigests : CollisionFree texts) (levels : Nat)
    (hpath : nested.attr? AttrName.path = none) (houtput : nested.attr? AttrName.output = none)
    (hleaf : ¬ nested.isLeaf) (hscripts : nested.ScriptsIn texts) :
    AgreeUnlessTooDeep (Session.RestAlike texts)
      (deepen nested (evalNode (settingAt loader levels options) none .anywhere nested))
      (evalEach (settingAt loader levels options) deepen none .anywhere nested.children) := by
  intro s s' h
  have hdeepen : deepen nested (evalNode (settingAt loader levels options) none .anywhere nested) =
      evalNode (settingAt loader levels options) none .anywhere nested := if_neg (by rw [hk]; decide)
  rw [hdeepen, outcome_evalNode, evalDirective, hk]
  simp only
  cases levels with
  | zero =>
    rw [evalNestedModel_of_none rfl]
    exact .inl ⟨_, rfl⟩
  | succ levels =>
    rw [evalNestedModel_inline hk levels hpath hleaf, ← evalModelAt_of_unwritten hk (levels + 1) houtput]
    have hbelow := agreeUnlessTooDeep_restAlike hdigests loader levels options hscripts
    rcases hbelow _ _ (h.enterNode nested).enterModel with hdeep | ⟨hresult, hsession⟩
    · exact .inl hdeep
    · exact .inr ⟨hresult, (h.enterNode nested).leaveModel hsession⟩

end Inline

/-! ## Splicing -/

/-- A model agrees with the one that has the content of a nested model in its place, right below the
root. -/
theorem agreeUnlessTooDeep_splice {texts : Set String} (hdigests : CollisionFree texts)
    (loader : Loader) (levels : Nat) (options : Options) {model nested : Element}
    {before after : List Element} (hchildren : model.children = before ++ nested :: after)
    (hk : nested.kind = .model) (hpath : nested.attr? AttrName.path = none)
    (houtput : nested.attr? AttrName.output = none) (hleaf : ¬ nested.isLeaf)
    (hscripts : model.ScriptsIn texts) :
    AgreeUnlessTooDeep (Session.RestAlike texts) (evalModelAt loader levels options model)
      (evalModelAt loader levels options
        (model.withChildren (before ++ (nested.children ++ after)))) := by
  have hchild : ∀ child ∈ before ++ nested :: after, child.ScriptsIn texts :=
    fun child hmem => hscripts.of_mem_children (hchildren ▸ hmem)
  rw [List.forall_mem_append, List.forall_mem_cons] at hchild
  obtain ⟨hbefore, hnested, hafter⟩ := hchild
  have hinline := @agreeUnlessTooDeep_inline loader options nested hk texts hdigests levels hpath houtput
    hleaf hnested
  rw [evalModelAt_eq, evalModelAt_eq]
  unfold evalModel
  by_cases hroot : model.kind = .model
  · rw [if_pos hroot, Element.kind_withChildren, if_pos hroot, Element.children_withChildren, hchildren,
      evalEach_append, evalEach_append, evalEach_append, evalEach]
    have hpure : ∀ output : String, AgreeUnlessTooDeep (Session.RestAlike texts)
      (pure output) (pure output) := fun output => .of_agree (.pure output)
    have hbefore' := agree_evalEach_restAlike hdigests loader levels options hbefore
    have hafter' := agree_evalEach_restAlike hdigests loader levels options hafter
    have hwritten : ∀ output, Agree (Session.RestAlike texts) (writeOutput options model output)
        (writeOutput options model output) := fun output =>
      (agree_writeOutput options model output).restAlike
        ((Session.persistent_restores loader).leads_writeOutput .anywhere options model output)
    refine .bind (.bind (.of_agree hbefore') fun _ => .bind ?_ fun _ => hpure _) fun output =>
      .bind (.of_agree (hwritten output)) fun _ => hpure output
    exact hinline.bind fun _ => .bind (.of_agree hafter') fun _ => hpure _
  · rw [if_neg hroot, Element.kind_withChildren, if_neg hroot]
    exact .of_agree (.throw _)

namespace Interpreter

/-- A model stands right below the root of another one, with content but neither a file of its own nor
one that it is written to. Its content may as well stand in its place: a new interpreter gives the same
result, ends with the same sources and leaves the same files, unless models were nested too deep at
first. It is assumed that the scripts in the model can be told apart by their digests. -/
theorem run_splice (options : Options) (loader : Loader) (world : Surroundings)
    (trees : List Element) {model nested : Element} {before after : List Element}
    (hchildren : model.children = before ++ nested :: after) (hk : nested.kind = .model)
    (hpath : nested.attr? AttrName.path = none) (houtput : nested.attr? AttrName.output = none)
    (hleaf : ¬ nested.isLeaf) (hdigests : CollisionFree {source | source ∈ model.scripts}) :
    let fresh := (create options loader world).withSources trees
    (∀ levels, (fresh.run model).1 ≠ .error (.nestingTooDeep levels)) →
      visible (fresh.run (model.withChildren (before ++ (nested.children ++ after)))) =
        visible (fresh.run model) := by
  intro fresh hdeep
  have hstart : fresh.session.RestAlike {source | source ∈ model.scripts} fresh.session :=
    ⟨⟨rfl, rfl, rfl, rfl, (fun _ heq => nomatch heq), ScriptRunner.holds_fresh _,
      ScriptRunner.holds_fresh _⟩, rfl, rfl, rfl⟩
  have hagree := agreeUnlessTooDeep_splice hdigests loader options.maxNesting options hchildren hk hpath
    houtput hleaf fun _ hsource => hsource
  rcases hagree _ _ hstart with ⟨levels, hfails⟩ | ⟨hresult, hsession⟩
  · exact absurd hfails (hdeep levels)
  · exact (visible_eq hresult hsession.alike).symm

/-- Both models run the script three times, but in one of them a runner of its own compiles it once
more. -/
theorem run_splice_reversing :
    let reversal := scripted "reverse"
    let model := directive .model [] [reversal, directive .model [] [reversal], reversal]
    (supplied.run model).1.isOk ∧
      visible (supplied.run (model.withChildren [reversal, reversal, reversal])) =
        visible (supplied.run model) := by
  intro reversal model
  have honly : ∀ source ∈ model.scripts, source = "reverse" := by decide +kernel
  have hdigests : CollisionFree {source | source ∈ model.scripts} := by
    intro a ha b hb _
    rw [honly a ha, honly b hb]
  have hok : (supplied.run model).1.isOk := by decide +kernel
  have hsplice := @run_splice .standard .aggregator .empty
    [.ofChildren "records" [.ofText "item" "a", .ofText "item" "b"]] model
    (directive .model [] [reversal]) [reversal] [reversal] rfl rfl rfl rfl Bool.false_ne_true hdigests
  refine ⟨hok, hsplice fun levels hdeep => ?_⟩
  have hfails : (supplied.run model).1 = .error (.nestingTooDeep levels) := hdeep
  rw [hfails] at hok
  exact absurd hok Bool.false_ne_true

end Interpreter

end Docweave
