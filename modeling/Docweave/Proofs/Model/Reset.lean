import Docweave.Proofs.Model.Agree
import Docweave.Proofs.Model.AtRest

set_option autoImplicit false

/-! # Interpreters that are reset

An interpreter that is reset keeps its compiled scripts, and its sources if they are wanted. Apart from
that it cannot be told from a new one: `run_reset` says that it answers every model alike, whatever was
done with it before, as long as no two scripts of the models that it was given share a digest. -/

namespace Docweave

open Eval

/-! ## Runners with scripts of some texts -/

/-- The runners hold the same script in waiting, one of the texts, and their caches hold scripts of the
texts only. -/
structure ScriptRunner.HoldAlike (texts : Set String) (r r' : ScriptRunner) : Prop where
  primed : r.primed = r'.primed
  mem : ∀ source, r.primed = some source → source ∈ texts
  holds : r.Holds texts
  holds' : r'.Holds texts

/-- Runners whose caches hold scripts of the texts only answer alike, whatever else they hold. -/
theorem interchangeable_holdAlike {texts : Set String} (hdigests : CollisionFree texts) :
    Interchangeable texts (ScriptRunner.HoldAlike texts) where
  primed h := h.primed
  mem h := h.mem _
  run {r r' source} tree hmem h := by
    refine ⟨?_, ?_⟩
    · rw [ScriptRunner.run_of_holds h.holds hdigests hmem tree,
        ScriptRunner.run_of_holds h.holds' hdigests hmem tree]
    · refine ⟨?_, ?_, h.holds.run hmem tree, h.holds'.run hmem tree⟩
      · rw [ScriptRunner.primed_run, ScriptRunner.primed_run, h.primed]
      · rw [ScriptRunner.primed_run]
        exact h.mem
  prime hmem h := ⟨rfl, fun _ heq => Option.some.inj heq ▸ hmem, h.holds, h.holds'⟩
  clearPrimed h := ⟨rfl, (fun _ heq => nomatch heq), h.holds, h.holds'⟩

namespace Interpreter

/-! ## Histories -/

/-- The texts of the scripts in the models that calls run. -/
def scriptsRun (calls : List Call) : Set String :=
  {source | ∃ model, .run model ∈ calls ∧ source ∈ model.scripts}

theorem scriptsRun_subset_append (calls more : List Call) :
    scriptsRun calls ⊆ scriptsRun (calls ++ more) := by
  rintro source ⟨model, hmem, hsource⟩
  exact ⟨model, List.mem_append_left _ hmem, hsource⟩

theorem options_performAll (interpreter : Interpreter) (calls : List Call) :
    (interpreter.performAll calls).options = interpreter.options ∧
      (interpreter.performAll calls).loader = interpreter.loader := by
  induction calls generalizing interpreter with
  | nil => exact ⟨rfl, rfl⟩
  | cons call rest ih =>
    have hcall : (interpreter.perform call).options = interpreter.options ∧
        (interpreter.perform call).loader = interpreter.loader := by
      cases call <;> exact ⟨rfl, rfl⟩
    obtain ⟨hoptions, hloader⟩ := ih (interpreter.perform call)
    exact ⟨hoptions.trans hcall.1, hloader.trans hcall.2⟩

section Held

variable {texts : Set String} (hdigests : CollisionFree texts)

/-- Two interpreters that are alike answer a model alike, and then are alike again. -/
theorem alike_run {a b : Interpreter} (hoptions : a.options = b.options) (hloader : a.loader = b.loader)
    (h : a.session.Alike (ScriptRunner.HoldAlike texts) b.session) {model : Element}
    (hscripts : ∀ source ∈ model.scripts, source ∈ texts) (hd : CollisionFree texts) :
    (a.run model).1 = (b.run model).1 ∧
      (a.run model).2.session.Alike (ScriptRunner.HoldAlike texts) (b.run model).2.session := by
  have hagree := agree_evalModelAt (interchangeable_holdAlike hd) a.loader a.options.maxNesting
    a.options hscripts a.session b.session h
  unfold run
  rw [← hoptions, ← hloader]
  exact hagree

include hdigests

theorem holds_perform {interpreter : Interpreter} (hrest : interpreter.session.AtRest)
    (h : interpreter.session.runner.Holds texts) {call : Call}
    (hscripts : scriptsRun [call] ⊆ texts) :
    (interpreter.perform call).session.runner.Holds texts := by
  cases call with
  | withSources trees => exact h
  | addSource tree => exact h
  | reset keepSources => exact h
  | surround world => exact h
  | run model =>
    have hself : interpreter.session.Alike (ScriptRunner.HoldAlike texts) interpreter.session := by
      refine ⟨rfl, rfl, rfl, rfl, fun source heq => ?_, h, h⟩
      rw [hrest.primed] at heq
      cases heq
    have hmodel : ∀ source ∈ model.scripts, source ∈ texts :=
      fun source hmem => hscripts ⟨model, List.mem_singleton_self _, hmem⟩
    exact (alike_run rfl rfl hself hmodel hdigests).2.runner.holds

theorem holds_performAll {interpreter : Interpreter} (hrest : interpreter.session.AtRest)
    (h : interpreter.session.runner.Holds texts) {calls : List Call}
    (hscripts : scriptsRun calls ⊆ texts) :
    (interpreter.performAll calls).session.runner.Holds texts := by
  induction calls generalizing interpreter with
  | nil => exact h
  | cons call rest ih =>
    have hcall : scriptsRun [call] ⊆ texts :=
      (scriptsRun_subset_append [call] rest).trans hscripts
    have hlater : scriptsRun rest ⊆ texts := by
      rintro source ⟨model, hmem, hsource⟩
      exact hscripts ⟨model, List.mem_cons_of_mem _ hmem, hsource⟩
    exact ih (atRest_perform hrest call) (holds_perform hdigests hrest h hcall) hlater

end Held

/-! ## Resets -/

/-- What can be seen of a run from outside: its result, the sources after it, and the world that it has
written to. -/
def visible (ran : Except Failure String × Interpreter) :
    Except Failure String × Sources × Surroundings :=
  (ran.1, ran.2.session.sources, ran.2.session.world)

theorem visible_eq {ran ran' : Except Failure String × Interpreter} (hresult : ran.1 = ran'.1)
    {Q : ScriptRunner → ScriptRunner → Prop} (h : ran.2.session.Alike Q ran'.2.session) :
    visible ran = visible ran' := by
  unfold visible
  rw [hresult, h.sources, h.world]

/-- A new interpreter with the options and the loader of a given one, in the world as it is now. -/
def renewed (interpreter : Interpreter) : Interpreter :=
  create interpreter.options interpreter.loader interpreter.session.world

/-- After a reset an interpreter answers a model as a new one does, whatever was done with it before:
as one without sources, or, if the sources were to be kept, as one that was given the global ones. It
is assumed that the scripts in the models that it was ever given can be told apart by their
digests. -/
theorem run_reset (options : Options) (loader : Loader) (world : Surroundings) (calls : List Call)
    (model : Element) (hdigests : CollisionFree (scriptsRun (calls ++ [.run model]))) :
    let used := (create options loader world).performAll calls
    used.renewed = create options loader used.session.world ∧
      visible ((used.reset false).run model) = visible (used.renewed.run model) ∧
      visible ((used.reset true).run model) =
        visible ((used.renewed.withSources used.session.sources.globals).run model) := by
  intro used
  obtain ⟨hoptions, hloader⟩ := options_performAll (create options loader world) calls
  have hrest : used.session.AtRest := atRest_performAll (atRest_create options loader world) calls
  have hholds : used.session.runner.Holds (scriptsRun (calls ++ [.run model])) :=
    holds_performAll hdigests (atRest_create options loader world) (ScriptRunner.holds_fresh _)
      (scriptsRun_subset_append calls _)
  have hscripts : ∀ source ∈ model.scripts, source ∈ scriptsRun (calls ++ [.run model]) :=
    fun source hmem => ⟨model, List.mem_append_right _ (List.mem_singleton_self _), hmem⟩
  -- what stays in the cache makes no difference
  have hrunner : ScriptRunner.HoldAlike (scriptsRun (calls ++ [.run model]))
      used.session.runner.clearPrimed .fresh :=
    ⟨rfl, (fun _ heq => nomatch heq), hholds, ScriptRunner.holds_fresh _⟩
  have hvisible : ∀ {a b : Interpreter}, a.options = b.options → a.loader = b.loader →
      a.session.Alike (ScriptRunner.HoldAlike (scriptsRun (calls ++ [.run model]))) b.session →
      visible (a.run model) = visible (b.run model) := by
    intro a b ho hl h
    obtain ⟨hresult, hsession⟩ := alike_run ho hl h hscripts hdigests
    unfold visible
    rw [hresult, hsession.sources, hsession.world]
  refine ⟨?_, hvisible rfl rfl ⟨rfl, rfl, rfl, hrunner⟩, hvisible rfl rfl ⟨?_, rfl, rfl, hrunner⟩⟩
  · unfold renewed
    rw [hoptions, hloader]
    rfl
  -- no query has left a source behind that could be kept
  · change used.session.sources = ⟨[] ++ used.session.sources.globals, []⟩
    rw [List.nil_append, ← hrest.locals]

/-- A model with a source that a script makes. -/
def scriptedModel : Element :=
  directive .model []
    [{ directive .source [⟨AttrName.type, "custom"⟩, ⟨AttrName.name, "s"⟩] [] with
      text := some "reverse" }]

/-- The script is in the cache when the model is run again after the reset. -/
theorem run_reset_scripted :
    CollisionFree (scriptsRun ([.run scriptedModel] ++ [.run scriptedModel])) ∧
      visible ((((create .standard .aggregator .empty).performAll
          [.run scriptedModel]).reset false).run scriptedModel) =
        visible (((create .standard .aggregator .empty).performAll
          [.run scriptedModel]).renewed.run scriptedModel) := by
  have honly : ∀ source ∈ scriptsRun ([.run scriptedModel] ++ [.run scriptedModel]),
      source = "reverse" := by
    rintro source ⟨model, hmem, hsource⟩
    simp only [List.singleton_append, List.mem_cons, Call.run.injEq, List.not_mem_nil, or_false,
      or_self] at hmem
    subst hmem
    exact List.mem_singleton.1 hsource
  have hdigests : CollisionFree (scriptsRun ([.run scriptedModel] ++ [.run scriptedModel])) := by
    intro a ha b hb _
    rw [honly a ha, honly b hb]
  exact ⟨hdigests, (run_reset .standard .aggregator .empty [.run scriptedModel] scriptedModel
    hdigests).2.1⟩

end Interpreter

end Docweave
