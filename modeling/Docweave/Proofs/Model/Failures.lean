import Docweave.Model.Interpreter
import Docweave.Proofs.Model.Parallel

set_option autoImplicit false

/-! # Failures that end a run

Some failures only cost a directive its effect. They arise where a source is loaded, where the file
of a nested model is read, and where the root of a nested model turns out to be another element; each
of them is caught by the source or the nested model that met it. `run_failure` says that none of them
gets out of a run, however deep directives and models are nested: a run that fails with one has been
given a root that is no model, and has done nothing. -/

namespace Docweave

open Eval

/-! ## The failures of an action -/

namespace Eval

variable {α β : Type} {P : Failure → Prop}

/-- Wherever the action starts, the failures it can end with are among those that `P` holds of. -/
def FailsOnly (P : Failure → Prop) (act : Eval α) : Prop :=
  ∀ s failure, (outcome act s).1 = .error failure → P failure

namespace FailsOnly

theorem pure (a : α) : FailsOnly P (pure a) := fun _ _ h => nomatch h

theorem get : FailsOnly P get := fun _ _ h => nomatch h

theorem modify (change : Session → Session) : FailsOnly P (modify change) := fun _ _ h => nomatch h

theorem tell (notice : Notice) : FailsOnly P (tell notice) := fun _ _ h => nomatch h

theorem tellAll (notices : List Notice) : FailsOnly P (tellAll notices) := fun _ _ h => nomatch h

theorem throw {failure : Failure} (h : P failure) : FailsOnly P (throw failure : Eval α) := by
  intro s failure' heq
  rw [outcome_throw, Except.error.injEq] at heq
  exact heq ▸ h

theorem onRunner {act : ScriptRunner → Except Failure α × ScriptRunner}
    (h : ∀ runner failure, (act runner).1 = .error failure → P failure) :
    FailsOnly P (onRunner act) :=
  fun s failure heq => h s.runner failure heq

theorem within {enter : Session → Session} {leave : Session → Session → Session} {act : Eval α}
    (h : FailsOnly P act) : FailsOnly P (within enter leave act) :=
  fun s failure heq => h (enter s) failure heq

theorem bind {act : Eval α} {next : α → Eval β} (hact : FailsOnly P act)
    (hnext : ∀ a, FailsOnly P (next a)) : FailsOnly P (act >>= next) := by
  intro s failure heq
  rw [outcome_bind] at heq
  cases h : outcome act s with
  | mk result s' =>
    rw [h] at heq
    cases result with
    | error met =>
      have hmet : met = failure := Except.error.inj heq
      refine hact s failure ?_
      rw [h, hmet]
    | ok a => exact hnext a s' failure heq

/-- What is caught may fail in other ways than what is done about it. -/
theorem tryCatch {Q : Failure → Prop} {act : Eval α} {handle : Failure → Eval α}
    (hact : FailsOnly Q act) (hhandle : ∀ failure, Q failure → FailsOnly P (handle failure)) :
    FailsOnly P (tryCatch act handle) := by
  intro s failure heq
  rw [outcome_tryCatch] at heq
  cases h : outcome act s with
  | mk result s' =>
    rw [h] at heq
    cases result with
    | error met =>
      have hmet : Q met := by
        refine hact s met ?_
        rw [h]
      exact hhandle met hmet s' failure heq
    | ok a => exact nomatch heq

/-- Failures that only cost the directive its effect do not get out of it. -/
theorem recover {notice : Failure → Notice} {act : Eval String}
    (h : FailsOnly (fun failure => failure.isRecoverable ∨ P failure) act) :
    FailsOnly P (recover notice act) := by
  refine h.tryCatch fun failure hf => ?_
  by_cases hr : failure.isRecoverable
  · rw [if_pos hr]
    exact (tell _).bind fun _ => .pure ""
  · rw [if_neg hr]
    exact .throw (hf.resolve_left hr)

/-- There is nothing to be done about other failures. -/
theorem recover_eq {notice : Failure → Notice} {act : Eval String}
    (h : FailsOnly (fun failure => ¬ failure.isRecoverable) act) : Eval.recover notice act = act := by
  refine ext_outcome fun s => ?_
  rw [Eval.recover, outcome_tryCatch]
  cases hs : outcome act s with
  | mk result s' =>
    cases result with
    | ok output => rfl
    | error failure =>
      have hf : ¬ failure.isRecoverable := h s failure (congrArg Prod.fst hs)
      simp only [if_neg hf]
      rfl

end FailsOnly

end Eval

/-! ## Failures of scripts and loaders -/

namespace Failure

/-- A script is malformed or stops. -/
def OfScript : Failure → Prop
  | scriptCompile .. | scriptExecution _ => True
  | _ => False

end Failure

theorem ScriptRunner.ofScript_of_compile {runner : ScriptRunner} {source : String} {failure : Failure}
    (h : (runner.compile source).1 = .error failure) : failure.OfScript := by
  unfold compile at h
  simp only at h
  split at h
  · cases h
  · split at h
    · next met hmet =>
      cases h
      unfold compileText at hmet
      simp only at hmet
      cases hparse : Script.parseText 0 (Text.normalizeNewlines source.toList) with
      | error error =>
        rw [hparse] at hmet
        cases hmet
        trivial
      | ok script =>
        rw [hparse] at hmet
        cases hmet
    · cases h

theorem ScriptRunner.ofScript_of_run {runner : ScriptRunner} {source : String} {tree : Element}
    {failure : Failure} (h : (runner.run source tree).1 = .error failure) : failure.OfScript := by
  have hcompile := @ofScript_of_compile runner source
  unfold run at h
  cases hc : runner.compile source with
  | mk result compiled =>
    rw [hc] at h hcompile
    cases result with
    | error met =>
      cases h
      exact hcompile rfl
    | ok script =>
      simp only [execute] at h
      cases hx : script.execute tree with
      | error met =>
        rw [hx] at h
        cases h
        trivial
      | ok output =>
        rw [hx] at h
        cases h

/-- A loader gives up for good: the failure is not one that only costs the source its effect. -/
def Loader.GivesUp (loader : Loader) (failure : Failure) : Prop :=
  ¬ failure.isRecoverable ∧ ∃ world,
    (∃ directory root deep, (loader.files world directory root deep).result = .error failure) ∨
      ∃ location base root, (loader.location world location base root).result = .error failure

/-! ### The default loader -/

section Aggregator

variable {failure : Failure}

theorem isRecoverable_of_readSource {location text : String} (h : readSource location text = .error failure) :
    failure.isRecoverable := by
  unfold readSource at h
  cases hparse : Element.parse 0 text with
  | ok document =>
    rw [hparse] at h
    cases h
  | error error =>
    rw [hparse] at h
    cases h
    rfl

theorem isRecoverable_of_document {file : FoundFile} (h : file.document = .error failure) :
    failure.isRecoverable := by
  unfold FoundFile.document at h
  split at h
  · cases h
    rfl
  · exact isRecoverable_of_readSource h

theorem isRecoverable_of_aggregate {root : Element} {notices : List Notice} {found : List FoundFile}
    (h : (aggregate root notices found).result = .error failure) : failure.isRecoverable := by
  induction found generalizing root notices with
  | nil => exact nomatch h
  | cons file rest ih =>
    unfold aggregate at h
    cases hfile : file.document with
    | ok document =>
      rw [hfile] at h
      exact ih h
    | error met =>
      rw [hfile] at h
      cases h
      exact isRecoverable_of_document hfile

/-- The default loader never gives up for good. -/
theorem not_givesUp_aggregator (failure : Failure) : ¬ Loader.aggregator.GivesUp failure := by
  rintro ⟨hr, world, ⟨directory, root, deep, h⟩ | ⟨location, base, root, h⟩⟩
  · refine hr ?_
    change (loadFiles world directory root deep).result = .error failure at h
    unfold loadFiles at h
    split at h
    · cases h
      rfl
    · exact isRecoverable_of_aggregate h
  · refine hr ?_
    change (loadLocation world location base root).result = .error failure at h
    unfold loadLocation at h
    simp only at h
    split at h
    · cases h
      rfl
    · next text _ =>
      cases hread : readSource location text with
      | ok document =>
        rw [hread] at h
        cases h
      | error met =>
        rw [hread] at h
        cases h
        exact isRecoverable_of_readSource hread

end Aggregator

/-! ### Failures that are not skipped -/

/-- A failure that ends a run of a model. -/
inductive Loader.Fatal (loader : Loader) : Failure → Prop
  | scriptCompile (script : String) (error : ParseError) : Fatal loader (.scriptCompile script error)
  | scriptExecution (failure : ScriptFailure) : Fatal loader (.scriptExecution failure)
  | nestingTooDeep (levels : Nat) : Fatal loader (.nestingTooDeep levels)
  | io (problem : FileProblem) : Fatal loader (.io problem)
  | loading {failure : Failure} (h : loader.GivesUp failure) : Fatal loader failure

namespace Loader.Fatal

variable {loader : Loader} {failure : Failure}

theorem ofScript (h : failure.OfScript) : loader.Fatal failure := by
  cases failure with
  | scriptCompile script error => exact .scriptCompile script error
  | scriptExecution failure => exact .scriptExecution failure
  | invalidRoot | loaderStopped | sourceLoad | modelLoad | modelParse | nestingTooDeep | io =>
    exact h.elim

theorem not_isRecoverable (h : loader.Fatal failure) : ¬ failure.isRecoverable := by
  cases h with
  | loading h => exact h.1
  | scriptCompile | scriptExecution | nestingTooDeep | io => exact Bool.false_ne_true

end Loader.Fatal

/-! ## Directives without content -/

section Directives

variable {P : Failure → Prop}

theorem observant_failsOnly : Observant fun _ act _ => FailsOnly P act where
  pure := .pure
  bind := .bind
  look h := FailsOnly.get.bind fun s => h s s rfl rfl rfl
  remark {notices _} _ _ := .tellAll notices

theorem failsOnly_recordsFor (hscript : ∀ failure : Failure, failure.OfScript → P failure)
    (node : Element) : FailsOnly P (recordsFor node) := by
  refine observant_failsOnly.related_recordsFor (fun tree => .onRunner fun runner failure h => ?_) node
  unfold ScriptRunner.runPrimed at h
  cases hp : runner.primed with
  | some source =>
    rw [hp] at h
    exact hscript failure (ScriptRunner.ofScript_of_run h)
  | none =>
    rw [hp] at h
    cases h

theorem failsOnly_evalSource {setting : Setting}
    (hscript : ∀ failure : Failure, failure.OfScript → P failure)
    (hloading : ∀ failure, setting.loader.GivesUp failure → P failure) (place : SourcePlace)
    (node : Element) : FailsOnly P (evalSource setting place node) := by
  have hload : ∀ load : Surroundings → Loading,
      (∀ world failure, (load world).result = .error failure → ¬ failure.isRecoverable →
        setting.loader.GivesUp failure) → FailsOnly P (loadSource setting place load) := by
    intro load hgives
    exact observant_failsOnly.related_loadSource (fun _ => .modify _) (fun _ => .tellAll _) (.modify _)
      fun world failure hf hr => .throw (hloading failure (hgives world failure hf hr))
  refine observant_failsOnly.related_evalSource (fun _ => .modify _)
    (fun _ _ _ => hload _ fun world failure hf hr => ⟨hr, world, .inl ⟨_, _, _, hf⟩⟩)
    (fun _ _ _ => hload _ fun world failure hf hr => ⟨hr, world, .inr ⟨_, _, _, hf⟩⟩)
    fun _ _ => .onRunner fun _ failure h => ?_
  exact hscript failure (ScriptRunner.ofScript_of_run h)

/-- An output that is to be written nowhere is not missed. -/
theorem failsOnly_writeOutput (options : Options) (model : Element)
    (hio : (model.attr? AttrName.output).isSome → options.writeOutput → ∀ problem, P (.io problem))
    (output : String) : FailsOnly P (writeOutput options model output) := by
  unfold writeOutput
  cases htarget : model.attr? AttrName.output with
  | none => exact .pure ()
  | some target =>
    by_cases hw : options.writeOutput
    · simp only [if_pos hw]
      refine FailsOnly.get.bind fun s => ?_
      cases s.world.files.writeText (options.baseDir.join ⟨target⟩) output with
      | error problem => exact .throw (hio (by rw [htarget]; rfl) hw problem)
      | ok files => exact (FailsOnly.modify _).bind fun _ => .tell _
    · simp only [if_neg hw]
      exact .tell _

/-- Models that a setting lets be nested fail in ways that only cost them their effect, or fatally. -/
def NestedFails (setting : Setting) : Prop :=
  ∀ run, setting.nested = some run → ∀ options model,
    FailsOnly (fun failure => failure.isRecoverable ∨ setting.loader.Fatal failure) (run options model)

theorem failsOnly_evalNestedModel {setting : Setting} (hnested : NestedFails setting) (node : Element) :
    FailsOnly setting.loader.Fatal (evalNestedModel setting node) := by
  cases hrun : setting.nested with
  | none =>
    rw [evalNestedModel_of_none hrun]
    exact .throw (.nestingTooDeep _)
  | some run =>
    refine observant_failsOnly.related_evalNestedModel hrun hrun rfl node fun baseDir model => ?_
    exact (hnested run hrun _ model).within.recover

end Directives

/-! ## Directives with content -/

section Content

variable {P : Failure → Prop}

theorem failsOnly_evalQuery (node : Element) {body : Eval String} (hbody : FailsOnly P body) :
    FailsOnly P (evalQuery node body) :=
  @Attentive.related_evalQuery _ observant_failsOnly.toAttentive node body body hbody.within

theorem failsOnly_evalAction (node : Element) {body : Eval String} (hbody : FailsOnly P body) :
    FailsOnly P (evalAction node body) :=
  @Attentive.related_evalAction _ observant_failsOnly.toAttentive node body body node hbody.within

theorem failsOnly_deepen (node : Element) {act : Eval String} (hact : FailsOnly P act) :
    FailsOnly P (deepen node act) :=
  @Attentive.related_deepen (fun _ act _ => FailsOnly P act) node act act hact hact.within

/-- The failures of an evaluation are those of its scripts, of its loader, and of the models nested in
it. -/
theorem parallel_failsOnly {S : Element → Prop} {setting : Setting}
    (hS : ∀ {node}, S node → ∀ child ∈ node.children, S child)
    (hscript : ∀ failure : Failure, failure.OfScript → P failure)
    (hloading : ∀ failure, setting.loader.GivesUp failure → P failure)
    (hmodel : ∀ node, S node → node.kind = .model → FailsOnly P (evalNestedModel setting node)) :
    Parallel (fun _ act _ => FailsOnly P act) (Element.SameIf S) setting setting where
  toSequential := observant_failsOnly.toSequential
  kind h := congrArg Element.kind h.1
  children := by
    rintro node _ ⟨rfl, hnode⟩ -
    exact Element.forall₂_sameIf (hS hnode)
  began _ := .tell _
  source {node _} _ _ place := failsOnly_evalSource hscript hloading place node
  query {node _ _ _} _ _ hbody := failsOnly_evalQuery node hbody
  action {node _ _ _} _ _ hbody := failsOnly_evalAction node hbody
  records {node _} _ _ := failsOnly_recordsFor hscript node
  getContent {node _} _ _ record := observant_failsOnly.related_evalGetContent node record
  literal h _ := congrArg literalText h.1
  model {node _} h hk := hmodel node h.2 hk
  passThrough {node _ body _} _ _ hbody :=
    observant_failsOnly.related_evalPassThrough setting.options node body body hbody
  deepened {node _ _ _} _ hact := failsOnly_deepen node hact

end Content

/-! ## Models -/

theorem failsOnly_evalModel (setting : Setting) (hnested : NestedFails setting) {model : Element}
    (hk : model.kind = .model) : FailsOnly setting.loader.Fatal (evalModel setting model) := by
  have hparallel : Parallel (fun _ act _ => FailsOnly setting.loader.Fatal act)
      (Element.SameIf fun _ => True) setting setting :=
    parallel_failsOnly (fun _ _ _ => trivial) (fun _ => .ofScript) (fun _ => .loading)
      fun node _ _ => failsOnly_evalNestedModel hnested node
  exact hparallel.related_evalModel hk hk (Element.forall₂_sameIf fun _ _ => trivial)
    (failsOnly_writeOutput _ model fun _ _ => .io)

theorem evalModelAt_of_ne_model (loader : Loader) (levels : Nat) (options : Options) {model : Element}
    (hk : model.kind ≠ .model) :
    evalModelAt loader levels options model = throw (.invalidRoot model.name.display) := by
  cases levels <;> exact if_neg hk

theorem failsOnly_evalModelAt (loader : Loader) (levels : Nat) (options : Options) (model : Element)
    (hk : model.kind = .model) :
    FailsOnly loader.Fatal (evalModelAt loader levels options model) := by
  induction levels generalizing options model with
  | zero =>
    unfold evalModelAt
    exact failsOnly_evalModel ⟨options, loader, none⟩ (fun _ hrun => nomatch hrun) hk
  | succ levels ih =>
    unfold evalModelAt
    refine failsOnly_evalModel ⟨options, loader, some (evalModelAt loader levels)⟩
      (fun run hrun options model => ?_) hk
    cases hrun
    -- a nested root that is no model is caught by the directive that nests it
    by_cases hk : model.kind = .model
    · exact fun s failure heq => .inr (ih options model hk s failure heq)
    · rw [evalModelAt_of_ne_model loader levels options hk]
      exact .throw (.inl rfl)

/-! ## Runs -/

namespace Interpreter

theorem run_of_ne_model (interpreter : Interpreter) {model : Element} (hk : model.kind ≠ .model) :
    interpreter.run model = (.error (.invalidRoot model.name.display), interpreter) := by
  unfold run
  simp only [evalModelAt_of_ne_model interpreter.loader _ interpreter.options hk]
  rfl

theorem fatal_of_run {interpreter : Interpreter} {model : Element} (hk : model.kind = .model)
    {failure : Failure} (h : (interpreter.run model).1 = .error failure) :
    interpreter.loader.Fatal failure :=
  failsOnly_evalModelAt interpreter.loader interpreter.options.maxNesting interpreter.options model hk
    interpreter.session failure h

/-- A run fails in a way that would only cost a directive its effect if and only if it is given a root
that is no model. Then it names that root and has done nothing. All its other failures are fatal
ones: of scripts, of nesting, of writing, or of a loader that gives up. -/
theorem run_failure (interpreter : Interpreter) (model : Element) :
    ((∃ failure, (interpreter.run model).1 = .error failure ∧ failure.isRecoverable) ↔
      model.kind ≠ .model) ∧
    (model.kind ≠ .model →
      interpreter.run model = (.error (.invalidRoot model.name.display), interpreter)) ∧
    ∀ failure, (interpreter.run model).1 = .error failure → model.kind = .model →
      interpreter.loader.Fatal failure := by
  refine ⟨⟨?_, fun hk => ?_⟩, interpreter.run_of_ne_model, fun _ h hk => fatal_of_run hk h⟩
  · rintro ⟨failure, h, hr⟩ hk
    exact (fatal_of_run hk h).not_isRecoverable hr
  · exact ⟨_, by rw [interpreter.run_of_ne_model hk], rfl⟩

/-- An interpreter that lets no model be nested. -/
def unnested : Interpreter :=
  .create { Options.standard with maxNesting := 0 } .aggregator .empty

/-- A model in a model is nested too deep here; an element that is only called `model` is no root. -/
theorem run_failure_unnested :
    (unnested.run (directive .model [] [directive .model [] []])).1 = .error (.nestingTooDeep 0) ∧
      Loader.aggregator.Fatal (.nestingTooDeep 0) ∧
      unnested.run (.ofTag "model") = (.error (.invalidRoot "model"), unnested) := by
  have hnested := run_failure unnested (directive .model [] [directive .model [] []])
  have hother := run_failure unnested (.ofTag "model")
  exact ⟨rfl, hnested.2.2 _ rfl rfl, hother.2.1 (by decide)⟩

end Interpreter

end Docweave
