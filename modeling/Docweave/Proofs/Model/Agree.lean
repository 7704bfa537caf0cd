import Docweave.Proofs.Model.Parallel
import Docweave.Proofs.Script.Compiled

set_option autoImplicit false

/-! # Runs that agree

`Agree R act act'` says that two actions, started in sessions in the relation `R`, give the same value
or the same failure and leave sessions in that relation again. Most directives only look at what all
sessions in a `Likeness` share. `Alike Q` relates sessions that have the same sources, context and world,
and runners in the relation `Q`; what was told does not matter. The evaluation of a model agrees with
itself in sessions that are alike, if runners in the relation answer alike when they are asked for one
of the scripts in the model. -/

namespace Docweave

/-! ## Actions that agree -/

namespace Eval

variable {α β : Type} {R : Session → Session → Prop}

/-- From related sessions the two actions give the same result and leave related sessions. -/
def Agree (R : Session → Session → Prop) (act act' : Eval α) : Prop :=
  ∀ s s', R s s' →
    (outcome act s).1 = (outcome act' s').1 ∧ R (outcome act s).2 (outcome act' s').2

/-- Two outcomes with the same result may differ in their sessions only. -/
theorem exists_result_of_eq {act act' : Eval α} {s s' : Session}
    (h : (outcome act s).1 = (outcome act' s').1) :
    ∃ result, outcome act s = (result, (outcome act s).2) ∧
      outcome act' s' = (result, (outcome act' s').2) :=
  ⟨(outcome act s).1, rfl, Prod.ext h.symm rfl⟩

namespace Agree

theorem pure (a : α) : Agree R (pure a) (pure a) := fun _ _ h => ⟨rfl, h⟩

theorem throw (failure : Failure) : Agree R (throw failure : Eval α) (throw failure) :=
  fun _ _ h => ⟨rfl, h⟩

theorem modify {change change' : Session → Session} (h : ∀ s s', R s s' → R (change s) (change' s')) :
    Agree R (modify change) (modify change') :=
  fun s s' hs => ⟨rfl, h s s' hs⟩

theorem onRunner {act act' : ScriptRunner → Except Failure α × ScriptRunner}
    (h : ∀ s s', R s s' → (act s.runner).1 = (act' s'.runner).1 ∧
      R { s with runner := (act s.runner).2 } { s' with runner := (act' s'.runner).2 }) :
    Agree R (onRunner act) (onRunner act') := h

/-- What a bracket does follows from what the action inside does. -/
theorem within {Q : Session → Session → Prop} {enter enter' : Session → Session}
    {leave leave' : Session → Session → Session} {act act' : Eval α}
    (henter : ∀ s s', R s s' → Q (enter s) (enter' s')) (hact : Agree Q act act')
    (hleave : ∀ s s' t t', R s s' → Q t t' → R (leave s t) (leave' s' t')) :
    Agree R (within enter leave act) (within enter' leave' act') := by
  intro s s' h
  obtain ⟨hresult, hsession⟩ := hact _ _ (henter s s' h)
  exact ⟨hresult, hleave s s' _ _ h hsession⟩

theorem bind {act act' : Eval α} {next next' : α → Eval β} (hact : Agree R act act')
    (hnext : ∀ a, Agree R (next a) (next' a)) : Agree R (act >>= next) (act' >>= next') := by
  intro s s' h
  obtain ⟨hresult, hsession⟩ := hact s s' h
  obtain ⟨result, hs, hs'⟩ := exists_result_of_eq hresult
  rw [outcome_bind, outcome_bind, hs, hs']
  cases result with
  | error failure => exact ⟨rfl, hsession⟩
  | ok a => exact hnext a _ _ hsession

/-- What follows may look at the sessions. -/
theorem get_bind {next next' : Session → Eval β}
    (h : ∀ s s', R s s' → Agree R (next s) (next' s')) : Agree R (get >>= next) (get >>= next') := by
  intro s s' hs
  rw [outcome_bind, outcome_bind, outcome_get, outcome_get]
  exact h s s' hs s s' hs

theorem tryCatch {act act' : Eval α} {handle handle' : Failure → Eval α} (hact : Agree R act act')
    (hhandle : ∀ failure, Agree R (handle failure) (handle' failure)) :
    Agree R (tryCatch act handle) (tryCatch act' handle') := by
  intro s s' h
  obtain ⟨hresult, hsession⟩ := hact s s' h
  obtain ⟨result, hs, hs'⟩ := exists_result_of_eq hresult
  rw [outcome_tryCatch, outcome_tryCatch, hs, hs']
  cases result with
  | error failure => exact hhandle failure _ _ hsession
  | ok a => exact ⟨rfl, hsession⟩

end Agree

end Eval

open Eval

/-! ## Sessions that are alike -/

/-- The sessions only differ in what was told and in their runners, which are in the relation `Q`. -/
structure Session.Alike (Q : ScriptRunner → ScriptRunner → Prop) (s s' : Session) : Prop where
  sources : s.sources = s'.sources
  context : s.context = s'.context
  world : s.world = s'.world
  runner : Q s.runner s'.runner

/-- Related sessions have the same sources, stand at the same place in a model and in the same world, and
stay related when one of these changes or something is told. -/
class Session.Likeness (R : Session → Session → Prop) : Prop where
  sources : ∀ {s s'}, R s s' → s.sources = s'.sources
  queryPath : ∀ {s s'}, R s s' → s.context.queryPath = s'.context.queryPath
  depth : ∀ {s s'}, R s s' → s.context.depth = s'.context.depth
  world : ∀ {s s'}, R s s' → s.world = s'.world
  withNotices : ∀ {s s'} notices notices', R s s' →
    R { s with notices := notices } { s' with notices := notices' }
  withSources : ∀ {s s'} sources, R s s' → R { s with sources := sources } { s' with sources := sources }
  withWorld : ∀ {s s'} world, R s s' → R { s with world := world } { s' with world := world }
  withQueryPath : ∀ {s s'} path, R s s' → R { s with context := { s.context with queryPath := path } }
    { s' with context := { s'.context with queryPath := path } }
  withDepth : ∀ {s s'} depth, R s s' → R { s with context := { s.context with depth := depth } }
    { s' with context := { s'.context with depth := depth } }

namespace Session.Likeness

variable {R S : Session → Session → Prop} [Likeness R] [Likeness S] {s s' t t' : Session} (h : R s s')

include h

theorem enterQuery (path : String) : R (s.enterQuery path) (s'.enterQuery path) := by
  have hentered := withSources { s.sources with locals := [] } (withQueryPath path h)
  unfold Session.enterQuery
  rw [← sources h]
  exact hentered

theorem leaveQuery (ht : R t t') : R (s.leaveQuery t) (s'.leaveQuery t') := by
  have hleft := withSources { t.sources with locals := s.sources.locals }
    (withQueryPath s.context.queryPath ht)
  unfold Session.leaveQuery
  rw [← sources h, ← sources ht, ← queryPath h]
  exact hleft

theorem deeper : R s.deeper s'.deeper := by
  have hdeeper := withDepth (s.context.depth + 1) h
  unfold Session.deeper
  rw [← depth h]
  exact hdeeper

theorem shallower : R s.shallower s'.shallower := by
  have hshallower := withDepth (s.context.depth - 1) h
  unfold Session.shallower
  rw [← depth h]
  exact hshallower

/-- A nested model changes the sources and the world only. -/
theorem leaveModel (ht : S t t') : R (s.leaveModel t) (s'.leaveModel t') := by
  have hleft := withNotices t.notices t'.notices (withWorld t.world (withSources t.sources h))
  unfold Session.leaveModel
  rw [← sources ht, ← world ht] at *
  exact hleft

end Session.Likeness

namespace Session.Alike

variable {Q : ScriptRunner → ScriptRunner → Prop} {s s' t t' : Session}

instance likeness : Likeness (Session.Alike Q) where
  sources h := h.sources
  queryPath h := congrArg _ h.context
  depth h := congrArg _ h.context
  world h := h.world
  withNotices _ _ h := ⟨h.sources, h.context, h.world, h.runner⟩
  withSources _ h := ⟨rfl, h.context, h.world, h.runner⟩
  withWorld _ h := ⟨h.sources, h.context, rfl, h.runner⟩
  withQueryPath _ h := ⟨h.sources, by simp only [h.context], h.world, h.runner⟩
  withDepth _ h := ⟨h.sources, by simp only [h.context], h.world, h.runner⟩

theorem enterModel (hsources : s.sources = s'.sources) (hworld : s.world = s'.world) :
    s.enterModel.Alike Eq s'.enterModel :=
  ⟨hsources, rfl, hworld, rfl⟩

section

variable (h : s.Alike Q s')

include h

theorem enterAction {action : Option ActionKind} {node : Element}
    (hprime : action = some .custom →
      Q (s.runner.prime node.textOrEmpty) (s'.runner.prime node.textOrEmpty)) :
    (s.enterAction action node).Alike Q (s'.enterAction action node) where
  sources := h.sources
  context := by simp only [Session.enterAction, h.context]
  world := h.world
  runner := by
    unfold Session.enterAction
    by_cases hcustom : action = some .custom
    · simp only [if_pos hcustom]
      exact hprime hcustom
    · simp only [if_neg hcustom]
      exact h.runner

theorem leaveAction (hclear : Q s.runner.clearPrimed s'.runner.clearPrimed) :
    s.leaveAction.Alike Q s'.leaveAction where
  sources := h.sources
  context := by simp only [Session.leaveAction, h.context]
  world := h.world
  runner := hclear

end

end Session.Alike

/-- Runners in the relation `Q` hold the same script in waiting, one of `texts`, and cannot be told
apart by their answers to these texts. -/
structure Interchangeable (texts : Set String) (Q : ScriptRunner → ScriptRunner → Prop) : Prop where
  primed : ∀ {r r'}, Q r r' → r.primed = r'.primed
  mem : ∀ {r r' source}, Q r r' → r.primed = some source → source ∈ texts
  run : ∀ {r r' source} tree, source ∈ texts → Q r r' →
    (r.run source tree).1 = (r'.run source tree).1 ∧ Q (r.run source tree).2 (r'.run source tree).2
  prime : ∀ {r r' source}, source ∈ texts → Q r r' → Q (r.prime source) (r'.prime source)
  clearPrimed : ∀ {r r'}, Q r r' → Q r.clearPrimed r'.clearPrimed

/-- Equal runners cannot be told apart at all. -/
theorem interchangeable_eq : Interchangeable Set.univ Eq where
  primed h := congrArg _ h
  mem _ _ := Set.mem_univ _
  run tree _ h := by
    subst h
    exact ⟨rfl, rfl⟩
  prime _ h := by
    subst h
    rfl
  clearPrimed h := congrArg _ h

/-! ## What related sessions share -/

section Likeness

variable {R S : Session → Session → Prop} [Session.Likeness R] [Session.Likeness S]

theorem agree_tellAll (notices notices' : List Notice) : Agree R (tellAll notices) (tellAll notices') :=
  .modify fun _ _ h => Session.Likeness.withNotices _ _ h

theorem agree_tell (notice : Notice) : Agree R (tell notice) (tell notice) :=
  agree_tellAll [notice] [notice]

theorem attentive_agree : Attentive fun _ => Agree R where
  pure := .pure
  bind := .bind
  glance h := .get_bind fun s s' hs =>
    h s s' (Session.Likeness.sources hs) (Session.Likeness.queryPath hs) (Session.Likeness.depth hs)
      (Session.Likeness.world hs)
  remark _ _ := agree_tellAll _ _

theorem agree_registerSource (setting : Setting) (place : SourcePlace) (tree : Element) :
    Agree R (registerSource setting place tree) (registerSource setting place tree) := by
  refine .modify fun s s' h => ?_
  rw [← Session.Likeness.sources h]
  exact Session.Likeness.withSources _ h

theorem agree_loadSource (setting : Setting) (place : SourcePlace) (load : Surroundings → Loading) :
    Agree R (loadSource setting place load) (loadSource setting place load) := by
  refine attentive_agree.related_loadSource (agree_registerSource setting place)
    (fun _ => agree_tellAll _ _) (.modify fun _ _ h => ?_) fun _ failure _ _ => .throw failure
  rw [← Session.Likeness.world h]
  exact Session.Likeness.withWorld _ h

theorem agree_writeOutput (options : Options) (model : Element) (output : String) :
    Agree R (writeOutput options model output) (writeOutput options model output) := by
  unfold writeOutput
  cases model.attr? AttrName.output with
  | none => exact .pure ()
  | some target =>
    by_cases hw : options.writeOutput
    · simp only [if_pos hw]
      refine .get_bind fun s s' h => ?_
      rw [Session.Likeness.world h]
      cases s'.world.files.writeText (options.baseDir.join ⟨target⟩) output with
      | error problem => exact .throw _
      | ok files =>
        refine Agree.bind (.modify fun t t' ht => ?_) fun _ => agree_tell _
        rw [← Session.Likeness.world ht]
        exact Session.Likeness.withWorld _ ht
    · simp only [if_neg hw]
      exact agree_tell _

theorem agree_recover {notice : Failure → Notice} {act act' : Eval String} (hact : Agree R act act') :
    Agree R (recover notice act) (recover notice act') := by
  refine hact.tryCatch fun failure => ?_
  by_cases hr : failure.isRecoverable
  · simp only [if_pos hr]
    exact (agree_tell _).bind fun _ => .pure ""
  · simp only [if_neg hr]
    exact .throw failure

theorem agree_apart
    (hbegin : ∀ {s s' : Session}, s.sources = s'.sources → s.world = s'.world →
      S s.enterModel s'.enterModel)
    {act act' : Eval String} (hact : Agree S act act') : Agree R (apart act) (apart act') :=
  .within (fun _ _ h => hbegin (Session.Likeness.sources h) (Session.Likeness.world h)) hact
    fun _ _ _ _ h ht => Session.Likeness.leaveModel h ht

theorem agree_evalQuery (node : Element) {body body' : Eval String} (hbody : Agree R body body') :
    Agree R (evalQuery node body) (evalQuery node body') := by
  refine attentive_agree.related_evalQuery node ?_
  exact .within (fun _ _ h => Session.Likeness.enterQuery h node.queryPath) hbody
    fun _ _ _ _ h ht => Session.Likeness.leaveQuery h ht

theorem agree_deepen (node : Element) {act act' : Eval String} (hact : Agree R act act') :
    Agree R (deepen node act) (deepen node act') := by
  refine @Attentive.related_deepen (fun _ => Agree R) node act act' hact ?_
  exact .within (fun _ _ h => Session.Likeness.deeper h) hact
    fun _ _ _ _ _ ht => Session.Likeness.shallower ht

/-- Nested models have scripts of their own, so all that matters for them is that they agree with
themselves in sessions with equal runners. -/
def NestedAgree (setting : Setting) : Prop :=
  ∀ run, setting.nested = some run → ∀ options model,
    Agree (Session.Alike Eq) (run options model) (run options model)

/-- Models nested in the same way, from files or from two elements that agree, agree. -/
theorem agree_evalNestedModel {setting : Setting} (hnested : NestedAgree setting) {node node' : Element}
    (hpath : node.attr? AttrName.path = node'.attr? AttrName.path) (hleaf : node.isLeaf = node'.isLeaf)
    (hinline : ∀ run, setting.nested = some run →
      Agree R (apart (run setting.options node)) (apart (run setting.options node'))) :
    Agree R (evalNestedModel setting node) (evalNestedModel setting node') := by
  cases hrun : setting.nested with
  | none =>
    rw [evalNestedModel_of_none hrun, evalNestedModel_of_none hrun]
    exact .throw _
  | some run =>
    unfold evalNestedModel
    simp only [hrun, hpath, hleaf]
    cases node'.attr? AttrName.path with
    | some path =>
      refine agree_recover (.get_bind fun s s' h => ?_)
      rw [Session.Likeness.world h]
      cases loadModel s'.world.files (setting.options.baseDir.join ⟨path⟩) with
      | error failure => exact .throw failure
      | ok model => exact agree_apart Session.Alike.enterModel (hnested run hrun _ model)
    | none =>
      by_cases hl : node'.isLeaf
      · simp only [if_pos hl]
        exact (agree_tell _).bind fun _ => .pure ""
      · simp only [if_neg hl]
        exact agree_recover (hinline run hrun)

end Likeness

section Scripts

variable {Q : ScriptRunner → ScriptRunner → Prop}

theorem observant_alike : Observant fun _ => Agree (Session.Alike Q) where
  toAttentive := attentive_agree
  look h := .get_bind fun s s' hs => h s s' hs.sources hs.context hs.world

variable {texts : Set String} (hQ : Interchangeable texts Q)

include hQ

theorem agree_run {source : String} (hmem : source ∈ texts) (tree : Element) :
    Agree (Session.Alike Q) (onRunner (·.run source tree)) (onRunner (·.run source tree)) := by
  refine .onRunner fun s s' h => ?_
  obtain ⟨hresult, hrunner⟩ := hQ.run tree hmem h.runner
  exact ⟨hresult, h.sources, h.context, h.world, hrunner⟩

theorem agree_recordsFor (node : Element) :
    Agree (Session.Alike Q) (recordsFor node) (recordsFor node) := by
  refine observant_alike.related_recordsFor (fun tree => .onRunner fun s s' h => ?_) node
  unfold ScriptRunner.runPrimed
  rw [← hQ.primed h.runner]
  cases hp : s.runner.primed with
  | none => exact ⟨rfl, h⟩
  | some source =>
    obtain ⟨hresult, hrunner⟩ := hQ.run tree (hQ.mem h.runner hp) h.runner
    exact ⟨hresult, h.sources, h.context, h.world, hrunner⟩

end Scripts

/-! ## The scripts in a model -/

namespace Element

/-- The text of the script that a custom source or a custom action holds. -/
def script? (node : Element) : Option String :=
  match node.kind with
  | .source =>
    if (node.attr? AttrName.type).bind SourceKind.ofWord? = some .custom then some node.textOrEmpty
    else none
  | .action => if node.actionKind = some .custom then some node.textOrEmpty else none
  | _ => none

theorem script?_of_source {node : Element} (hk : node.kind = .source)
    (h : (node.attr? AttrName.type).bind SourceKind.ofWord? = some .custom) :
    node.script? = some node.textOrEmpty := by
  unfold script?
  rw [hk]
  exact if_pos h

theorem script?_of_action {node : Element} (hk : node.kind = .action)
    (h : node.actionKind = some .custom) : node.script? = some node.textOrEmpty := by
  unfold script?
  rw [hk]
  exact if_pos h

/-- The texts of all scripts among some elements and below them. -/
def scriptsAmong (nodes : List Element) : List String := (preorder nodes).filterMap script?

/-- The texts of all scripts in a model. -/
def scripts (model : Element) : List String := scriptsAmong [model]

theorem mem_scripts_iff {model : Element} {source : String} :
    source ∈ model.scripts ↔ ∃ node ∈ model :: model.descendants, node.script? = some source := by
  unfold scripts scriptsAmong
  rw [preorder, preorder, List.append_nil, List.mem_filterMap]

/-- Every script in the element is one of the texts. -/
def ScriptsIn (texts : Set String) (node : Element) : Prop := ∀ source ∈ node.scripts, source ∈ texts

theorem ScriptsIn.mem {texts : Set String} {node : Element} {source : String} (h : node.ScriptsIn texts)
    (hscript : node.script? = some source) : source ∈ texts :=
  h source (mem_scripts_iff.2 ⟨node, List.mem_cons_self, hscript⟩)

theorem ScriptsIn.of_mem_children {texts : Set String} {node child : Element} (h : node.ScriptsIn texts)
    (hchild : child ∈ node.children) : child.ScriptsIn texts := by
  intro source hsource
  obtain ⟨e, he, hscript⟩ := mem_scripts_iff.1 hsource
  refine h source (mem_scripts_iff.2 ⟨e, List.mem_cons_of_mem _ ?_, hscript⟩)
  rw [descendants_eq]
  exact mem_preorder_iff.2 ⟨child, hchild, he⟩

end Element

/-! ## Directives with scripts -/

section Scripted

variable {texts : Set String}

/-- A source agrees with itself if the script in it does. -/
theorem agree_evalSource {R : Session → Session → Prop} [Session.Likeness R]
    (hrun : ∀ source ∈ texts, ∀ tree,
      Agree R (onRunner (·.run source tree)) (onRunner (·.run source tree)))
    (setting : Setting) (place : SourcePlace) {node : Element} (hk : node.kind = .source)
    (hscripts : node.ScriptsIn texts) :
    Agree R (evalSource setting place node) (evalSource setting place node) := by
  refine attentive_agree.related_evalSource (agree_registerSource setting place)
    (fun _ _ _ => agree_loadSource setting place _) (fun _ _ _ => agree_loadSource setting place _)
    fun htype => hrun _ ?_
  exact hscripts.mem (Element.script?_of_source hk htype)

variable {Q : ScriptRunner → ScriptRunner → Prop} (hQ : Interchangeable texts Q)

include hQ

theorem agree_evalAction {node : Element} (hk : node.kind = .action)
    (hscripts : node.ScriptsIn texts) {body body' : Eval String}
    (hbody : Agree (Session.Alike Q) body body') :
    Agree (Session.Alike Q) (evalAction node body) (evalAction node body') := by
  refine attentive_agree.related_evalAction node node ?_
  refine .within (fun _ _ h => h.enterAction fun hcustom => ?_) hbody
    fun _ _ _ _ _ ht => ht.leaveAction (hQ.clearPrimed ht.runner)
  have hscript := Element.script?_of_action hk hcustom
  exact hQ.prime (hscripts.mem hscript) h.runner

end Scripted

/-! ## Models -/

section Models

variable {texts : Set String} {Q : ScriptRunner → ScriptRunner → Prop}

theorem parallel_agree (hQ : Interchangeable texts Q) {setting : Setting}
    (hnested : NestedAgree setting) :
    Parallel (fun _ => Agree (Session.Alike Q)) (Element.SameIf (Element.ScriptsIn texts))
      setting setting where
  toSequential := observant_alike.toSequential
  kind h := congrArg Element.kind h.1
  children := by
    rintro node _ ⟨rfl, hscripts⟩ -
    exact Element.forall₂_sameIf fun child hmem => hscripts.of_mem_children hmem
  began _ := agree_tellAll [_] [_]
  source := by
    rintro node _ ⟨rfl, hscripts⟩ hk place
    exact agree_evalSource (fun _ => agree_run hQ) setting place hk hscripts
  query := by
    rintro node _ body body' ⟨rfl, -⟩ - hbody
    exact agree_evalQuery node hbody
  action := by
    rintro node _ body body' ⟨rfl, hscripts⟩ hk hbody
    exact agree_evalAction hQ hk hscripts hbody
  records := by
    rintro node _ ⟨rfl, -⟩ -
    exact agree_recordsFor hQ node
  getContent := by
    rintro node _ ⟨rfl, -⟩ - record
    exact observant_alike.related_evalGetContent node record
  literal h _ := congrArg literalText h.1
  model := by
    rintro node _ ⟨rfl, -⟩ -
    refine agree_evalNestedModel hnested rfl rfl fun run hrun => ?_
    exact agree_apart Session.Alike.enterModel (hnested run hrun _ node)
  passThrough := by
    rintro node _ body body' ⟨rfl, -⟩ - hbody
    exact observant_alike.related_evalPassThrough setting.options node _ _ hbody
  deepened := by
    rintro node _ act act' ⟨rfl, -⟩ hact
    exact agree_deepen node hact

theorem agree_evalModel (hQ : Interchangeable texts Q) (setting : Setting)
    (hnested : NestedAgree setting) {model : Element}
    (hscripts : model.ScriptsIn texts) :
    Agree (Session.Alike Q) (evalModel setting model) (evalModel setting model) := by
  by_cases hk : model.kind = .model
  · refine (parallel_agree hQ hnested).related_evalModel hk hk ?_ (agree_writeOutput _ model)
    exact Element.forall₂_sameIf fun child hmem => hscripts.of_mem_children hmem
  · unfold evalModel
    rw [if_neg hk]
    exact .throw _

/-- A model agrees with itself, however deep models are nested in it. -/
theorem agree_evalModelAt (hQ : Interchangeable texts Q) (loader : Loader) (levels : Nat)
    (options : Options) {model : Element} (hscripts : model.ScriptsIn texts) :
    Agree (Session.Alike Q) (evalModelAt loader levels options model)
      (evalModelAt loader levels options model) := by
  induction levels generalizing texts Q options model with
  | zero =>
    unfold evalModelAt
    exact agree_evalModel hQ ⟨options, loader, none⟩ (fun _ hrun => nomatch hrun) hscripts
  | succ levels ih =>
    unfold evalModelAt
    refine agree_evalModel hQ ⟨options, loader, some (evalModelAt loader levels)⟩
      (fun run hrun options model => ?_) hscripts
    cases hrun
    -- a nested model starts with a new runner, and any script may be in it
    exact ih interchangeable_eq options fun source _ => Set.mem_univ source

end Models

end Docweave
