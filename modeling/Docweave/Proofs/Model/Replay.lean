import Docweave.Proofs.Model.Levels
import Docweave.Proofs.Model.Reset
import Docweave.Proofs.Model.Scenes

set_option autoImplicit false

/-! # Models that are run twice

A run leaves compiled scripts behind, and a second run of the same model finds them. `Replays` says
that it finds nothing else: from a session with the same sources, context and world, and with a cache
that holds all that the first run has compiled, an action gives the same result again and compiles
nothing. A cache that holds more is no cache that answers alike, so the relation looks ahead to the
cache that the first run ends with; where the first run fails to compile a script, it has ended, and
its cache is the one that the second run starts with. -/

namespace Docweave

open Eval

/-! ## Caches -/

namespace ContentCache

variable {α : Type}

/-- What the first cache holds, the second one holds under the same digest. -/
def Within (cache more : ContentCache α) : Prop :=
  ∀ key value, cache.get? key = some value → more.get? key = some value

theorem Within.refl (cache : ContentCache α) : cache.Within cache := fun _ _ h => h

theorem Within.trans {a b c : ContentCache α} (h : a.Within b) (h' : b.Within c) : a.Within c :=
  fun key value hget => h' key value (h key value hget)

/-- A value under a new digest takes nothing away. -/
theorem within_insert {cache : ContentCache α} {key : Digest} (h : cache.get? key = none) (value : α) :
    cache.Within (cache.insert key value) := by
  intro other found hget
  rw [get?_insert_of_ne]
  · exact hget
  · rintro rfl
    rw [h] at hget
    cases hget

end ContentCache

namespace ScriptRunner

/-- The second runner has the script in waiting of the first one; its cache and its count of compiled
scripts are the given ones. -/
structure Resumes (cache : ContentCache Script) (compiled : Nat) (r r' : ScriptRunner) : Prop where
  primed : r'.primed = r.primed
  cache : r'.cache = cache
  compilations : r'.compilations = compiled

variable {cache : ContentCache Script} {compiled : Nat} {r r' : ScriptRunner} {source : String}

theorem within_compile (r : ScriptRunner) (source : String) :
    r.cache.Within (r.compile source).2.cache := by
  unfold compile
  simp only
  cases hget : r.cache.get? (contentKey source.toList) with
  | some script => exact .refl _
  | none =>
    cases compileText source with
    | error failure => exact .refl _
    | ok script => exact ContentCache.within_insert hget script

/-- A script that was compiled the first time is found the second time; one that could not be compiled
is not found, if the second runner holds no more than the first one. -/
theorem Resumes.compile (h : Resumes cache compiled r r')
    (hwithin : (r.compile source).2.cache.Within cache)
    (hfailed : ∀ failure, (r.compile source).1 = .error failure → cache = (r.compile source).2.cache) :
    (r'.compile source).1 = (r.compile source).1 ∧
      Resumes cache compiled (r.compile source).2 (r'.compile source).2 := by
  unfold ScriptRunner.compile at hwithin hfailed ⊢
  rw [h.cache]
  simp only at hwithin hfailed ⊢
  cases hget : r.cache.get? (contentKey source.toList) with
  | some script =>
    simp only [hget] at hwithin
    rw [hwithin _ _ hget]
    exact ⟨rfl, h⟩
  | none =>
    simp only [hget] at hwithin hfailed
    cases hscript : compileText source with
    | error failure =>
      simp only [hscript] at hfailed
      obtain rfl : cache = r.cache := hfailed failure rfl
      rw [hget]
      exact ⟨rfl, h⟩
    | ok script =>
      simp only [hscript] at hwithin
      rw [hwithin _ _ (ContentCache.get?_insert_self ..)]
      exact ⟨rfl, h.primed, h.cache, h.compilations⟩

theorem cache_run (r : ScriptRunner) (source : String) (tree : Element) :
    (r.run source tree).2.cache = (r.compile source).2.cache := by
  unfold run
  cases r.compile source with
  | mk result compiled => cases result <;> rfl

theorem Resumes.run {tree : Element} (h : Resumes cache compiled r r')
    (hwithin : (r.run source tree).2.cache.Within cache)
    (hfailed : ∀ failure, (r.run source tree).1 = .error failure →
      cache = (r.run source tree).2.cache) :
    (r'.run source tree).1 = (r.run source tree).1 ∧
      Resumes cache compiled (r.run source tree).2 (r'.run source tree).2 := by
  rw [cache_run] at hwithin hfailed
  have hcompile := h.compile hwithin
  unfold ScriptRunner.run at hfailed ⊢
  cases hc : r.compile source with
  | mk result first =>
    cases hc' : r'.compile source with
    | mk result' second =>
      simp only [hc, hc'] at hcompile hfailed
      cases result with
      | error failure =>
        obtain ⟨rfl, hrest⟩ := hcompile fun _ _ => hfailed failure rfl
        exact ⟨rfl, hrest⟩
      | ok script =>
        obtain ⟨rfl, hrest⟩ := hcompile fun failure hf => nomatch hf
        exact ⟨rfl, hrest.primed, hrest.cache, hrest.compilations⟩

end ScriptRunner

/-! ## Actions that are repeated -/

namespace Eval

variable {α β : Type}

/-- The first action adds to the cache. From a session that differs from the one before in its runner
and in what was told, with a cache that holds all that the first action leaves there, and nothing else
if that fails, the second action gives the same result and leaves cache and count alone. -/
structure Replays (act act' : Eval α) : Prop where
  grows : ∀ s : Session, s.runner.cache.Within (outcome act s).2.runner.cache
  again : ∀ {s t : Session} {cache compiled}, (outcome act s).2.runner.cache.Within cache →
    (∀ failure, (outcome act s).1 = .error failure → cache = (outcome act s).2.runner.cache) →
    s.Alike (ScriptRunner.Resumes cache compiled) t →
    (outcome act s).1 = (outcome act' t).1 ∧
      (outcome act s).2.Alike (ScriptRunner.Resumes cache compiled) (outcome act' t).2

namespace Replays

/-- Actions that agree whatever the runners are do nothing with them. -/
theorem of_agree {act act' : Eval α} (h : ∀ Q, Agree (Session.Alike Q) act act') : Replays act act' where
  grows s := by
    obtain ⟨-, hs⟩ := h (fun r _ => r = s.runner) s s ⟨rfl, rfl, rfl, rfl⟩
    rw [hs.runner]
    exact .refl _
  again _ _ hs := h _ _ _ hs

theorem bind {act act' : Eval α} {next next' : α → Eval β} (hact : Replays act act')
    (hnext : ∀ a, Replays (next a) (next' a)) : Replays (act >>= next) (act' >>= next') where
  grows s := by
    have hgrows := hact.grows s
    rw [outcome_bind]
    cases hs : outcome act s with
    | mk result s' =>
      rw [hs] at hgrows
      cases result with
      | error failure => exact hgrows
      | ok a => exact hgrows.trans ((hnext a).grows s')
  again {s t cache compiled} hwithin hfailed h := by
    have hfirst := @hact.again s t cache compiled
    rw [outcome_bind] at hwithin hfailed ⊢
    rw [outcome_bind]
    cases hs : outcome act s with
    | mk result s' =>
      cases ht : outcome act' t with
      | mk result' t' =>
        rw [hs] at hwithin hfailed
        rw [hs, ht] at hfirst
        cases result with
        | error failure =>
          obtain ⟨rfl, hsession⟩ := hfirst hwithin (fun _ _ => hfailed failure rfl) h
          exact ⟨rfl, hsession⟩
        | ok a =>
          -- the first action has not failed, so the second cache may hold more than it has left
          obtain ⟨rfl, hsession⟩ := hfirst (((hnext a).grows s').trans hwithin)
            (fun failure hf => nomatch hf) h
          exact (hnext a).again hwithin hfailed hsession

theorem look {next next' : Session → Eval α}
    (h : ∀ s s', s.sources = s'.sources → s.context = s'.context → s.world = s'.world →
      Replays (next s) (next' s')) : Replays (get >>= next) (get >>= next') where
  grows s := (h s s rfl rfl rfl).grows s
  again hwithin hfailed hs := (h _ _ hs.sources hs.context hs.world).again hwithin hfailed hs

/-- A bracket is repeated with the action inside it, if its two ends leave the cache alone. -/
theorem within {enter : Session → Session} {leave : Session → Session → Session} {act act' : Eval α}
    (hact : Replays act act') (hbefore : ∀ s, (enter s).runner.cache = s.runner.cache)
    (hafter : ∀ s t, (leave s t).runner.cache = t.runner.cache)
    (henter : ∀ {s t cache compiled}, s.Alike (ScriptRunner.Resumes cache compiled) t →
      (enter s).Alike (ScriptRunner.Resumes cache compiled) (enter t))
    (hleave : ∀ {s s' t t' cache compiled}, s.Alike (ScriptRunner.Resumes cache compiled) s' →
      t.Alike (ScriptRunner.Resumes cache compiled) t' →
      (leave s t).Alike (ScriptRunner.Resumes cache compiled) (leave s' t')) :
    Replays (within enter leave act) (within enter leave act') where
  grows s := by
    rw [outcome_within, hafter, ← hbefore s]
    exact hact.grows (enter s)
  again {s t cache compiled} hwithin hfailed h := by
    rw [outcome_within, hafter] at hwithin
    simp only [outcome_within, hafter] at hfailed
    obtain ⟨hresult, hsession⟩ := hact.again hwithin hfailed (henter h)
    exact ⟨hresult, hleave h hsession⟩

theorem run (source : String) (tree : Element) :
    Replays (onRunner (·.run source tree)) (onRunner (·.run source tree)) where
  grows s := by
    rw [outcome_onRunner, ScriptRunner.cache_run]
    exact s.runner.within_compile source
  again hwithin hfailed h := by
    obtain ⟨hresult, hrunner⟩ := h.runner.run hwithin hfailed
    exact ⟨hresult.symm, h.sources, h.context, h.world, hrunner⟩

theorem runPrimed (tree : Element) : Replays (onRunner (·.runPrimed tree)) (onRunner (·.runPrimed tree)) where
  grows s := by
    rw [outcome_onRunner]
    unfold ScriptRunner.runPrimed
    cases s.runner.primed with
    | none => exact .refl _
    | some source => exact (run source tree).grows s
  again {s t cache compiled} hwithin hfailed h := by
    rw [outcome_onRunner] at hwithin hfailed ⊢
    rw [outcome_onRunner]
    unfold ScriptRunner.runPrimed at hwithin hfailed ⊢
    rw [h.runner.primed]
    cases hp : s.runner.primed with
    | none => exact ⟨rfl, h⟩
    | some source =>
      simp only [hp] at hwithin hfailed
      exact (run source tree).again hwithin hfailed h

end Replays

end Eval

/-! ## Directives -/

theorem observant_replays : Observant fun _ => Replays where
  pure _ := .of_agree fun _ => .pure _
  bind := .bind
  look := .look
  remark _ _ := .of_agree fun _ => agree_tellAll _ _

/-- The evaluation of a model is repeated. Nested models have runners of their own, which are new each
time. -/
theorem parallel_replays {setting : Setting} (hnested : NestedAgree setting) :
    Parallel (fun _ => Replays) (Element.SameIf fun _ => True) setting setting where
  toSequential := observant_replays.toSequential
  kind h := congrArg Element.kind h.1
  children := by
    rintro node _ ⟨rfl, -⟩ -
    exact Element.forall₂_sameIf fun _ _ => trivial
  began _ := .of_agree fun _ => agree_tellAll [_] [_]
  source := by
    rintro node _ ⟨rfl, -⟩ - place
    have hload : ∀ load, Replays (loadSource setting place load) (loadSource setting place load) :=
      fun load => .of_agree fun _ => agree_loadSource setting place load
    exact observant_replays.related_evalSource
      (fun tree => .of_agree fun _ => agree_registerSource setting place tree)
      (fun _ _ _ => hload _) (fun _ _ _ => hload _) fun _ tree => .run node.textOrEmpty tree
  query := by
    rintro node _ body body' ⟨rfl, -⟩ - hbody
    refine observant_replays.related_evalQuery node (hbody.within (fun _ => rfl) (fun _ _ => rfl) ?_ ?_)
    · exact fun h => Session.Likeness.enterQuery h node.queryPath
    · exact fun h => Session.Likeness.leaveQuery h
  action := by
    rintro node _ body body' ⟨rfl, -⟩ - hbody
    refine observant_replays.related_evalAction node node (hbody.within (fun s => ?_) (fun _ _ => rfl) ?_ ?_)
    · unfold Session.enterAction
      simp only
      split <;> rfl
    · exact fun h => h.enterAction fun _ => ⟨rfl, h.runner.cache, h.runner.compilations⟩
    · exact fun _ ht => ht.leaveAction ⟨rfl, ht.runner.cache, ht.runner.compilations⟩
  records := by
    rintro node _ ⟨rfl, -⟩ -
    exact observant_replays.related_recordsFor .runPrimed node
  getContent := by
    rintro node _ ⟨rfl, -⟩ - record
    exact observant_replays.related_evalGetContent node record
  literal h _ := congrArg literalText h.1
  model := by
    rintro node _ ⟨rfl, -⟩ -
    refine .of_agree fun _ => agree_evalNestedModel hnested rfl rfl fun run hrun => ?_
    exact agree_apart Session.Alike.enterModel (hnested run hrun _ node)
  passThrough := by
    rintro node _ body body' ⟨rfl, -⟩ - hbody
    exact observant_replays.related_evalPassThrough setting.options node body body' hbody
  deepened := by
    rintro node _ act act' ⟨rfl, -⟩ hact
    refine @Attentive.related_deepen (fun _ => Replays) node act act' hact ?_
    exact hact.within (fun _ => rfl) (fun _ _ => rfl) (fun h => Session.Likeness.deeper h)
      fun _ ht => Session.Likeness.shallower ht

/-! ## Models -/

theorem replays_evalModelAt (loader : Loader) (levels : Nat) (options : Options) (model : Element) :
    Replays (evalModelAt loader levels options model) (evalModelAt loader levels options model) := by
  by_cases hk : model.kind = .model
  · rw [evalModelAt_eq]
    refine (parallel_replays (nestedAgree_settingAt loader levels options)).related_evalModel hk hk
      (Element.forall₂_sameIf fun _ _ => trivial) fun output => ?_
    exact .of_agree fun _ => agree_writeOutput options model output
  · rw [evalModelAt_of_ne_model loader levels options hk]
    exact .of_agree fun _ => .throw _

/-! ## Models without sources -/

/-- What source directives draw on and add to: the global sources, and what is left of standard
input. -/
def Session.supplies (s : Session) : List Element × FileContent := (s.sources.globals, s.world.input)

/-- Directives that are no sources leave the supplies alone. -/
theorem ancillary_supplies (loader : Loader) :
    Ancillary loader fun _ s s' => s'.supplies = s.supplies where
  refl _ := ⟨fun _ => rfl⟩
  trans _ := ⟨fun _ _ _ h h' => h'.trans h⟩
  told _ _ _ _ := rfl
  ran _ _ _ _ := rfl
  wrote _ _ _ := rfl

section Supplies

variable {setting : Setting}

theorem supplies_opened {node : Element} (hsource : node.kind ≠ .source) (record : Option Element)
    (place : SourcePlace) {s : Session} (hmodel : node.kind = .model →
      (outcome (evalNestedModel setting node) (s.enterNode node)).2.supplies = s.supplies) :
    (s.opened setting record place node).supplies = s.supplies := by
  unfold Session.opened
  cases hk : node.kind with
  | source => exact absurd hk hsource
  | getNode => exact (ancillary_supplies setting.loader).leads_recordsFor place node (s.enterNode node)
  | getContent =>
    exact (ancillary_supplies setting.loader).leads_evalGetContent place node record (s.enterNode node)
  | model => exact hmodel hk
  | query | action | literal | passThrough => rfl

theorem supplies_closed (node : Element) (s s' : Session) :
    (s.closed node s').supplies = s'.supplies := by
  unfold Session.closed
  cases node.kind <;> rfl

variable {model : Element} {course : Options → Element → Session → List Moment}
  (hnested : ∀ node s, (∀ m ∈ nestedCourse setting.options course node s, m.node.element.kind ≠ .source) →
    (outcome (evalNestedModel setting node) s).2.supplies = s.supplies)

include hnested

/-- No moment of the evaluation, nor of the models nested in it, is about a source: then the supplies
stay as they are. -/
theorem Follows.supplies_eq {deep : Bool} {place : SourcePlace} {ascent : List Nat} {s s' : Session}
    {moments : List Moment} (h : Follows setting model deep place ascent s moments s')
    (hnone : ∀ m ∈ moments.flatMap (Moment.unfolded setting.options course),
      m.node.element.kind ≠ .source) : s'.supplies = s.supplies := by
  induction h with
  | nil => rfl
  | @node deep place ascent i node record s s₀ s₂ s' content rest _ hbegins _ _ ihcontent ihrest =>
    rw [List.flatMap_cons, List.flatMap_append, List.flatMap_cons] at hnone
    simp only [List.forall_mem_append] at hnone
    obtain ⟨hhere, hcontent, -, hrest⟩ := hnone
    have hchild : s₀.supplies = s.supplies := by
      rw [← hbegins]
      unfold Session.enterChild
      split <;> rfl
    have hleft : ((s₀.closed node s₂).leaveChild deep node).supplies = s₂.supplies := by
      rw [← supplies_closed node s₀ s₂]
      unfold Session.leaveChild
      split <;> rfl
    have hopened : (s₀.opened setting record place node).supplies = s₀.supplies := by
      refine supplies_opened (hhere _ List.mem_cons_self) record place fun hk => ?_
      refine hnested node (s₀.enterNode node) fun m hm => hhere m (List.mem_cons_of_mem _ ?_)
      exact (if_pos hk).symm ▸ hm
    rw [ihrest hrest, hleft, ihcontent hcontent, hopened, hchild]

theorem supplies_evalModel {s : Session}
    (hnone : ∀ m ∈ (courseModel setting model s).flatMap (Moment.unfolded setting.options course),
      m.node.element.kind ≠ .source) :
    (outcome (evalModel setting model) s).2.supplies = s.supplies := by
  obtain ⟨s', hfollows, hwritten⟩ := @exists_follows_evalModel setting model s
  rw [← hfollows.supplies_eq hnested hnone]
  rcases hwritten with hend | ⟨output, hend⟩
  · rw [hend]
  · rw [hend]
    exact (ancillary_supplies setting.loader).leads_writeOutput .anywhere setting.options model output s'

end Supplies

theorem supplies_evalNestedModel {setting : Setting} {run : Options → Element → Eval String}
    {course : Options → Element → Session → List Moment} (hrun : setting.nested = some run)
    (hmodel : ∀ options model s, (∀ m ∈ course options model s, m.node.element.kind ≠ .source) →
      (outcome (run options model) s).2.supplies = s.supplies)
    (node : Element) (s : Session)
    (hnone : ∀ m ∈ nestedCourse setting.options course node s, m.node.element.kind ≠ .source) :
    (outcome (evalNestedModel setting node) s).2.supplies = s.supplies := by
  unfold nestedCourse at hnone
  cases hm : nestedModel? setting.options s.world.files node with
  | none =>
    obtain ⟨notices, -, htold⟩ := exists_told_of_nestedModel?_eq_none hrun hm
    rw [htold]
    rfl
  | some nested =>
    obtain ⟨options, model⟩ := nested
    rw [hm] at hnone
    obtain ⟨notices, -, htold⟩ := exists_told_evalNestedModel hrun hm
    rw [htold]
    exact hmodel options model s.enterModel hnone

/-- A run that evaluates no source leaves the supplies as they are. -/
theorem supplies_evalModelAt {loader : Loader} {levels : Nat} {options : Options} {model : Element}
    {s : Session} (hnone : ∀ m ∈ courseAt loader levels options model s, m.node.element.kind ≠ .source) :
    (outcome (evalModelAt loader levels options model) s).2.supplies = s.supplies := by
  induction levels generalizing options model s with
  | zero =>
    rw [evalModelAt_eq]
    refine supplies_evalModel (fun node s _ => ?_) hnone
    rw [evalNestedModel_of_none rfl]
    rfl
  | succ levels ih =>
    rw [evalModelAt_eq]
    exact supplies_evalModel (supplies_evalNestedModel rfl fun options model s h => ih h) hnone

/-! ## Runs -/

namespace Interpreter

/-- A model that evaluates no source, and leaves the files as they are, is run twice in a row: the
second run gives the result of the first one, the sources stay as they are, and the runner, which has
kept what it compiled in the first run, compiles nothing in the second one. This is the runner of the
outermost model: nested models have runners of their own, which are new in each run. -/
theorem run_again {interpreter : Interpreter} (h : interpreter.Reachable) {model : Element}
    (hsources : ∀ scene ∈ interpreter.scenes model, scene.moment.node.element.kind ≠ .source)
    (hfiles : (interpreter.run model).2.session.world.files = interpreter.session.world.files) :
    let once := (interpreter.run model).2
    let twice := (once.run model).2
    (once.run model).1 = (interpreter.run model).1 ∧
      once.session.sources = interpreter.session.sources ∧
      twice.session.sources = interpreter.session.sources ∧
      twice.session.runner.cache = once.session.runner.cache ∧
      twice.session.runner.compilations = once.session.runner.compilations := by
  intro once twice
  have hrest : interpreter.session.AtRest := h.atRest
  have honce : once.session.AtRest := atRest_perform hrest (.run model)
  have hsupplies : once.session.supplies = interpreter.session.supplies := by
    refine supplies_evalModelAt fun m hm => ?_
    rw [← map_moment_scenesAt _ _ []] at hm
    obtain ⟨scene, hmem, rfl⟩ := List.mem_map.1 hm
    exact hsources scene hmem
  obtain ⟨hglobals, hinput⟩ := Prod.mk.inj hsupplies
  -- the second run starts as the first one did, but for the cache
  have hlocals := hrest.locals.trans honce.locals.symm
  have hstart : interpreter.session.Alike (ScriptRunner.Resumes once.session.runner.cache
      once.session.runner.compilations) once.session := by
    refine ⟨?_, hrest.context.trans honce.context.symm, ?_, ?_⟩
    · exact congrArg₂ Sources.mk hglobals.symm hlocals
    · exact congrArg₂ Surroundings.mk hfiles.symm hinput.symm
    · exact ⟨honce.primed.trans hrest.primed.symm, rfl, rfl⟩
  obtain ⟨hresult, hend⟩ := (replays_evalModelAt interpreter.loader interpreter.options.maxNesting
    interpreter.options model).again (.refl _) (fun _ _ => rfl) hstart
  refine ⟨hresult.symm, hstart.sources.symm, ?_, hend.runner.cache, hend.runner.compilations⟩
  exact hend.sources.symm.trans hstart.sources.symm

/-- An interpreter with two records. -/
def supplied : Interpreter :=
  (create .standard .aggregator .empty).withSources
    [.ofChildren "records" [.ofText "item" "a", .ofText "item" "b"]]

/-- An action that runs a script on the records. -/
def scripted (source : String) : Element :=
  { directive .action [⟨AttrName.type, "custom"⟩]
      [directive .getNode [⟨AttrName.path, "./item"⟩] []] with text := some source }

/-- A model that puts the records in reverse order, and nests one that takes the first of them. -/
def reversingModel : Element :=
  directive .model [] [scripted "reverse", directive .model [] [scripted "limit 1"]]

/-- Whether there is nothing on the disk but an empty directory. -/
def isBare : Disk → Bool
  | ⟨.directory [(name, .directory [])], [part]⟩ => name == "current" && part == "current"
  | _ => false

theorem eq_of_isBare {files : Disk} (h : isBare files) : files = .around (.directory []) := by
  unfold isBare at h
  split at h
  · simp only [Bool.and_eq_true, beq_iff_eq] at h
    rw [h.1, h.2, Disk.around]
  · cases h

/-- The script of the outer model is compiled in the first run, and not again in the second one. -/
theorem run_again_reversing :
    (∀ scene ∈ supplied.scenes reversingModel, scene.moment.node.element.kind ≠ .source) ∧
      (supplied.run reversingModel).2.session.world.files = supplied.session.world.files ∧
      (supplied.run reversingModel).2.session.runner.compilations = 1 ∧
      ((supplied.run reversingModel).2.run reversingModel).1 = (supplied.run reversingModel).1 ∧
      ((supplied.run reversingModel).2.run reversingModel).2.session.runner.compilations = 1 := by
  have hsources : ∀ scene ∈ supplied.scenes reversingModel,
      scene.moment.node.element.kind ≠ .source := by decide +kernel
  have hfiles : (supplied.run reversingModel).2.session.world.files = supplied.session.world.files :=
    eq_of_isBare (by decide +kernel)
  have hcompiled : (supplied.run reversingModel).2.session.runner.compilations = 1 := by
    decide +kernel
  obtain ⟨hresult, -, -, -, hcount⟩ := run_again ⟨_, _, _, [.withSources _], rfl⟩ hsources hfiles
  exact ⟨hsources, hfiles, hcompiled, hresult, hcount.trans hcompiled⟩

end Interpreter

end Docweave
