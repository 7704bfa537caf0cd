import Docweave.Proofs.Model.Levels
import Docweave.Proofs.Model.Reset
import Docweave.Proofs.Model.Transform
import Docweave.Proofs.Script.SortScript

set_option autoImplicit false

/-! # Sorts written as scripts

An action that sorts by a key and one that holds the script for that key have the same effect on the
records inside them. `Element.SortScripted` relates a model to those with some of its sorts written as
scripts, wherever they stand, and `run_sortScripted` says that no run tells such models apart. The two
evaluations go side by side in sessions that hold transforms of which one is written as the other. -/

namespace Docweave

open Eval

/-! ## Transforms -/

/-- The second transform is the first one, or the script that does the same. -/
inductive Transform.WrittenAs : Transform → Transform → Prop where
  | same (t : Transform) : WrittenAs t t
  | sort {key : String} (h : IsSortKey key) (descending : Bool) :
    WrittenAs (.sortBy (some key) descending) (.script (sortScript key descending))

/-- The script of the transform, if it has one, is one of the texts. -/
def Transform.ScriptIn (texts : Set String) (t : Transform) : Prop :=
  ∀ source, t = .script source → source ∈ texts

/-- The kind of action that sorts. -/
def ActionKind.sorting (descending : Bool) : ActionKind := if descending then .reverseSort else .sort

theorem Transform.ofAction_sorting (key script : Option String) (descending : Bool) :
    ofAction key script (some (.sorting descending)) = sortBy key descending := by
  cases descending <;> rfl

/-- The script of an action is the one in it. -/
theorem Element.ScriptsIn.transform {texts : Set String} {node : Element} (h : node.ScriptsIn texts)
    (hk : node.kind = .action) : node.transform.ScriptIn texts := by
  intro source heq
  unfold Element.transform at heq
  cases haction : node.actionKind with
  | none =>
    rw [haction] at heq
    cases heq
  | some action =>
    rw [haction] at heq
    cases action with
    | sort | reverseSort => cases heq
    | custom =>
      cases heq
      exact h.mem (script?_of_action hk haction)

/-! ## Sessions -/

/-- The sessions differ in what was told, in the scripts compiled so far, which are all of the texts, and
in that a sort that one holds ready is a script in the other. -/
structure Session.SortsAlike (texts : Set String) (s s' : Session) : Prop where
  sources : s.sources = s'.sources
  queryPath : s.context.queryPath = s'.context.queryPath
  depth : s.context.depth = s'.context.depth
  world : s.world = s'.world
  transform : s.transform.WrittenAs s'.transform
  mem : s'.transform.ScriptIn texts
  holds : s.runner.Holds texts
  holds' : s'.runner.Holds texts

namespace Session.SortsAlike

variable {texts : Set String} {s s' t t' : Session}

instance likeness : Likeness (Session.SortsAlike texts) where
  sources h := h.sources
  queryPath h := h.queryPath
  depth h := h.depth
  world h := h.world
  withNotices _ _ h := { h with }
  withSources _ h := { h with sources := rfl }
  withWorld _ h := { h with world := rfl }
  withQueryPath _ h := { h with queryPath := rfl }
  withDepth _ h := { h with depth := rfl }

theorem enterModel (hsources : s.sources = s'.sources) (hworld : s.world = s'.world) :
    s.enterModel.SortsAlike texts s'.enterModel where
  sources := hsources
  queryPath := rfl
  depth := rfl
  world := hworld
  transform := .same .keep
  mem _ heq := nomatch heq
  holds := ScriptRunner.holds_fresh texts
  holds' := ScriptRunner.holds_fresh texts

variable (h : s.SortsAlike texts s')

include h

/-- Runners that keep their scripts in waiting make no difference. -/
theorem withRunner {runner runner' : ScriptRunner} (hprimed : runner.primed = s.runner.primed)
    (hprimed' : runner'.primed = s'.runner.primed) (hholds : runner.Holds texts)
    (hholds' : runner'.Holds texts) :
    Session.SortsAlike texts { s with runner := runner } { s' with runner := runner' } := by
  have htransform : Session.transform { s with runner := runner } = s.transform := by
    unfold Session.transform
    rw [hprimed]
  have htransform' : Session.transform { s' with runner := runner' } = s'.transform := by
    unfold Session.transform
    rw [hprimed']
  exact {
    sources := h.sources
    queryPath := h.queryPath
    depth := h.depth
    world := h.world
    transform := by rw [htransform, htransform']; exact h.transform
    mem := by rw [htransform']; exact h.mem
    holds := hholds
    holds' := hholds' }

theorem enterAction {node node' : Element} (hwritten : node.transform.WrittenAs node'.transform)
    (hmem : node'.transform.ScriptIn texts) :
    (s.enterAction node.actionKind node).SortsAlike texts (s'.enterAction node'.actionKind node') where
  sources := h.sources
  queryPath := h.queryPath
  depth := h.depth
  world := h.world
  transform := by
    rw [transform_enterAction, transform_enterAction]
    exact hwritten
  mem := by
    rw [transform_enterAction]
    exact hmem
  holds := by
    unfold Session.enterAction
    simp only
    split
    · exact h.holds
    · exact h.holds
  holds' := by
    unfold Session.enterAction
    simp only
    split
    · exact h.holds'
    · exact h.holds'

theorem leaveAction : s.leaveAction.SortsAlike texts s'.leaveAction where
  sources := h.sources
  queryPath := h.queryPath
  depth := h.depth
  world := h.world
  transform := .same .keep
  mem _ heq := nomatch heq
  holds := h.holds
  holds' := h.holds'

end Session.SortsAlike

/-! ## Records -/

section Records

variable {texts : Set String} (hdigests : CollisionFree texts)

include hdigests

theorem agree_run_sortsAlike {source : String} (hmem : source ∈ texts) (tree : Element) :
    Agree (Session.SortsAlike texts) (onRunner (·.run source tree)) (onRunner (·.run source tree)) := by
  refine .onRunner fun s s' h => ⟨?_, ?_⟩
  · rw [ScriptRunner.run_of_holds h.holds hdigests hmem tree,
      ScriptRunner.run_of_holds h.holds' hdigests hmem tree]
  · exact h.withRunner (s.runner.primed_run source tree) (s'.runner.primed_run source tree)
      (h.holds.run hmem tree) (h.holds'.run hmem tree)

/-- Sorting the records and running the script that does so give the same records. -/
theorem agree_sort_script {key : String} (h : IsSortKey key) (descending : Bool)
    (hmem : sortScript key descending ∈ texts) (records : List Element) :
    Agree (Session.SortsAlike texts) ((Transform.sortBy (some key) descending).apply records)
      ((Transform.script (sortScript key descending)).apply records) := by
  intro s s' hs
  obtain ⟨sorted, hsorted⟩ := exists_sortRecords_eq_ok h.accepted descending records
  have hsort : outcome ((Transform.sortBy (some key) descending).apply records) s =
      (.ok ("", sorted), s) := by
    simp only [Transform.apply, sortByKey, hsorted]
    rfl
  have hrun := h.run_sortScript descending hs.holds' hdigests hmem
    (.ofChildren recordRoot records) hsorted
  have hscript : outcome ((Transform.script (sortScript key descending)).apply records) s' =
      (.ok ("", sorted),
        { s'.told (s'.runner.compileNotices (sortScript key descending)) with
          runner := (s'.runner.run (sortScript key descending)
            (.ofChildren recordRoot records)).2 }) := by
    simp only [Transform.apply, runScript, outcome_bind, outcome_get, outcome_tellAll, outcome_onRunner,
      Session.told, hrun]
    rfl
  rw [hsort, hscript]
  refine ⟨rfl, ?_⟩
  have htold := Session.Likeness.withNotices s.notices
    ((s'.runner.compileNotices (sortScript key descending)).reverse ++ s'.notices) hs
  exact htold.withRunner rfl (s'.runner.primed_run _ _) hs.holds (hs.holds'.run hmem _)

theorem agree_apply {t t' : Transform} (h : t.WrittenAs t') (hmem : t'.ScriptIn texts)
    (records : List Element) :
    Agree (Session.SortsAlike texts) (t.apply records) (t'.apply records) := by
  cases h with
  | sort hkey descending => exact agree_sort_script hdigests hkey descending (hmem _ rfl) records
  | same =>
    cases t with
    | keep => exact .pure _
    | sortBy key descending =>
      exact (attentive_agree.related_sortByKey key descending records).bind fun _ => .pure _
    | script source =>
      refine Agree.bind (attentive_agree.related_runScript ?_) fun _ => .pure _
      exact agree_run_sortsAlike hdigests (hmem _ rfl) _

/-- A record directive finds the same records in both sessions. -/
theorem agree_recordsFor_sortsAlike (node : Element) :
    Agree (Session.SortsAlike texts) (recordsFor node) (recordsFor node) := by
  intro s s' h
  rw [outcome_recordsFor, outcome_recordsFor]
  exact attentive_agree.related_recordsWith (agree_apply hdigests h.transform h.mem) node s s' h

end Records

/-! ## Models -/

namespace Element

/-- The second model is the first one with some of its sorts written as scripts. -/
inductive SortScripted : Element → Element → Prop where
  | same (node : Element) : SortScripted node node
  | inside {node : Element} {children : List Element}
      (hk : node.kind.hasContent ∨ node.kind = .model)
      (hchildren : List.Forall₂ SortScripted node.children children) :
    SortScripted node (node.withChildren children)
  | written {node node' : Element} {key : String} {descending : Bool} (hkey : IsSortKey key)
      (hk : node.kind = .action) (haction : node.actionKind = some (.sorting descending))
      (hattr : node.attr? AttrName.key = some key) (hk' : node'.kind = .action)
      (haction' : node'.actionKind = some .custom)
      (htext : node'.textOrEmpty = sortScript key descending)
      (hchildren : List.Forall₂ SortScripted node.children node'.children) :
    SortScripted node node'

namespace SortScripted

variable {node node' : Element} (h : node.SortScripted node')

include h

theorem kind_eq : node.kind = node'.kind := by
  cases h with
  | same => rfl
  | inside => rfl
  | written _ hk _ _ hk' => rw [hk, hk']

theorem forall₂_children : List.Forall₂ SortScripted node.children node'.children := by
  cases h with
  | same => exact List.forall₂_same.2 fun child _ => .same child
  | inside _ hchildren => exact hchildren
  | written _ _ _ _ _ _ _ hchildren => exact hchildren

theorem isLeaf_eq : node.isLeaf = node'.isLeaf := isLeaf_congr h.forall₂_children.length_eq

/-- Only the children of what is no action differ. -/
theorem eq_withChildren (hk : node.kind ≠ .action) : node' = node.withChildren node'.children := by
  cases h with
  | same => exact (withChildren_children node).symm
  | inside => rfl
  | written _ hk' => exact absurd hk' hk

theorem eq_of_not_hasContent (hcontent : node.kind.hasContent = false) (hk : node.kind ≠ .model) :
    node' = node := by
  cases h with
  | same => rfl
  | inside hk' => simp [hcontent, hk] at hk'
  | written _ hk' =>
    rw [hk'] at hcontent
    cases hcontent

theorem transform : node.transform.WrittenAs node'.transform := by
  cases h with
  | same => exact .same _
  | inside => exact .same _
  | written hkey _ haction hattr _ haction' htext =>
    unfold Element.transform
    rw [haction, haction', Transform.ofAction_sorting, hattr, htext]
    exact .sort hkey _

end SortScripted

end Element

section Models

variable {texts : Set String}

/-- The nodes are related, and all scripts are among the texts. Those of the first one are in the second
one as well. -/
structure Element.SortScriptedIn (texts : Set String) (node node' : Element) : Prop where
  written : node.SortScripted node'
  mem : node'.ScriptsIn texts

theorem Element.SortScriptedIn.children {node node' : Element} (h : node.SortScriptedIn texts node') :
    List.Forall₂ (Element.SortScriptedIn texts) node.children node'.children := by
  have hall : ∀ {nodes nodes' : List Element}, List.Forall₂ SortScripted nodes nodes' →
      (∀ child ∈ nodes', child.ScriptsIn texts) →
      List.Forall₂ (SortScriptedIn texts) nodes nodes' := by
    intro nodes nodes' hnodes hmem
    induction hnodes with
    | nil => exact .nil
    | cons hchild _ ih =>
      rw [List.forall_mem_cons] at hmem
      exact .cons ⟨hchild, hmem.1⟩ (ih hmem.2)
  exact hall h.written.forall₂_children fun _ => h.mem.of_mem_children

theorem agree_evalAction_sortScripted {node node' : Element} (h : node.SortScriptedIn texts node')
    (hk : node.kind = .action) {body body' : Eval String}
    (hbody : Agree (Session.SortsAlike texts) body body') :
    Agree (Session.SortsAlike texts) (evalAction node body) (evalAction node' body') := by
  refine attentive_agree.related_evalAction node node' (.within (fun _ _ hs => ?_) hbody
    fun _ _ _ _ _ ht => ht.leaveAction)
  exact hs.enterAction h.written.transform (h.mem.transform (h.written.kind_eq ▸ hk))

variable (hdigests : CollisionFree texts)

include hdigests

/-- The two models are evaluated side by side, if those are that are nested in them. -/
theorem parallel_sortScripted {setting : Setting} (hnested : NestedAgree setting)
    (hinline : ∀ run, setting.nested = some run → ∀ node node', node.kind = .model →
      Element.SortScriptedIn texts node node' →
      Agree (Session.SortsAlike texts) (run setting.options node) (run setting.options node')) :
    Parallel (fun _ => Agree (Session.SortsAlike texts)) (Element.SortScriptedIn texts)
      setting setting where
  toSequential := attentive_agree.toSequential
  kind h := h.written.kind_eq
  children h _ := h.children
  began _ := agree_tellAll [_] [_]
  source h hk place := by
    obtain rfl := h.written.eq_of_not_hasContent (by rw [hk]; rfl) (by rw [hk]; decide)
    exact agree_evalSource (fun _ => agree_run_sortsAlike hdigests) setting place hk h.mem
  query {node node' body body'} h hk hbody := by
    rw [h.written.eq_withChildren (by rw [hk]; decide)]
    exact agree_evalQuery node hbody
  action h hk hbody := agree_evalAction_sortScripted h hk hbody
  records {node node'} h hk := by
    rw [h.written.eq_withChildren (by rw [hk]; decide)]
    exact agree_recordsFor_sortsAlike hdigests node
  getContent h hk record := by
    obtain rfl := h.written.eq_of_not_hasContent (by rw [hk]; rfl) (by rw [hk]; decide)
    exact attentive_agree.related_evalGetContent _ record
  literal h hk := by
    rw [h.written.eq_of_not_hasContent (by rw [hk]; rfl) (by rw [hk]; decide)]
  model {node node'} h hk := by
    have hpath : node.attr? AttrName.path = node'.attr? AttrName.path := by
      rw [h.written.eq_withChildren (by rw [hk]; decide)]
      rfl
    refine agree_evalNestedModel hnested hpath h.written.isLeaf_eq fun run hrun => ?_
    exact agree_apart Session.SortsAlike.enterModel (hinline run hrun node node' hk h)
  passThrough {node node' body body'} h hk hbody := by
    have heq : evalPassThrough setting.options node' body' =
        evalPassThrough setting.options node body' := by
      have hleaf := h.written.isLeaf_eq
      rw [h.written.eq_withChildren (by rw [hk]; decide)] at hleaf ⊢
      unfold evalPassThrough
      rw [hleaf]
      rfl
    rw [heq]
    exact attentive_agree.related_evalPassThrough setting.options node body body' hbody
  deepened {node node' act act'} h hact := by
    have heq : deepen node' act' = deepen node act' := by
      unfold deepen
      rw [h.written.kind_eq]
    rw [heq]
    exact agree_deepen node hact

theorem agree_evalModel_sortScripted {setting : Setting} (hnested : NestedAgree setting)
    (hinline : ∀ run, setting.nested = some run → ∀ node node', node.kind = .model →
      Element.SortScriptedIn texts node node' →
      Agree (Session.SortsAlike texts) (run setting.options node) (run setting.options node'))
    {model model' : Element} (hk : model.kind = .model) (h : model.SortScriptedIn texts model') :
    Agree (Session.SortsAlike texts) (evalModel setting model) (evalModel setting model') := by
  refine (parallel_sortScripted hdigests hnested hinline).related_evalModel hk (h.written.kind_eq ▸ hk)
    h.children fun output => ?_
  rw [h.written.eq_withChildren (by rw [hk]; decide)]
  exact agree_writeOutput setting.options model output

/-- The models in files are the same for both, and those nested in them directly are related. -/
theorem agree_evalModelAt_sortScripted (loader : Loader) (levels : Nat) (options : Options)
    {model model' : Element} (hk : model.kind = .model) (h : model.SortScriptedIn texts model') :
    Agree (Session.SortsAlike texts) (evalModelAt loader levels options model)
      (evalModelAt loader levels options model') := by
  induction levels generalizing options model model' with
  | zero =>
    rw [evalModelAt_eq, evalModelAt_eq]
    exact agree_evalModel_sortScripted hdigests (nestedAgree_settingAt loader 0 options)
      (fun _ hrun => nomatch hrun) hk h
  | succ levels ih =>
    rw [evalModelAt_eq, evalModelAt_eq]
    refine agree_evalModel_sortScripted hdigests (nestedAgree_settingAt loader (levels + 1) options)
      (fun run hrun node node' hk h => ?_) hk h
    cases hrun
    exact ih options hk h

end Models

/-! ## Runs -/

namespace Interpreter

/-- A run cannot tell a sort from the script that sorts: whatever the interpreter did before, two models
that differ in such actions only, anywhere in them, have the same result, the same text or the same
failure, and leave the same sources and the same world. It is assumed that the scripts in the models
that the interpreter was ever given, and in the one with the scripts that sort, can be told apart by
their digests. -/
theorem run_sortScripted (options : Options) (loader : Loader) (world : Surroundings) (calls : List Call)
    {model model' : Element} (hk : model.kind = .model) (h : model.SortScripted model')
    (hdigests : CollisionFree (scriptsRun (calls ++ [.run model']))) :
    let used := (create options loader world).performAll calls
    visible (used.run model) = visible (used.run model') := by
  intro used
  have hrest : used.session.AtRest := atRest_performAll (atRest_create options loader world) calls
  have hholds : used.session.runner.Holds (scriptsRun (calls ++ [.run model'])) :=
    holds_performAll hdigests (atRest_create options loader world) (ScriptRunner.holds_fresh _)
      (scriptsRun_subset_append calls _)
  have hmodels : model.SortScriptedIn (scriptsRun (calls ++ [.run model'])) model' :=
    ⟨h, fun source hmem => ⟨model', List.mem_append_right _ (List.mem_singleton_self _), hmem⟩⟩
  -- nothing is sorted before the run
  have hkeep : used.session.transform = .keep := by
    unfold Session.transform
    rw [hrest.context]
    rfl
  have hsession : used.session.SortsAlike (scriptsRun (calls ++ [.run model'])) used.session :=
    { sources := rfl
      queryPath := rfl
      depth := rfl
      world := rfl
      transform := .same _
      mem := fun source heq => by rw [hkeep] at heq; cases heq
      holds := hholds
      holds' := hholds }
  obtain ⟨hresult, hleft⟩ := agree_evalModelAt_sortScripted hdigests used.loader
    used.options.maxNesting used.options hk hmodels used.session used.session hsession
  unfold visible run
  exact Prod.ext hresult (Prod.ext hleft.sources hleft.world)

/-- An action that sorts records by their `k` through a script around some directives. -/
def sortScriptAction (children : List Element) : Element :=
  { directive .action [⟨AttrName.type, "custom"⟩] children with text := some (sortScript "k" false) }

theorem isSortKey_k : IsSortKey "k" where
  nonempty := by decide
  unbroken c hc := by
    rw [List.mem_singleton.1 hc]
    rfl
  unquoted := by decide
  accepted := by
    have hread : (ElementPath.descendant "k").toOption.isSome := by decide +kernel
    cases hpath : ElementPath.descendant "k" with
    | ok path => exact ⟨path, rfl⟩
    | error error =>
      rw [hpath] at hread
      cases hread

/-- Two records, the second of which comes first when they are sorted by their `k`. -/
def twoRecords : Element :=
  .ofChildren "records"
    [.ofChildren "e" [.ofText "k" "b"], .ofChildren "e" [.ofText "k" "a"]]

/-- A model with a record directive inside an action of a given kind. -/
def sortedModel (action : List Element → Element) : Element :=
  directive .model [] [action [recordDirective]]

theorem run_sortScripted_twoRecords :
    CollisionFree (scriptsRun ([.addSource twoRecords] ++ [.run (sortedModel sortScriptAction)])) ∧
      visible (((create .standard .aggregator .empty).performAll [.addSource twoRecords]).run
          (sortedModel sortAction)) =
        visible (((create .standard .aggregator .empty).performAll [.addSource twoRecords]).run
          (sortedModel sortScriptAction)) := by
  have hkind : (sortAction [recordDirective]).actionKind = some (.sorting false) := rfl
  have haction : (sortAction [recordDirective]).SortScripted (sortScriptAction [recordDirective]) :=
    .written isSortKey_k rfl hkind rfl rfl rfl rfl (.cons (.same _) .nil)
  have hmodel : (sortedModel sortAction).SortScripted (sortedModel sortScriptAction) :=
    .inside (.inr rfl) (.cons haction .nil)
  have honly : ∀ source ∈
      scriptsRun ([.addSource twoRecords] ++ [.run (sortedModel sortScriptAction)]),
      source = sortScript "k" false := by
    rintro source ⟨model, hmem, hsource⟩
    simp only [List.singleton_append, List.mem_cons, Call.run.injEq, reduceCtorEq, false_or,
      List.not_mem_nil, or_false] at hmem
    subst hmem
    exact List.mem_singleton.1 hsource
  have hdigests :
      CollisionFree (scriptsRun ([.addSource twoRecords] ++ [.run (sortedModel sortScriptAction)])) := by
    intro a ha b hb _
    rw [honly a ha, honly b hb]
  exact ⟨hdigests, run_sortScripted .standard .aggregator .empty [.addSource twoRecords] rfl hmodel
    hdigests⟩

end Interpreter

end Docweave
