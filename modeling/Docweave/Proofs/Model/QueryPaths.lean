import Docweave.Proofs.Model.Ancestors
import Docweave.Proofs.Model.Levels
import Docweave.Proofs.Model.Reset
import Docweave.Proofs.Path.FinalSlash

set_option autoImplicit false

/-! # The path of a query, written out

A record directive without a path has that of the query around it. It could as well carry a path itself:
`Element.Carrying` relates a model to those in which some such directives do, and `run_carrying` says
that a run does not tell them apart. The path to carry is that of the query as it is, or without a slash
at its end, which a query takes away. The two only differ where just the second one is a path, and there
a directive that carries the first one finds nothing. -/

namespace Docweave

open Eval

/-! ## Paths that lead to the same records -/

namespace ElementPath

/-- The text writes a path. -/
def IsPath (path : String) : Prop := ∃ parsed, parse path = .ok parsed

/-- The elements that a text finds in some trees, if it writes a path. -/
def selected (path : String) (trees : List Element) : List Element :=
  (steps? path).elim [] fun steps => trees.flatMap (select ⟨path, steps⟩)

theorem steps?_eq_none_iff {path : String} : steps? path = none ↔ ¬ IsPath path := by
  unfold steps? IsPath
  cases parse path with
  | ok parsed => simp [Except.toOption]
  | error error => simp [Except.toOption]

theorem selected_congr {path path' : String} (h : steps? path = steps? path') :
    selected path = selected path' := by
  funext trees
  unfold selected
  rw [h]
  rfl

/-- Inside a query with the path `p`, a record directive that carries the path stands for one without a
path. -/
inductive StandsFor (p : String) : String → Prop where
  | itself (h : IsPath (withoutSlash p) → IsPath p) : StandsFor p p
  | stripped : StandsFor p (withoutSlash p)

theorem StandsFor.steps?_eq {p path : String} (h : StandsFor p path) :
    steps? path = steps? (withoutSlash p) := by
  cases h with
  | stripped => rfl
  | itself h =>
    cases hsteps : steps? p with
    | some steps => exact (steps?_withoutSlash hsteps).symm
    | none =>
      have hnone : ¬ IsPath (withoutSlash p) := fun hpath => steps?_eq_none_iff.1 hsteps (h hpath)
      exact (steps?_eq_none_iff.2 hnone).symm

end ElementPath

/-! ## Models with paths written out -/

namespace Element

/-- The path that the children of a node see around them, as it is written, if the node itself sees the
path `p`. -/
def pathInside (p : String) (node : Element) : String :=
  match node.kind with
  | .query => (node.attr? AttrName.path).getD ""
  | .model => ""
  | _ => p

mutual

/-- The second model is the first one, with the path of the query around them written on some of the
record directives that have none. `p` is the path of the query around the node. -/
inductive Carrying : String → Element → Element → Prop where
  | same (p : String) (node : Element) : Carrying p node node
  | inside {p : String} {node : Element} {children : List Element}
      (hk : node.kind.hasContent ∨ node.kind = .model)
      (hchildren : CarryingAll (node.pathInside p) node.children children) :
    Carrying p node (node.withChildren children)
  | carries {p path : String} {node : Element} {children : List Element} (hk : node.kind = .getNode)
      (hnone : node.attr? AttrName.path = none) (hpath : ElementPath.StandsFor p path)
      (hchildren : CarryingAll p node.children children) :
    Carrying p node ((node.setAttr AttrName.path path).withChildren children)

/-- So are some nodes beside each other. -/
inductive CarryingAll : String → List Element → List Element → Prop where
  | nil (p : String) : CarryingAll p [] []
  | cons {p : String} {node node' : Element} {rest rest' : List Element} (h : Carrying p node node')
      (hrest : CarryingAll p rest rest') : CarryingAll p (node :: rest) (node' :: rest')

end

theorem CarryingAll.forall₂ {p : String} {nodes nodes' : List Element} :
    CarryingAll p nodes nodes' → List.Forall₂ (Carrying p) nodes nodes'
  | .nil _ => .nil
  | .cons h hrest => .cons h hrest.forall₂

theorem attr?_setAttr (node : Element) (name value : String) :
    (node.setAttr name value).attr? name = some value := by
  unfold setAttr attr?
  simp only
  induction node.attributes with
  | nil => simp [setAttribute]
  | cons a rest ih =>
    rw [setAttribute]
    split
    · simp
    · next ha => rwa [List.find?_cons_of_neg (by simpa using ha)]

theorem pathInside_of_model {p : String} {node : Element} (hk : node.kind = .model) :
    node.pathInside p = "" := by
  unfold pathInside
  rw [hk]

namespace Carrying

variable {p : String} {node node' : Element} (h : Carrying p node node')

include h

theorem kind_eq : node.kind = node'.kind := by
  cases h with
  | same => rfl
  | inside => rfl
  | carries => rfl

theorem forall₂_children : List.Forall₂ (Carrying (node.pathInside p)) node.children node'.children := by
  cases h with
  | same => exact List.forall₂_same.2 fun child _ => .same _ child
  | inside _ hchildren => exact hchildren.forall₂
  | carries hk _ _ hchildren =>
    have hp : node.pathInside p = p := by
      unfold pathInside
      rw [hk]
    rw [hp]
    exact hchildren.forall₂

theorem isLeaf_eq : node.isLeaf = node'.isLeaf := isLeaf_congr h.forall₂_children.length_eq

/-- Only record directives get a path. -/
theorem eq_withChildren (hk : node.kind ≠ .getNode) : node' = node.withChildren node'.children := by
  cases h with
  | same => exact (withChildren_children node).symm
  | inside => rfl
  | carries hk' => exact absurd hk' hk

theorem eq_of_not_hasContent (hcontent : node.kind.hasContent = false) (hk : node.kind ≠ .model) :
    node' = node := by
  cases h with
  | same => rfl
  | inside hk' => simp [hcontent, hk] at hk'
  | carries hk' =>
    rw [hk'] at hcontent
    cases hcontent

end Carrying

end Element

/-! ## Sessions inside a query -/

/-- The sessions are alike, and stand inside a query whose path is written `p`. -/
structure Session.AlikeIn (p : String) (s s' : Session) : Prop where
  alike : s.Alike Eq s'
  queryPath : s.context.queryPath = withoutSlash p

section Sessions

variable {p : String}

/-- What agrees, and leaves the path of the query alone, does so inside of any query. -/
theorem agree_alikeIn {α : Type} {act act' : Eval α} (h : Agree (Session.Alike Eq) act act')
    (hkeeps : Leads KeepsPlace act) : Agree (Session.AlikeIn p) act act' := by
  intro s s' hs
  obtain ⟨hresult, hsession⟩ := h s s' hs.alike
  exact ⟨hresult, hsession, (hkeeps s).queryPath.trans hs.queryPath⟩

theorem agree_tell_alikeIn (notice notice' : Notice) :
    Agree (Session.AlikeIn p) (tell notice) (tell notice') :=
  .modify fun _ _ h => ⟨Session.Likeness.withNotices _ _ h.alike, h.queryPath⟩

theorem observant_alikeIn : Observant fun _ => Agree (Session.AlikeIn p) where
  pure := .pure
  bind := .bind
  look h := .get_bind fun s s' hs => h s s' hs.alike.sources hs.alike.context hs.alike.world
  remark _ _ := .modify fun _ _ h => ⟨Session.Likeness.withNotices _ _ h.alike, h.queryPath⟩

theorem agree_runPrimed_alikeIn (tree : Element) :
    Agree (Session.AlikeIn p) (onRunner (·.runPrimed tree)) (onRunner (·.runPrimed tree)) := by
  refine .onRunner fun s s' h => ?_
  rw [h.alike.runner]
  exact ⟨rfl, ⟨h.alike.sources, h.alike.context, h.alike.world, rfl⟩, h.queryPath⟩

end Sessions

/-! ## Records -/

/-- The records at a path, changed in a given way. -/
def recordsAt (change : List Element → Eval (String × List Element)) (path : String) :
    Eval (Option (String × List Element)) :=
  if path.isEmpty then do
    tell .getNodeWithoutPath
    return none
  else match ElementPath.parse path with
    | .error error => do
      tell (.getNodeBadPath error)
      return none
    | .ok compiled => do
      let found := (← get).sources.visible.flatMap compiled.select
      tell (.recordsFound path found.length)
      return some (← change found)

theorem recordsWith_eq (change : List Element → Eval (String × List Element)) (node : Element) :
    recordsWith change node = get >>= fun s =>
      recordsAt change ((node.attr? AttrName.path).getD s.context.queryPath) := rfl

section Records

variable {change : List Element → Eval (String × List Element)} {path path' p : String}

theorem recordsAt_of_none (change : List Element → Eval (String × List Element))
    (h : ElementPath.steps? path = none) :
    ∃ notice, recordsAt change path = tell notice >>= fun _ => pure none := by
  unfold recordsAt
  by_cases hp : path.isEmpty
  · rw [if_pos hp]
    exact ⟨_, rfl⟩
  · rw [if_neg hp]
    cases hparse : ElementPath.parse path with
    | error error => exact ⟨_, rfl⟩
    | ok parsed => exact absurd ⟨parsed, hparse⟩ (ElementPath.steps?_eq_none_iff.1 h)

theorem recordsAt_of_some {steps : List Step} (h : ElementPath.steps? path = some steps) :
    recordsAt change path = get >>= fun s =>
      Eval.tell (.recordsFound path (ElementPath.selected path s.sources.visible).length) >>= fun _ =>
        change (ElementPath.selected path s.sources.visible) >>= fun found => pure (some found) := by
  have hparse := ElementPath.steps?_eq_some_iff.1 h
  have hsome : ¬ path.isEmpty := by
    intro hempty
    rw [String.isEmpty_iff.1 hempty] at hparse
    cases hparse
  unfold recordsAt ElementPath.selected
  rw [if_neg hsome, hparse, h]
  rfl

/-- Texts that write the same steps find the same records. -/
theorem agree_recordsAt (hchange : ∀ records, Agree (Session.AlikeIn p) (change records) (change records))
    (h : ElementPath.steps? path = ElementPath.steps? path') :
    Agree (Session.AlikeIn p) (recordsAt change path) (recordsAt change path') := by
  cases hsteps : ElementPath.steps? path with
  | none =>
    obtain ⟨notice, hnone⟩ := recordsAt_of_none change hsteps
    obtain ⟨notice', hnone'⟩ := recordsAt_of_none change (h ▸ hsteps)
    rw [hnone, hnone']
    exact (agree_tell_alikeIn _ _).bind fun _ => .pure none
  | some steps =>
    rw [recordsAt_of_some hsteps, recordsAt_of_some (h ▸ hsteps), ElementPath.selected_congr h]
    refine .get_bind fun s s' hs => ?_
    rw [hs.alike.sources]
    exact (agree_tell_alikeIn _ _).bind fun _ => (hchange _).bind fun found => .pure (some found)

/-- A directive that carries the path of the query finds what the one without a path finds. -/
theorem agree_recordsFor_carrying {node node' : Element} (h : Element.Carrying p node node') :
    Agree (Session.AlikeIn p) (recordsFor node) (recordsFor node') := by
  have hchange := fun records : List Element =>
    observant_alikeIn.related_transform (agree_runPrimed_alikeIn (p := p)) records
  cases h with
  | same | inside => exact observant_alikeIn.related_recordsFor agree_runPrimed_alikeIn node
  | carries _ hnone hpath hchildren =>
    unfold recordsFor
    rw [recordsWith_eq, recordsWith_eq, hnone, Element.attr?_withChildren, Element.attr?_setAttr]
    refine .get_bind fun s s' hs => ?_
    rw [Option.getD_none, Option.getD_some, hs.queryPath]
    exact agree_recordsAt hchange hpath.steps?_eq.symm

end Records

/-! ## Directives with content -/

theorem Element.queryPath_eq (p : String) {node : Element} (hk : node.kind = .query) :
    node.queryPath = withoutSlash (node.pathInside p) := by
  unfold queryPath pathInside withoutSlash
  rw [hk]
  cases node.attr? AttrName.path with
  | some path => rfl
  | none => rfl

section Directives

variable {p : String} {body body' : Eval String}

theorem agree_evalQuery_alikeIn {node : Element} (hk : node.kind = .query)
    (hbody : Agree (Session.AlikeIn (node.pathInside p)) body body') :
    Agree (Session.AlikeIn p) (evalQuery node body) (evalQuery node body') := by
  refine observant_alikeIn.related_evalQuery node (.within (fun _ _ h => ?_) hbody
    fun _ _ _ _ h ht => ?_)
  · exact ⟨Session.Likeness.enterQuery h.alike node.queryPath, node.queryPath_eq p hk⟩
  · exact ⟨Session.Likeness.leaveQuery h.alike ht.alike, h.queryPath⟩

theorem agree_evalAction_alikeIn (node : Element) (hbody : Agree (Session.AlikeIn p) body body') :
    Agree (Session.AlikeIn p) (evalAction node body) (evalAction node body') := by
  refine observant_alikeIn.related_evalAction node node (.within (fun s s' h => ?_) hbody
    fun _ _ t t' _ ht => ?_)
  · exact ⟨h.alike.enterAction fun _ => congrArg (·.prime node.textOrEmpty) h.alike.runner, h.queryPath⟩
  · exact ⟨ht.alike.leaveAction (congrArg ScriptRunner.clearPrimed ht.alike.runner), ht.queryPath⟩

theorem agree_deepen_alikeIn (node : Element) (hbody : Agree (Session.AlikeIn p) body body') :
    Agree (Session.AlikeIn p) (deepen node body) (deepen node body') := by
  refine @Attentive.related_deepen (fun _ => Agree (Session.AlikeIn p)) node body body' hbody ?_
  exact .within (fun _ _ h => ⟨Session.Likeness.deeper h.alike, h.queryPath⟩) hbody
    fun _ _ _ _ _ ht => ⟨Session.Likeness.shallower ht.alike, ht.queryPath⟩

end Directives

/-! ## Models -/

/-- The two models are evaluated side by side, if those are that are nested in them. -/
theorem parallelIn_carrying {setting : Setting} (hnested : NestedAgree setting)
    (hinline : ∀ run, setting.nested = some run → ∀ {p : String} {node node' : Element},
      node.kind = .model → Element.Carrying p node node' →
      Agree (Session.AlikeIn "") (run setting.options node) (run setting.options node')) :
    ParallelIn (fun p _ => Agree (Session.AlikeIn p)) Element.Carrying Element.pathInside
      setting setting where
  sequential _ := observant_alikeIn.toSequential
  kind h := h.kind_eq
  queried h _ := h.forall₂_children
  children {p node node'} h hcontent hquery := by
    have hchildren := h.forall₂_children
    have hsame : node.pathInside p = p := by
      unfold Element.pathInside
      split
      · exact absurd ‹_› hquery
      · next hk =>
        rw [hk] at hcontent
        cases hcontent
      · rfl
    rwa [hsame] at hchildren
  began _ := agree_tell_alikeIn _ _
  source h hk place := by
    obtain rfl := h.eq_of_not_hasContent (by rw [hk]; rfl) (by rw [hk]; decide)
    refine agree_alikeIn (agree_evalSource (fun _ => agree_run interchangeable_eq) setting place hk
      fun source _ => Set.mem_univ source) ?_
    exact (incidental_keepsPlace setting.loader).leads_evalSource place rfl _
  query h hk hbody := by
    rw [h.eq_withChildren (by rw [hk]; decide)]
    exact agree_evalQuery_alikeIn hk hbody
  action h hk hbody := by
    rw [h.eq_withChildren (by rw [hk]; decide)]
    exact agree_evalAction_alikeIn _ hbody
  records h _ := agree_recordsFor_carrying h
  getContent h hk record := by
    obtain rfl := h.eq_of_not_hasContent (by rw [hk]; rfl) (by rw [hk]; decide)
    exact observant_alikeIn.related_evalGetContent _ record
  literal h hk := by
    rw [h.eq_of_not_hasContent (by rw [hk]; rfl) (by rw [hk]; decide)]
  model {p node node'} h hk := by
    have hsame := h.eq_withChildren (by rw [hk]; decide)
    have hpath : node.attr? AttrName.path = node'.attr? AttrName.path := by
      rw [hsame]
      rfl
    refine agree_alikeIn (agree_evalNestedModel hnested hpath h.isLeaf_eq fun run hrun => ?_)
      (keepsPlace_evalNestedModel setting node)
    exact .within (fun s s' hs => ⟨Session.Alike.enterModel hs.sources hs.world, rfl⟩)
      (hinline run hrun hk h) fun _ _ _ _ hs ht => Session.Likeness.leaveModel hs ht.alike
  passThrough {p node node' body body'} h hk hbody := by
    have heq : evalPassThrough setting.options node' body' =
        evalPassThrough setting.options node body' := by
      have hleaf := h.isLeaf_eq
      rw [h.eq_withChildren (by rw [hk]; decide)] at hleaf ⊢
      unfold evalPassThrough
      rw [hleaf]
      rfl
    rw [heq]
    exact observant_alikeIn.related_evalPassThrough setting.options node body body' hbody
  deepened {p node node' act act'} h hact := by
    have heq : deepen node' act' = deepen node act' := by
      unfold deepen
      rw [h.kind_eq]
    rw [heq]
    exact agree_deepen_alikeIn node hact

theorem agree_evalModel_carrying {setting : Setting} (hnested : NestedAgree setting)
    (hinline : ∀ run, setting.nested = some run → ∀ {p : String} {node node' : Element},
      node.kind = .model → Element.Carrying p node node' →
      Agree (Session.AlikeIn "") (run setting.options node) (run setting.options node'))
    {p : String} {model model' : Element} (hk : model.kind = .model)
    (h : Element.Carrying p model model') :
    Agree (Session.AlikeIn "") (evalModel setting model) (evalModel setting model') := by
  have hchildren := h.forall₂_children
  rw [Element.pathInside_of_model hk] at hchildren
  refine (parallelIn_carrying hnested hinline).related_evalModel hk
    (h.kind_eq ▸ hk) hchildren fun output => ?_
  rw [h.eq_withChildren (by rw [hk]; decide)]
  exact agree_alikeIn (agree_writeOutput setting.options model output)
    ((incidental_keepsPlace setting.loader).leads_writeOutput .anywhere _ model output)

/-- The models in files are the same for both, and those nested in them directly are related. -/
theorem agree_evalModelAt_carrying (loader : Loader) (levels : Nat) (options : Options) {p : String}
    {model model' : Element} (hk : model.kind = .model) (h : Element.Carrying p model model') :
    Agree (Session.AlikeIn "") (evalModelAt loader levels options model)
      (evalModelAt loader levels options model') := by
  induction levels generalizing options p model model' with
  | zero =>
    rw [evalModelAt_eq, evalModelAt_eq]
    exact agree_evalModel_carrying (nestedAgree_settingAt loader 0 options)
      (fun _ hrun => nomatch hrun) hk h
  | succ levels ih =>
    rw [evalModelAt_eq, evalModelAt_eq]
    refine agree_evalModel_carrying (nestedAgree_settingAt loader (levels + 1) options)
      (fun run hrun _ _ _ hk h => ?_) hk h
    cases hrun
    exact ih options hk h

/-- A record directive whose text is no path tells so, and has no output. -/
theorem outcome_evalNode_of_not_isPath (setting : Setting) (record : Option Element) (place : SourcePlace)
    {node : Element} {path : String} (hk : node.kind = .getNode)
    (hpath : node.attr? AttrName.path = some path) (h : ¬ ElementPath.IsPath path) (s : Session) :
    ∃ notices, outcome (evalNode setting record place node) s = (.ok "", s.told notices) := by
  obtain ⟨notice, hnone⟩ := recordsAt_of_none transform (ElementPath.steps?_eq_none_iff.2 h)
  refine ⟨[.evaluating node.name.display node.kind, notice], ?_⟩
  rw [outcome_evalNode, evalDirective, hk]
  simp only
  rw [evalGetNode_eq, recordsFor, recordsWith_eq, hpath]
  simp only [outcome_bind, outcome_get, Option.getD_some, hnone, outcome_tell, outcome_pure]
  rw [renderRecords, outcome_pure, Session.enterNode, hk]
  rfl

/-! ## Runs -/

namespace Interpreter

/-- Record directives without a path have the same records and the same output as those that carry the
path of the query around them, without a slash at its end, or as it is unless that takes a path away:
whatever the interpreter did before, and whatever the directives hold. A directive that carries a text
that is no path has no records and no output, and changes nothing. -/
theorem run_carrying (options : Options) (loader : Loader) (world : Surroundings) (calls : List Call)
    {model model' : Element} (hk : model.kind = .model) (h : Element.Carrying "" model model') :
    let used := (create options loader world).performAll calls
    visible (used.run model) = visible (used.run model') ∧
      (∀ p path, ElementPath.StandsFor p path →
        ElementPath.selected path = ElementPath.selected (withoutSlash p)) ∧
      ∀ path, ¬ ElementPath.IsPath path →
        (∀ trees, ElementPath.selected path trees = []) ∧
          ∀ setting record place node, node.kind = .getNode → node.attr? AttrName.path = some path →
            ∀ s, ∃ notices, outcome (evalNode setting record place node) s = (.ok "", s.told notices) := by
  intro used
  refine ⟨?_, fun p path hstands => ElementPath.selected_congr hstands.steps?_eq,
    fun path hpath => ⟨fun trees => ?_, fun setting record place node hk hattr s =>
      outcome_evalNode_of_not_isPath setting record place hk hattr hpath s⟩⟩
  · have hrest : used.session.AtRest := atRest_performAll (atRest_create options loader world) calls
    have hsession : Session.AlikeIn "" used.session used.session :=
      ⟨⟨rfl, rfl, rfl, rfl⟩, by rw [hrest.context]; rfl⟩
    obtain ⟨hresult, hleft⟩ := agree_evalModelAt_carrying used.loader used.options.maxNesting
      used.options hk h used.session used.session hsession
    exact visible_eq hresult hleft.alike
  · unfold ElementPath.selected
    rw [ElementPath.steps?_eq_none_iff.2 hpath]
    rfl

/-- A query with a record directive in it. -/
def queryModel (path : String) (node : Element) : Element :=
  directive .model [] [directive .query [⟨AttrName.path, path⟩] [node]]

/-- A model with one source. -/
def oneEntry : Element := .ofChildren "r" [.ofText "e" "x"]

/-- The text of each record. -/
def recordText : Element := directive .getContent [⟨AttrName.path, "."⟩] []

theorem run_carrying_entries :
    let used := (create .standard .aggregator .empty).performAll [.addSource oneEntry]
    Element.Carrying "" (queryModel "./e/" (directive .getNode [] [recordText]))
        (queryModel "./e/" (directive .getNode [⟨AttrName.path, "./e/"⟩] [recordText])) ∧
      visible (used.run (queryModel "./e/" (directive .getNode [] [recordText]))) =
        visible (used.run
          (queryModel "./e/" (directive .getNode [⟨AttrName.path, "./e/"⟩] [recordText]))) := by
  intro used
  have hpath : ElementPath.IsPath "./e/" :=
    ⟨⟨"./e/", [⟨.itself, .any, []⟩, ⟨.child, .tagged "e", []⟩]⟩, by decide +kernel⟩
  have hnode : Element.Carrying "./e/" (directive .getNode [] [recordText])
      (directive .getNode [⟨AttrName.path, "./e/"⟩] [recordText]) :=
    .carries rfl rfl (.itself fun _ => hpath) (.cons (.same _ _) (.nil _))
  have hquery : Element.Carrying "" (directive .query [⟨AttrName.path, "./e/"⟩]
      [directive .getNode [] [recordText]]) (directive .query [⟨AttrName.path, "./e/"⟩]
        [directive .getNode [⟨AttrName.path, "./e/"⟩] [recordText]]) :=
    .inside (.inl rfl) (.cons hnode (.nil _))
  have hmodel : Element.Carrying "" (queryModel "./e/" (directive .getNode [] [recordText]))
      (queryModel "./e/" (directive .getNode [⟨AttrName.path, "./e/"⟩] [recordText])) :=
    .inside (.inr rfl) (.cons hquery (.nil _))
  exact ⟨hmodel, (run_carrying .standard .aggregator .empty [.addSource oneEntry] rfl hmodel).1⟩

/-- A second slash is taken away from the path of a query, and makes no path of one that is carried. -/
theorem not_run_carrying :
    ¬ ∀ (p : String) (trees content : List Element),
      let used := (create .standard .aggregator .empty).performAll (trees.map .addSource)
      (used.run (queryModel p (directive .getNode [] content))).1 =
        (used.run (queryModel p (directive .getNode [⟨AttrName.path, p⟩] content))).1 := by
  intro h
  have hsame := congrArg Except.toOption (h "./e//" [oneEntry] [recordText])
  revert hsame
  decide +kernel

end Interpreter

end Docweave
