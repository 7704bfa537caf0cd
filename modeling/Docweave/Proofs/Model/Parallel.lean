import Docweave.Proofs.Model.Brackets
import Mathlib.Data.List.Forall2

set_option autoImplicit false

/-! # Evaluations side by side

Two evaluations go side by side if their models have corresponding nodes and the actions that make
them up are in a relation that goes on from one action to the next. `ParallelIn` collects what such a
relation has to be kept by: each directive passes it on from its content to itself. The induction over
the two models is made once here, in `ParallelIn.related_evalNode`. `Parallel` is for a relation that is
the same inside and outside of queries. -/

namespace Docweave

open Eval

/-- A relation between actions that give values of the same type. -/
abbrev ActionRelation := ∀ α : Type, Eval α → Eval α → Prop

/-- Such a directive evaluates its children, one after the other. -/
def DirectiveKind.hasContent : DirectiveKind → Bool
  | query | action | getNode | passThrough => true
  | model | source | getContent | literal => false

/-! ## Relations that go on -/

/-- The relation holds of equal values, and goes on from one action to the next. -/
structure Sequential (Rel : ActionRelation) : Prop where
  pure : ∀ {α : Type} (a : α), Rel α (pure a) (pure a)
  bind : ∀ {α β : Type} {act act' : Eval α} {next next' : α → Eval β}, Rel α act act' →
    (∀ a, Rel β (next a) (next' a)) → Rel β (act >>= next) (act' >>= next')

theorem Sequential.mapM {Rel : ActionRelation} (h : Sequential Rel) {α β : Type}
    {next next' : α → Eval β} (hnext : ∀ a, Rel β (next a) (next' a)) (xs : List α) :
    Rel (List β) (xs.mapM next) (xs.mapM next') := by
  induction xs with
  | nil => exact h.pure []
  | cons a rest ih =>
    rw [List.mapM_cons, List.mapM_cons]
    exact h.bind (hnext a) fun b => h.bind ih fun bs => h.pure (b :: bs)

/-! ## Single directives -/

/-- The relation is kept by looking at a session, whatever its transform, its scripts and its notices
are, and by remarks of any kind. -/
structure Attentive (Rel : ActionRelation) : Prop extends Sequential Rel where
  glance : ∀ {α : Type} {next next' : Session → Eval α},
    (∀ s s', s.sources = s'.sources → s.context.queryPath = s'.context.queryPath →
      s.context.depth = s'.context.depth → s.world = s'.world → Rel α (next s) (next' s')) →
    Rel α (get >>= next) (get >>= next')
  remark : ∀ {notices notices' : List Notice}, (∀ notice ∈ notices, notice.isRemark) →
    (∀ notice ∈ notices', notice.isRemark) → Rel Unit (tellAll notices) (tellAll notices')

/-- The relation is also kept by looking at the action that is in force. -/
structure Observant (Rel : ActionRelation) : Prop extends Attentive Rel where
  look : ∀ {α : Type} {next next' : Session → Eval α},
    (∀ s s', s.sources = s'.sources → s.context = s'.context → s.world = s'.world →
      Rel α (next s) (next' s')) → Rel α (get >>= next) (get >>= next')
  glance h := look fun s s' hsources hcontext hworld =>
    h s s' hsources (congrArg _ hcontext) (congrArg _ hcontext) hworld

namespace Attentive

variable {Rel : ActionRelation} (h : Attentive Rel)

include h

theorem related_tell {notice : Notice} (hn : notice.isRemark) : Rel Unit (tell notice) (tell notice) := by
  have hremark : ∀ n ∈ [notice], n.isRemark := fun n hmem => List.mem_singleton.1 hmem ▸ hn
  exact h.remark hremark hremark

theorem related_skip {α : Type} {notice : Notice} (hn : notice.isRemark) (a : α) :
    Rel α (tell notice >>= fun _ => pure a) (tell notice >>= fun _ => pure a) :=
  h.bind (h.related_tell hn) fun _ => h.pure a

theorem related_runScript {source : String} {tree : Element}
    (hrun : Rel ScriptOutput (onRunner (·.run source tree)) (onRunner (·.run source tree))) :
    Rel ScriptOutput (runScript source tree) (runScript source tree) := by
  refine h.glance fun s s' _ _ _ _ => h.bind (h.remark ?_ ?_) fun _ => hrun
  · exact fun _ => ScriptRunner.isRemark_of_mem_compileNotices
  · exact fun _ => ScriptRunner.isRemark_of_mem_compileNotices

theorem related_runPrimed {tree : Element}
    (hrun : Rel ScriptOutput (onRunner (·.runPrimed tree)) (onRunner (·.runPrimed tree))) :
    Rel ScriptOutput (runPrimed tree) (runPrimed tree) := by
  have hremarks : ∀ runner : ScriptRunner,
      ∀ notice ∈ runner.primed.elim [] runner.compileNotices, notice.isRemark := by
    intro runner notice hmem
    cases hp : runner.primed with
    | none => simp [hp] at hmem
    | some source =>
      rw [hp] at hmem
      exact ScriptRunner.isRemark_of_mem_compileNotices hmem
  exact h.glance fun s s' _ _ _ _ => h.bind (h.remark (hremarks _) (hremarks _)) fun _ => hrun

theorem related_sortByKey (key : Option String) (descending : Bool) (records : List Element) :
    Rel (List Element) (sortByKey key descending records) (sortByKey key descending records) := by
  unfold sortByKey
  cases key with
  | none => exact h.related_skip rfl records
  | some key =>
    simp only
    cases sortRecords key descending records with
    | ok sorted => exact h.pure sorted
    | error error => exact h.related_skip rfl records

theorem related_recordsWith {change change' : List Element → Eval (String × List Element)}
    (hchange : ∀ records, Rel (String × List Element) (change records) (change' records))
    (node : Element) :
    Rel (Option (String × List Element)) (recordsWith change node) (recordsWith change' node) := by
  refine h.glance fun s s' _ hpath _ _ => ?_
  simp only [hpath]
  by_cases hp : ((node.attr? AttrName.path).getD s'.context.queryPath).isEmpty
  · simp only [if_pos hp]
    exact h.related_skip rfl none
  · simp only [if_neg hp]
    cases ElementPath.parse ((node.attr? AttrName.path).getD s'.context.queryPath) with
    | error error => exact h.related_skip rfl none
    | ok compiled =>
      refine h.glance fun t t' hsources _ _ _ => ?_
      rw [hsources]
      refine h.bind (h.related_tell rfl) fun _ => ?_
      exact h.bind (hchange _) fun found => h.pure (some found)

theorem related_evalGetContent (node : Element) (record : Option Element) :
    Rel String (evalGetContent node record) (evalGetContent node record) := by
  unfold evalGetContent
  cases node.attr? AttrName.path with
  | none => exact h.related_skip rfl ""
  | some path =>
    cases record with
    | none => exact h.related_skip rfl ""
    | some record =>
      simp only
      cases ElementPath.parse path with
      | ok compiled => exact h.pure _
      | error error => exact h.related_skip rfl ""

section Brackets

variable (node : Element) {body body' : Eval String}

theorem related_evalQuery
    (hwithin : Rel String (within (Session.enterQuery node.queryPath) Session.leaveQuery body)
      (within (Session.enterQuery node.queryPath) Session.leaveQuery body')) :
    Rel String (evalQuery node body) (evalQuery node body') := by
  rw [evalQuery_eq, evalQuery_eq]
  have hremarks : ∀ notice ∈ node.queryNotices, notice.isRemark := fun _ => isRemark_of_mem_queryNotices
  exact h.bind (h.remark hremarks hremarks) fun _ => hwithin

theorem related_evalAction (node' : Element)
    (hwithin : Rel String
      (within (Session.enterAction node.actionKind node) (fun _ => Session.leaveAction) body)
      (within (Session.enterAction node'.actionKind node') (fun _ => Session.leaveAction) body')) :
    Rel String (evalAction node body) (evalAction node' body') := by
  rw [evalAction_eq, evalAction_eq]
  have hremarks : ∀ node : Element, ∀ notice ∈ node.actionNotices, notice.isRemark :=
    fun _ _ => isRemark_of_mem_actionNotices
  exact h.bind (h.remark (hremarks node) (hremarks node')) fun _ => hwithin

omit h in
theorem related_deepen (hbody : Rel String body body')
    (hwithin : Rel String (within Session.deeper (fun _ => Session.shallower) body)
      (within Session.deeper (fun _ => Session.shallower) body')) :
    Rel String (deepen node body) (deepen node body') := by
  unfold deepen
  by_cases hk : node.kind = .passThrough
  · rw [if_pos hk, if_pos hk]
    exact hwithin
  · rw [if_neg hk, if_neg hk]
    exact hbody

end Brackets

theorem related_evalPassThrough (options : Options) (node : Element) (body body' : Eval String)
    (hbody : Rel String body body') :
    Rel String (evalPassThrough options node body) (evalPassThrough options node body') := by
  refine h.glance fun s s' _ _ hdepth _ => ?_
  rw [hdepth]
  by_cases hl : node.isLeaf
  · simp only [if_pos hl]
    exact h.pure _
  · simp only [if_neg hl]
    exact h.bind hbody fun _ => h.pure _

/-- Two settings that nest models with the same options are related at a nested model, if they are
where it is evaluated. -/
theorem related_evalNestedModel {setting setting' : Setting} {run run' : Options → Element → Eval String}
    (hrun : setting.nested = some run) (hrun' : setting'.nested = some run')
    (hoptions : setting.options = setting'.options) (node : Element)
    (hnested : ∀ baseDir model,
      Rel String
        (recover .nestedModelSkipped (apart (run { setting.options with baseDir := baseDir } model)))
        (recover .nestedModelSkipped
          (apart (run' { setting.options with baseDir := baseDir } model)))) :
    Rel String (evalNestedModel setting node) (evalNestedModel setting' node) := by
  rw [evalNestedModel_eq hrun, evalNestedModel_eq hrun', ← hoptions]
  refine h.glance fun s s' _ _ _ hworld => ?_
  rw [hworld]
  cases hm : nestedModel? setting.options s'.world.files node with
  | none => exact h.related_skip (isRemark_leftOutNotice ..) ""
  | some nested =>
    obtain ⟨options, model⟩ := nested
    obtain ⟨baseDir, rfl⟩ := exists_baseDir_of_nestedModel? hm
    exact hnested baseDir model

section Sources

variable {setting : Setting} {place : SourcePlace}
  (hregister : ∀ tree, Rel Unit (registerSource setting place tree) (registerSource setting place tree))

include hregister

/-- What a loading ends with, once its notices are told: the tree is registered, and a failure that
the run can go on after is told. -/
theorem related_received (result : Except Failure Element) :
    (∀ failure, result = .error failure → ¬ failure.isRecoverable →
      Rel Unit (throw failure) (throw failure)) →
    Rel Unit
      (match result with
        | .ok tree => registerSource setting place tree
        | .error failure =>
          if failure.isRecoverable then tell (.sourceSkipped failure) else throw failure)
      (match result with
        | .ok tree => registerSource setting place tree
        | .error failure =>
          if failure.isRecoverable then tell (.sourceSkipped failure) else throw failure) := by
  intro hthrow
  cases result with
  | ok tree => exact hregister tree
  | error failure =>
    by_cases hr : failure.isRecoverable
    · simp only [if_pos hr]
      exact h.related_tell rfl
    · simp only [if_neg hr]
      exact hthrow failure rfl hr

theorem related_loadSource {load : Surroundings → Loading}
    (htold : ∀ world, Rel Unit (tellAll (load world).notices) (tellAll (load world).notices))
    (hdrain : Rel Unit (modify fun s => { s with world := { s.world with input := .text "" } })
      (modify fun s => { s with world := { s.world with input := .text "" } }))
    (hthrow : ∀ world failure, (load world).result = .error failure → ¬ failure.isRecoverable →
      Rel Unit (throw failure) (throw failure)) :
    Rel Unit (loadSource setting place load) (loadSource setting place load) := by
  refine h.glance fun s s' _ _ _ hworld => ?_
  rw [hworld]
  refine h.bind (htold _) fun _ => ?_
  have hend := h.related_received hregister _ (hthrow s'.world)
  by_cases hd : (load s'.world).drained
  · simp only [if_pos hd]
    exact h.bind hdrain fun _ => hend
  · simp only [if_neg hd]
    exact h.bind (h.pure ()) fun _ => hend

theorem related_evalSource {node : Element}
    (hfiles : ∀ directory root deep,
      Rel Unit (loadSource setting place fun world => setting.loader.files world directory root deep)
        (loadSource setting place fun world => setting.loader.files world directory root deep))
    (hlocation : ∀ location base root,
      Rel Unit (loadSource setting place fun world => setting.loader.location world location base root)
        (loadSource setting place fun world => setting.loader.location world location base root))
    (hscript : (node.attr? AttrName.type).bind SourceKind.ofWord? = some .custom → ∀ tree,
      Rel ScriptOutput (onRunner (·.run node.textOrEmpty tree))
        (onRunner (·.run node.textOrEmpty tree))) :
    Rel Unit (evalSource setting place node) (evalSource setting place node) := by
  unfold evalSource
  simp only
  cases htype : (node.attr? AttrName.type).bind SourceKind.ofWord? with
  | none => exact h.related_tell rfl
  | some kind =>
    cases kind with
    | files =>
      cases node.attr? AttrName.path with
      | none => exact h.related_tell rfl
      | some path =>
        cases node.attr? AttrName.name with
        | none => exact h.related_tell rfl
        | some name => exact hfiles _ _ _
    | url =>
      cases node.attr? AttrName.path with
      | none => exact h.related_tell rfl
      | some path => exact hlocation _ _ _
    | custom =>
      cases node.attr? AttrName.name with
      | none => exact h.related_tell rfl
      | some name =>
        refine h.bind (h.related_runScript (hscript htype _)) fun output => ?_
        by_cases ht : !output.text.isEmpty
        · simp only [if_pos ht]
          exact h.bind (h.related_tell rfl) fun _ => hregister _
        · simp only [if_neg ht]
          exact h.bind (h.pure ()) fun _ => hregister _

end Sources

end Attentive

namespace Observant

variable {Rel : ActionRelation} (h : Observant Rel)
  (hprimed : ∀ tree, Rel ScriptOutput (onRunner (·.runPrimed tree)) (onRunner (·.runPrimed tree)))

include h hprimed

theorem related_transform (records : List Element) :
    Rel (String × List Element) (transform records) (transform records) := by
  refine h.look fun s s' _ hcontext _ => ?_
  simp only [hcontext]
  cases s'.context.action with
  | none => exact h.pure _
  | some kind =>
    cases kind with
    | sort => exact h.bind (h.related_sortByKey _ _ _) fun _ => h.pure _
    | reverseSort => exact h.bind (h.related_sortByKey _ _ _) fun _ => h.pure _
    | custom => exact h.bind (h.related_runPrimed (hprimed _)) fun _ => h.pure _

theorem related_recordsFor (node : Element) :
    Rel (Option (String × List Element)) (recordsFor node) (recordsFor node) :=
  h.related_recordsWith (h.related_transform hprimed) node

end Observant

/-! ## Models with corresponding nodes -/

/-- A node corresponds to itself, if `S` holds of it. -/
def Element.SameIf (S : Element → Prop) (node node' : Element) : Prop := node = node' ∧ S node

theorem Element.forall₂_sameIf {S : Element → Prop} {nodes : List Element} (h : ∀ node ∈ nodes, S node) :
    List.Forall₂ (Element.SameIf S) nodes nodes :=
  List.forall₂_same.2 fun node hmem => ⟨rfl, h node hmem⟩

/-- Corresponding nodes of two models are evaluated side by side. What a directive does by itself is in
the relation, and so is what it does with a content that is. Relation and correspondence can depend on
a state, which the content of a query sees changed. -/
structure ParallelIn {ι : Type} (Rel : ι → ActionRelation) (Match : ι → Element → Element → Prop)
    (inQuery : ι → Element → ι) (setting setting' : Setting) : Prop where
  sequential : ∀ i, Sequential (Rel i)
  kind : ∀ {i node node'}, Match i node node' → node.kind = node'.kind
  queried : ∀ {i node node'}, Match i node node' → node.kind = .query →
    List.Forall₂ (Match (inQuery i node)) node.children node'.children
  children : ∀ {i node node'}, Match i node node' → node.kind.hasContent → node.kind ≠ .query →
    List.Forall₂ (Match i) node.children node'.children
  began : ∀ {i node node'}, Match i node node' →
    Rel i Unit (tell (.evaluating node.name.display node.kind))
      (tell (.evaluating node'.name.display node'.kind))
  source : ∀ {i node node'}, Match i node node' → node.kind = .source → ∀ place,
    Rel i Unit (evalSource setting place node) (evalSource setting' place node')
  query : ∀ {i node node' body body'}, Match i node node' → node.kind = .query →
    Rel (inQuery i node) String body body' → Rel i String (evalQuery node body) (evalQuery node' body')
  action : ∀ {i node node' body body'}, Match i node node' → node.kind = .action →
    Rel i String body body' → Rel i String (evalAction node body) (evalAction node' body')
  records : ∀ {i node node'}, Match i node node' → node.kind = .getNode →
    Rel i (Option (String × List Element)) (recordsFor node) (recordsFor node')
  getContent : ∀ {i node node'}, Match i node node' → node.kind = .getContent → ∀ record,
    Rel i String (evalGetContent node record) (evalGetContent node' record)
  literal : ∀ {i node node'}, Match i node node' → node.kind = .literal →
    literalText node = literalText node'
  model : ∀ {i node node'}, Match i node node' → node.kind = .model →
    Rel i String (evalNestedModel setting node) (evalNestedModel setting' node')
  passThrough : ∀ {i node node' body body'}, Match i node node' → node.kind = .passThrough →
    Rel i String body body' →
    Rel i String (evalPassThrough setting.options node body) (evalPassThrough setting'.options node' body')
  deepened : ∀ {i node node' act act'}, Match i node node' → Rel i String act act' →
    Rel i String (deepen node act) (deepen node' act')

namespace ParallelIn

variable {ι : Type} {Rel : ι → ActionRelation} {Match : ι → Element → Element → Prop}
  {inQuery : ι → Element → ι} {setting setting' : Setting} (h : ParallelIn Rel Match inQuery setting setting')

include h

/-! ## Nodes -/

theorem related_onOwnLine {i : ι} {node node' : Element} {act act' : Eval String}
    (hmatch : Match i node node') (hact : Rel i String act act') :
    Rel i String (onOwnLine node act) (onOwnLine node' act') := by
  unfold onOwnLine
  rw [h.kind hmatch]
  exact (h.sequential i).bind hact fun _ => (h.sequential i).pure _

theorem isLeaf_eq {i : ι} {node node' : Element} (hmatch : Match i node node')
    (hk : node.kind = .getNode) : node.isLeaf = node'.isLeaf :=
  Element.isLeaf_congr (h.children hmatch (by rw [hk]; rfl) (by rw [hk]; decide)).length_eq

theorem related_evalGetNode {i : ι} {node node' : Element} (hmatch : Match i node node')
    (hk : node.kind = .getNode) {render render' : Element → Eval String}
    (hrender : ∀ record, Rel i String (render record) (render' record)) :
    Rel i String (evalGetNode node render) (evalGetNode node' render') := by
  have hrel := h.sequential i
  rw [evalGetNode_eq, evalGetNode_eq]
  refine hrel.bind (h.records hmatch hk) fun found => ?_
  cases found with
  | none => exact hrel.pure ""
  | some found =>
    unfold renderRecords
    rw [h.isLeaf_eq hmatch hk]
    by_cases hl : node'.isLeaf
    · simp only [if_pos hl]
      exact hrel.pure _
    · simp only [if_neg hl]
      exact hrel.bind (hrel.mapM hrender _) fun _ => hrel.pure _

mutual

/-- The evaluations of two corresponding nodes are in the relation. -/
theorem related_evalNode (i : ι) (record : Option Element) (place : SourcePlace) :
    (node node' : Element) → Match i node node' →
      Rel i String (evalNode setting record place node) (evalNode setting' record place node')
  | ⟨name, attributes, text, tail, children⟩, ⟨name', attributes', text', tail', children'⟩, hmatch => by
    have hkind := h.kind hmatch
    have hqueried := h.queried hmatch
    have hchildren := h.children hmatch
    unfold evalNode
    refine (h.sequential i).bind (h.began hmatch) fun _ => ?_
    rw [← hkind]
    cases hk : Element.kind ⟨name, attributes, text, tail, children⟩ with
    | source => exact (h.sequential i).bind (h.source hmatch hk place) fun _ => (h.sequential i).pure ""
    | query =>
      exact h.query hmatch hk (related_evalEach h.deepened _ record .inQuery _ _ (hqueried hk))
    | action =>
      exact h.action hmatch hk (related_evalEach (fun _ hact => hact) i record .anywhere _ _
        (hchildren (by rw [hk]; rfl) (by rw [hk]; decide)))
    | getNode =>
      refine h.related_evalGetNode hmatch hk fun found => ?_
      exact related_evalEach h.deepened i (some found) .anywhere _ _
        (hchildren (by rw [hk]; rfl) (by rw [hk]; decide))
    | getContent => exact h.getContent hmatch hk record
    | literal =>
      simp only [h.literal hmatch hk]
      exact (h.sequential i).pure _
    | model => exact h.model hmatch hk
    | passThrough =>
      exact h.passThrough hmatch hk (related_evalEach h.related_onOwnLine i record .anywhere _ _
        (hchildren (by rw [hk]; rfl) (by rw [hk]; decide)))

/-- So are those of two lists of nodes, each corresponding to the other one in its place. -/
theorem related_evalEach {frame : Element → Eval String → Eval String}
    (hframe : ∀ {i node node' act act'}, Match i node node' → Rel i String act act' →
      Rel i String (frame node act) (frame node' act'))
    (i : ι) (record : Option Element) (place : SourcePlace) :
    (nodes nodes' : List Element) → List.Forall₂ (Match i) nodes nodes' →
      Rel i String (evalEach setting frame record place nodes) (evalEach setting' frame record place nodes')
  | [], [], _ => (h.sequential i).pure ""
  | node :: rest, node' :: rest', .cons hmatch hrest => by
    unfold evalEach
    refine (h.sequential i).bind (hframe hmatch (related_evalNode i record place node node' hmatch))
      fun _ => ?_
    exact (h.sequential i).bind (related_evalEach hframe i record place rest rest' hrest)
      fun _ => (h.sequential i).pure _

end

/-- Two models with corresponding children are evaluated side by side, if their outputs are written
so. -/
theorem related_evalModel {i : ι} {model model' : Element} (hk : model.kind = .model)
    (hk' : model'.kind = .model) (hchildren : List.Forall₂ (Match i) model.children model'.children)
    (hwritten : ∀ output, Rel i Unit (writeOutput setting.options model output)
      (writeOutput setting'.options model' output)) :
    Rel i String (evalModel setting model) (evalModel setting' model') := by
  unfold evalModel
  rw [if_pos hk, if_pos hk']
  refine (h.sequential i).bind (h.related_evalEach h.deepened i none .anywhere _ _ hchildren)
    fun output => ?_
  exact (h.sequential i).bind (hwritten output) fun _ => (h.sequential i).pure output

end ParallelIn

/-! ## The same relation everywhere -/

/-- Corresponding nodes of two models are evaluated side by side. What a directive does by itself is in
the relation, and so is what it does with a content that is. -/
structure Parallel (Rel : ActionRelation) (Match : Element → Element → Prop)
    (setting setting' : Setting) : Prop extends Sequential Rel where
  kind : ∀ {node node'}, Match node node' → node.kind = node'.kind
  children : ∀ {node node'}, Match node node' → node.kind.hasContent →
    List.Forall₂ Match node.children node'.children
  began : ∀ {node node'}, Match node node' →
    Rel Unit (tell (.evaluating node.name.display node.kind))
      (tell (.evaluating node'.name.display node'.kind))
  source : ∀ {node node'}, Match node node' → node.kind = .source → ∀ place,
    Rel Unit (evalSource setting place node) (evalSource setting' place node')
  query : ∀ {node node' body body'}, Match node node' → node.kind = .query → Rel String body body' →
    Rel String (evalQuery node body) (evalQuery node' body')
  action : ∀ {node node' body body'}, Match node node' → node.kind = .action → Rel String body body' →
    Rel String (evalAction node body) (evalAction node' body')
  records : ∀ {node node'}, Match node node' → node.kind = .getNode →
    Rel (Option (String × List Element)) (recordsFor node) (recordsFor node')
  getContent : ∀ {node node'}, Match node node' → node.kind = .getContent → ∀ record,
    Rel String (evalGetContent node record) (evalGetContent node' record)
  literal : ∀ {node node'}, Match node node' → node.kind = .literal →
    literalText node = literalText node'
  model : ∀ {node node'}, Match node node' → node.kind = .model →
    Rel String (evalNestedModel setting node) (evalNestedModel setting' node')
  passThrough : ∀ {node node' body body'}, Match node node' → node.kind = .passThrough →
    Rel String body body' →
    Rel String (evalPassThrough setting.options node body) (evalPassThrough setting'.options node' body')
  deepened : ∀ {node node' act act'}, Match node node' → Rel String act act' →
    Rel String (deepen node act) (deepen node' act')

namespace Parallel

variable {Rel : ActionRelation} {Match : Element → Element → Prop} {setting setting' : Setting}
  (h : Parallel Rel Match setting setting')

include h

theorem parallelIn :
    ParallelIn (fun _ : Unit => Rel) (fun _ => Match) (fun _ _ => ()) setting setting' where
  sequential _ := h.toSequential
  kind := h.kind
  queried hmatch hk := h.children hmatch (by rw [hk]; rfl)
  children hmatch hcontent _ := h.children hmatch hcontent
  began := h.began
  source := h.source
  query := h.query
  action := h.action
  records := h.records
  getContent := h.getContent
  literal := h.literal
  model := h.model
  passThrough := h.passThrough
  deepened := h.deepened

/-- The evaluations of two lists of nodes are in the relation, each node corresponding to the other one
in its place. -/
theorem related_evalEach {frame : Element → Eval String → Eval String}
    (hframe : ∀ {node node' act act'}, Match node node' → Rel String act act' →
      Rel String (frame node act) (frame node' act'))
    (record : Option Element) (place : SourcePlace) (nodes nodes' : List Element)
    (hnodes : List.Forall₂ Match nodes nodes') :
    Rel String (evalEach setting frame record place nodes) (evalEach setting' frame record place nodes') :=
  h.parallelIn.related_evalEach (fun {_} => hframe) () record place nodes nodes' hnodes

theorem related_evalModel {model model' : Element} (hk : model.kind = .model) (hk' : model'.kind = .model)
    (hchildren : List.Forall₂ Match model.children model'.children)
    (hwritten : ∀ output, Rel Unit (writeOutput setting.options model output)
      (writeOutput setting'.options model' output)) :
    Rel String (evalModel setting model) (evalModel setting' model') :=
  h.parallelIn.related_evalModel (i := ()) hk hk' hchildren hwritten

end Parallel

end Docweave
