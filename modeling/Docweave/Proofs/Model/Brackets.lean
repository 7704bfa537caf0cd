import Docweave.Model.Eval
import Docweave.Proofs.Model.Effect

set_option autoImplicit false

/-! # Around the content of a directive

Queries, actions, nested models and copied elements set something before their content is evaluated
and put something back after it. Here these two changes have names, and each directive is brought to
one form: first it tells something, then its content runs between the two changes. -/

namespace Docweave

open Eval

/-! ## Changes of a session -/

namespace Session

/-- The session after the beginning of a node was told. -/
def enterNode (node : Element) (s : Session) : Session :=
  s.told [.evaluating node.name.display node.kind]

/-- The session at the start of a query. -/
def enterQuery (path : String) (s : Session) : Session :=
  { s with
    context := { s.context with queryPath := path }
    sources := { s.sources with locals := [] } }

/-- The session at the end of a query. -/
def leaveQuery (outer s : Session) : Session :=
  { s with
    context := { s.context with queryPath := outer.context.queryPath }
    sources := { s.sources with locals := outer.sources.locals } }

/-- The session at the start of an action. -/
def enterAction (action : Option ActionKind) (node : Element) (s : Session) : Session :=
  { s with
    context := s.context.beginAction action (node.attr? AttrName.key)
    runner := if action = some .custom then s.runner.prime node.textOrEmpty else s.runner }

/-- The session at the end of an action. -/
def leaveAction (s : Session) : Session :=
  { s with context := s.context.endAction, runner := s.runner.clearPrimed }

/-- The session one level deeper. -/
def deeper (s : Session) : Session :=
  { s with context := { s.context with depth := s.context.depth + 1 } }

/-- The session one level less deep. -/
def shallower (s : Session) : Session :=
  { s with context := { s.context with depth := s.context.depth - 1 } }

/-- The session at the start of a nested model. -/
def enterModel (s : Session) : Session := { s with context := .initial, runner := .fresh }

/-- The session at the end of a nested model. -/
def leaveModel (outer s : Session) : Session :=
  { s with context := outer.context, runner := outer.runner }

end Session

/-! ## Notices -/

/-- The notice is not about the beginning of an evaluation. -/
def Notice.isRemark : Notice → Bool
  | evaluating _ _ => false
  | _ => true

theorem ScriptRunner.isRemark_of_mem_compileNotices {runner : ScriptRunner} {source : String}
    {notice : Notice} (h : notice ∈ runner.compileNotices source) : notice.isRemark := by
  unfold compileNotices at h
  simp only at h
  split at h
  · rw [List.mem_singleton.1 h]
    rfl
  · split at h
    · rw [List.mem_singleton.1 h]
      rfl
    · simp at h

/-! ## What a directive says of itself -/

/-- A directive with attributes and children. -/
def directive (kind : DirectiveKind) (attributes : List Attribute) (children : List Element) : Element :=
  ⟨⟨some directiveUri, some "xdra", kind.tag⟩, attributes, none, none, children⟩

namespace Element

/-- The path that a query sets. -/
def queryPath (node : Element) : String :=
  match node.attr? AttrName.path with
  | some path => String.ofList (Text.dropFinal '/' path.toList)
  | none => ""

/-- What a query tells before its content. -/
def queryNotices (node : Element) : List Notice :=
  (if node.attr? AttrName.path = none then [.queryWithoutPath] else []) ++
    match node.attr? AttrName.type with
    | some declared => if declared != fetchQuery then [.unknownQueryKind declared] else []
    | none => []

/-- What an action is declared to do. -/
def actionKind (node : Element) : Option ActionKind :=
  (node.attr? AttrName.type).bind ActionKind.ofWord?

/-- What an action tells before its content. -/
def actionNotices (node : Element) : List Notice :=
  match node.attr? AttrName.type with
  | some declared =>
    if ActionKind.ofWord? declared = none then [.unknownActionKind declared] else []
  | none => []

end Element

theorem isRemark_of_mem_queryNotices {node : Element} {notice : Notice}
    (h : notice ∈ node.queryNotices) : notice.isRemark := by
  unfold Element.queryNotices at h
  rcases List.mem_append.1 h with h | h
  · split at h
    · rw [List.mem_singleton.1 h]
      rfl
    · simp at h
  · cases htype : node.attr? AttrName.type with
    | none => simp [htype] at h
    | some declared =>
      simp only [htype] at h
      split at h
      · rw [List.mem_singleton.1 h]
        rfl
      · simp at h

theorem isRemark_of_mem_actionNotices {node : Element} {notice : Notice}
    (h : notice ∈ node.actionNotices) : notice.isRemark := by
  unfold Element.actionNotices at h
  cases htype : node.attr? AttrName.type with
  | none => simp [htype] at h
  | some declared =>
    simp only [htype] at h
    split at h
    · rw [List.mem_singleton.1 h]
      rfl
    · simp at h

/-! ## Directives with content -/

theorem outcome_evalQuery (node : Element) (body : Eval String) (s : Session) :
    outcome (evalQuery node body) s =
      outcome (within (Session.enterQuery node.queryPath) Session.leaveQuery body)
        (s.told node.queryNotices) := by
  unfold evalQuery Element.queryPath Element.queryNotices
  cases hpath : node.attr? AttrName.path with
  | some path =>
    cases htype : node.attr? AttrName.type with
    | some declared =>
      by_cases h : declared != fetchQuery
      · simp only [outcome_bind, outcome_pure, outcome_tell, if_pos h]
        rfl
      · simp only [outcome_bind, outcome_pure, if_neg h]
        rfl
    | none => rfl
  | none =>
    cases htype : node.attr? AttrName.type with
    | some declared =>
      by_cases h : declared != fetchQuery
      · simp only [outcome_bind, outcome_pure, outcome_tell, if_pos h]
        rfl
      · simp only [outcome_bind, outcome_pure, outcome_tell, if_neg h]
        rfl
    | none => rfl

theorem outcome_evalAction (node : Element) (body : Eval String) (s : Session) :
    outcome (evalAction node body) s =
      outcome (within (Session.enterAction node.actionKind node) (fun _ => Session.leaveAction) body)
        (s.told node.actionNotices) := by
  unfold evalAction Element.actionKind Element.actionNotices
  cases htype : node.attr? AttrName.type with
  | none => rfl
  | some declared =>
    cases hkind : ActionKind.ofWord? declared with
    | some kind =>
      simp only [Option.bind_some, hkind]
      rfl
    | none =>
      simp only [Option.bind_some, hkind, if_true]
      rfl

/-- A query tells what is wrong with it before its content. -/
theorem evalQuery_eq (node : Element) (body : Eval String) :
    evalQuery node body = tellAll node.queryNotices >>= fun _ =>
      within (Session.enterQuery node.queryPath) Session.leaveQuery body := by
  refine ext_outcome fun s => ?_
  rw [outcome_evalQuery, outcome_bind, outcome_tellAll]

/-- So does an action. -/
theorem evalAction_eq (node : Element) (body : Eval String) :
    evalAction node body = tellAll node.actionNotices >>= fun _ =>
      within (Session.enterAction node.actionKind node) (fun _ => Session.leaveAction) body := by
  refine ext_outcome fun s => ?_
  rw [outcome_evalAction, outcome_bind, outcome_tellAll]

theorem session_evalPassThrough (options : Options) {node : Element} {body : Eval String}
    (hleaf : node.isLeaf → ∀ s, (outcome body s).2 = s) (s : Session) :
    (outcome (evalPassThrough options node body) s).2 = (outcome body s).2 := by
  unfold evalPassThrough
  rw [outcome_bind, outcome_get]
  simp only
  by_cases hl : node.isLeaf
  · rw [if_pos hl, outcome_pure, hleaf hl]
  · rw [if_neg hl]
    exact session_bind_pure _ _ _

theorem outcome_deepen (node : Element) (act : Eval String) (s : Session) :
    outcome (deepen node act) s =
      if node.kind = .passThrough then
        outcome (within Session.deeper (fun _ => Session.shallower) act) s
      else outcome act s := by
  unfold deepen
  split <;> rfl

/-! ## Records -/

/-- The records that a directive renders, changed in a given way, with the text that comes before them;
nothing if its path leads nowhere. -/
def recordsWith (change : List Element → Eval (String × List Element)) (node : Element) :
    Eval (Option (String × List Element)) := do
  let path := (node.attr? AttrName.path).getD (← get).context.queryPath
  if path.isEmpty then
    tell .getNodeWithoutPath
    return none
  else match ElementPath.parse path with
    | .error error => do
      tell (.getNodeBadPath error)
      return none
    | .ok compiled => do
      let found := (← get).sources.visible.flatMap compiled.select
      tell (.recordsFound path found.length)
      return some (← change found)

/-- The records that a directive renders after the transform of the action around. -/
def recordsFor (node : Element) : Eval (Option (String × List Element)) := recordsWith transform node

/-- The output of a directive from the outputs for its records. -/
def renderRecords (node : Element) (render : Element → Eval String) :
    Option (String × List Element) → Eval String
  | none => return ""
  | some (text, records) =>
    if node.isLeaf then return text ++ String.join (records.map Element.toXml)
    else return text ++ String.join (← records.mapM render)

theorem evalGetNode_eq (node : Element) (render : Element → Eval String) :
    evalGetNode node render = recordsFor node >>= renderRecords node render := by
  unfold evalGetNode recordsFor recordsWith
  rw [bind_assoc]
  refine congrArg _ (funext fun s => ?_)
  by_cases h : ((node.attr? AttrName.path).getD s.context.queryPath).isEmpty
  · simp only [if_pos h, bind_assoc, pure_bind, renderRecords]
  · simp only [if_neg h]
    cases ElementPath.parse ((node.attr? AttrName.path).getD s.context.queryPath) with
    | error error => simp only [bind_assoc, pure_bind, renderRecords]
    | ok compiled => simp only [bind_assoc, pure_bind, renderRecords]

/-! ## Nested models -/

/-- The model that a directive nests, with the options that it is run with; nothing if it cannot be
read or has no content. -/
def nestedModel? (options : Options) (files : Disk) (node : Element) : Option (Options × Element) :=
  match node.attr? AttrName.path with
  | some path =>
    let resolved := options.baseDir.join ⟨path⟩
    match loadModel files resolved with
    | .error _ => none
    | .ok model => some ({ options with baseDir := resolved.parent?.getD options.baseDir }, model)
  | none => if node.isLeaf then none else some (options, node)

theorem nestedModel?_of_inline {options : Options} {files : Disk} {node : Element}
    (hpath : node.attr? AttrName.path = none) (hleaf : ¬ node.isLeaf) :
    nestedModel? options files node = some (options, node) := by
  unfold nestedModel?
  rw [hpath]
  exact if_neg hleaf

/-- A model file that cannot be read only costs the nested model its effect. -/
theorem isRecoverable_of_loadModel {files : Disk} {path : FilePath} {failure : Failure}
    (h : loadModel files path = .error failure) : failure.isRecoverable := by
  unfold loadModel at h
  split at h
  · cases h
    rfl
  · next text _ =>
    cases hparse : Element.parse 0 text with
    | error error =>
      rw [hparse] at h
      cases h
      rfl
    | ok model =>
      rw [hparse] at h
      cases h

/-- A nested model has the options of the one around it, but for the directory that paths start from. -/
theorem exists_baseDir_of_nestedModel? {options inner : Options} {files : Disk}
    {node model : Element} (h : nestedModel? options files node = some (inner, model)) :
    ∃ baseDir, inner = { options with baseDir := baseDir } := by
  unfold nestedModel? at h
  cases hpath : node.attr? AttrName.path with
  | none =>
    simp only [hpath] at h
    by_cases hleaf : node.isLeaf
    · simp [hleaf] at h
    · rw [if_neg hleaf, Option.some.injEq, Prod.mk.injEq] at h
      exact ⟨options.baseDir, h.1.symm⟩
  | some path =>
    simp only [hpath] at h
    cases hload : loadModel files (options.baseDir.join ⟨path⟩) with
    | error failure => simp [hload] at h
    | ok read =>
      simp only [hload, Option.some.injEq, Prod.mk.injEq] at h
      exact ⟨_, h.1.symm⟩

/-- What is told about a nested model that is left out. -/
def leftOutNotice (options : Options) (files : Disk) (node : Element) : Notice :=
  match node.attr? AttrName.path with
  | some path =>
    match loadModel files (options.baseDir.join ⟨path⟩) with
    | .error failure => .nestedModelSkipped failure
    | .ok _ => .nestedModelEmpty
  | none => .nestedModelEmpty

theorem isRemark_leftOutNotice (options : Options) (files : Disk) (node : Element) :
    (leftOutNotice options files node).isRemark := by
  unfold leftOutNotice
  split
  · split <;> rfl
  · rfl

theorem evalNestedModel_of_none {setting : Setting} (h : setting.nested = none) (node : Element) :
    evalNestedModel setting node = throw (.nestingTooDeep setting.options.maxNesting) := by
  unfold evalNestedModel
  rw [h]

section Nested

variable {setting : Setting} {run : Options → Element → Eval String}
  (hrun : setting.nested = some run) {node : Element} {s : Session}

include hrun

/-- A nested model is read, or taken as it is, and then evaluated; or it is left out. -/
theorem evalNestedModel_eq (node : Element) :
    evalNestedModel setting node = get >>= fun s =>
      match nestedModel? setting.options s.world.files node with
      | some (options, model) => recover .nestedModelSkipped (apart (run options model))
      | none => tell (leftOutNotice setting.options s.world.files node) >>= fun _ => pure "" := by
  refine ext_outcome fun s => ?_
  unfold evalNestedModel nestedModel? leftOutNotice
  rw [outcome_bind, outcome_get]
  simp only [hrun]
  cases node.attr? AttrName.path with
  | some path =>
    simp only
    cases hload : loadModel s.world.files (setting.options.baseDir.join ⟨path⟩) with
    | error failure =>
      simp only [recover, outcome_tryCatch, outcome_bind, outcome_get, hload, outcome_throw,
        if_pos (isRecoverable_of_loadModel hload)]
    | ok model => simp only [recover, outcome_tryCatch, outcome_bind, outcome_get, hload]
  | none =>
    by_cases hleaf : node.isLeaf
    · simp only [if_pos hleaf]
    · simp only [if_neg hleaf]

theorem outcome_evalNestedModel {options : Options} {model : Element}
    (h : nestedModel? setting.options s.world.files node = some (options, model)) :
    outcome (evalNestedModel setting node) s =
      outcome (recover .nestedModelSkipped (apart (run options model))) s := by
  rw [evalNestedModel_eq hrun, outcome_bind, outcome_get]
  simp only [h]

omit hrun in
/-- A failure that does not only cost the directive its effect gets out of it. -/
theorem result_recover_of_error {notice : Failure → Notice} {act : Eval String} {failure : Failure}
    (h : (outcome act s).1 = .error failure) (hf : ¬ failure.isRecoverable) :
    (outcome (recover notice act) s).1 = .error failure := by
  rw [recover, outcome_tryCatch]
  cases hs : outcome act s with
  | mk result s' =>
    rw [hs] at h
    obtain rfl : result = .error failure := h
    simp only [if_neg hf]
    rfl

/-- What is done about a failure of a nested model is no more than a remark. -/
theorem exists_told_evalNestedModel {options : Options} {model : Element}
    (h : nestedModel? setting.options s.world.files node = some (options, model)) :
    ∃ notices, (∀ notice ∈ notices, notice.isRemark) ∧ (outcome (evalNestedModel setting node) s).2 =
      (s.leaveModel (outcome (run options model) s.enterModel).2).told notices := by
  have hapart : outcome (apart (run options model)) s =
      ((outcome (run options model) s.enterModel).1,
        s.leaveModel (outcome (run options model) s.enterModel).2) := rfl
  rw [outcome_evalNestedModel hrun h, recover, outcome_tryCatch, hapart]
  cases (outcome (run options model) s.enterModel).1 with
  | ok output => exact ⟨[], by simp, rfl⟩
  | error failure =>
    simp only
    by_cases hf : failure.isRecoverable
    · refine ⟨[.nestedModelSkipped failure], by simp [Notice.isRemark], ?_⟩
      rw [if_pos hf]
      rfl
    · refine ⟨[], by simp, ?_⟩
      rw [if_neg hf]
      rfl

theorem exists_told_of_nestedModel?_eq_none
    (h : nestedModel? setting.options s.world.files node = none) :
    ∃ notices, (∀ notice ∈ notices, notice.isRemark) ∧
      (outcome (evalNestedModel setting node) s).2 = s.told notices := by
  refine ⟨[leftOutNotice setting.options s.world.files node], ?_, ?_⟩
  · simp [isRemark_leftOutNotice]
  · rw [evalNestedModel_eq hrun, outcome_bind, outcome_get]
    simp only [h]
    rfl

end Nested

/-! ## Nodes -/

/-- What the evaluation of a node does after its beginning was told. -/
def evalDirective (setting : Setting) (record : Option Element) (place : SourcePlace) (node : Element) :
    Eval String :=
  match node.kind with
  | .source => do
    evalSource setting place node
    return ""
  | .query => evalQuery node (evalEach setting deepen record .inQuery node.children)
  | .action => evalAction node (evalEach setting (fun _ act => act) record .anywhere node.children)
  | .getNode =>
    evalGetNode node fun found => evalEach setting deepen (some found) .anywhere node.children
  | .getContent => evalGetContent node record
  | .literal => return literalText node
  | .model => evalNestedModel setting node
  | .passThrough =>
    evalPassThrough setting.options node (evalEach setting onOwnLine record .anywhere node.children)

theorem outcome_evalNode (setting : Setting) (record : Option Element) (place : SourcePlace)
    (node : Element) (s : Session) :
    outcome (evalNode setting record place node) s =
      outcome (evalDirective setting record place node) (s.enterNode node) := by
  cases node with
  | mk name attributes text tail children =>
    unfold evalNode
    rw [outcome_bind, outcome_tell]
    rfl

end Docweave
