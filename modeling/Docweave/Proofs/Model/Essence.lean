import Docweave.Proofs.Model.Reset

set_option autoImplicit false

/-! # What the output of a model depends on

A model can be laid out in other ways, and its directives can be given another prefix or further
attributes. `Element.essence` takes all this away from a model. `run_of_essence_eq` says that nothing
of it shows after a run: two models with the same essence have the same result, and leave the same
sources and the same world. -/

namespace Docweave

open Eval

/-! ## The essence of a model -/

/-- The attributes that directives read. -/
def AttrName.read : List String := [path, name, recursive, type, key, output]

namespace Element

mutual

/-- The element without what its evaluation leaves unread: texts that are neither literal nor scripts,
tails, and the prefixes and further attributes of directives. A literal keeps its children as they
are, as it is going to write them. -/
def essence : Element → Element
  | node@⟨name, attributes, text, _, children⟩ =>
    let bare : QName := { name with tagPrefix := none }
    let readable := attributes.filter fun a => AttrName.read.contains a.name
    match node.kind with
    | .passThrough => ⟨name, attributes, none, none, essenceAll children⟩
    | .literal => ⟨bare, readable, text, none, children⟩
    | _ => ⟨bare, readable, if node.script?.isSome then text else none, none, essenceAll children⟩

/-- The elements, each without what its evaluation leaves unread. -/
def essenceAll : List Element → List Element
  | [] => []
  | node :: rest => node.essence :: essenceAll rest

end

theorem kind_essence (node : Element) : node.essence.kind = node.kind := by
  cases node with
  | mk name attributes text tail children =>
    unfold essence
    split <;> rfl

theorem forall₂_essenceAll (nodes : List Element) :
    List.Forall₂ (fun node node' => node' = node.essence) nodes (essenceAll nodes) := by
  induction nodes with
  | nil => exact .nil
  | cons _ _ ih => exact .cons rfl ih

theorem children_essence {node : Element} (h : node.kind ≠ .literal) :
    node.essence.children = essenceAll node.children := by
  cases node with
  | mk name attributes text tail children =>
    unfold essence
    split
    · rfl
    · next hk => exact absurd hk h
    · rfl

theorem children_essence_of_literal {node : Element} (h : node.kind = .literal) :
    node.essence.children = node.children := by
  cases node with
  | mk name attributes text tail children =>
    unfold essence
    rw [h]

theorem isLeaf_essence (node : Element) : node.essence.isLeaf = node.isLeaf := by
  cases node with
  | mk name attributes text tail children =>
    have hall : (essenceAll children).isEmpty = children.isEmpty := by cases children <;> rfl
    unfold essence
    split
    · exact hall
    · rfl
    · exact hall

/-- An attribute that directives read is found as before. -/
theorem attr?_essence (node : Element) (word : String) (h : word ∈ AttrName.read) :
    node.essence.attr? word = node.attr? word := by
  have hread : ∀ attributes : List Attribute,
      (attributes.filter fun a => AttrName.read.contains a.name).find? (·.name == word) =
        attributes.find? (·.name == word) := by
    intro attributes
    rw [List.find?_filter]
    refine congrFun (congrArg _ (funext fun a => ?_)) attributes
    by_cases ha : a.name = word
    · simp [ha, h]
    · simp [ha]
  cases node with
  | mk name attributes text tail children =>
    unfold essence
    split
    · rfl
    · exact congrArg _ (hread attributes)
    · exact congrArg _ (hread attributes)

theorem textOrEmpty_essence {node : Element} (h : node.kind = .literal ∨ node.script?.isSome) :
    node.essence.textOrEmpty = node.textOrEmpty := by
  cases node with
  | mk name attributes text tail children =>
    unfold essence
    split
    · next hk =>
      have hnone : script? ⟨name, attributes, text, tail, children⟩ = none := by
        unfold script?
        rw [hk]
      rw [hk, hnone] at h
      simp at h
    · rfl
    · next hk =>
      rw [if_pos (h.resolve_left hk)]
      rfl

/-- A copied element keeps its tags. -/
theorem essence_of_passThrough {node : Element} (h : node.kind = .passThrough) :
    node.essence.name = node.name ∧ node.essence.attributes = node.attributes := by
  cases node with
  | mk name attributes text tail children =>
    unfold essence
    rw [h]
    exact ⟨rfl, rfl⟩

end Element

/-! ## Directives of the same essence -/

section Directives

variable (node : Element)

theorem evalSource_essence (hk : node.kind = .source) (setting : Setting) (place : SourcePlace) :
    evalSource setting place node.essence = evalSource setting place node := by
  unfold evalSource
  simp only [node.attr?_essence AttrName.type (by decide),
    node.attr?_essence AttrName.path (by decide),
    node.attr?_essence AttrName.name (by decide),
    node.attr?_essence AttrName.recursive (by decide)]
  cases htype : (node.attr? AttrName.type).bind SourceKind.ofWord? with
  | none => rfl
  | some kind =>
    cases kind with
    | files => rfl
    | url => rfl
    | custom =>
      have hscript := Element.script?_of_source hk htype
      rw [Element.textOrEmpty_essence (.inr (by rw [hscript]; rfl))]

theorem evalQuery_essence (body : Eval String) : evalQuery node.essence body = evalQuery node body := by
  unfold evalQuery
  rw [node.attr?_essence _ (by decide), node.attr?_essence _ (by decide)]

theorem recordsFor_essence : recordsFor node.essence = recordsFor node := by
  unfold recordsFor recordsWith
  rw [node.attr?_essence _ (by decide)]

theorem evalGetContent_essence (record : Option Element) :
    evalGetContent node.essence record = evalGetContent node record := by
  unfold evalGetContent
  rw [node.attr?_essence _ (by decide)]

theorem enterAction_essence (hk : node.kind = .action) (s : Session) :
    s.enterAction node.essence.actionKind node.essence = s.enterAction node.actionKind node := by
  have hkind : node.essence.actionKind = node.actionKind := by
    unfold Element.actionKind
    rw [node.attr?_essence _ (by decide)]
  unfold Session.enterAction
  rw [hkind, node.attr?_essence _ (by decide)]
  by_cases hcustom : node.actionKind = some .custom
  · have hscript := Element.script?_of_action hk hcustom
    rw [Element.textOrEmpty_essence (.inr (by rw [hscript]; rfl))]
  · simp only [if_neg hcustom]

theorem evalAction_essence (hk : node.kind = .action) (body : Eval String) :
    evalAction node.essence body = evalAction node body := by
  have hnotices : node.essence.actionNotices = node.actionNotices := by
    unfold Element.actionNotices
    rw [node.attr?_essence _ (by decide)]
  refine funext fun s => ?_
  change outcome (evalAction node.essence body) s = outcome (evalAction node body) s
  rw [outcome_evalAction, outcome_evalAction, hnotices, outcome_within, outcome_within,
    enterAction_essence node hk]

theorem literalText_essence (hk : node.kind = .literal) : literalText node.essence = literalText node := by
  have htext := Element.textOrEmpty_essence (.inl hk)
  unfold literalText
  rw [htext, Element.children_essence_of_literal hk]

theorem evalPassThrough_essence (hk : node.kind = .passThrough) (options : Options) (body : Eval String) :
    evalPassThrough options node.essence body = evalPassThrough options node body := by
  obtain ⟨hname, hattributes⟩ := Element.essence_of_passThrough hk
  unfold evalPassThrough Element.startTag Element.endTag
  rw [hname, hattributes, node.isLeaf_essence]

theorem deepen_essence (act : Eval String) : deepen node.essence act = deepen node act := by
  unfold deepen
  rw [node.kind_essence]

theorem writeOutput_essence (options : Options) (output : String) :
    writeOutput options node.essence output = writeOutput options node output := by
  unfold writeOutput
  rw [node.attr?_essence _ (by decide)]

end Directives

/-! ## Models of the same essence -/

/-- An evaluation of a model and one of its essence go side by side, if those of nested models do. -/
theorem parallel_essence {setting : Setting} (hnested : NestedAgree setting)
    (hinline : ∀ run, setting.nested = some run → ∀ node : Element, node.kind = .model →
      Agree (Session.Alike Eq) (run setting.options node) (run setting.options node.essence)) :
    Parallel (fun _ => Agree (Session.Alike Eq)) (fun node node' => node' = node.essence)
      setting setting where
  toSequential := observant_alike.toSequential
  kind := by
    rintro node _ rfl
    exact node.kind_essence.symm
  children := by
    rintro node _ rfl hk
    rw [Element.children_essence (fun hl => by rw [hl] at hk; cases hk)]
    exact Element.forall₂_essenceAll node.children
  began _ := agree_tellAll [_] [_]
  source := by
    rintro node _ rfl hk place
    rw [evalSource_essence node hk]
    refine agree_evalSource (fun _ => agree_run interchangeable_eq) setting place hk ?_
    exact fun source _ => Set.mem_univ source
  query := by
    rintro node _ body body' rfl - hbody
    rw [evalQuery_essence]
    exact agree_evalQuery node hbody
  action := by
    rintro node _ body body' rfl hk hbody
    rw [evalAction_essence node hk]
    exact agree_evalAction interchangeable_eq hk (fun source _ => Set.mem_univ source) hbody
  records := by
    rintro node _ rfl -
    rw [recordsFor_essence]
    exact agree_recordsFor interchangeable_eq node
  getContent := by
    rintro node _ rfl - record
    rw [evalGetContent_essence]
    exact observant_alike.related_evalGetContent node record
  literal := by
    rintro node _ rfl hk
    exact (literalText_essence node hk).symm
  model := by
    rintro node _ rfl hk
    exact agree_evalNestedModel hnested (node.attr?_essence _ (by decide)).symm node.isLeaf_essence.symm
      fun run hrun => agree_apart Session.Alike.enterModel (hinline run hrun node hk)
  passThrough := by
    rintro node _ body body' rfl hk hbody
    rw [evalPassThrough_essence node hk]
    exact observant_alike.related_evalPassThrough setting.options node _ _ hbody
  deepened := by
    rintro node _ act act' rfl hact
    rw [deepen_essence]
    exact agree_deepen node hact

theorem agree_evalModel_essence (setting : Setting) (hnested : NestedAgree setting)
    (hinline : ∀ run, setting.nested = some run → ∀ node : Element, node.kind = .model →
      Agree (Session.Alike Eq) (run setting.options node) (run setting.options node.essence))
    {model : Element} (hk : model.kind = .model) :
    Agree (Session.Alike Eq) (evalModel setting model) (evalModel setting model.essence) := by
  have hchildren : model.essence.children = Element.essenceAll model.children :=
    Element.children_essence (by rw [hk]; decide)
  refine (parallel_essence hnested hinline).related_evalModel hk (model.kind_essence.trans hk) ?_ ?_
  · rw [hchildren]
    exact Element.forall₂_essenceAll model.children
  · intro output
    rw [writeOutput_essence]
    exact agree_writeOutput setting.options model output

/-- A model agrees with its essence. The models nested in it by their own content have an essence of
their own; those from files are the same ones for both. -/
theorem agree_evalModelAt_essence (loader : Loader) (levels : Nat) (options : Options) {model : Element}
    (hk : model.kind = .model) :
    Agree (Session.Alike Eq) (evalModelAt loader levels options model)
      (evalModelAt loader levels options model.essence) := by
  induction levels generalizing options model with
  | zero =>
    unfold evalModelAt
    refine agree_evalModel_essence ⟨options, loader, none⟩ (fun run hrun => ?_) (fun run hrun => ?_) hk
    · cases hrun
    · cases hrun
  | succ levels ih =>
    unfold evalModelAt
    refine agree_evalModel_essence ⟨options, loader, some (evalModelAt loader levels)⟩
      (fun run hrun options model => ?_) (fun run hrun node hk => ?_) hk
    · cases hrun
      exact agree_evalModelAt interchangeable_eq loader levels options fun source _ =>
        Set.mem_univ source
    · cases hrun
      exact ih options hk

namespace Interpreter

theorem run_essence (interpreter : Interpreter) {model : Element} (hk : model.kind = .model) :
    visible (interpreter.run model) = visible (interpreter.run model.essence) := by
  obtain ⟨hresult, hsession⟩ := agree_evalModelAt_essence interpreter.loader
    interpreter.options.maxNesting interpreter.options hk interpreter.session interpreter.session
    ⟨rfl, rfl, rfl, rfl⟩
  exact visible_eq hresult hsession

/-- Two models of the same essence cannot be told apart by a run: the result is the same, the same text
or the same failure, and so are the sources and the world after it. -/
theorem run_of_essence_eq (interpreter : Interpreter) {model other : Element} (hk : model.kind = .model)
    (h : model.essence = other.essence) :
    visible (interpreter.run model) = visible (interpreter.run other) := by
  have hother : other.kind = .model := by rw [← other.kind_essence, ← h, model.kind_essence, hk]
  rw [interpreter.run_essence hk, h, ← interpreter.run_essence hother]

/-- A model on one line. -/
def plainModel : Element :=
  directive .model []
    [{ Element.ofTag "page" with
      children := [{ directive .literal [] [] with text := some "here" }] }]

/-- The same model laid out on several lines, with no prefix on its directives, and with an attribute
and a text that no directive reads. -/
def laidOutModel : Element :=
  { name := ⟨some directiveUri, none, "model"⟩
    attributes := [⟨"version", "1"⟩]
    text := some "\n  "
    tail := none
    children := [{ Element.ofTag "page" with
      text := some "\n    remark"
      children := [{ directive .literal [] [] with text := some "here", tail := some "\n  " }]
      tail := some "\n" }] }

theorem run_of_essence_eq_laidOut :
    plainModel.kind = .model ∧ plainModel.essence = laidOutModel.essence ∧
      visible ((create .standard .aggregator .empty).run plainModel) =
        visible ((create .standard .aggregator .empty).run laidOutModel) :=
  ⟨rfl, rfl, run_of_essence_eq (create .standard .aggregator .empty) rfl rfl⟩

end Interpreter

end Docweave
