import Docweave.Proofs.Model.Parallel

set_option autoImplicit false

/-! # Relations that an evaluation goes along

A relation between sessions that each single change goes along, and that every directive passes on
from its content to itself, holds between the session before an evaluation and the one after it,
whether the evaluation fails or not. The induction over the model, and over the models nested in it,
is made once here. -/

namespace Docweave

open Eval

/-! ## Relations -/

/-- A loader tells a notice about some source. -/
def Loader.Tells (loader : Loader) (notice : Notice) : Prop :=
  ∃ world, (∃ directory root deep, notice ∈ (loader.files world directory root deep).notices) ∨
    ∃ location base root, notice ∈ (loader.location world location base root).notices

/-- A relation that all changes by directives without content go along, except that a source is read
and registered. It may depend on where a source would be declared. -/
structure Ancillary (loader : Loader) (R : SourcePlace → Session → Session → Prop) : Prop where
  refl : ∀ place, Std.Refl (R place)
  trans : ∀ place, IsTrans Session (R place)
  told : ∀ place notices s, (∀ notice ∈ notices, notice.isRemark ∨ loader.Tells notice) →
    R place s (s.told notices)
  ran : ∀ place source tree s, R place s { s with runner := (s.runner.run source tree).2 }
  wrote : ∀ place files s, R place s { s with world := { s.world with files := files } }

/-- A relation that all changes by directives without content go along. -/
structure Incidental (loader : Loader) (R : SourcePlace → Session → Session → Prop) : Prop
    extends Ancillary loader R where
  registered : ∀ place policy tree s,
    R place s { s with sources := s.sources.register policy place tree }
  drained : ∀ place s, R place s { s with world := { s.world with input := .text "" } }

/-- A relation that the beginning of an evaluation goes along as well, and that every directive passes
on from its content to itself. -/
structure Persistent (loader : Loader) (R : SourcePlace → Session → Session → Prop) : Prop
    extends Incidental loader R where
  began : ∀ place name kind s, R place s (s.told [.evaluating name kind])
  anywhere : ∀ {place s s'}, R .anywhere s s' → R place s s'
  query : ∀ {place path s s'}, R .inQuery (s.enterQuery path) s' → R place s (s.leaveQuery s')
  action : ∀ {place action node s s'},
    R .anywhere (s.enterAction action node) s' → R place s s'.leaveAction
  deepened : ∀ {place s s'}, R place s.deeper s' → R place s s'.shallower
  model : ∀ {place s s'}, R .anywhere s.enterModel s' → R place s (s.leaveModel s')

/-- The models that a setting lets be nested lead along a relation. -/
def NestedLead (setting : Setting) (Q : Session → Session → Prop) : Prop :=
  ∀ run, setting.nested = some run → ∀ options model, Leads Q (run options model)

/-! ## Directives without content -/

namespace Ancillary

variable {loader : Loader} {R : SourcePlace → Session → Session → Prop} (h : Ancillary loader R)
  (place : SourcePlace)

include h

theorem leads_tell {notice : Notice} (hn : notice.isRemark) : Leads (R place) (tell notice) := by
  intro s
  exact h.told place [notice] s fun n hmem => .inl (List.mem_singleton.1 hmem ▸ hn)

theorem leads_tellAll {notices : List Notice}
    (hn : ∀ notice ∈ notices, notice.isRemark ∨ loader.Tells notice) :
    Leads (R place) (tellAll notices) :=
  fun s => h.told place notices s hn

theorem observant_leads : Observant fun _ act _ => Leads (R place) act := by
  have := h.refl place
  have := h.trans place
  exact {
    pure := .pure
    bind := .bind
    look := fun hnext => Leads.get.bind fun s => hnext s s rfl rfl rfl
    remark := fun hn _ => h.leads_tellAll place fun notice hmem => .inl (hn notice hmem) }

theorem leads_recordsFor (node : Element) : Leads (R place) (recordsFor node) := by
  have := h.refl place
  refine (h.observant_leads place).related_recordsFor (fun tree => .onRunner fun s => ?_) node
  unfold ScriptRunner.runPrimed
  cases s.runner.primed with
  | some source => exact h.ran place source tree s
  | none => exact Std.Refl.refl s

theorem leads_evalGetContent (node : Element) (record : Option Element) :
    Leads (R place) (evalGetContent node record) :=
  (h.observant_leads place).related_evalGetContent node record

theorem leads_writeOutput (options : Options) (model : Element) (output : String) :
    Leads (R place) (writeOutput options model output) := by
  have := h.refl place
  have := h.trans place
  unfold writeOutput
  cases model.attr? AttrName.output with
  | none => exact .pure ()
  | some target =>
    by_cases hw : options.writeOutput
    · simp only [if_pos hw]
      refine Leads.get.bind fun s => ?_
      cases s.world.files.writeText (options.baseDir.join ⟨target⟩) output with
      | error problem => exact .throw _
      | ok files =>
        exact (Leads.modify fun s => h.wrote place _ s).bind fun _ => h.leads_tell place rfl
    · simp only [if_neg hw]
      exact h.leads_tell place rfl

/-- What a nested model leads to by itself is made up for by what is put back after it. -/
theorem leads_evalNestedModel {Q : Session → Session → Prop} {setting : Setting}
    (hnested : NestedLead setting Q) (hmodel : ∀ s s', Q s.enterModel s' → R place s (s.leaveModel s'))
    (node : Element) : Leads (R place) (evalNestedModel setting node) := by
  have := h.refl place
  have := h.trans place
  cases hrun : setting.nested with
  | none =>
    rw [evalNestedModel_of_none hrun]
    exact .throw _
  | some run =>
    intro s
    cases hm : nestedModel? setting.options s.world.files node with
    | none =>
      obtain ⟨notices, hremarks, hs⟩ := exists_told_of_nestedModel?_eq_none hrun hm
      rw [hs]
      exact h.told place notices s fun n hn => .inl (hremarks n hn)
    | some nested =>
      obtain ⟨options, model⟩ := nested
      obtain ⟨notices, hremarks, hs⟩ := exists_told_evalNestedModel hrun hm
      rw [hs]
      refine IsTrans.trans _ _ _ (hmodel s _ (hnested run hrun options model s.enterModel)) ?_
      exact h.told place notices _ fun n hn => .inl (hremarks n hn)

end Ancillary

/-! ## Sources -/

namespace Incidental

variable {loader : Loader} {R : SourcePlace → Session → Session → Prop} (h : Incidental loader R)
  (place : SourcePlace)

include h

theorem leads_registerSource (setting : Setting) (tree : Element) :
    Leads (R place) (registerSource setting place tree) :=
  .modify (h.registered place setting.options.localSources tree)

theorem leads_loadSource (setting : Setting) {load : Surroundings → Loading}
    (hload : ∀ world, ∀ notice ∈ (load world).notices, loader.Tells notice) :
    Leads (R place) (loadSource setting place load) := by
  have := h.refl place
  exact (h.observant_leads place).related_loadSource (h.leads_registerSource place setting)
    (fun world => h.leads_tellAll place fun n hn => .inr (hload world n hn))
    (.modify fun s => h.drained place s) fun _ failure _ _ => .throw failure

theorem leads_evalSource {setting : Setting} (hl : setting.loader = loader) (node : Element) :
    Leads (R place) (evalSource setting place node) := by
  subst hl
  refine (h.observant_leads place).related_evalSource (h.leads_registerSource place setting)
    (fun _ _ _ => ?_) (fun _ _ _ => ?_) fun _ tree => .onRunner (h.ran place node.textOrEmpty tree)
  · exact h.leads_loadSource place setting fun world _ hn => ⟨world, .inl ⟨_, _, _, hn⟩⟩
  · exact h.leads_loadSource place setting fun world _ hn => ⟨world, .inr ⟨_, _, _, hn⟩⟩

end Incidental

/-! ## Directives with content -/

namespace Persistent

variable {loader : Loader} {R : SourcePlace → Session → Session → Prop} (h : Persistent loader R)
  (place : SourcePlace)

include h

theorem leads_evalQuery (node : Element) {body : Eval String} (hbody : Leads (R .inQuery) body) :
    Leads (R place) (evalQuery node body) := by
  have := h.trans place
  intro s
  rw [outcome_evalQuery]
  have htold := h.told place node.queryNotices s fun n hn => .inl (isRemark_of_mem_queryNotices hn)
  exact IsTrans.trans _ _ _ htold (Leads.within hbody (fun _ _ => h.query) _)

theorem leads_evalAction (node : Element) {body : Eval String} (hbody : Leads (R .anywhere) body) :
    Leads (R place) (evalAction node body) := by
  have := h.trans place
  intro s
  rw [outcome_evalAction]
  have htold := h.told place node.actionNotices s fun n hn => .inl (isRemark_of_mem_actionNotices hn)
  exact IsTrans.trans _ _ _ htold (Leads.within hbody (fun _ _ => h.action) _)

theorem leads_evalGetNode (node : Element) {render : Element → Eval String}
    (hrender : ∀ record, Leads (R .anywhere) (render record)) :
    Leads (R place) (evalGetNode node render) := by
  have := h.refl place
  have := h.trans place
  -- the content may stand anywhere, wherever the directive itself stands
  have hplace : ∀ record, Leads (R place) (render record) :=
    fun record s => h.anywhere (hrender record s)
  rw [evalGetNode_eq]
  refine (h.leads_recordsFor place node).bind fun found => ?_
  cases found with
  | none => exact .pure ""
  | some found =>
    unfold renderRecords
    by_cases hl : node.isLeaf
    · simp only [if_pos hl]
      exact .pure _
    · simp only [if_neg hl]
      have hrecords : Leads (R place) (found.2.mapM render) :=
        @Sequential.mapM _ (h.observant_leads place).toSequential _ _ render render hplace found.2
      exact hrecords.bind fun _ => .pure _

theorem leads_evalPassThrough (options : Options) (node : Element) {body : Eval String}
    (hbody : Leads (R place) body) : Leads (R place) (evalPassThrough options node body) :=
  (h.observant_leads place).related_evalPassThrough options node body body hbody

theorem leads_deepen (node : Element) {act : Eval String} (hact : Leads (R place) act) :
    Leads (R place) (deepen node act) := by
  intro s
  rw [outcome_deepen]
  by_cases hk : node.kind = .passThrough
  · rw [if_pos hk]
    exact Leads.within hact (fun _ _ => h.deepened) s
  · rw [if_neg hk]
    exact hact s

theorem leads_onOwnLine (node : Element) {act : Eval String} (hact : Leads (R place) act) :
    Leads (R place) (onOwnLine node act) := by
  have := h.refl place
  have := h.trans place
  exact hact.bind fun _ => .pure _

/-! ## Models -/

mutual

theorem leads_evalNode {setting : Setting} (hl : setting.loader = loader)
    (hnested : NestedLead setting (R .anywhere))
    (record : Option Element) (place : SourcePlace) :
    (node : Element) → Leads (R place) (evalNode setting record place node)
  | ⟨name, attributes, text, tail, children⟩ => by
    have := h.refl place
    have := h.trans place
    unfold evalNode
    have hbegan : Leads (R place) (tell (.evaluating name.display
        (Element.kind ⟨name, attributes, text, tail, children⟩))) := h.began place _ _
    refine hbegan.bind fun _ => ?_
    cases Element.kind ⟨name, attributes, text, tail, children⟩ with
    | source => exact (h.leads_evalSource place hl _).bind fun _ => .pure ""
    | query =>
      exact h.leads_evalQuery place _ (leads_evalEach hl hnested record .inQuery
        (fun node _ => h.leads_deepen .inQuery node) children)
    | action =>
      exact h.leads_evalAction place _ (leads_evalEach hl hnested record .anywhere
        (fun _ _ hact => hact) children)
    | getNode =>
      refine h.leads_evalGetNode place _ fun found => ?_
      exact leads_evalEach hl hnested (some found) .anywhere
        (fun node _ => h.leads_deepen .anywhere node) children
    | getContent => exact h.leads_evalGetContent place _ record
    | literal => exact .pure _
    | model => exact h.leads_evalNestedModel place hnested (fun _ _ => h.model) _
    | passThrough =>
      have hbody := leads_evalEach hl hnested record .anywhere
        (fun node _ => h.leads_onOwnLine .anywhere node) children
      exact h.leads_evalPassThrough place _ _ fun s => h.anywhere (hbody s)

theorem leads_evalEach {setting : Setting} (hl : setting.loader = loader)
    (hnested : NestedLead setting (R .anywhere))
    (record : Option Element) (place : SourcePlace) {frame : Element → Eval String → Eval String}
    (hframe : ∀ node act, Leads (R place) act → Leads (R place) (frame node act)) :
    (nodes : List Element) → Leads (R place) (evalEach setting frame record place nodes)
  | [] => by
    have := h.refl place
    exact .pure ""
  | node :: rest => by
    have := h.refl place
    have := h.trans place
    unfold evalEach
    refine (hframe node _ (leads_evalNode hl hnested record place node)).bind fun _ => ?_
    exact (leads_evalEach hl hnested record place hframe rest).bind fun _ => .pure _

end

theorem leads_evalModel {setting : Setting} (hl : setting.loader = loader)
    (hnested : NestedLead setting (R .anywhere)) (model : Element) :
    Leads (R .anywhere) (evalModel setting model) := by
  have := h.refl .anywhere
  have := h.trans .anywhere
  unfold evalModel
  by_cases hk : model.kind = .model
  · rw [if_pos hk]
    refine (h.leads_evalEach hl hnested none .anywhere
      (fun node _ => h.leads_deepen .anywhere node) model.children).bind fun output => ?_
    exact (h.leads_writeOutput .anywhere _ _ output).bind fun _ => .pure output
  · rw [if_neg hk]
    exact .throw _

theorem leads_evalModelAt (levels : Nat) (options : Options) (model : Element) :
    Leads (R .anywhere) (evalModelAt loader levels options model) := by
  induction levels generalizing options model with
  | zero =>
    unfold evalModelAt
    refine h.leads_evalModel rfl (fun run hrun => ?_) model
    cases hrun
  | succ levels ih =>
    unfold evalModelAt
    refine h.leads_evalModel rfl (fun run hrun => ?_) model
    -- what is nested has one level less
    cases hrun
    exact ih

end Persistent

end Docweave
