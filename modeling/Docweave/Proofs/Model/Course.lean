import Docweave.Proofs.Model.AtRest
import Docweave.Proofs.Tree.Walk

set_option autoImplicit false

/-! # The course of an evaluation

The course of an evaluation lists, in order, when the evaluation of each node begins and when it is
over, with the session at each beginning. It follows the evaluation step by step and takes the
sessions from it; models nested in the model have courses of their own. `Follows` says how the sessions
of a course hang together, so that what holds at every moment is shown by one induction over it, and
`Course` says it up to a relation that every directive goes along. -/

namespace Docweave

open Eval

/-! ## Moments -/

/-- A moment of the evaluation of a model. -/
inductive Moment where
  /-- The evaluation of a node begins, for a record if there is one. -/
  | enters (node : Located) (record : Option Element) (place : SourcePlace) (session : Session)
  /-- The evaluation of a node is over. -/
  | leaves (node : Located)

/-- The node that a moment is about. -/
def Moment.node : Moment → Located
  | enters node _ _ _ => node
  | leaves node => node

/-- What holds at every element of a list, seen from what those before have made of a value. -/
def AtEach {α β : Type} (step : β → α → β) (P : β → α → Prop) : β → List α → Prop
  | _, [] => True
  | b, m :: rest => P b m ∧ AtEach step P (step b m) rest

namespace AtEach

variable {α β : Type} {step : β → α → β} {P : β → α → Prop} {b : β}

theorem append {moments more : List α} (h : AtEach step P b moments)
    (hmore : AtEach step P (moments.foldl step b) more) : AtEach step P b (moments ++ more) := by
  induction moments generalizing b with
  | nil => exact hmore
  | cons m rest ih => exact ⟨h.1, ih h.2 hmore⟩

theorem at_split {before after : List α} {m : α}
    (h : AtEach step P b (before ++ m :: after)) : P (before.foldl step b) m := by
  induction before generalizing b with
  | nil => exact h.1
  | cons first rest ih => exact ih h.2

end AtEach

/-! ## Around each node -/

/-- The session in which a child begins: one level deeper, if its parent asks for it and the child is
copied. -/
def Session.enterChild (deep : Bool) (node : Element) (s : Session) : Session :=
  if deep ∧ node.kind = .passThrough then s.deeper else s

/-- The session after a child. -/
def Session.leaveChild (deep : Bool) (node : Element) (s : Session) : Session :=
  if deep ∧ node.kind = .passThrough then s.shallower else s

/-- A way to evaluate the children of a node. -/
structure Frame where
  around : Element → Eval String → Eval String
  deep : Bool
  session_around : ∀ node act s, (outcome (around node act) s).2 =
    (outcome act (s.enterChild deep node)).2.leaveChild deep node

namespace Frame

theorem session_deepen (node : Element) (act : Eval String) (s : Session) :
    (outcome (deepen node act) s).2 =
      (outcome act (s.enterChild true node)).2.leaveChild true node := by
  rw [outcome_deepen, Session.enterChild, Session.leaveChild]
  by_cases h : node.kind = .passThrough
  · simp only [h, and_self, if_true]
    rfl
  · simp only [h, and_false, if_false]

theorem session_onOwnLine (node : Element) (act : Eval String) (s : Session) :
    (outcome (onOwnLine node act) s).2 = (outcome act s).2 :=
  session_bind_pure act _ s

/-- Children of models, queries and record directives. -/
def deeper : Frame := ⟨deepen, true, session_deepen⟩

/-- Children of actions. -/
def plain : Frame :=
  ⟨fun _ act => act, false, fun _ _ _ => by simp [Session.enterChild, Session.leaveChild]⟩

/-- Children of copied elements. -/
def ownLine : Frame :=
  ⟨onOwnLine, false, fun node act s => by
    simp [Session.enterChild, Session.leaveChild, session_onOwnLine]⟩

end Frame

/-! ## The course of a model -/

/-- The moments for some records one after the other, as long as none fails. -/
def courseRecords (render : Element → Eval String) (course : Element → Session → List Moment) :
    List Element → Session → List Moment
  | [], _ => []
  | record :: rest, s =>
    course record s ++
      match outcome (render record) s with
      | (.ok _, s') => courseRecords render course rest s'
      | (.error _, _) => []

mutual

/-- The moments of a node that stands at the end of `ascent`. -/
def courseNode (setting : Setting) (record : Option Element) (place : SourcePlace) (ascent : List Nat) :
    Element → Session → List Moment
  | node@⟨_, _, _, _, children⟩, s =>
    let begun := s.enterNode node
    let content : List Moment :=
      match node.kind with
      | .query =>
        courseEach setting .deeper record .inQuery ascent 0 children
          ((begun.told node.queryNotices).enterQuery node.queryPath)
      | .action =>
        courseEach setting .plain record .anywhere ascent 0 children
          ((begun.told node.actionNotices).enterAction node.actionKind node)
      | .getNode =>
        match outcome (recordsFor node) begun with
        | (.ok (some (_, records)), s') =>
          if node.isLeaf then []
          else
            courseRecords (fun found => evalEach setting deepen (some found) .anywhere children)
              (fun found => courseEach setting .deeper (some found) .anywhere ascent 0 children)
              records s'
        | _ => []
      | .passThrough => courseEach setting .ownLine record .anywhere ascent 0 children begun
      | .source | .getContent | .literal | .model => []
    .enters ⟨ascent, node⟩ record place s :: (content ++ [.leaves ⟨ascent, node⟩])

/-- The moments of children of the node at the end of `ascent`, the first of them at position `first`,
as long as none fails. -/
def courseEach (setting : Setting) (frame : Frame) (record : Option Element) (place : SourcePlace)
    (ascent : List Nat) : Nat → List Element → Session → List Moment
  | _, [], _ => []
  | first, node :: rest, s =>
    courseNode setting record place (first :: ascent) node (s.enterChild frame.deep node) ++
      match outcome (frame.around node (evalNode setting record place node)) s with
      | (.ok _, s') => courseEach setting frame record place ascent (first + 1) rest s'
      | (.error _, _) => []

end

/-- The moments of the content of a node, after its beginning was told. -/
def courseContent (setting : Setting) (record : Option Element) (ascent : List Nat) (node : Element)
    (s : Session) : List Moment :=
  match node.kind with
  | .query =>
    courseEach setting .deeper record .inQuery ascent 0 node.children
      ((s.told node.queryNotices).enterQuery node.queryPath)
  | .action =>
    courseEach setting .plain record .anywhere ascent 0 node.children
      ((s.told node.actionNotices).enterAction node.actionKind node)
  | .getNode =>
    match outcome (recordsFor node) s with
    | (.ok (some (_, records)), s') =>
      if node.isLeaf then []
      else
        courseRecords (fun found => evalEach setting deepen (some found) .anywhere node.children)
          (fun found => courseEach setting .deeper (some found) .anywhere ascent 0 node.children)
          records s'
    | _ => []
  | .passThrough => courseEach setting .ownLine record .anywhere ascent 0 node.children s
  | .source | .getContent | .literal | .model => []

theorem courseNode_eq (setting : Setting) (record : Option Element) (place : SourcePlace)
    (ascent : List Nat) (node : Element) (s : Session) :
    courseNode setting record place ascent node s =
      .enters ⟨ascent, node⟩ record place s ::
        (courseContent setting record ascent node (s.enterNode node) ++ [.leaves ⟨ascent, node⟩]) := by
  cases node with
  | mk name attributes text tail children =>
    unfold courseNode courseContent
    rfl

/-- The moments of a model. -/
def courseModel (setting : Setting) (model : Element) (s : Session) : List Moment :=
  if model.kind = .model then courseEach setting .deeper none .anywhere [] 0 model.children s else []

/-! ## The sessions of a course -/

/-- The children of such a directive go one level deeper if they are copied. -/
def DirectiveKind.deepens : DirectiveKind → Bool
  | model | query | getNode => true
  | source | action | getContent | literal | passThrough => false

/-- Where the sources among the children of such a directive are declared. -/
def DirectiveKind.contentPlace : DirectiveKind → SourcePlace
  | query => .inQuery
  | model | source | action | getNode | getContent | literal | passThrough => .anywhere

namespace Session

/-- The session in which the content of a node begins: a query or an action has set something, and
what has no content is over. -/
def opened (setting : Setting) (record : Option Element) (place : SourcePlace) (node : Element)
    (s : Session) : Session :=
  let begun := s.enterNode node
  match node.kind with
  | .source => (outcome (evalSource setting place node) begun).2
  | .query => (begun.told node.queryNotices).enterQuery node.queryPath
  | .action => (begun.told node.actionNotices).enterAction node.actionKind node
  | .getNode => (outcome (recordsFor node) begun).2
  | .getContent => (outcome (evalGetContent node record) begun).2
  | .model => (outcome (evalNestedModel setting node) begun).2
  | .literal | .passThrough => begun

/-- The session after a node, from the one in which the node has begun and the one after its
content. -/
def closed (node : Element) (s s' : Session) : Session :=
  match node.kind with
  | .query => s.leaveQuery s'
  | .action => s'.leaveAction
  | .model | .source | .getNode | .getContent | .literal | .passThrough => s'

end Session

/-- Moments of children of the node at the end of `ascent` lead from one session to another, just as
the evaluation goes. -/
inductive Follows (setting : Setting) (model : Element) :
    Bool → SourcePlace → List Nat → Session → List Moment → Session → Prop
  | nil {deep place ascent s} : Follows setting model deep place ascent s [] s
  | node {deep place ascent i node record s s₀ s₂ s' content rest} :
    model.at? (i :: ascent).reverse = some node →
    s.enterChild deep node = s₀ →
    Follows setting model node.kind.deepens node.kind.contentPlace (i :: ascent)
      (s₀.opened setting record place node) content s₂ →
    Follows setting model deep place ascent ((s₀.closed node s₂).leaveChild deep node) rest s' →
    Follows setting model deep place ascent s
      (.enters ⟨i :: ascent, node⟩ record place s₀ ::
        (content ++ .leaves ⟨i :: ascent, node⟩ :: rest)) s'

section Follows

variable {setting : Setting} {model : Element} {deep : Bool} {place : SourcePlace} {ascent : List Nat}

theorem Follows.append {s s' s'' : Session} {moments more : List Moment}
    (h : Follows setting model deep place ascent s moments s')
    (hmore : Follows setting model deep place ascent s' more s'') :
    Follows setting model deep place ascent s (moments ++ more) s'' := by
  induction h with
  | nil => exact hmore
  | node hat hbegins hcontent _ _ ih =>
    rw [List.cons_append, List.append_assoc, List.cons_append]
    exact .node hat hbegins hcontent (ih hmore)

/-- Records one after the other follow a course, if each of them does. -/
theorem follows_courseRecords {render : Element → Eval String}
    {course : Element → Session → List Moment}
    (h : ∀ record s, Follows setting model deep place ascent s (course record s)
      (outcome (render record) s).2)
    (records : List Element) (s : Session) :
    Follows setting model deep place ascent s (courseRecords render course records s)
      (outcome (records.mapM render) s).2 := by
  induction records generalizing s with
  | nil => exact .nil
  | cons record rest ih =>
    have hrecord := h record s
    rw [courseRecords, List.mapM_cons, outcome_bind]
    cases hout : outcome (render record) s with
    | mk result s' =>
      rw [hout] at hrecord
      cases result with
      | error failure => simpa only [List.append_nil] using hrecord
      | ok output =>
        simp only [session_bind_pure]
        exact hrecord.append (ih s')

/-- A node follows its course, if its children do. -/
theorem exists_follows_of_children (node : Element)
    (hchildren : ∀ record place (frame : Frame) s, Follows setting model frame.deep place ascent s
      (courseEach setting frame record place ascent 0 node.children s)
      (outcome (evalEach setting frame.around record place node.children) s).2)
    (record : Option Element) (place : SourcePlace) (s₀ : Session) :
    ∃ s₂, (outcome (evalNode setting record place node) s₀).2 = s₀.closed node s₂ ∧
      Follows setting model node.kind.deepens node.kind.contentPlace ascent
        (s₀.opened setting record place node)
        (courseContent setting record ascent node (s₀.enterNode node)) s₂ := by
  rw [outcome_evalNode]
  unfold evalDirective courseContent Session.opened Session.closed
  cases hk : node.kind with
  | query =>
    simp only [outcome_evalQuery, outcome_within]
    exact ⟨_, rfl, hchildren record .inQuery .deeper _⟩
  | action =>
    simp only [outcome_evalAction, outcome_within]
    exact ⟨_, rfl, hchildren record .anywhere .plain _⟩
  | getNode =>
    simp only [evalGetNode_eq]
    rw [outcome_bind]
    cases hout : outcome (recordsFor node) (s₀.enterNode node) with
    | mk result s₁ =>
      rcases result with failure | _ | ⟨before, records⟩
      -- the transform fails, the path leads nowhere, or there are records
      · exact ⟨s₁, rfl, .nil⟩
      · exact ⟨s₁, rfl, .nil⟩
      · simp only [renderRecords]
        by_cases hleaf : node.isLeaf
        · simp only [if_pos hleaf]
          exact ⟨s₁, rfl, .nil⟩
        · simp only [if_neg hleaf, session_bind_pure]
          exact ⟨_, rfl, follows_courseRecords
            (fun found s => hchildren (some found) .anywhere .deeper s) records s₁⟩
  | passThrough =>
    -- without children the content is not evaluated, and would change nothing
    have hleaf : node.isLeaf → ∀ s, (outcome (evalEach setting onOwnLine record .anywhere
        node.children) s).2 = s := by
      intro hl s
      rw [List.isEmpty_iff.1 hl]
      rfl
    simp only [session_evalPassThrough setting.options hleaf]
    exact ⟨_, rfl, hchildren record .anywhere .ownLine _⟩
  | source =>
    exact ⟨_, session_bind_pure _ (fun _ => "") _, .nil⟩
  | getContent | literal | model => exact ⟨_, rfl, .nil⟩

mutual

/-- The evaluation of a node follows its course. -/
theorem exists_follows_evalNode (record : Option Element) (place : SourcePlace) (ascent : List Nat) :
    (node : Element) → (s₀ : Session) → model.at? ascent.reverse = some node →
      ∃ s₂, (outcome (evalNode setting record place node) s₀).2 = s₀.closed node s₂ ∧
        Follows setting model node.kind.deepens node.kind.contentPlace ascent
          (s₀.opened setting record place node)
          (courseContent setting record ascent node (s₀.enterNode node)) s₂
  | ⟨name, attributes, text, tail, children⟩, s₀, hat => by
    refine exists_follows_of_children _ (fun record place frame s => ?_) record place s₀
    refine follows_evalEach record place frame ascent 0 children s fun k child hc => ?_
    rw [List.reverse_cons, Element.at?_append, hat, Option.bind_some, Nat.zero_add]
    simp only [Element.at?, hc, Option.bind_some]

theorem follows_evalEach (record : Option Element) (place : SourcePlace) (frame : Frame)
    (ascent : List Nat) (first : Nat) :
    (nodes : List Element) → (s : Session) →
      (∀ k node, nodes[k]? = some node → model.at? ((first + k) :: ascent).reverse = some node) →
      Follows setting model frame.deep place ascent s
        (courseEach setting frame record place ascent first nodes s)
        (outcome (evalEach setting frame.around record place nodes) s).2
  | [], s, _ => .nil
  | node :: rest, s, hat => by
    have hnode : model.at? (first :: ascent).reverse = some node := hat 0 node rfl
    obtain ⟨s₂, hends, hcontent⟩ := exists_follows_evalNode record place (first :: ascent) node
      (s.enterChild frame.deep node) hnode
    have hend := frame.session_around node (evalNode setting record place node) s
    rw [hends] at hend
    unfold courseEach evalEach
    rw [courseNode_eq, List.cons_append, List.append_assoc, outcome_bind]
    cases hout : outcome (frame.around node (evalNode setting record place node)) s with
    | mk result s' =>
      rw [hout] at hend
      simp only at hend
      subst hend
      cases result with
      -- the children after one that fails are not evaluated
      | error failure => exact .node hnode rfl hcontent .nil
      | ok output =>
        refine .node hnode rfl hcontent ?_
        simp only [session_bind_pure]
        refine follows_evalEach record place frame ascent (first + 1) rest _ fun k n hn => ?_
        have hnext := hat (k + 1) n hn
        rwa [Nat.add_assoc, Nat.add_comm 1 k]

end

/-- The evaluation of a model follows its course, and then writes its output if nothing has failed. -/
theorem exists_follows_evalModel (s : Session) :
    ∃ s', Follows setting model true .anywhere [] s (courseModel setting model s) s' ∧
      ((outcome (evalModel setting model) s).2 = s' ∨ ∃ output,
        (outcome (evalModel setting model) s).2 =
          (outcome (writeOutput setting.options model output) s').2) := by
  unfold courseModel evalModel
  by_cases hk : model.kind = .model
  · rw [if_pos hk, if_pos hk]
    have hat : ∀ k node, model.children[k]? = some node →
        model.at? ((0 + k) :: []).reverse = some node := by
      intro k node hn
      rw [Nat.zero_add, List.reverse_singleton]
      simp only [Element.at?, hn, Option.bind_some]
    have hcourse := @follows_evalEach setting model none .anywhere .deeper [] 0 model.children s hat
    refine ⟨_, hcourse, ?_⟩
    rw [outcome_bind]
    cases hout : outcome (evalEach setting Frame.deeper.around none .anywhere model.children) s with
    | mk result s' =>
      have hdeepen : outcome (evalEach setting deepen none .anywhere model.children) s =
        (result, s') := hout
      rw [hdeepen]
      cases result with
      | error failure => exact .inl rfl
      | ok output => exact .inr ⟨output, session_bind_pure _ (fun _ => output) s'⟩
  · rw [if_neg hk, if_neg hk]
    exact ⟨s, .nil, .inl rfl⟩

end Follows

/-! ## How the sessions of a course hang together -/

/-- What a node does around its content: the node begins in `s₀`, its content begins in `s₁` and ends
in `s₂`, and the node ends in `s₃`. What it does by itself goes along `R`, and what is done by a model
that it nests along `N`. -/
def Around (R : SourcePlace → Session → Session → Prop) (N : Element → Session → Session → Prop)
    (place : SourcePlace) (node : Element) (s₀ s₁ s₂ s₃ : Session) : Prop :=
  match node.kind with
  | .query =>
    ∃ s, R place (s₀.enterNode node) s ∧ s₁ = s.enterQuery node.queryPath ∧ s₃ = s.leaveQuery s₂
  | .action =>
    ∃ s, R place (s₀.enterNode node) s ∧ s₁ = s.enterAction node.actionKind node ∧
      s₃ = s₂.leaveAction
  | .model => N node (s₀.enterNode node) s₁ ∧ s₃ = s₂
  | _ => R place (s₀.enterNode node) s₁ ∧ s₃ = s₂

/-- Moments of children of the node at the end of `ascent` lead from one session to another. -/
inductive Course (R : SourcePlace → Session → Session → Prop)
    (N : Element → Session → Session → Prop) (model : Element) :
    Bool → SourcePlace → List Nat → Session → List Moment → Session → Prop
  | nil {deep place ascent s} : Course R N model deep place ascent s [] s
  | node {deep place ascent i node record s s₁ s₂ s₃ s' content rest} :
    model.at? (i :: ascent).reverse = some node →
    Around R N place node (s.enterChild deep node) s₁ s₂ s₃ →
    Course R N model node.kind.deepens node.kind.contentPlace (i :: ascent) s₁ content s₂ →
    Course R N model deep place ascent (s₃.leaveChild deep node) rest s' →
    Course R N model deep place ascent s
      (.enters ⟨i :: ascent, node⟩ record place (s.enterChild deep node) ::
        (content ++ .leaves ⟨i :: ascent, node⟩ :: rest)) s'

section Relations

variable {R : SourcePlace → Session → Session → Prop} {N : Element → Session → Session → Prop}
  {setting : Setting} {model : Element} (h : Incidental setting.loader R)
  (hnested : ∀ node s, N node s (outcome (evalNestedModel setting node) s).2)

include h hnested

theorem around_opened_closed (record : Option Element) (place : SourcePlace) (node : Element)
    (s₀ s₂ : Session) :
    Around R N place node s₀ (s₀.opened setting record place node) s₂ (s₀.closed node s₂) := by
  have := h.refl place
  unfold Around Session.opened Session.closed
  cases hk : node.kind with
  | query =>
    have htold := h.told place node.queryNotices (s₀.enterNode node)
      fun n hn => .inl (isRemark_of_mem_queryNotices hn)
    exact ⟨_, htold, rfl, rfl⟩
  | action =>
    have htold := h.told place node.actionNotices (s₀.enterNode node)
      fun n hn => .inl (isRemark_of_mem_actionNotices hn)
    exact ⟨_, htold, rfl, rfl⟩
  | model => exact ⟨hnested node (s₀.enterNode node), rfl⟩
  | source => exact ⟨h.leads_evalSource place rfl node (s₀.enterNode node), rfl⟩
  | getNode => exact ⟨h.leads_recordsFor place node (s₀.enterNode node), rfl⟩
  | getContent => exact ⟨h.leads_evalGetContent place node record (s₀.enterNode node), rfl⟩
  | literal | passThrough => exact ⟨Std.Refl.refl _, rfl⟩

theorem Follows.course {deep : Bool} {place : SourcePlace} {ascent : List Nat} {s s' : Session}
    {moments : List Moment} (hfollows : Follows setting model deep place ascent s moments s') :
    Course R N model deep place ascent s moments s' := by
  induction hfollows with
  | nil => exact .nil
  | node hat hbegins _ _ ihcontent ihrest =>
    subst hbegins
    exact .node hat (around_opened_closed h hnested _ _ _ _ _) ihcontent ihrest

/-- The evaluation of a model follows its course, up to the output that it writes. -/
theorem exists_course_evalModel (s : Session) :
    ∃ s', Course R N model true .anywhere [] s (courseModel setting model s) s' ∧
      R .anywhere s' (outcome (evalModel setting model) s).2 := by
  have := h.refl .anywhere
  obtain ⟨s', hfollows, hwritten⟩ := @exists_follows_evalModel setting model s
  refine ⟨s', hfollows.course h hnested, ?_⟩
  rcases hwritten with hend | ⟨output, hend⟩
  · rw [hend]
    exact Std.Refl.refl s'
  · rw [hend]
    exact h.leads_writeOutput .anywhere setting.options model output s'

end Relations

/-! ## Every evaluation of a model -/

/-- What holds throughout a model in which others may be nested to the given number of levels. -/
def settingAt (loader : Loader) (levels : Nat) (options : Options) : Setting :=
  ⟨options, loader, match levels with
    | 0 => none
    | levels + 1 => some (evalModelAt loader levels)⟩

theorem evalModelAt_eq (loader : Loader) (levels : Nat) (options : Options) (model : Element) :
    evalModelAt loader levels options model = evalModel (settingAt loader levels options) model := by
  cases levels <;> rfl

/-- A model is evaluated from a session, with a number of levels left for others nested in it: an
interpreter runs it, whatever happened to the interpreter before, or it is nested in a model that is
evaluated. -/
inductive ModelRun : Loader → Nat → Options → Element → Session → Prop
  | outermost (interpreter : Interpreter) (model : Element) (h : interpreter.Reachable) :
    ModelRun interpreter.loader interpreter.options.maxNesting interpreter.options model
      interpreter.session
  | nested {loader levels options model s node record place session inner nestedModel}
    (houter : ModelRun loader (levels + 1) options model s)
    (hmoment : .enters node record place session ∈
      courseModel (settingAt loader (levels + 1) options) model s)
    (hkind : node.element.kind = .model)
    (hmodel : nestedModel? options session.world.files node.element = some (inner, nestedModel)) :
    ModelRun loader levels inner nestedModel
      (session.enterNode node.element).enterModel

end Docweave
