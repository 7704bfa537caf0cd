import Docweave.Proofs.Model.Course

set_option autoImplicit false

/-! # The transform of records

An action gives a transform to the record directives inside it. `transform_at_getNode` says which
transform the records of a directive get: that of the innermost action around it, as long as no other
action was evaluated inside that one before. Leaving an action takes away every transform, so after an
action that is nested in another the outer one is without effect. -/

namespace Docweave

open Eval

/-! ## Transforms -/

/-- What is done to records. -/
inductive Transform where
  | keep
  | sortBy (key : Option String) (descending : Bool)
  | script (source : String)
deriving DecidableEq

namespace Transform

/-- The transform of an action with a key and a script. -/
def ofAction (key script : Option String) : Option ActionKind → Transform
  | none => keep
  | some .sort => sortBy key false
  | some .reverseSort => sortBy key true
  | some .custom => script.elim keep Transform.script

/-- The records after a transform, and the text that its script emits. -/
def apply (records : List Element) : Transform → Eval (String × List Element)
  | keep => return ("", records)
  | sortBy key descending => return ("", ← sortByKey key descending records)
  | script source => do
    let output ← runScript source (.ofChildren recordRoot records)
    return (output.text, output.tree.children)

end Transform

/-- The transform that a session holds ready. -/
def Session.transform (s : Session) : Transform :=
  .ofAction s.context.key s.runner.primed s.context.action

/-- The transform that an action declares. -/
def Element.transform (node : Element) : Transform :=
  .ofAction (node.attr? AttrName.key) (some node.textOrEmpty) node.actionKind

/-- The script in waiting runs, if there is one. -/
theorem outcome_runPrimed (tree : Element) (s : Session) :
    outcome (runPrimed tree) s =
      match s.runner.primed with
      | some source => outcome (runScript source tree) s
      | none => (.ok ⟨tree, ""⟩, s) := by
  unfold runPrimed runScript
  simp only [outcome_bind, outcome_get, outcome_tellAll, outcome_onRunner, ScriptRunner.runPrimed,
    Session.told]
  cases s.runner.primed with
  | some source => rfl
  | none => rfl

theorem outcome_transform (records : List Element) (s : Session) :
    outcome (transform records) s = outcome (s.transform.apply records) s := by
  unfold transform
  rw [outcome_bind, outcome_get]
  simp only [Session.transform]
  cases s.context.action with
  | none => rfl
  | some kind =>
    cases kind with
    | sort => rfl
    | reverseSort => rfl
    | custom =>
      simp only
      rw [outcome_bind, outcome_runPrimed]
      cases s.runner.primed with
      | none => rfl
      | some source =>
        simp only [Transform.ofAction, Option.elim, Transform.apply]
        rw [outcome_bind]

/-- The records of a directive get the transform that the session holds ready. -/
theorem outcome_recordsFor (node : Element) (s : Session) :
    outcome (recordsFor node) s = outcome (recordsWith (s.transform.apply ·) node) s := by
  unfold recordsFor recordsWith
  rw [outcome_bind, outcome_bind, outcome_get]
  simp only
  by_cases hp : ((node.attr? AttrName.path).getD s.context.queryPath).isEmpty
  · simp only [if_pos hp]
  · simp only [if_neg hp]
    cases ElementPath.parse ((node.attr? AttrName.path).getD s.context.queryPath) with
    | error error => rfl
    | ok compiled =>
      simp only [outcome_bind, outcome_get, outcome_tell, outcome_transform]
      rfl

/-! ## Actions in a model and in its course -/

namespace Element

/-- The innermost action at a place or above it. The root of a model is none. -/
def actionFrom (model : Element) : List Nat → Option Located
  | [] => none
  | i :: above =>
    match model.at? (i :: above).reverse with
    | some node => if node.kind = .action then some ⟨i :: above, node⟩ else model.actionFrom above
    | none => model.actionFrom above

/-- The innermost action around a node. -/
def actionAround (model : Element) (node : Located) : Option Located :=
  model.actionFrom node.ascent.tail

/-- The transform that the innermost action around a node declares; none if there is no action. -/
def transformAround (model : Element) (node : Located) : Transform :=
  (model.actionAround node).elim .keep fun action => action.element.transform

variable {model node : Element} {i : Nat} {above : List Nat}
  (h : model.at? (i :: above).reverse = some node)

include h

theorem actionFrom_of_action (hk : node.kind = .action) :
    model.actionFrom (i :: above) = some ⟨i :: above, node⟩ := by
  rw [actionFrom, h]
  exact if_pos hk

theorem actionFrom_of_ne_action (hk : node.kind ≠ .action) :
    model.actionFrom (i :: above) = model.actionFrom above := by
  rw [actionFrom, h]
  exact if_neg hk

end Element

/-- The moment is about an action. -/
def Moment.ofAction (m : Moment) : Prop := m.node.element.kind = .action

/-- An action was entered, and since then no action was entered or left. -/
def InForce (before : List Moment) (action : Located) : Prop :=
  ∃ earlier record place session later,
    before = earlier ++ .enters action record place session :: later ∧
      action.element.kind = .action ∧ ∀ m ∈ later, ¬ m.ofAction

/-- The action in force after a moment, from the one before it. -/
def Moment.inForce (current : Option Located) : Moment → Option Located
  | enters node _ _ _ => if node.element.kind = .action then some node else current
  | leaves node => if node.element.kind = .action then none else current

theorem Moment.inForce_of_not_ofAction {m : Moment} (h : ¬ m.ofAction) (current : Option Located) :
    m.inForce current = current := by
  cases m with
  | enters node record place session => exact if_neg h
  | leaves node => exact if_neg h

theorem foldl_inForce_eq_some_iff {moments : List Moment} {current : Option Located}
    {action : Located} :
    moments.foldl Moment.inForce current = some action ↔
      InForce moments action ∨ current = some action ∧ ∀ m ∈ moments, ¬ m.ofAction := by
  induction moments generalizing current with
  | nil =>
    constructor
    · intro h
      exact .inr ⟨h, by simp⟩
    · rintro (⟨earlier, _, _, _, _, h, _⟩ | h)
      · simp at h
      · exact h.1
  | cons m rest ih =>
    rw [List.foldl_cons, ih, List.forall_mem_cons]
    constructor
    · rintro (⟨earlier, record, place, session, later, rfl, hlater⟩ | ⟨h, hrest⟩)
      · exact .inl ⟨m :: earlier, record, place, session, later, rfl, hlater⟩
      · by_cases hm : m.ofAction
        · cases m with
          | enters node record place session =>
            have hk : node.element.kind = .action := hm
            rw [Moment.inForce, if_pos hk, Option.some.injEq] at h
            subst h
            exact .inl ⟨[], record, place, session, rest, rfl, hm, hrest⟩
          | leaves node =>
            have hk : node.element.kind = .action := hm
            rw [Moment.inForce, if_pos hk] at h
            simp at h
        · rw [Moment.inForce_of_not_ofAction hm] at h
          exact .inr ⟨h, hm, hrest⟩
    · rintro (⟨earlier, record, place, session, later, heq, hk, hlater⟩ | ⟨h, hm, hrest⟩)
      · cases earlier with
        | nil =>
          obtain ⟨rfl, rfl⟩ := List.cons.inj heq
          exact .inr ⟨if_pos hk, hlater⟩
        | cons first earlier =>
          obtain ⟨rfl, rfl⟩ := List.cons.inj heq
          exact .inl ⟨earlier, record, place, session, later, rfl, hk, hlater⟩
      · rw [Moment.inForce_of_not_ofAction hm]
        exact .inr ⟨h, hrest⟩

/-! ## The transform along a course -/

/-- The transform of the action in force, if there is one. -/
def transformOf (current : Option Located) : Transform :=
  current.elim .keep fun action => action.element.transform

theorem transform_enterAction (node : Element) (s : Session) :
    (s.enterAction node.actionKind node).transform = node.transform := by
  unfold Session.transform Element.transform Session.enterAction
  cases node.actionKind with
  | none => rfl
  | some kind => cases kind <;> rfl

theorem transform_enterChild (deep : Bool) (node : Element) (s : Session) :
    (s.enterChild deep node).transform = s.transform := by
  unfold Session.enterChild
  split <;> rfl

theorem transform_leaveChild (deep : Bool) (node : Element) (s : Session) :
    (s.leaveChild deep node).transform = s.transform := by
  unfold Session.leaveChild
  split <;> rfl

/-- The transform is the same as before. -/
def KeepsTransform (s s' : Session) : Prop := s'.transform = s.transform

/-- Directives without content leave the transform alone. -/
theorem incidental_keepsTransform (loader : Loader) : Incidental loader fun _ => KeepsTransform where
  refl _ := ⟨fun _ => rfl⟩
  trans _ := ⟨fun _ _ _ h h' => Eq.trans h' h⟩
  told _ _ _ _ := rfl
  ran _ source tree s := by
    unfold KeepsTransform Session.transform
    rw [s.runner.primed_run source tree]
  wrote _ _ _ := rfl
  drained _ _ := rfl
  registered _ _ _ _ := rfl

/-- What is no action leaves the transform alone around its content. -/
theorem Around.transform_eq {place : SourcePlace} {node : Element} {s₀ s₁ s₂ s₃ : Session}
    (h : Around (fun _ => KeepsTransform) (fun _ => KeepsTransform) place node s₀ s₁ s₂ s₃)
    (hk : node.kind ≠ .action) : s₁.transform = s₀.transform ∧ s₃.transform = s₂.transform := by
  unfold Around at h
  cases hkind : node.kind with
  | action => exact absurd hkind hk
  | query =>
    simp only [hkind] at h
    obtain ⟨s, hs, rfl, rfl⟩ := h
    exact ⟨hs, rfl⟩
  | model | source | getNode | getContent | literal | passThrough =>
    simp only [hkind] at h
    obtain ⟨hs, rfl⟩ := h
    exact ⟨hs, rfl⟩

/-- What is known when a node begins: the transform is that of the action in force, which is the
innermost one around the node, and the node is at its place in the model. -/
def AtMoment (model : Element) (current : Option Located) : Moment → Prop
  | .enters node _ _ session =>
    session.transform = transformOf current ∧
      (∀ action, current = some action → model.actionAround node = some action) ∧
      model.at? node.place = some node.element
  | .leaves _ => True

theorem Course.atEach_moment {model : Element} {deep : Bool} {place : SourcePlace} {ascent : List Nat}
    {s s' : Session} {moments : List Moment}
    (h : Course (fun _ => KeepsTransform) (fun _ => KeepsTransform) model deep place ascent s moments s')
    {current : Option Located} (ht : s.transform = transformOf current)
    (ha : ∀ action, current = some action → model.actionFrom ascent = some action) :
    AtEach Moment.inForce (AtMoment model) current moments ∧
      s'.transform = transformOf (moments.foldl Moment.inForce current) ∧
      ∀ action, moments.foldl Moment.inForce current = some action →
        model.actionFrom ascent = some action := by
  induction h generalizing current with
  | nil => exact ⟨trivial, ht, ha⟩
  | @node deep place ascent i node record s s₁ s₂ s₃ s' content rest hat haround _ _ ihcontent ihrest =>
    have hbegin : AtMoment model current
        (.enters ⟨i :: ascent, node⟩ record place (s.enterChild deep node)) :=
      ⟨(transform_enterChild deep node s).trans ht, ha, hat⟩
    -- it is enough to know what is in force in the content of the node and after the node
    suffices hparts : ∃ inside after,
        (Moment.enters ⟨i :: ascent, node⟩ record place (s.enterChild deep node)).inForce current =
          inside ∧
        AtEach Moment.inForce (AtMoment model) inside content ∧
        (Moment.leaves ⟨i :: ascent, node⟩).inForce (content.foldl Moment.inForce inside) = after ∧
        AtEach Moment.inForce (AtMoment model) after rest ∧
        s'.transform = transformOf (rest.foldl Moment.inForce after) ∧
        ∀ action, rest.foldl Moment.inForce after = some action →
          model.actionFrom ascent = some action by
      obtain ⟨inside, after, henters, hcontent, hleaves, hrest, hend⟩ := hparts
      refine ⟨⟨hbegin, ?_⟩, ?_⟩
      · rw [henters]
        refine hcontent.append ⟨trivial, ?_⟩
        rw [hleaves]
        exact hrest
      · rw [List.foldl_cons, henters, List.foldl_append, List.foldl_cons, hleaves]
        exact hend
    by_cases hk : node.kind = .action
    · -- the content has the transform of the node, and nothing after the node has one
      simp only [Around, hk] at haround
      obtain ⟨begun, _, rfl, rfl⟩ := haround
      obtain ⟨hcontent, _, _⟩ := @ihcontent (some ⟨i :: ascent, node⟩)
        (transform_enterAction node begun) fun action heq =>
          (Element.actionFrom_of_action hat hk).trans heq
      obtain ⟨hrest, hend⟩ := @ihrest none (transform_leaveChild deep node _)
        fun _ heq => absurd heq (by simp)
      exact ⟨_, _, if_pos hk, hcontent, if_pos hk, hrest, hend⟩
    · -- the node neither sets nor takes away a transform, and is no action around its content
      obtain ⟨hbegun, hended⟩ := haround.transform_eq hk
      have hfrom := Element.actionFrom_of_ne_action hat hk
      obtain ⟨hcontent, ht', ha'⟩ := ihcontent (hbegun.trans hbegin.1) fun action heq =>
        hfrom.trans (ha action heq)
      obtain ⟨hrest, hend⟩ := ihrest ((transform_leaveChild deep node _).trans (hended.trans ht'))
        fun action heq => hfrom.symm.trans (ha' action heq)
      exact ⟨_, _, if_neg hk, hcontent, if_neg hk, hrest, hend⟩

/-! ## Runs -/

/-- A nested model leaves the transform alone, whatever it does. -/
theorem keepsTransform_evalNestedModel (setting : Setting) (node : Element) (s : Session) :
    KeepsTransform s (outcome (evalNestedModel setting node) s).2 :=
  (incidental_keepsTransform setting.loader).leads_evalNestedModel .anywhere
    (Q := fun _ _ => True) (fun _ _ _ _ _ => trivial) (fun _ _ _ => rfl) node s

theorem ModelRun.transform_eq_keep {loader : Loader} {levels : Nat} {options : Options}
    {model : Element} {s : Session} (h : ModelRun loader levels options model s) :
    s.transform = .keep := by
  cases h with
  | outermost interpreter model h =>
    unfold Session.transform
    rw [h.atRest.context]
    rfl
  | nested => rfl

/-- A record directive applies the transform that the session holds ready when it begins. -/
theorem outcome_evalNode_getNode (setting : Setting) (record : Option Element) (place : SourcePlace)
    {node : Element} (hk : node.kind = .getNode) (s : Session) :
    outcome (evalNode setting record place node) s =
      outcome (recordsWith (s.transform.apply ·) node >>= renderRecords node fun found =>
          evalEach setting deepen (some found) .anywhere node.children)
        (s.enterNode node) := by
  rw [outcome_evalNode]
  unfold evalDirective
  rw [hk]
  simp only
  rw [evalGetNode_eq, outcome_bind, outcome_bind, outcome_recordsFor]
  rfl

theorem ModelRun.atMoment {loader : Loader} {levels : Nat} {options : Options} {model : Element}
    {s : Session} (h : ModelRun loader levels options model s) {before after : List Moment} {m : Moment}
    (hcourse : courseModel (settingAt loader levels options) model s = before ++ m :: after) :
    AtMoment model (before.foldl Moment.inForce none) m := by
  obtain ⟨s', hruns, _⟩ := exists_course_evalModel (incidental_keepsTransform loader)
    (keepsTransform_evalNestedModel (settingAt loader levels options)) s
  have hstart : s.transform = transformOf none := h.transform_eq_keep
  obtain ⟨heach, _⟩ := hruns.atEach_moment hstart (by simp)
  rw [hcourse] at heach
  exact heach.at_split

/-- The transform that a record directive applies is that of the innermost action around it, if no
other action was evaluated inside that one before; if one was, there is no transform. -/
theorem transform_at_getNode {loader : Loader} {levels : Nat} {options : Options} {model : Element}
    {s : Session} (h : ModelRun loader levels options model s) {before after : List Moment}
    {node : Located} {record : Option Element} {place : SourcePlace} {session : Session}
    (hcourse : courseModel (settingAt loader levels options) model s =
      before ++ .enters node record place session :: after)
    (hkind : node.element.kind = .getNode) :
    model.at? node.place = some node.element ∧
      outcome (evalNode (settingAt loader levels options) record place node.element) session =
        outcome (recordsWith (session.transform.apply ·) node.element >>=
            renderRecords node.element fun found => evalEach (settingAt loader levels options) deepen
              (some found) .anywhere node.element.children)
          (session.enterNode node.element) ∧
      (∀ action, InForce before action →
        model.actionAround node = some action ∧ session.transform = action.element.transform) ∧
      ((¬ ∃ action, InForce before action) → session.transform = .keep) ∧
      (session.transform = model.transformAround node ↔
        model.transformAround node = .keep ∨ ∃ action, InForce before action) := by
  obtain ⟨htransform, haction, hat⟩ := h.atMoment hcourse
  have hforce : ∀ action, InForce before action →
      model.actionAround node = some action ∧ session.transform = action.element.transform := by
    intro action hin
    have hcurrent : before.foldl Moment.inForce none = some action :=
      foldl_inForce_eq_some_iff.2 (.inl hin)
    rw [hcurrent] at htransform
    exact ⟨haction action hcurrent, htransform⟩
  have hkeep : (¬ ∃ action, InForce before action) → session.transform = .keep := by
    intro hnone
    cases hcurrent : before.foldl Moment.inForce none with
    | none =>
      rw [hcurrent] at htransform
      exact htransform
    | some action =>
      rcases foldl_inForce_eq_some_iff.1 hcurrent with hin | ⟨habsurd, _⟩
      · exact absurd ⟨action, hin⟩ hnone
      · simp at habsurd
  have haround : (∃ action, InForce before action) → session.transform = model.transformAround node := by
    rintro ⟨action, hin⟩
    obtain ⟨heq, ht⟩ := hforce action hin
    rw [ht, Element.transformAround, heq]
    rfl
  refine ⟨hat, outcome_evalNode_getNode _ record place hkind session, hforce, hkeep, ?_⟩
  by_cases hin : ∃ action, InForce before action
  · exact ⟨fun _ => .inr hin, fun _ => haround hin⟩
  · rw [hkeep hin]
    constructor
    · intro heq
      exact .inl heq.symm
    · rintro (heq | habsurd)
      · exact heq.symm
      · exact absurd habsurd hin

/-- An action that sorts records by their `k` around some directives. -/
def sortAction (children : List Element) : Element :=
  directive .action [⟨AttrName.type, "sort"⟩, ⟨AttrName.key, "k"⟩] children

/-- A record directive for all elements called `e`. -/
def recordDirective : Element := directive .getNode [⟨AttrName.path, ".//e"⟩] []

/-- An interpreter that has nothing to read. -/
def emptyInterpreter : Interpreter := .create .standard .aggregator .empty

theorem modelRun_empty (model : Element) :
    ModelRun .aggregator defaultNesting .standard model emptyInterpreter.session :=
  .outermost emptyInterpreter model ⟨_, _, _, [], rfl⟩

theorem transform_at_getNode_in_sort :
    ∃ before after node record place session,
      courseModel (settingAt .aggregator defaultNesting .standard)
          (directive .model [] [sortAction [recordDirective]]) emptyInterpreter.session =
        before ++ .enters node record place session :: after ∧
      node.element.kind = .getNode ∧ session.transform = .sortBy (some "k") false := by
  obtain ⟨start, session, after, hcourse⟩ : ∃ start session after,
      courseModel (settingAt .aggregator defaultNesting .standard)
          (directive .model [] [sortAction [recordDirective]]) emptyInterpreter.session =
        [.enters ⟨[0], sortAction [recordDirective]⟩ none .anywhere start] ++
          .enters ⟨[0, 0], recordDirective⟩ none .anywhere session :: after := ⟨_, _, _, rfl⟩
  refine ⟨_, _, _, _, _, _, hcourse, rfl, ?_⟩
  have hforce := (transform_at_getNode (modelRun_empty _) hcourse rfl).2.2.1
  exact (hforce ⟨[0], sortAction [recordDirective]⟩ ⟨[], _, _, _, [], rfl, rfl, by simp⟩).2

/-- An action that does nothing, evaluated inside another one, takes away the transform. -/
theorem not_transform_at_getNode :
    ¬ ∀ {loader : Loader} {levels : Nat} {options : Options} {model : Element} {s : Session},
      ModelRun loader levels options model s →
      ∀ {before after : List Moment} {node : Located} {record : Option Element} {place : SourcePlace}
        {session : Session},
        courseModel (settingAt loader levels options) model s =
          before ++ .enters node record place session :: after →
        node.element.kind = .getNode → session.transform = model.transformAround node := by
  intro h
  have hlost := @h _ _ _ _ _ (modelRun_empty (directive .model []
    [sortAction [directive .action [] [], recordDirective]])) [_, _, _] _ _ _ _ _ rfl rfl
  exact absurd hlost (by decide)

end Docweave
