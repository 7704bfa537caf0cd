import Docweave.Proofs.Model.Levels
import Docweave.Proofs.Model.Scenes

set_option autoImplicit false

/-! # Models that are nested too deep

A failure that a node meets gets out of the model that the node is in, as nothing but a nested model
catches any. So a model that would have too many models around it fails the whole run, and
`run_ends_within_maxNesting` says when that is: the run always ends, it never goes into a model with more
models around it than the limit, and models nested in a row make it fail just when there are more of them
than the limit. -/

namespace Docweave

open Eval

/-! ## Failures of single evaluations -/

/-- What begins at the moment fails in a given way. -/
def Moment.FailsWith (setting : Setting) (failure : Failure) : Moment → Prop
  | enters node record place session =>
    (outcome (evalNode setting record place node.element) session).1 = .error failure
  | leaves _ => False

/-- A failure of a child gets out of the way that it is evaluated. -/
def Frame.LetsFail (frame : Frame) : Prop :=
  ∀ node act s failure, (outcome act (s.enterChild frame.deep node)).1 = .error failure →
    (outcome (frame.around node act) s).1 = .error failure

namespace Frame

theorem letsFail_deeper : deeper.LetsFail := by
  intro node act s failure h
  show (outcome (deepen node act) s).1 = .error failure
  rw [outcome_deepen]
  unfold Session.enterChild at h
  by_cases hk : node.kind = .passThrough
  · rw [if_pos ⟨rfl, hk⟩] at h
    rw [if_pos hk]
    exact h
  · rw [if_neg fun hd => hk hd.2] at h
    rw [if_neg hk]
    exact h

theorem letsFail_plain : plain.LetsFail := by
  intro node act s failure h
  unfold Session.enterChild at h
  rwa [if_neg fun hd => Bool.false_ne_true hd.1] at h

theorem letsFail_ownLine : ownLine.LetsFail := by
  intro node act s failure h
  unfold Session.enterChild at h
  rw [if_neg fun hd => Bool.false_ne_true hd.1] at h
  exact result_bind_of_error h _

end Frame

section Course

variable {setting : Setting} {failure : Failure}

theorem fails_mapM {render : Element → Eval String} {course : Element → Session → List Moment}
    (h : ∀ record s, ∀ m ∈ course record s, m.FailsWith setting failure →
      (outcome (render record) s).1 = .error failure) (records : List Element) (s : Session) :
    ∀ m ∈ courseRecords render course records s, m.FailsWith setting failure →
      (outcome (records.mapM render) s).1 = .error failure := by
  induction records generalizing s with
  | nil => exact fun _ hm => absurd hm List.not_mem_nil
  | cons record rest ih =>
    intro m hm hfails
    rw [List.mapM_cons]
    rw [courseRecords] at hm
    rcases List.mem_append.1 hm with hfirst | hlater
    · exact result_bind_of_error (h record s m hfirst hfails) _
    · rw [outcome_bind]
      cases hout : outcome (render record) s with
      | mk result s' =>
        rw [hout] at hlater
        cases result with
        | error met => exact absurd hlater List.not_mem_nil
        | ok output => exact result_bind_of_error (ih s' m hlater hfails) _

/-- A failure that is met in the content for a record gets out of the directive that has found it. -/
theorem fails_evalGetNode {node : Element} {ascent : List Nat}
    (hchildren : ∀ found s, ∀ m ∈ courseEach setting .deeper (some found) .anywhere ascent 0 node.children s,
      m.FailsWith setting failure →
        (outcome (evalEach setting deepen (some found) .anywhere node.children) s).1 = .error failure)
    (hk : node.kind = .getNode) (record : Option Element) (s : Session) :
    ∀ m ∈ courseContent setting record ascent node s, m.FailsWith setting failure →
      (outcome (evalGetNode node fun found =>
        evalEach setting deepen (some found) .anywhere node.children) s).1 = .error failure := by
  intro m hm hfails
  unfold courseContent at hm
  rw [hk] at hm
  simp only at hm
  rw [evalGetNode_eq, outcome_bind]
  cases hout : outcome (recordsFor node) s with
  | mk result s' =>
    rw [hout] at hm
    rcases result with met | _ | ⟨before, records⟩
    · exact absurd hm List.not_mem_nil
    · exact absurd hm List.not_mem_nil
    · simp only at hm
      by_cases hleaf : node.isLeaf
      · rw [if_pos hleaf] at hm
        exact absurd hm List.not_mem_nil
      · rw [if_neg hleaf] at hm
        simp only [renderRecords, if_neg hleaf]
        exact result_bind_of_error (fails_mapM hchildren records s' m hm hfails) _

/-- A failure that is met in the content of a node gets out of the node, if it gets out of its
children. -/
theorem fails_content (node : Element) (ascent : List Nat)
    (hchildren : ∀ record place (frame : Frame), frame.LetsFail → ∀ s,
      ∀ m ∈ courseEach setting frame record place ascent 0 node.children s,
        m.FailsWith setting failure →
          (outcome (evalEach setting frame.around record place node.children) s).1 = .error failure)
    (record : Option Element) (place : SourcePlace) (s : Session) :
    ∀ m ∈ courseContent setting record ascent node s, m.FailsWith setting failure →
      (outcome (evalDirective setting record place node) s).1 = .error failure := by
  intro m hm hfails
  unfold evalDirective
  cases hk : node.kind with
  | query =>
    rw [courseContent, hk] at hm
    simp only [outcome_evalQuery, outcome_within]
    exact hchildren record .inQuery .deeper Frame.letsFail_deeper _ m hm hfails
  | action =>
    rw [courseContent, hk] at hm
    simp only [outcome_evalAction, outcome_within]
    exact hchildren record .anywhere .plain Frame.letsFail_plain _ m hm hfails
  | getNode =>
    refine fails_evalGetNode (fun found s => ?_) hk record s m hm hfails
    exact hchildren (some found) .anywhere .deeper Frame.letsFail_deeper s
  | passThrough =>
    rw [courseContent, hk] at hm
    have hbody := hchildren record .anywhere .ownLine Frame.letsFail_ownLine _ m hm hfails
    have hleaf : ¬ node.isLeaf := by
      intro hl
      have hnil : node.children = [] := List.isEmpty_iff.1 hl
      rw [hnil] at hm
      unfold courseEach at hm
      exact absurd hm List.not_mem_nil
    simp only [evalPassThrough]
    rw [outcome_bind, outcome_get]
    simp only [if_neg hleaf]
    exact result_bind_of_error hbody _
  | source | getContent | literal | model =>
    rw [courseContent, hk] at hm
    exact absurd hm List.not_mem_nil

mutual

theorem fails_evalNode (record : Option Element) (place : SourcePlace) (ascent : List Nat) :
    (node : Element) → (s : Session) → ∀ m ∈ courseNode setting record place ascent node s,
      m.FailsWith setting failure →
        (outcome (evalNode setting record place node) s).1 = .error failure
  | ⟨_, _, _, _, children⟩, s => by
    intro m hm hfails
    rw [courseNode_eq] at hm
    rcases List.mem_cons.1 hm with rfl | hm
    · exact hfails
    · rcases List.mem_append.1 hm with hcontent | hlast
      · rw [outcome_evalNode]
        refine fails_content _ ascent (fun record place _ hframe => ?_) record place _ m hcontent hfails
        exact fails_evalEach record place hframe ascent 0 children
      · rw [List.mem_singleton.1 hlast] at hfails
        exact hfails.elim

theorem fails_evalEach (record : Option Element) (place : SourcePlace) {frame : Frame}
    (hframe : frame.LetsFail) (ascent : List Nat) (first : Nat) :
    (nodes : List Element) → (s : Session) →
      ∀ m ∈ courseEach setting frame record place ascent first nodes s, m.FailsWith setting failure →
        (outcome (evalEach setting frame.around record place nodes) s).1 = .error failure
  | [], s => by
    intro m hm
    unfold courseEach at hm
    exact absurd hm List.not_mem_nil
  | node :: rest, s => by
    intro m hm hfails
    unfold courseEach at hm
    unfold evalEach
    rcases List.mem_append.1 hm with hfirst | hlater
    · have hnode := fails_evalNode record place (first :: ascent) node _ m hfirst hfails
      exact result_bind_of_error (hframe node _ s failure hnode) _
    · rw [outcome_bind]
      cases hout : outcome (frame.around node (evalNode setting record place node)) s with
      | mk result s' =>
        rw [hout] at hlater
        cases result with
        | error met => exact absurd hlater List.not_mem_nil
        | ok output =>
          have hrest := fails_evalEach record place hframe ascent (first + 1) rest s' m hlater hfails
          exact result_bind_of_error hrest _

end

/-- A failure that is met in a model gets out of it. -/
theorem fails_evalModel {model : Element} {s : Session} {m : Moment}
    (hm : m ∈ courseModel setting model s) (hfails : m.FailsWith setting failure) :
    (outcome (evalModel setting model) s).1 = .error failure := by
  unfold courseModel at hm
  unfold evalModel
  by_cases hk : model.kind = .model
  · rw [if_pos hk] at hm ⊢
    exact result_bind_of_error
      (fails_evalEach none .anywhere Frame.letsFail_deeper [] 0 model.children s m hm hfails) _
  · rw [if_neg hk] at hm
    exact absurd hm List.not_mem_nil

end Course

/-! ## The models around a scene -/

/-- How many models there are on a trail: the roots are the nodes that nothing leads to. -/
def Trail.models (trail : Trail) : Nat := trail.countP (·.ascent.isEmpty)

/-- How many models the node of a scene is in. If it nests a model, these are the models around that
one. -/
def Scene.models (scene : Scene) : Nat := Trail.models scene.around

/-- The evaluation of a node begins at the moment. -/
def Moment.begins : Moment → Bool
  | enters _ _ _ _ => true
  | leaves _ => false

/-- A model is to be evaluated at the scene. -/
def Scene.Nests (scene : Scene) : Prop :=
  scene.moment.begins ∧ scene.moment.node.element.kind = .model

instance (scene : Scene) : Decidable scene.Nests := inferInstanceAs (Decidable (_ ∧ _))

theorem models_trailTo (model : Element) (ascent : List Nat) : Trail.models (model.trailTo ascent) = 1 := by
  induction ascent with
  | nil => rfl
  | cons i above ih =>
    have htails : (i :: above).tails = (i :: above) :: above.tails := rfl
    unfold Element.trailTo at ih ⊢
    rw [htails, List.filterMap_cons]
    cases model.at? (i :: above).reverse with
    | none => exact ih
    | some node =>
      simp only [Option.map_some, Trail.models]
      rw [List.countP_cons_of_neg (by simp)]
      exact ih

theorem Scene.models_of (options : Options) (model : Element) (outer : Trail) (m : Moment) :
    (Scene.of options model outer m).models = 1 + outer.models := by
  show Trail.models (model.trailTo m.node.ascent.tail ++ outer) = _
  unfold Trail.models
  rw [List.countP_append]
  exact congrArg (· + _) (models_trailTo model m.node.ascent.tail)

/-- The moments of a model are about nodes below its root. -/
theorem Follows.ascent_ne_nil {setting : Setting} {model : Element} {deep : Bool} {place : SourcePlace}
    {ascent : List Nat} {s s' : Session} {moments : List Moment}
    (h : Follows setting model deep place ascent s moments s') : ∀ m ∈ moments, m.node.ascent ≠ [] := by
  induction h with
  | nil => simp
  | node _ _ _ _ ihcontent ihrest =>
    simp only [List.forall_mem_cons, List.forall_mem_append]
    exact ⟨List.cons_ne_nil _ _, ihcontent, List.cons_ne_nil _ _, ihrest⟩

theorem Scene.models_trail {options : Options} {model : Element} {outer : Trail} {setting : Setting}
    {m : Moment} {s : Session} (hm : m ∈ courseModel setting model s) :
    Trail.models (Scene.of options model outer m).trail = 1 + outer.models := by
  obtain ⟨s', hfollows, -⟩ := @exists_follows_evalModel setting model s
  have hroot := hfollows.ascent_ne_nil m hm
  rw [← Scene.models_of options model outer m]
  show Trail.models (m.node :: _) = _
  unfold Trail.models
  rw [List.countP_cons_of_neg (by simpa using hroot)]
  rfl

theorem Scene.eq_or_nested_of_mem_unfolded {scenes : Trail → Options → Element → Session → List Scene}
    {scene outerScene : Scene} (h : scene ∈ outerScene.unfolded scenes) :
    scene = outerScene ∨ ∃ node record place session inner model,
      outerScene.moment = .enters node record place session ∧ node.element.kind = .model ∧
      nestedModel? outerScene.options session.world.files node.element = some (inner, model) ∧
      scene ∈ scenes outerScene.trail inner model (session.enterNode node.element).enterModel := by
  rcases List.mem_cons.1 h with heq | hnested
  · exact .inl heq
  · unfold Scene.nested at hnested
    cases hmoment : outerScene.moment with
    | leaves node => simp [hmoment] at hnested
    | enters node record place session =>
      simp only [hmoment] at hnested
      by_cases hk : node.element.kind = .model
      · rw [if_pos hk] at hnested
        unfold nestedCourse at hnested
        cases hm : nestedModel? outerScene.options session.world.files node.element with
        | none =>
          have hm' : nestedModel? outerScene.options (session.enterNode node.element).world.files
            node.element = none := hm
          simp [hm'] at hnested
        | some nested =>
          have hm' : nestedModel? outerScene.options (session.enterNode node.element).world.files
            node.element = some nested := hm
          rw [hm'] at hnested
          exact .inr ⟨_, _, _, _, _, _, rfl, hk, hm, hnested⟩
      · simp [if_neg hk] at hnested

/-- The first child of a model begins as the model does. -/
theorem enters_mem_courseModel {setting : Setting} {model child : Element} {rest : List Element}
    (hk : model.kind = .model) (hchildren : model.children = child :: rest)
    (hchild : child.kind = .model) (s : Session) :
    Moment.enters ⟨[0], child⟩ none .anywhere s ∈ courseModel setting model s := by
  have henter : s.enterChild Frame.deeper.deep child = s := if_neg fun h => by
    rw [hchild] at h
    exact nomatch h.2
  unfold courseModel
  rw [if_pos hk, hchildren]
  unfold courseEach
  rw [henter, courseNode_eq]
  exact List.mem_cons_self

theorem Scene.mem_unfolded_of_nested {scenes : Trail → Options → Element → Session → List Scene}
    {scene : Scene} {options inner : Options} {around : Trail} {node : Located} {record : Option Element}
    {place : SourcePlace} {session : Session} {model : Element} (hk : node.element.kind = .model)
    (hm : nestedModel? options session.world.files node.element = some (inner, model))
    (h : scene ∈ scenes (node :: around) inner model (session.enterNode node.element).enterModel) :
    scene ∈ Scene.unfolded scenes ⟨options, around, .enters node record place session⟩ := by
  have hm' : nestedModel? options (session.enterNode node.element).world.files node.element =
    some (inner, model) := hm
  refine List.mem_cons_of_mem _ ?_
  unfold Scene.nested
  simp only [if_pos hk]
  unfold nestedCourse
  rw [hm']
  exact h

/-- A nested model that fails, unless in a way to be skipped, fails at the moment where it is nested. -/
theorem failsWith_of_nested {setting : Setting} {run : Options → Element → Eval String}
    (hrun : setting.nested = some run) {node : Located} {record : Option Element} {place : SourcePlace}
    {session : Session} {options : Options} {model : Element} {failure : Failure}
    (hk : node.element.kind = .model)
    (hm : nestedModel? setting.options session.world.files node.element = some (options, model))
    (hfails : (outcome (run options model) (session.enterNode node.element).enterModel).1 =
      .error failure) (hf : ¬ failure.isRecoverable) :
    (Moment.enters node record place session).FailsWith setting failure := by
  have hm' : nestedModel? setting.options (session.enterNode node.element).world.files node.element =
    some (options, model) := hm
  show (outcome (evalNode setting record place node.element) session).1 = .error failure
  rw [outcome_evalNode, evalDirective, hk]
  simp only
  rw [outcome_evalNestedModel hrun hm']
  exact result_recover_of_error hfails hf

/-- With no level left a model cannot be nested. -/
theorem result_evalNode_of_none {setting : Setting} (hnone : setting.nested = none) {node : Element}
    (hk : node.kind = .model) (record : Option Element) (place : SourcePlace) (s : Session) :
    (outcome (evalNode setting record place node) s).1 =
      .error (.nestingTooDeep setting.options.maxNesting) := by
  rw [outcome_evalNode, evalDirective, hk]
  simp only
  rw [evalNestedModel_of_none hnone]
  rfl

/-- No scene is in more models than there are levels. A model that would need one more makes all those
around it fail. -/
theorem nesting_scenesAt {loader : Loader} (levels : Nat) {outer : Trail} {options : Options}
    {model : Element} {s : Session} : ∀ scene ∈ scenesAt loader levels outer options model s,
      scene.models ≤ outer.models + levels + 1 ∧
        (scene.Nests → scene.models = outer.models + levels + 1 →
          (outcome (evalModelAt loader levels options model) s).1 =
            .error (.nestingTooDeep options.maxNesting)) := by
  induction levels generalizing outer options model s with
  | zero =>
    intro scene hscene
    obtain ⟨m, hm, hin⟩ := List.mem_flatMap.1 hscene
    rcases Scene.eq_or_nested_of_mem_unfolded hin with rfl | ⟨_, _, _, _, _, _, _, _, _, hnone⟩
    · rw [Scene.models_of]
      refine ⟨by omega, ?_⟩
      rintro ⟨hbegins, hk⟩ -
      rw [evalModelAt_eq]
      refine fails_evalModel hm ?_
      cases m with
      | leaves node => exact absurd hbegins Bool.false_ne_true
      | enters node record place session => exact result_evalNode_of_none rfl hk record place session
    · exact absurd hnone List.not_mem_nil
  | succ levels ih =>
    intro scene hscene
    obtain ⟨m, hm, hin⟩ := List.mem_flatMap.1 hscene
    rcases Scene.eq_or_nested_of_mem_unfolded hin with
      rfl | ⟨node, record, place, session, inner, nested, hmoment, hk, hmodel, hmem⟩
    · rw [Scene.models_of]
      exact ⟨by omega, fun _ heq => by omega⟩
    · obtain rfl : m = .enters node record place session := hmoment
      obtain ⟨hle, hfails⟩ := ih scene hmem
      rw [Scene.models_trail hm] at hle hfails
      refine ⟨by omega, fun hnests heq => ?_⟩
      obtain ⟨baseDir, rfl⟩ := exists_baseDir_of_nestedModel? hmodel
      have hdeep := hfails hnests (by omega)
      rw [evalModelAt_eq]
      exact fails_evalModel hm (failsWith_of_nested rfl hk hmodel hdeep Bool.false_ne_true)

/-! ## Models nested in place -/

/-- All models in the element are nested in place, and no more than the given number of them one inside
the other. -/
def Element.ModelsWithin : Nat → Element → Prop
  | 0, e => e.Everywhere fun node => node.kind ≠ .model
  | levels + 1, e => e.Everywhere fun node => node.kind = .model →
      node.attr? AttrName.path = none ∧ ∀ child ∈ node.children, child.ModelsWithin levels

namespace Element.ModelsWithin

variable {levels : Nat} {e : Element}

theorem of_mem_children (h : e.ModelsWithin levels) : ∀ child ∈ e.children, child.ModelsWithin levels := by
  cases levels <;> exact (everywhere_iff.1 h).2

theorem succ (h : e.ModelsWithin levels) : e.ModelsWithin (levels + 1) := by
  induction levels generalizing e with
  | zero => exact fun node hnode hk => absurd hk (h node hnode)
  | succ levels ih =>
    intro node hnode hk
    obtain ⟨hpath, hchildren⟩ := h node hnode hk
    exact ⟨hpath, fun child hchild => ih (hchildren child hchild)⟩

theorem mono {more : Nat} (h : e.ModelsWithin levels) (hle : levels ≤ more) : e.ModelsWithin more := by
  induction hle with
  | refl => exact h
  | step _ ih => exact ih.succ

end Element.ModelsWithin

/-- The failure is not that models are nested too deep. -/
def Failure.OtherThanTooDeep (failure : Failure) : Prop := ∀ levels, failure ≠ .nestingTooDeep levels

/-- A model that is nested in place fails as it does by itself. -/
theorem failsOnly_evalNestedModel_of_inline {P : Failure → Prop} {setting : Setting}
    {run : Options → Element → Eval String} (hrun : setting.nested = some run) {node : Element}
    (hpath : node.attr? AttrName.path = none) (h : FailsOnly P (run setting.options node)) :
    FailsOnly P (evalNestedModel setting node) := by
  unfold evalNestedModel
  simp only [hrun, hpath]
  by_cases hleaf : node.isLeaf
  · rw [if_pos hleaf]
    exact (FailsOnly.tell _).bind fun _ => .pure ""
  · rw [if_neg hleaf]
    exact FailsOnly.recover (.within fun s failure hfails => .inr (h s failure hfails))

/-- Models that are nested in place are not too deep, if there are levels for them. -/
theorem failsOnly_of_modelsWithin {loader : Loader}
    (hloader : ∀ levels, ¬ loader.GivesUp (.nestingTooDeep levels)) {levels : Nat} {model : Element}
    (hk : model.kind = .model) (h : ∀ child ∈ model.children, child.ModelsWithin levels)
    (options : Options) : FailsOnly Failure.OtherThanTooDeep (evalModelAt loader levels options model) := by
  have hscript : ∀ failure : Failure, failure.OfScript → failure.OtherThanTooDeep := by
    rintro failure h levels rfl
    exact h
  have hloading : ∀ failure, loader.GivesUp failure → failure.OtherThanTooDeep := by
    rintro failure h levels rfl
    exact hloader levels h
  induction levels generalizing model with
  | zero =>
    have hparallel := @parallel_failsOnly Failure.OtherThanTooDeep (Element.ModelsWithin 0)
      (settingAt loader 0 options) Element.ModelsWithin.of_mem_children hscript hloading
      fun node hnode hmodel => absurd hmodel (hnode node List.mem_cons_self)
    rw [evalModelAt_eq]
    exact hparallel.related_evalModel hk hk (Element.forall₂_sameIf h)
      (failsOnly_writeOutput options model fun _ _ _ _ heq => nomatch heq)
  | succ levels ih =>
    have hparallel := @parallel_failsOnly Failure.OtherThanTooDeep (Element.ModelsWithin (levels + 1))
      (settingAt loader (levels + 1) options) Element.ModelsWithin.of_mem_children hscript hloading
      fun node hnode hmodel => by
        obtain ⟨hpath, hchildren⟩ := hnode node List.mem_cons_self hmodel
        exact failsOnly_evalNestedModel_of_inline rfl hpath (ih hmodel hchildren)
    rw [evalModelAt_eq]
    exact hparallel.related_evalModel hk hk (Element.forall₂_sameIf h)
      (failsOnly_writeOutput options model fun _ _ _ _ heq => nomatch heq)

/-! ## Models nested in a row -/

/-- Models one inside the other, the first one outermost, with the given content in the innermost one. -/
def chain : List Element → List Element → List Element
  | [], content => content
  | link :: links, content => [link.withChildren (chain links content)]

/-- In a row there are as many models one inside the other as it is long. -/
theorem modelsWithin_chain {content : List Element}
    (hcontent : ∀ node ∈ Element.preorder content, node.kind ≠ .model) {links : List Element}
    (hlinks : ∀ link ∈ links, link.kind = .model ∧ link.attr? AttrName.path = none) :
    ∀ node ∈ chain links content, node.ModelsWithin links.length := by
  induction links with
  | nil => exact fun node hnode e he => hcontent e (Element.mem_preorder_iff.2 ⟨node, hnode, he⟩)
  | cons link links ih =>
    obtain ⟨⟨-, hpath⟩, hrest⟩ := List.forall_mem_cons.1 hlinks
    have hchain := ih hrest
    intro node hnode
    obtain rfl := List.mem_singleton.1 hnode
    refine Element.everywhere_iff.2 ⟨fun _ => ⟨hpath, hchain⟩, fun child hchild => ?_⟩
    exact (hchain child hchild).succ

section Chain

variable {loader : Loader} {content : List Element}

/-- A model fails as the first of its children does. -/
theorem result_evalModel_of_child {setting : Setting} {model child : Element} {rest : List Element}
    (hk : model.kind = .model) (hchildren : model.children = child :: rest) (hchild : child.kind = .model)
    {s : Session} {failure : Failure}
    (h : (outcome (evalNode setting none .anywhere child) s).1 = .error failure) :
    (outcome (evalModel setting model) s).1 = .error failure := by
  have hdeepen : deepen child (evalNode setting none .anywhere child) =
      evalNode setting none .anywhere child := if_neg (by rw [hchild]; decide)
  unfold evalModel
  rw [if_pos hk, hchildren, evalEach, hdeepen]
  exact result_bind_of_error (result_bind_of_error h _) _

/-- A row of more models than there are levels fails. -/
theorem tooDeep_chain {links : List Element}
    (hlinks : ∀ link ∈ links, link.kind = .model ∧ link.attr? AttrName.path = none) {levels : Nat}
    (hlevels : levels < links.length) {options : Options} {root : Element} (hk : root.kind = .model)
    (s : Session) :
    (outcome (evalModelAt loader levels options (root.withChildren (chain links content))) s).1 =
      .error (.nestingTooDeep options.maxNesting) := by
  induction links generalizing levels root s with
  | nil => exact absurd hlevels (Nat.not_lt_zero levels)
  | cons link links ih =>
    obtain ⟨⟨hlink, hpath⟩, hrest⟩ := List.forall_mem_cons.1 hlinks
    have hroot : (root.withChildren (chain (link :: links) content)).kind = .model := hk
    have hchild : (link.withChildren (chain links content)).kind = .model := hlink
    rw [evalModelAt_eq]
    refine result_evalModel_of_child hroot rfl hchild ?_
    cases levels with
    | zero => exact result_evalNode_of_none rfl hchild none .anywhere s
    | succ levels =>
      have hbelow : levels < links.length := Nat.lt_of_succ_lt_succ hlevels
      -- the link has the next one as a child
      have hleaf : ¬ (link.withChildren (chain links content)).isLeaf := by
        cases links with
        | nil => exact absurd hbelow (Nat.not_lt_zero levels)
        | cons next links => exact Bool.false_ne_true
      have hm : nestedModel? options s.world.files (link.withChildren (chain links content)) =
          some (options, link.withChildren (chain links content)) := nestedModel?_of_inline hpath hleaf
      have hfails : (Moment.enters ⟨[], link.withChildren (chain links content)⟩ none .anywhere s).FailsWith
          (settingAt loader (levels + 1) options) (.nestingTooDeep options.maxNesting) :=
        failsWith_of_nested rfl hchild hm (ih hrest hbelow hlink _) Bool.false_ne_true
      exact hfails

end Chain

/-! ## Runs -/

namespace Interpreter

/-- A run always ends, whatever the files are and however they name each other: the evaluation that
goes on until the limit for nested models is reached comes to an end in exactly one way, and the run is
what that gives. No node is evaluated in a model with more models around it than the limit, and a
model that would have more around it makes the whole run fail. So of models nested in a row, around a
content without models, the run takes as many as the limit says and no more. It is assumed there that
the loader does not fail in this way by itself. -/
theorem run_ends_within_maxNesting (interpreter : Interpreter) (model : Element) :
    (∃ act, (∀ other, Ends interpreter.loader 0 interpreter.options model other ↔ other = act) ∧
      interpreter.run model = ((outcome act interpreter.session).1,
        { interpreter with session := (outcome act interpreter.session).2 })) ∧
    (∀ scene ∈ interpreter.scenes model, scene.models ≤ interpreter.options.maxNesting + 1 ∧
      (scene.Nests → interpreter.options.maxNesting < scene.models →
        (interpreter.run model).1 = .error (.nestingTooDeep interpreter.options.maxNesting))) ∧
    ((∀ levels, ¬ interpreter.loader.GivesUp (.nestingTooDeep levels)) → model.kind = .model →
      ∀ links content, (∀ link ∈ links, link.kind = .model ∧ link.attr? AttrName.path = none) →
        (∀ node ∈ Element.preorder content, node.kind ≠ .model) →
          ((∀ levels, (interpreter.run (model.withChildren (chain links content))).1 ≠
              .error (.nestingTooDeep levels)) ↔ links.length ≤ interpreter.options.maxNesting)) := by
  refine ⟨⟨_, fun other => ends_iff, rfl⟩, fun scene hscene => ?_,
    fun hloader hk links content hlinks hcontent => ⟨fun hnot => ?_, fun hlevels levels hdeep => ?_⟩⟩
  · obtain ⟨hle, hfails⟩ := nesting_scenesAt interpreter.options.maxNesting scene hscene
    have hnone : Trail.models [] = 0 := rfl
    rw [hnone, Nat.zero_add] at hle hfails
    exact ⟨hle, fun hnests hlt => hfails hnests (by omega)⟩
  · by_contra hlevels
    exact hnot _ (tooDeep_chain hlinks (Nat.lt_of_not_le hlevels) hk interpreter.session)
  · have hwithin : ∀ child ∈ chain links content, child.ModelsWithin interpreter.options.maxNesting :=
      fun child hchild => (modelsWithin_chain hcontent hlinks child hchild).mono hlevels
    have hroot : (model.withChildren (chain links content)).kind = .model := hk
    have honly := failsOnly_of_modelsWithin hloader hroot hwithin interpreter.options
    exact honly interpreter.session _ hdeep levels rfl

/-- The text of a model that nests the file it is in. -/
def loopText : String := "<x:model xmlns:x=\"xdra\"><x:model path=\"loop.xml\"/></x:model>"

/-- An interpreter that lets one model be nested, and a file that nests itself. -/
def looping : Interpreter :=
  create { Options.standard with maxNesting := 1 } .aggregator
    ⟨.around (.directory [("loop.xml", .file (.text loopText))]), .text ""⟩

theorem nestedModel?_looping : ∃ baseDir model child,
    nestedModel? looping.options looping.session.world.files
      (directive .model [⟨AttrName.path, "loop.xml"⟩] []) =
        some ({ looping.options with baseDir := baseDir }, model) ∧
    model.kind = .model ∧ model.children = [child] ∧ child.kind = .model := by
  have hjoin : looping.options.baseDir.join ⟨"loop.xml"⟩ = ⟨"./loop.xml"⟩ := by decide +kernel
  have hread : looping.session.world.files.readText ⟨"./loop.xml"⟩ = .ok loopText := by
    rw [Disk.readText, Disk.open?_eq_follow (by decide)]
    rfl
  have hkinds : (Element.parse 0 loopText).toOption.map
      (fun model => (model.kind, model.children.map Element.kind)) = some (.model, [.model]) := by
    decide +kernel
  cases hparse : Element.parse 0 loopText with
  | error error =>
    rw [hparse] at hkinds
    exact nomatch hkinds
  | ok model =>
    rw [hparse] at hkinds
    obtain ⟨hk, hchildren⟩ := Prod.ext_iff.1 (Option.some.inj hkinds)
    obtain ⟨child, rest, hlist, hchild, hrest⟩ := List.map_eq_cons_iff.1 hchildren
    rw [List.map_eq_nil_iff.1 hrest] at hlist
    let dir := FilePath.parent? ⟨"./loop.xml"⟩
    refine ⟨dir.getD looping.options.baseDir, model, child, ?_, hk, hlist, hchild⟩
    have hpath : (directive .model [⟨AttrName.path, "loop.xml"⟩] []).attr? AttrName.path =
      some "loop.xml" := by decide
    unfold nestedModel? loadModel
    rw [hpath]
    simp only [hjoin, hread, hparse]
    rfl

/-- In the file the file is nested once more. -/
theorem exists_nests_looping :
    let nests := directive .model [⟨AttrName.path, "loop.xml"⟩] []
    ∃ scene ∈ looping.scenes (directive .model [] [nests]), scene.Nests ∧
      looping.options.maxNesting < scene.models := by
  intro nests
  obtain ⟨baseDir, model, child, hm, hk, hchildren, hchild⟩ := nestedModel?_looping
  let options := { looping.options with baseDir := baseDir }
  let session := (looping.session.enterNode nests).enterModel
  let root := directive .model [] [nests]
  have houter := @enters_mem_courseModel (settingAt looping.loader 1 looping.options) root nests [] rfl
    rfl rfl looping.session
  have hinner := @enters_mem_courseModel (settingAt looping.loader 0 options) model child [] hk hchildren
    hchild session
  refine ⟨.of options model (root.trailTo [0]) (.enters ⟨[0], child⟩ none .anywhere session), ?_,
    ⟨rfl, hchild⟩, ?_⟩
  · exact List.mem_flatMap.2 ⟨_, houter, Scene.mem_unfolded_of_nested rfl hm
      (List.mem_flatMap.2 ⟨_, hinner, List.mem_cons_self⟩)⟩
  · rw [Scene.models_of, models_trailTo]
    decide

/-- The file is read once, and then it is too deep. A model nested in a model is no problem here, but
one more is. -/
theorem run_ends_within_maxNesting_looping :
    let nests := directive .model [⟨AttrName.path, "loop.xml"⟩] []
    let root := directive .model [] [nests]
    let link := directive .model [] []
    let content := [{ directive .literal [] [] with text := some "here" }]
    (looping.run root).1 = .error (.nestingTooDeep 1) ∧
      (∀ levels, (looping.run (root.withChildren (chain [link] content))).1 ≠
        .error (.nestingTooDeep levels)) ∧
      ∃ levels, (looping.run (root.withChildren (chain [link, link] content))).1 =
        .error (.nestingTooDeep levels) := by
  intro nests root link content
  obtain ⟨-, hscenes, hchain⟩ := run_ends_within_maxNesting looping root
  have hlinks : ∀ e ∈ [link, link], e.kind = .model ∧ e.attr? AttrName.path = none := by decide
  have hcontent : ∀ node ∈ Element.preorder content, node.kind ≠ .model := by decide
  have hloader : ∀ levels, ¬ looping.loader.GivesUp (.nestingTooDeep levels) :=
    fun _ => not_givesUp_aggregator _
  refine ⟨?_, ?_, ?_⟩
  · obtain ⟨scene, hscene, hnests, hlt⟩ := exists_nests_looping
    exact (hscenes scene hscene).2 hnests hlt
  · refine (hchain hloader rfl [link] content (fun e he => hlinks e ?_) hcontent).2 (Nat.le_refl 1)
    exact List.mem_cons_of_mem _ he
  · by_contra hnone
    have hle := (hchain hloader rfl [link, link] content hlinks hcontent).1 (not_exists.1 hnone)
    exact absurd hle (by decide)

end Interpreter

end Docweave
