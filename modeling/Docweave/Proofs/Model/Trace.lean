import Docweave.Proofs.Model.Course

set_option autoImplicit false

/-! # The evaluations that a run reports

Every evaluation of a node is told before anything else is done for the node. So the notices of a run
show which evaluations there were, and `begun_evalModelAt` compares them with the moments of the
course: both give the same evaluations in the same order, each with the same notices before it. Thus
a course neither leaves out an evaluation nor makes one up. -/

namespace Docweave

open Eval

/-! ## Beginnings among notices -/

/-- The evaluations that notices report, in order, each with what was told before it. The last notice
stands first. -/
def beginnings : List Notice → List (List Notice)
  | [] => []
  | notice :: earlier =>
    if notice.isRemark then beginnings earlier else beginnings earlier ++ [notice :: earlier]

/-- The evaluations that a session has seen begin. -/
def Session.begun (s : Session) : List (List Notice) := beginnings s.notices

theorem beginnings_append {remarks : List Notice} (h : ∀ notice ∈ remarks, notice.isRemark)
    (earlier : List Notice) : beginnings (remarks ++ earlier) = beginnings earlier := by
  induction remarks with
  | nil => rfl
  | cons notice rest ih =>
    rw [List.forall_mem_cons] at h
    rw [List.cons_append, beginnings, if_pos h.1, ih h.2]

theorem begun_told {remarks : List Notice} (h : ∀ notice ∈ remarks, notice.isRemark) (s : Session) :
    (s.told remarks).begun = s.begun :=
  beginnings_append (fun notice hmem => h notice (List.mem_reverse.1 hmem)) s.notices

theorem begun_enterNode (node : Element) (s : Session) :
    (s.enterNode node).begun = s.begun ++ [(s.enterNode node).notices] := rfl

/-! ## Discreet loaders -/

/-- The loader tells nothing that looks like the beginning of an evaluation. -/
def Loader.Discreet (loader : Loader) : Prop := ∀ notice, loader.Tells notice → notice.isRemark

theorem isRemark_of_mem_aggregate {root : Element} {notices : List Notice} {found : List FoundFile}
    (h : ∀ notice ∈ notices, notice.isRemark) :
    ∀ notice ∈ (aggregate root notices found).notices, notice.isRemark := by
  induction found generalizing root notices with
  | nil => exact h
  | cons file rest ih =>
    unfold aggregate
    cases file.document with
    | error failure => exact h
    | ok document =>
      refine ih fun notice hmem => ?_
      rcases List.mem_append.1 hmem with hold | hnew
      · exact h notice hold
      · rw [List.mem_singleton.1 hnew]
        rfl

theorem discreet_aggregator : Loader.aggregator.Discreet := by
  rintro notice ⟨world, ⟨directory, root, deep, hmem⟩ | ⟨location, base, root, hmem⟩⟩
  · change notice ∈ (loadFiles world directory root deep).notices at hmem
    unfold loadFiles at hmem
    cases hfound : world.files.filesIn deep directory with
    | error problem => simp [hfound] at hmem
    | ok found =>
      rw [hfound] at hmem
      exact isRemark_of_mem_aggregate (by simp) notice hmem
  · change notice ∈ (loadLocation world location base root).notices at hmem
    unfold loadLocation at hmem
    by_cases haddress : isAddress location
    · simp only [if_pos haddress] at hmem
      rw [List.mem_singleton.1 hmem]
      rfl
    · simp [if_neg haddress] at hmem

/-! ## Remarks along an evaluation -/

/-- Directives without content begin no evaluation but their own. -/
theorem incidental_begun {loader : Loader} (h : loader.Discreet) :
    Incidental loader fun _ s s' => s'.begun = s.begun where
  refl _ := ⟨fun _ => rfl⟩
  trans _ := ⟨fun _ _ _ h h' => h'.trans h⟩
  told _ notices s hn := by
    refine begun_told (fun notice hmem => ?_) s
    rcases hn notice hmem with hremark | htells
    · exact hremark
    · exact h notice htells
  ran _ _ _ _ := rfl
  wrote _ _ _ := rfl
  drained _ _ := rfl
  registered _ _ _ _ := rfl

/-! ## Courses with nested models -/

/-- The moments of the model that a node nests, after the beginning of the node was told. They may be
told with more about each. -/
def nestedCourse {α : Type} (options : Options) (course : Options → Element → Session → List α)
    (node : Element) (s : Session) : List α :=
  match nestedModel? options s.world.files node with
  | some (inner, model) => course inner model s.enterModel
  | none => []

/-- A moment, followed by those of the model that is nested there. -/
def Moment.unfolded (options : Options) (course : Options → Element → Session → List Moment) :
    Moment → List Moment
  | enters node record place session =>
    enters node record place session ::
      if node.element.kind = .model then
        nestedCourse options course node.element (session.enterNode node.element)
      else []
  | leaves node => [leaves node]

/-- The moments of a model and of those nested in it to the given number of levels. -/
def courseAt (loader : Loader) : Nat → Options → Element → Session → List Moment
  | 0, options, model, s =>
    (courseModel (settingAt loader 0 options) model s).flatMap (Moment.unfolded options fun _ _ _ => [])
  | levels + 1, options, model, s =>
    (courseModel (settingAt loader (levels + 1) options) model s).flatMap
      (Moment.unfolded options (courseAt loader levels))

/-- The notices at the beginning of an evaluation. -/
def Moment.reported : Moment → Option (List Notice)
  | enters node _ _ session => some (session.enterNode node.element).notices
  | leaves _ => none

theorem Moment.eq_or_nested_of_mem_unfolded {options : Options}
    {course : Options → Element → Session → List Moment} {m m' : Moment}
    (h : m ∈ m'.unfolded options course) :
    m = m' ∨ ∃ node record place session inner model, m' = .enters node record place session ∧
      node.element.kind = .model ∧
      nestedModel? options session.world.files node.element = some (inner, model) ∧
      m ∈ course inner model (session.enterNode node.element).enterModel := by
  cases m' with
  | leaves node => exact .inl (List.mem_singleton.1 h)
  | enters node record place session =>
    rcases List.mem_cons.1 h with heq | hmem
    · exact .inl heq
    · by_cases hk : node.element.kind = .model
      · rw [if_pos hk, nestedCourse] at hmem
        cases hm : nestedModel? options session.world.files node.element with
        | none =>
          have hm' : nestedModel? options (session.enterNode node.element).world.files node.element =
            none := hm
          simp [hm'] at hmem
        | some nested =>
          have hm' : nestedModel? options (session.enterNode node.element).world.files node.element =
            some nested := hm
          rw [hm'] at hmem
          exact .inr ⟨_, _, _, _, _, _, rfl, hk, hm, hmem⟩
      · simp [if_neg hk] at hmem

/-! ## Reports along a course -/

/-- A nested model begins the evaluations of its own course. -/
def BeginsNested (options : Options) (course : Options → Element → Session → List Moment)
    (node : Element) (s s' : Session) : Prop :=
  s'.begun = s.begun ++ (nestedCourse options course node s).filterMap Moment.reported

section Report

variable {options : Options} {course : Options → Element → Session → List Moment} {place : SourcePlace}

/-- A node begins one evaluation before its content, and those of a model that it nests. -/
theorem Around.begun_eq {node : Element} {s₀ s₁ s₂ s₃ : Session}
    (h : Around (fun _ s s' => s'.begun = s.begun) (BeginsNested options course) place node s₀ s₁ s₂ s₃)
    (ascent : List Nat) (record : Option Element) :
    s₁.begun = s₀.begun ++ ((Moment.enters ⟨ascent, node⟩ record place s₀).unfolded options
      course).filterMap Moment.reported ∧ s₃.begun = s₂.begun := by
  have hunfolded : ((Moment.enters ⟨ascent, node⟩ record place s₀).unfolded options course).filterMap
      Moment.reported = (s₀.enterNode node).notices ::
        (if node.kind = .model then nestedCourse options course node (s₀.enterNode node)
        else []).filterMap Moment.reported := rfl
  rw [hunfolded, List.append_cons, ← begun_enterNode]
  unfold Around at h
  cases hk : node.kind with
  | query =>
    simp only [hk] at h
    obtain ⟨s, hs, rfl, rfl⟩ := h
    exact ⟨hs.trans (List.append_nil _).symm, rfl⟩
  | action =>
    simp only [hk] at h
    obtain ⟨s, hs, rfl, rfl⟩ := h
    exact ⟨hs.trans (List.append_nil _).symm, rfl⟩
  | model =>
    simp only [hk] at h
    obtain ⟨hs, rfl⟩ := h
    exact ⟨hs, rfl⟩
  | source | getNode | getContent | literal | passThrough =>
    simp only [hk] at h
    obtain ⟨hs, rfl⟩ := h
    exact ⟨hs.trans (List.append_nil _).symm, rfl⟩

theorem Course.begun_eq {model : Element} {deep : Bool} {ascent : List Nat} {s s' : Session}
    {moments : List Moment}
    (h : Course (fun _ s s' => s'.begun = s.begun) (BeginsNested options course) model deep place ascent
      s moments s') :
    s'.begun = s.begun ++
      (moments.flatMap (Moment.unfolded options course)).filterMap Moment.reported := by
  induction h with
  | nil => exact (List.append_nil _).symm
  | @node deep place ascent i node record s s₁ s₂ s₃ s' content rest _ haround _ _ ihcontent ihrest =>
    have hbegins : (s.enterChild deep node).begun = s.begun := by
      unfold Session.enterChild
      split <;> rfl
    have hends : (s₃.leaveChild deep node).begun = s₃.begun := by
      unfold Session.leaveChild
      split <;> rfl
    obtain ⟨hbefore, hafter⟩ := haround.begun_eq (i :: ascent) record
    have hleaves : ((Moment.leaves ⟨i :: ascent, node⟩).unfolded options course).filterMap
        Moment.reported = [] := rfl
    rw [ihrest, hends, hafter, ihcontent, hbefore, hbegins]
    simp only [List.flatMap_cons, List.flatMap_append, List.filterMap_append, List.append_assoc, hleaves,
      List.nil_append]

/-- The evaluation of a model reports what is in its course, if each model nested in it does. -/
theorem begun_evalModel {setting : Setting} (h : setting.loader.Discreet)
    (hnested : ∀ node s,
      BeginsNested setting.options course node s (outcome (evalNestedModel setting node) s).2)
    (model : Element) (s : Session) :
    (outcome (evalModel setting model) s).2.begun = s.begun ++
      ((courseModel setting model s).flatMap
        (Moment.unfolded setting.options course)).filterMap Moment.reported := by
  obtain ⟨s', hcourse, hwritten⟩ := exists_course_evalModel (incidental_begun h) hnested s
  exact hwritten.trans hcourse.begun_eq

end Report

/-! ## Runs -/

theorem beginsNested_of_none {setting : Setting} (hnone : setting.nested = none) (node : Element)
    (s : Session) : BeginsNested setting.options (fun _ _ _ => []) node s
      (outcome (evalNestedModel setting node) s).2 := by
  unfold BeginsNested nestedCourse
  rw [evalNestedModel_of_none hnone, outcome_throw]
  cases nestedModel? setting.options s.world.files node with
  | none => exact (List.append_nil _).symm
  | some nested => exact (List.append_nil _).symm

theorem beginsNested_of_some {setting : Setting} {run : Options → Element → Eval String}
    {course : Options → Element → Session → List Moment} (hrun : setting.nested = some run)
    (h : ∀ options model s, (outcome (run options model) s).2.begun =
      s.begun ++ (course options model s).filterMap Moment.reported)
    (node : Element) (s : Session) : BeginsNested setting.options course node s
      (outcome (evalNestedModel setting node) s).2 := by
  unfold BeginsNested nestedCourse
  cases hm : nestedModel? setting.options s.world.files node with
  | none =>
    obtain ⟨notices, hremarks, hs⟩ := exists_told_of_nestedModel?_eq_none hrun hm
    rw [hs, begun_told hremarks]
    exact (List.append_nil _).symm
  | some nested =>
    obtain ⟨options, model⟩ := nested
    obtain ⟨notices, hremarks, hs⟩ := exists_told_evalNestedModel hrun hm
    rw [hs, begun_told hremarks]
    -- what is put back after the nested model leaves its notices
    exact h options model s.enterModel

/-- The notices of a run report the evaluations in its course, in the same order, and no other ones. -/
theorem begun_evalModelAt {loader : Loader} (h : loader.Discreet) (levels : Nat) (options : Options)
    (model : Element) (s : Session) :
    (outcome (evalModelAt loader levels options model) s).2.begun =
      s.begun ++ (courseAt loader levels options model s).filterMap Moment.reported := by
  induction levels generalizing options model s with
  | zero =>
    rw [evalModelAt_eq]
    exact begun_evalModel h (beginsNested_of_none rfl) model s
  | succ levels ih =>
    rw [evalModelAt_eq]
    exact begun_evalModel h (beginsNested_of_some rfl ih) model s

/-- The moments of a run are those of the models that it evaluates. -/
theorem ModelRun.exists_of_mem_courseAt {loader : Loader} {levels : Nat} {options : Options}
    {model : Element} {s : Session} (h : ModelRun loader levels options model s) {m : Moment}
    (hm : m ∈ courseAt loader levels options model s) :
    ∃ levels options model s, ModelRun loader levels options model s ∧
      m ∈ courseModel (settingAt loader levels options) model s := by
  induction levels generalizing options model s with
  | zero =>
    obtain ⟨m', hm', hin⟩ := List.mem_flatMap.1 hm
    rcases Moment.eq_or_nested_of_mem_unfolded hin with rfl | ⟨_, _, _, _, _, _, _, _, _, hnone⟩
    · exact ⟨_, _, _, _, h, hm'⟩
    · simp at hnone
  | succ levels ih =>
    obtain ⟨m', hm', hin⟩ := List.mem_flatMap.1 hm
    rcases Moment.eq_or_nested_of_mem_unfolded hin with
      rfl | ⟨node, record, place, session, inner, nested, rfl, hk, hnested, hmem⟩
    · exact ⟨_, _, _, _, h, hm'⟩
    · exact ih (.nested h hm' hk hnested) hmem

/-- Every evaluation that a run reports begins at a moment of one of the models that are evaluated. -/
theorem Interpreter.exists_moment_of_mem_begun_run {interpreter : Interpreter}
    (h : interpreter.Reachable) (hdiscreet : interpreter.loader.Discreet) (model : Element)
    {notices : List Notice} (hn : notices ∈ (interpreter.run model).2.session.begun) :
    notices ∈ interpreter.session.begun ∨
      ∃ levels options model s node record place session,
        ModelRun interpreter.loader levels options model s ∧
          .enters node record place session ∈ courseModel (settingAt interpreter.loader levels options)
            model s ∧ (session.enterNode node.element).notices = notices := by
  have hrun := begun_evalModelAt hdiscreet interpreter.options.maxNesting interpreter.options model
    interpreter.session
  change (interpreter.run model).2.session.begun = _ at hrun
  rw [hrun] at hn
  rcases List.mem_append.1 hn with hbefore | hnow
  · exact .inl hbefore
  · obtain ⟨m, hm, hreported⟩ := List.mem_filterMap.1 hnow
    obtain ⟨levels, options, model, s, hmodel, hcourse⟩ :=
      ModelRun.exists_of_mem_courseAt (.outermost interpreter model h) hm
    cases m with
    | leaves node => simp [Moment.reported] at hreported
    | enters node record place session =>
      exact .inr ⟨_, _, _, _, _, _, _, _, hmodel, hcourse, Option.some.inj hreported⟩

end Docweave
