import Docweave.Proofs.Model.Sources
import Docweave.Proofs.Model.Trace

set_option autoImplicit false

/-! # The scenes of a run

A scene is a moment of a run together with the nodes around it, from the innermost one out to the root
of the outermost model. The scenes of a run are the moments of its course, and `begun_run_scenes`
compares them with what was told: no evaluation is left out and none made up. -/

namespace Docweave

open Eval

/-! ## Trails -/

/-- A node and those around it, innermost first. Around the root of a nested model stands the directive
that nests it. -/
abbrev Trail := List Located

namespace Trail

/-- Where the nodes of a trail stand, each in its own model. -/
def places (trail : Trail) : List (List Nat) := trail.map Located.ascent

/-- The trail begins at a query. -/
def atQuery : Trail → Bool
  | [] => false
  | node :: _ => node.element.kind == .query

/-- The trail of the innermost query. -/
def query? : Trail → Option Trail
  | [] => none
  | node :: above => if node.element.kind = .query then some (node :: above) else query? above

section Queries

variable {node : Located} {above query : Trail}

theorem query?_of_query (hk : node.element.kind = .query) :
    query? (node :: above) = some (node :: above) := if_pos hk

theorem query?_of_ne_query (hk : node.element.kind ≠ .query) : query? (node :: above) = query? above :=
  if_neg hk

theorem query?_of_atQuery {trail : Trail} (h : trail.atQuery) : trail.query? = some trail := by
  cases trail with
  | nil => simp [atQuery] at h
  | cons node above => exact query?_of_query (eq_of_beq h)

theorem length_le_of_query? {trail : Trail} (h : trail.query? = some query) :
    query.length ≤ trail.length := by
  induction trail with
  | nil => simp [query?] at h
  | cons node above ih =>
    by_cases hk : node.element.kind = .query
    · rw [query?_of_query hk, Option.some.injEq] at h
      rw [h]
    · rw [query?_of_ne_query hk] at h
      exact Nat.le_succ_of_le (ih h)

theorem length_lt_of_query? {trail : Trail} (h : trail.query? = some query) (hat : ¬ trail.atQuery) :
    query.length < trail.length := by
  cases trail with
  | nil => simp [query?] at h
  | cons node above =>
    have hk : node.element.kind ≠ .query := fun hk => hat (beq_iff_eq.2 hk)
    rw [query?_of_ne_query hk] at h
    exact Nat.lt_succ_of_le (length_le_of_query? h)

theorem places_ne {trail : Trail} (h : query.length < trail.length) : trail.places ≠ query.places := by
  intro heq
  have hlength := congrArg List.length heq
  simp only [places, List.length_map] at hlength
  omega

end Queries

end Trail

namespace Element

/-- The nodes of a model from a place up to the root. -/
def trailTo (model : Element) (ascent : List Nat) : Trail :=
  ascent.tails.filterMap fun above => (model.at? above.reverse).map (Located.mk above)

theorem trailTo_cons {model node : Element} {i : Nat} {above : List Nat}
    (h : model.at? (i :: above).reverse = some node) :
    model.trailTo (i :: above) = ⟨i :: above, node⟩ :: model.trailTo above := by
  have htails : (i :: above).tails = (i :: above) :: above.tails := rfl
  rw [trailTo, htails, List.filterMap_cons, h]
  rfl

end Element

/-! ## Scenes -/

/-- A moment of a run where it stands in the run. -/
structure Scene where
  /-- The options of the model. -/
  options : Options
  /-- The nodes around the one that the moment is about. -/
  around : Trail
  /-- The moment. -/
  moment : Moment

namespace Scene

/-- The node that a scene is about, with those around it. -/
def trail (scene : Scene) : Trail := scene.moment.node :: scene.around

/-- A moment of a model that is nested at the end of a trail. -/
def of (options : Options) (model : Element) (outer : Trail) (m : Moment) : Scene :=
  ⟨options, model.trailTo m.node.ascent.tail ++ outer, m⟩

/-- The scenes of the model that is nested at a scene. -/
def nested (scenes : Trail → Options → Element → Session → List Scene) (scene : Scene) : List Scene :=
  match scene.moment with
  | .enters node _ _ session =>
    if node.element.kind = .model then
      nestedCourse scene.options (scenes scene.trail) node.element (session.enterNode node.element)
    else []
  | .leaves _ => []

/-- A scene, followed by those of the model that is nested there. -/
def unfolded (scenes : Trail → Options → Element → Session → List Scene) (scene : Scene) : List Scene :=
  scene :: scene.nested scenes

end Scene

/-- The scenes of a model at the end of a trail, and of the models nested in it to the given number of
levels. -/
def scenesAt (loader : Loader) : Nat → Trail → Options → Element → Session → List Scene
  | 0, outer, options, model, s =>
    (courseModel (settingAt loader 0 options) model s).flatMap fun m =>
      (Scene.of options model outer m).unfolded fun _ _ _ _ => []
  | levels + 1, outer, options, model, s =>
    (courseModel (settingAt loader (levels + 1) options) model s).flatMap fun m =>
      (Scene.of options model outer m).unfolded (scenesAt loader levels)

/-- The scenes of a run. -/
def Interpreter.scenes (interpreter : Interpreter) (model : Element) : List Scene :=
  scenesAt interpreter.loader interpreter.options.maxNesting [] interpreter.options model
    interpreter.session

/-! ## Scenes and moments -/

theorem map_nestedCourse {α β : Type} (f : α → β) (options : Options)
    (course : Options → Element → Session → List α) (node : Element) (s : Session) :
    (nestedCourse options course node s).map f =
      nestedCourse options (fun options model s => (course options model s).map f) node s := by
  unfold nestedCourse
  cases nestedModel? options s.world.files node with
  | none => rfl
  | some nested => rfl

theorem Scene.map_moment_unfolded {scenes : Trail → Options → Element → Session → List Scene}
    {course : Options → Element → Session → List Moment}
    (h : ∀ trail options model s, (scenes trail options model s).map Scene.moment =
      course options model s) (scene : Scene) :
    (scene.unfolded scenes).map Scene.moment = scene.moment.unfolded scene.options course := by
  obtain ⟨options, around, moment⟩ := scene
  cases moment with
  | leaves node => rfl
  | enters node record place session =>
    unfold Scene.unfolded Scene.nested Moment.unfolded
    simp only [List.map_cons]
    by_cases hk : node.element.kind = .model
    · simp only [if_pos hk, map_nestedCourse, h]
    · simp only [if_neg hk, List.map_nil]

/-- The moments of the scenes are those of the course. -/
theorem map_moment_scenesAt (loader : Loader) (levels : Nat) (outer : Trail) (options : Options)
    (model : Element) (s : Session) :
    (scenesAt loader levels outer options model s).map Scene.moment =
      courseAt loader levels options model s := by
  induction levels generalizing outer options model s with
  | zero =>
    unfold scenesAt courseAt
    rw [List.map_flatMap]
    simp only [Scene.map_moment_unfolded fun _ _ _ _ => List.map_nil]
    rfl
  | succ levels ih =>
    unfold scenesAt courseAt
    rw [List.map_flatMap]
    simp only [Scene.map_moment_unfolded ih]
    rfl

/-- The notices of a run report the evaluations in its scenes, in the same order, and no other ones. -/
theorem Interpreter.begun_run_scenes {interpreter : Interpreter} (h : interpreter.loader.Discreet)
    (model : Element) :
    (interpreter.run model).2.session.begun = interpreter.session.begun ++
      (interpreter.scenes model).filterMap fun scene => scene.moment.reported := by
  have hrun := begun_evalModelAt h interpreter.options.maxNesting interpreter.options model
    interpreter.session
  rw [← map_moment_scenesAt _ _ [], List.filterMap_map] at hrun
  exact hrun

end Docweave
