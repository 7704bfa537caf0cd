import Docweave.Model.Interpreter
import Docweave.Proofs.Model.Persistent
import Docweave.Proofs.Script.Compiled

set_option autoImplicit false

/-! # Interpreters at rest

Between two runs an interpreter is at rest: its context is the initial one, no query has left a source
behind, and no script waits. `atRest_run` says that a run ends at rest wherever and however it ends,
whatever was done with the interpreter before. -/

namespace Docweave

open Eval

/-! ## What an evaluation keeps -/

/-- The transform of records at hand: an action, its key, and the script that waits. -/
def Session.transformState (s : Session) : Option ActionKind × Option String × Option String :=
  (s.context.action, s.context.key, s.runner.primed)

/-- The later session has the query path and the depth of the earlier one, and outside of a query its
local sources. The transform is the same as well, or there is none any more. -/
structure Session.Restores (place : SourcePlace) (s s' : Session) : Prop where
  queryPath : s'.context.queryPath = s.context.queryPath
  depth : s'.context.depth = s.context.depth
  locals : place = .anywhere → s'.sources.locals = s.sources.locals
  transform : s'.transformState = s.transformState ∨ s'.transformState = (none, none, none)

namespace Session.Restores

variable {place : SourcePlace} {s s' s'' : Session}

theorem refl (place : SourcePlace) (s : Session) : Restores place s s :=
  ⟨rfl, rfl, fun _ => rfl, .inl rfl⟩

theorem trans (h : Restores place s s') (h' : Restores place s' s'') : Restores place s s'' where
  queryPath := h'.queryPath.trans h.queryPath
  depth := h'.depth.trans h.depth
  locals := by
    intro hp
    rw [h'.locals hp, h.locals hp]
  transform := by
    rcases h'.transform with ht | ht
    · rw [ht]
      exact h.transform
    · exact .inr ht

end Session.Restores

/-- Every part of an evaluation puts back what it has set. -/
theorem Session.persistent_restores (loader : Loader) : Persistent loader Session.Restores where
  refl place := ⟨Restores.refl place⟩
  trans place := ⟨fun _ _ _ => Restores.trans⟩
  anywhere h := ⟨h.queryPath, h.depth, fun _ => h.locals rfl, h.transform⟩
  told place notices s _ := ⟨rfl, rfl, fun _ => rfl, .inl rfl⟩
  began place name kind s := ⟨rfl, rfl, fun _ => rfl, .inl rfl⟩
  ran place source tree s := by
    refine ⟨rfl, rfl, fun _ => rfl, .inl ?_⟩
    simp only [transformState, ScriptRunner.primed_run]
  wrote place files s := ⟨rfl, rfl, fun _ => rfl, .inl rfl⟩
  drained place s := ⟨rfl, rfl, fun _ => rfl, .inl rfl⟩
  registered place policy tree s := by
    -- local sources are registered in queries only
    refine ⟨rfl, rfl, fun hp => ?_, .inl rfl⟩
    subst hp
    rfl
  query h := ⟨rfl, h.depth, fun _ => rfl, h.transform⟩
  action h := ⟨h.queryPath, h.depth, fun _ => h.locals rfl, .inr rfl⟩
  deepened h := ⟨h.queryPath, Nat.sub_eq_of_eq_add h.depth, h.locals, h.transform⟩
  model h := ⟨rfl, rfl, fun _ => h.locals rfl, .inl rfl⟩

/-! ## Interpreters -/

/-- Nothing is left of an evaluation but sources, compiled scripts and counts. -/
structure Session.AtRest (s : Session) : Prop where
  context : s.context = .initial
  locals : s.sources.locals = []
  primed : s.runner.primed = none

/-- What restores a session at rest leaves it at rest. -/
theorem Session.AtRest.of_restores {s s' : Session} (h : s.AtRest) (hr : s.Restores .anywhere s') :
    s'.AtRest := by
  have hnone : s'.transformState = (none, none, none) := by
    rcases hr.transform with ht | ht
    · rw [ht, transformState, h.context, h.primed]
      rfl
    · exact ht
  simp only [transformState, Prod.mk.injEq] at hnone
  obtain ⟨haction, hkey, hprimed⟩ := hnone
  refine ⟨?_, (hr.locals rfl).trans h.locals, hprimed⟩
  have hpath := hr.queryPath
  have hdepth := hr.depth
  rw [h.context] at hpath hdepth
  cases hc : s'.context with
  | mk queryPath action key depth =>
    simp only [hc] at hpath hdepth haction hkey
    rw [hpath, hdepth, haction, hkey]
    rfl

namespace Interpreter

/-- What can happen to an interpreter from outside. -/
inductive Call where
  | withSources (trees : List Element)
  | addSource (tree : Element)
  | reset (keepSources : Bool)
  | run (model : Element)
  /-- The world outside changes by itself. -/
  | surround (world : Surroundings)

/-- The interpreter after a call. -/
def perform (interpreter : Interpreter) : Call → Interpreter
  | .withSources trees => interpreter.withSources trees
  | .addSource tree => interpreter.addSource tree
  | .reset keepSources => interpreter.reset keepSources
  | .run model => (interpreter.run model).2
  | .surround world => { interpreter with session := { interpreter.session with world := world } }

/-- The interpreter after some calls in order. -/
def performAll (interpreter : Interpreter) (calls : List Call) : Interpreter :=
  calls.foldl perform interpreter

/-- The interpreter is what some calls make of a new one. -/
def Reachable (interpreter : Interpreter) : Prop :=
  ∃ options loader world calls, interpreter = (create options loader world).performAll calls

theorem atRest_perform {interpreter : Interpreter} (h : interpreter.session.AtRest) (call : Call) :
    (interpreter.perform call).session.AtRest := by
  cases call with
  | withSources trees => exact ⟨h.context, h.locals, h.primed⟩
  | addSource tree => exact ⟨h.context, h.locals, h.primed⟩
  | reset keepSources =>
    refine ⟨rfl, ?_, rfl⟩
    cases keepSources with
    | true => exact h.locals
    | false => rfl
  | run model =>
    exact h.of_restores ((Session.persistent_restores interpreter.loader).leads_evalModelAt
      interpreter.options.maxNesting interpreter.options model interpreter.session)
  | surround world => exact ⟨h.context, h.locals, h.primed⟩

theorem atRest_performAll {interpreter : Interpreter} (h : interpreter.session.AtRest)
    (calls : List Call) : (interpreter.performAll calls).session.AtRest := by
  induction calls generalizing interpreter with
  | nil => exact h
  | cons call rest ih => exact ih (atRest_perform h call)

theorem atRest_create (options : Options) (loader : Loader) (world : Surroundings) :
    (create options loader world).session.AtRest := ⟨rfl, rfl, rfl⟩

theorem Reachable.atRest {interpreter : Interpreter} (h : interpreter.Reachable) :
    interpreter.session.AtRest := by
  obtain ⟨options, loader, world, calls, rfl⟩ := h
  exact atRest_performAll (atRest_create options loader world) calls

/-- A run ends at rest, with an output or with a failure, whatever happened to the interpreter
before. -/
theorem atRest_run (options : Options) (loader : Loader) (world : Surroundings) (calls : List Call)
    (model : Element) :
    (((create options loader world).performAll calls).run model).2.session.AtRest :=
  atRest_perform (Reachable.atRest ⟨options, loader, world, calls, rfl⟩) (.run model)

end Interpreter

end Docweave
