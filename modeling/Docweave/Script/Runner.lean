import Docweave.Cache
import Docweave.Notice

set_option autoImplicit false

/-! # Running scripts again and again

A runner compiles each script once, whatever its line ends, and keeps count of what it did. It also
holds the script of the action at hand until the records are known. -/

namespace Docweave

open Docweave.Text

/-- Compiled scripts, a script in waiting, and counts. -/
structure ScriptRunner where
  /-- The scripts compiled so far. -/
  cache : ContentCache Script
  /-- The text of the script that waits for its records. -/
  primed : Option String
  /-- How many scripts were compiled. -/
  compilations : Nat
  /-- How many times a script was run, to its end or not. -/
  executions : Nat

namespace ScriptRunner

/-- A runner that has done nothing. -/
def fresh : ScriptRunner := ⟨.empty, none, 0, 0⟩

/-- The script of a text, read anew. -/
def compileText (source : String) : Except Failure Script :=
  let normalized := normalizeNewlines source.toList
  (Script.parseText 0 normalized).mapError fun error => .scriptCompile (.ofList normalized) error

/-- The script of a text, from the cache if it was compiled before. -/
def compile (runner : ScriptRunner) (source : String) : Except Failure Script × ScriptRunner :=
  let key := contentKey source.toList
  match runner.cache.get? key with
  | some script => (.ok script, runner)
  | none =>
    match compileText source with
    | .error failure => (.error failure, runner)
    | .ok script =>
      (.ok script,
        { runner with
          compilations := runner.compilations + 1
          cache := runner.cache.insert key script })

/-- What there is to tell when a runner compiles a text. -/
def compileNotices (runner : ScriptRunner) (source : String) : List Notice :=
  let key := contentKey source.toList
  if runner.cache.contains key then [.scriptCached key]
  else match compileText source with
    | .ok script => [.scriptCompiled key script.statements.length]
    | .error _ => []

/-- A script run on a tree. -/
def execute (runner : ScriptRunner) (script : Script) (tree : Element) :
    Except Failure ScriptOutput × ScriptRunner :=
  ((script.execute tree).mapError .scriptExecution,
    { runner with executions := runner.executions + 1 })

/-- The script of a text run on a tree. -/
def run (runner : ScriptRunner) (source : String) (tree : Element) :
    Except Failure ScriptOutput × ScriptRunner :=
  match runner.compile source with
  | (.ok script, runner) => runner.execute script tree
  | (.error failure, runner) => (.error failure, runner)

/-- The runner with a script that waits for its records. -/
def prime (runner : ScriptRunner) (source : String) : ScriptRunner :=
  { runner with primed := some source }

/-- The runner with no script that waits. -/
def clearPrimed (runner : ScriptRunner) : ScriptRunner := { runner with primed := none }

/-- The waiting script run on a tree, which stays as it is if none waits. -/
def runPrimed (runner : ScriptRunner) (tree : Element) :
    Except Failure ScriptOutput × ScriptRunner :=
  match runner.primed with
  | some source => runner.run source tree
  | none => (.ok ⟨tree, ""⟩, runner)

end ScriptRunner

end Docweave
