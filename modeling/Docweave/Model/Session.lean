import Docweave.Loader
import Docweave.Model.Options
import Docweave.Script.Runner

set_option autoImplicit false

/-! # The state of an evaluation

Directives act on each other through a session: the sources declared so far, the context set by the
directives around, the scripts compiled, and the world outside. A directive that fails leaves the
session as it was at the failure. -/

namespace Docweave

/-! ## Parts of the state -/

/-- The sources that records come from. -/
structure Sources where
  /-- The sources that everything sees. -/
  globals : List Element
  /-- The sources of the innermost query. -/
  locals : List Element

namespace Sources

/-- No sources. -/
def none : Sources := ⟨[], []⟩

/-- All sources that can be seen, in the order of their registration. -/
def visible (sources : Sources) : List Element := sources.globals ++ sources.locals

end Sources

/-- What the directives around have set. -/
structure Context where
  /-- The path for those who give none. -/
  queryPath : String
  /-- What is done to records. -/
  action : Option ActionKind
  /-- What records are sorted by. -/
  key : Option String
  /-- The level of indentation. -/
  depth : Nat
deriving DecidableEq, Repr

/-- The context at the root of a model. -/
def Context.initial : Context := ⟨"", none, none, 0⟩

/-- Everything that an evaluation can change. -/
structure Session where
  /-- The sources. -/
  sources : Sources
  /-- What the directives around have set. -/
  context : Context
  /-- The scripts. -/
  runner : ScriptRunner
  /-- The world outside. -/
  world : Surroundings
  /-- What was told, last first. -/
  notices : List Notice

/-- The session before anything is evaluated. -/
def Session.initial (world : Surroundings) : Session := ⟨.none, .initial, .fresh, world, []⟩

/-! ## Actions on the state -/

/-- An action on a session that gives a value or fails. -/
abbrev Eval (α : Type) := ExceptT Failure (StateM Session) α

namespace Eval

variable {α : Type}

/-- Tells something. -/
def tell (notice : Notice) : Eval Unit :=
  modify fun s => { s with notices := notice :: s.notices }

/-- Tells some things in order. -/
def tellAll (notices : List Notice) : Eval Unit :=
  modify fun s => { s with notices := notices.reverse ++ s.notices }

/-- An action with something set before it and put back after it, whether it fails or not. What is
put back can depend on the session before. -/
def within (enter : Session → Session) (leave : Session → Session → Session) (act : Eval α) :
    Eval α :=
  ExceptT.mk fun outer =>
    let (result, inner) := act.run.run (enter outer)
    (result, leave outer inner)

/-- An action of the script runner. -/
def onRunner (act : ScriptRunner → Except Failure α × ScriptRunner) : Eval α :=
  ExceptT.mk fun s =>
    let (result, runner) := act s.runner
    (result, { s with runner := runner })

/-- The script of a text run on a tree. -/
def runScript (source : String) (tree : Element) : Eval ScriptOutput := do
  tellAll ((← get).runner.compileNotices source)
  onRunner (·.run source tree)

/-- The waiting script run on a tree. -/
def runPrimed (tree : Element) : Eval ScriptOutput := do
  let runner := (← get).runner
  tellAll (runner.primed.elim [] runner.compileNotices)
  onRunner (·.runPrimed tree)

/-- A failure that only costs the directive its effect is told and leaves an empty output. -/
def recover (notice : Failure → Notice) (act : Eval String) : Eval String :=
  tryCatch act fun failure => do
    if failure.isRecoverable then
      tell (notice failure)
      return ""
    else throw failure

end Eval

end Docweave
