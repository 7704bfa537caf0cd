import Docweave.Model.Eval

set_option autoImplicit false

/-! # Interpreters

An interpreter evaluates models one after the other. Sources and compiled scripts stay from one model
to the next. -/

namespace Docweave

/-- Something that evaluates models. -/
structure Interpreter where
  /-- The options. -/
  options : Options
  /-- How sources are loaded. -/
  loader : Loader
  /-- What the models evaluated so far have left. -/
  session : Session

namespace Interpreter

/-- An interpreter that has evaluated nothing. -/
def create (options : Options) (loader : Loader) (world : Surroundings) : Interpreter :=
  ⟨options, loader, .initial world⟩

/-- The interpreter with more global sources. -/
def withSources (interpreter : Interpreter) (trees : List Element) : Interpreter :=
  let session := interpreter.session
  { interpreter with
    session :=
      { session with
        sources := { session.sources with globals := session.sources.globals ++ trees } } }

/-- The interpreter with one more global source. -/
def addSource (interpreter : Interpreter) (tree : Element) : Interpreter :=
  interpreter.withSources [tree]

/-- The interpreter as it was at the start, but for its compiled scripts, and for its sources if they
are to be kept. -/
def reset (interpreter : Interpreter) (keepSources : Bool) : Interpreter :=
  let session := interpreter.session
  { interpreter with
    session :=
      { session with
        sources := if keepSources then session.sources else .none
        context := .initial
        runner := session.runner.clearPrimed } }

/-- The output of a model, or why there is none, and the interpreter after it. -/
def run (interpreter : Interpreter) (model : Element) : Except Failure String × Interpreter :=
  let act := evalModelAt interpreter.loader interpreter.options.maxNesting interpreter.options model
  let (result, session) := act.run.run interpreter.session
  (result, { interpreter with session := session })

end Interpreter

end Docweave
