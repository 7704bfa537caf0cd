import Docweave.Files.Tree
import Docweave.ParseError
import Docweave.Script.Exec

set_option autoImplicit false

/-! # Failures of an evaluation

What can go wrong when a model is evaluated. Some failures only cost the directive that met them its
effect; the others end the evaluation. -/

namespace Docweave

/-- Why a source gives no tree. -/
inductive SourceProblem where
  /-- A file or directory cannot be used. -/
  | unreadable (problem : FileProblem)
  /-- A directory cannot be walked. -/
  | unwalkable (directory : FilePath) (problem : FileProblem)
  /-- An address is malformed. -/
  | badAddress
  /-- The text is no document. -/
  | malformed (error : ParseError)
deriving DecidableEq, Repr

/-- The wording of a problem. -/
def SourceProblem.message : SourceProblem → String
  | unreadable problem => problem.message
  | unwalkable directory problem =>
    "IO error for operation on " ++ directory.text ++ ": " ++ problem.message
  | badAddress => "builder error"
  | malformed error => error.message

/-- Why a directive, or a whole evaluation, fails. -/
inductive Failure where
  /-- The root of a model is another element. -/
  | invalidRoot (name : String)
  /-- A script, given with its line ends normalized, is malformed. -/
  | scriptCompile (script : String) (error : ParseError)
  /-- A script stops. -/
  | scriptExecution (failure : ScriptFailure)
  /-- A loader gives up, in words of its own. -/
  | loaderStopped (message : String)
  /-- A source gives no tree. -/
  | sourceLoad (location : String) (problem : SourceProblem)
  /-- The file of a model cannot be read. -/
  | modelLoad (path : String) (problem : FileProblem)
  /-- The file of a model is no document. -/
  | modelParse (path : String) (error : ParseError)
  /-- Models are nested too deep. -/
  | nestingTooDeep (levels : Nat)
  /-- The output of a model cannot be written. -/
  | io (problem : FileProblem)
deriving DecidableEq, Repr

namespace Failure

/-- The wording of a failure. -/
def message : Failure → String
  | invalidRoot name => "invalid root: expected xdra:model, found <" ++ name ++ ">"
  | scriptCompile _ error => "extension script does not compile: " ++ error.message
  | scriptExecution failure => "extension script failed: " ++ failure.message
  | loaderStopped message => "extension script failed: " ++ message
  | sourceLoad location problem => "cannot load source '" ++ location ++ "': " ++ problem.message
  | modelLoad path problem => "cannot read model '" ++ path ++ "': " ++ problem.message
  | modelParse path error => "cannot parse model '" ++ path ++ "': " ++ error.message
  | nestingTooDeep levels => "models nested deeper than " ++ toString levels ++ " levels"
  | io problem => "I/O error: " ++ problem.message

/-- The failure only costs the directive that met it its effect. -/
def isRecoverable : Failure → Bool
  | invalidRoot _ | sourceLoad .. | modelLoad .. | modelParse .. => true
  | _ => false

end Failure

end Docweave
