import Docweave.CommandLine.Switch
import Docweave.Model.Options
import Docweave.Text.Number

set_option autoImplicit false

/-! # Commands

The first argument that is no switch says what to do. If it is not the name of a command, it is a model
to evaluate, and the command for this is put in front of it. Switches before the command belong to the
program as a whole, all others to the command. -/

namespace Docweave

open Docweave.Text

/-! ## Requests -/

/-- A model to evaluate. -/
structure RunRequest where
  /-- The file of the model. -/
  model : String
  /-- Only see whether the model is well-formed. -/
  check : Bool
  /-- Show the tree of the model instead of evaluating it. -/
  dumpTree : Bool
  /-- Do not show the output. -/
  quiet : Bool
  /-- Write the output to the file that the model names. -/
  writeOutput : Bool
  /-- The width of an indentation, if it is not the usual one. -/
  indent : Option Nat
  /-- Where the sources of a query go. -/
  localSources : LocalSources
  /-- Log what happens. -/
  debug : Bool
  /-- Use no colors. -/
  plain : Bool
deriving DecidableEq, Repr

/-- Tests to run. -/
structure TestRequest where
  /-- The file of a test, or a directory with tests below it. -/
  path : String
  /-- The categories that are asked for. -/
  categories : List String
  /-- Only show the categories. -/
  listCategories : Bool
  /-- Use no colors. -/
  plain : Bool
deriving DecidableEq, Repr

/-- What is asked of the program. -/
inductive Request where
  /-- Evaluate a model. -/
  | run (request : RunRequest)
  /-- Run tests. -/
  | test (request : TestRequest)
  /-- Show how the program is used. -/
  | help
  /-- Show the version. -/
  | version
deriving DecidableEq, Repr

/-- Why the reading of arguments ends before their end. -/
inductive ReadingEnd where
  /-- How the program is used is asked for. -/
  | help
  /-- The version is asked for. -/
  | version
  /-- The arguments make no sense. -/
  | wrong (problem : UsageProblem)
deriving DecidableEq, Repr

/-! ## Gathering pieces -/

/-- What was given so far. -/
structure Given where
  /-- The switches without a value. -/
  flags : List Switch
  /-- The switches with a value. -/
  settings : List (Switch × String)
  /-- The word that says what to work on. -/
  subject : Option String
deriving DecidableEq, Repr

namespace Given

/-- Nothing given. -/
def nothing : Given := ⟨[], [], none⟩

/-- The meaning of the word for where the sources of a query go. -/
def localSourcesOf? : String → Option LocalSources
  | "scoped" => some .confined
  | "global" => some .shared
  | _ => none

/-- A switch can have a value. -/
def accepts : Switch → String → Bool
  | .indent, value => (count? value.toList).isSome
  | .localSources, value => (localSourcesOf? value).isSome
  | _, _ => true

/-- One piece more. A request for help or for the version counts as soon as it is met, and so does
anything wrong. -/
def take (given : Given) : Piece → Except ReadingEnd Given
  | .flag .help => .error .help
  | .flag .version => .error .version
  | .flag switch =>
    if switch ∈ given.flags then .error (.wrong (.repeated switch))
    else .ok { given with flags := given.flags ++ [switch] }
  | .setting switch value =>
    if !switch.repeats && (given.settings.lookup switch).isSome then
      .error (.wrong (.repeated switch))
    else if accepts switch value then
      .ok { given with settings := given.settings ++ [(switch, value)] }
    else .error (.wrong (.badValue switch value))
  | .word text =>
    if given.subject.isSome then .error (.wrong (.unexpected text))
    else .ok { given with subject := some text }
  | .endOfSwitches => .ok given
  | .wrong problem => .error (.wrong problem)

/-- One piece more, where a word has no place. -/
def takeSwitch (given : Given) : Piece → Except ReadingEnd Given
  | .word text => .error (.wrong (.unexpected text))
  | piece => given.take piece

/-- What arguments give when some switches are known. -/
def ofArguments (known : List Switch) (arguments : List String) : Except ReadingEnd Given :=
  (readArguments known arguments).foldlM take nothing

/-- The values of a switch. -/
def values (given : Given) (switch : Switch) : List String :=
  (given.settings.filter (·.1 == switch)).map (·.2)

/-- The flag is given. -/
def has (given : Given) (switch : Switch) : Bool := given.flags.contains switch

end Given

/-! ## Commands -/

/-- The switches of the program as a whole. -/
def programSwitches : List Switch := [.noColor, .help, .version]

/-- The switches of an evaluation. -/
def runSwitches : List Switch :=
  [.check, .dumpTree, .quiet, .noWrite, .indent, .localSources, .debug, .noColor, .help]

/-- The switches of tests. -/
def testSwitches : List Switch := [.category, .listCategories, .noColor, .help]

/-- The commands. -/
def commandNames : List String := ["run", "test", "help"]

/-- The model that arguments ask to evaluate. -/
def readRun (plain : Bool) (arguments : List String) : Except ReadingEnd Request := do
  let given ← Given.ofArguments runSwitches arguments
  match given.subject with
  | none => .error (.wrong (.wordMissing "FILE"))
  | some model =>
    return .run {
      model := model
      check := given.has .check
      dumpTree := given.has .dumpTree
      quiet := given.has .quiet
      writeOutput := !given.has .noWrite
      indent := (given.values .indent).head?.bind fun value => count? value.toList
      localSources :=
        ((given.values .localSources).head?.bind Given.localSourcesOf?).getD .confined
      debug := given.has .debug
      plain := plain || given.has .noColor }

/-- The tests that arguments ask to run. -/
def readTest (plain : Bool) (arguments : List String) : Except ReadingEnd Request := do
  let given ← Given.ofArguments testSwitches arguments
  match given.subject with
  | none => .error (.wrong (.wordMissing "PATH"))
  | some path =>
    return .test {
      path := path
      categories := given.values .category
      listCategories := given.has .listCategories
      plain := plain || given.has .noColor }

/-- How the program or one of its commands is used. -/
def readHelp : List String → Except ReadingEnd Request
  | [] => .ok .help
  | [command] =>
    if command ∈ commandNames then .ok .help else .error (.wrong (.unexpected command))
  | _ :: extra :: _ => .error (.wrong (.unexpected extra))

/-- The command of a name, for the arguments after it. -/
def readCommandNamed (plain : Bool) (name : String) (arguments : List String) :
    Except ReadingEnd Request :=
  match name with
  | "run" => readRun plain arguments
  | "test" => readTest plain arguments
  | "help" => readHelp arguments
  | other => .error (.wrong (.unexpected other))

/-- The argument starts with a hyphen. -/
def startsWithHyphen (argument : String) : Bool := argument.toList.head? == some '-'

/-- The arguments with the word `run` before the first one without a hyphen, unless that one is the name
of a command. -/
def insertRun : List String → List String
  | [] => []
  | argument :: rest =>
    if startsWithHyphen argument then argument :: insertRun rest
    else if argument ∈ commandNames then argument :: rest
    else "run" :: argument :: rest

/-- What arguments ask for among which there is the name of a command. -/
def readCommandLine (arguments : List String) : Except ReadingEnd Request := do
  let front := arguments.takeWhile startsWithHyphen
  let pieces := readArguments programSwitches front
  let given ← pieces.foldlM Given.takeSwitch Given.nothing
  -- After the end of the switches there is no place for a command any more.
  if .endOfSwitches ∈ pieces then .error (.wrong (.wordMissing "COMMAND"))
  else match arguments.drop front.length with
    | [] => .error (.wrong (.wordMissing "COMMAND"))
    | name :: rest => readCommandNamed (given.has .noColor) name rest

/-- What the arguments of the program ask for. -/
def readProgram (arguments : List String) : Except ReadingEnd Request :=
  readCommandLine (insertRun arguments)

end Docweave
