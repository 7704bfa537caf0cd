import Docweave.CommandLine.Arguments
import Docweave.CommandLine.Log
import Docweave.Conformance.Summary
import Docweave.Report
import Docweave.Tree.Dump

set_option autoImplicit false

/-! # The program

The program is a function of its arguments, its environment and the world around it. It gives an exit
code, what it prints, and the world after it. -/

namespace Docweave

open Docweave.Text

/-! ## Outcomes -/

/-- What the program is started with. -/
structure Invocation where
  /-- The arguments, without the name of the program. -/
  arguments : List String
  /-- The variables that are set. -/
  environment : List (String × String)
  /-- The world around the program. -/
  world : Surroundings

/-- What comes of the program. -/
structure Outcome where
  /-- Zero if all went well. -/
  exitCode : Nat
  /-- What goes to standard output. -/
  output : String
  /-- What goes to standard error, piece by piece. -/
  messages : List String
  /-- The world after the program. -/
  world : Surroundings

/-- Lines with their ends. -/
def asLines (lines : List String) : List String := lines.map (· ++ "\n")

/-- Nothing to say but something on standard error. -/
def Outcome.telling (world : Surroundings) (exitCode : Nat) (messages : List String) : Outcome :=
  ⟨exitCode, "", messages, world⟩

/-- What goes to standard error. -/
def Outcome.errors (outcome : Outcome) : String := String.join outcome.messages

/-! ## Evaluating a model -/

/-- The part of the program that is not the evaluation itself, for the log. -/
def programTarget : String := "xdra"

/-- The widest indent for which there can be room. -/
def widestIndent : Nat := Nat.pow 2 63 - 1

/-- The options of an evaluation that is asked for. -/
def RunRequest.options (request : RunRequest) : Options where
  indent := match request.indent with
    | some width => "".pushn ' ' width
    | none => Options.standard.indent
  localSources := request.localSources
  baseDir := (FilePath.parent? ⟨request.model⟩).getD ⟨"."⟩
  writeOutput := request.writeOutput
  maxNesting := defaultNesting

/-- The entry for the log that an evaluation starts. -/
def RunRequest.entry (request : RunRequest) : LogEntry :=
  ⟨.debug, programTarget, "evaluating " ++ request.model ++ " with " ++ request.options.display⟩

/-- The lines about a failed evaluation. A malformed text is shown. -/
def Failure.report (failure : Failure) (colored : Bool) (files : Disk) (model : String) :
    List String :=
  match failure with
  | .scriptCompile script error =>
    error.report colored (model ++ " (extension script)") script.toList
  | .modelParse path error =>
    error.report colored path (((files.readText ⟨path⟩).toOption.getD "").toList)
  | failure => ["runtime error: " ++ failure.message]

/-- The outcome of the evaluation of a model. -/
def RunRequest.evaluate (request : RunRequest) (log : Log) (colored : Bool)
    (world : Surroundings) (model : Element) : Outcome :=
  let (result, after) := (Interpreter.create request.options .aggregator world).run model
  let session := after.session
  let logged := log.texts (request.entry :: session.notices.reverse.map Notice.entry)
  match result with
  | .error failure =>
    .telling session.world 1
      (logged ++ asLines (failure.report colored session.world.files request.model))
  | .ok output =>
    if output.isEmpty then
      .telling session.world 0
        (logged ++ asLines ["no output was generated using the current model"])
    else ⟨0, if request.quiet then "" else output ++ "\n", logged, session.world⟩

/-- The outcome of an evaluation with an indent for which there is no room. -/
def tooWide (world : Surroundings) (width : Nat) : Outcome :=
  .telling world 101 (asLines ["no room for an indent of " ++ toString width])

/-- The outcome of a request for a model. -/
def RunRequest.perform (request : RunRequest) (log : Log) (colored : Bool)
    (world : Surroundings) : Outcome :=
  match world.files.readText ⟨request.model⟩ with
  | .error problem =>
    .telling world 1 (asLines ["error: cannot read '" ++ request.model ++ "': " ++ problem.message])
  | .ok text =>
    match Element.parse 0 text with
    | .error error => .telling world 1 (asLines (error.report colored request.model text.toList))
    | .ok model =>
      if request.check then
        if model.kind = .model then
          .telling world 0 (asLines ["ok: " ++ request.model ++ " parsed successfully"])
        else
          .telling world 1 (asLines ["error: " ++ (Failure.invalidRoot model.name.display).message])
      else if request.dumpTree then ⟨0, model.dump ++ "\n", [], world⟩
      else match request.indent.filter (widestIndent < ·) with
        | some width => tooWide world width
        | none => request.evaluate log colored world model

/-! ## Running tests -/

/-- What there is to tell of a test: what it logs, and its result. -/
def TestResult.told (log : Log) (plain : Bool) (result : TestResult) : List String :=
  log.texts (result.notices.map Notice.entry) ++ asLines [result.line plain]

/-- What there is to tell of the tests of a category. -/
def CategoryResult.told (log : Log) (plain : Bool) (group : CategoryResult) : List String :=
  asLines (group.category.heading plain) ++ group.results.flatMap (TestResult.told log plain)

/-- The outcome of tests, after what there is to tell of each. All of them have to pass. -/
def Outcome.ofResults (world : Surroundings) (plain : Bool) (told : List String)
    (results : List TestResult) : Outcome :=
  .telling world (if failedCount results = 0 then 0 else 1)
    (told ++ asLines (complaints results ++ tally plain results))

/-- The line for a directory without tests. -/
def noTests (path : FilePath) : String := "no " ++ testSuffix ++ " files found in " ++ path.text

/-- The categories below a directory for display, with the numbers of their tests. -/
def listing (categories : List Category) : List String :=
  "available categories:" :: categories.map fun category =>
    "  " ++ category.label ++ " (" ++ toString category.tests.length ++ " tests)"

/-- The outcome of a request for the categories below a path. -/
def showCategories (world : Surroundings) (path : FilePath) : Outcome :=
  .telling world 0 <| asLines <|
    if world.files.isFile path then ["(single file, no categories)"]
    else match Category.below world.files path with
      | [] => [noTests path]
      | categories => listing categories

/-- The outcome of the test in a file. -/
def testOneFile (world : Surroundings) (log : Log) (plain : Bool) (path : FilePath) :
    Outcome :=
  let (result, world) := runTestFile world path (path.segments.getLast?.getD "")
  .ofResults world plain (result.told log plain) [result]

/-- The outcome of the tests below a directory that belong to the categories asked for. -/
def testDirectory (world : Surroundings) (log : Log) (plain : Bool) (path : FilePath)
    (requests : List String) : Outcome :=
  match Category.below world.files path with
  | [] => .telling world 1 (asLines [noTests path])
  | all =>
    let selection := Category.select all requests
    let warnings := asLines selection.warnings
    match selection.categories with
    | [] => .telling world 1 (warnings ++ asLines ["no matching categories found"])
    | selected =>
      let (groups, world) := runCategories world selected
      .ofResults world plain (warnings ++ groups.flatMap (CategoryResult.told log plain))
        (groups.flatMap CategoryResult.results)

/-- The outcome of a request for tests. -/
def TestRequest.perform (request : TestRequest) (log : Log) (world : Surroundings) :
    Outcome :=
  let path : FilePath := ⟨request.path⟩
  if request.listCategories then showCategories world path
  else if world.files.isFile path then testOneFile world log request.plain path
  else testDirectory world log request.plain path request.categories

/-! ## Everything -/

/-- How the program is used. -/
def usage : List String :=
  ["Render documents from xdra models",
    "",
    "Usage: xdra [run] FILE [--check] [--dump-tree] [-q|--quiet] [--no-write] [--indent N]",
    "            [--local-sources scoped|global] [--debug] [--no-color]",
    "       xdra test PATH [-c|--category NAME]... [--list-categories] [--no-color]",
    "       xdra help [run|test|help]",
    "       xdra --version"]

/-- The wording of what is wrong with arguments. -/
def UsageProblem.message : UsageProblem → String
  | unexpected argument => "unexpected argument '" ++ argument ++ "'"
  | repeated switch => "--" ++ switch.name ++ " is given more than once"
  | valueMissing switch => "--" ++ switch.name ++ " needs a value"
  | badValue switch value => "--" ++ switch.name ++ " cannot be '" ++ value ++ "'"
  | valueUnneeded switch => "--" ++ switch.name ++ " takes no value"
  | wordMissing what => what ++ " is missing"

/-- The terminal of an environment shows colors: it has a name, it is not a dumb one, and colors are not
forbidden. -/
def showsColors (environment : List (String × String)) : Bool :=
  match environment.lookup "TERM" with
  | some terminal => terminal != "dumb" && (environment.lookup "NO_COLOR").isNone
  | none => false

/-- The outcome of the program. -/
def Invocation.run (invocation : Invocation) : Outcome :=
  let world := invocation.world
  let log (wanted : Bool) : Log := .choose invocation.environment wanted
  let showUsage : Outcome := ⟨0, String.join (asLines usage), [], world⟩
  let showVersion : Outcome := ⟨0, "xdra 0.1.0\n", [], world⟩
  match readProgram invocation.arguments with
  | .error .help | .ok .help => showUsage
  | .error .version | .ok .version => showVersion
  | .error (.wrong problem) =>
    .telling world 2 (asLines (("error: " ++ problem.message) :: "" :: usage))
  | .ok (.run request) =>
    request.perform (log request.debug)
      (!request.plain && showsColors invocation.environment) world
  | .ok (.test request) => request.perform (log false) world

end Docweave
