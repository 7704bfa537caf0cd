import Docweave.Conformance.TestFile
import Docweave.Model.Interpreter

set_option autoImplicit false

/-! # Running a test

A test evaluates its model with the sources that it gives and compares what comes out with what it
expects. Nothing is written to files. -/

namespace Docweave

open Docweave.Text

/-- Why a test fails. -/
inductive TestFailure where
  /-- The file cannot be read. -/
  | unreadable (problem : FileProblem)
  /-- The file is no test file. -/
  | badFile (problem : TestFileProblem)
  /-- The model is well-formed but should not be. -/
  | wellFormed
  /-- The model is malformed. -/
  | malformed (error : ParseError)
  /-- A source, counted from one, is malformed. -/
  | badSource (number : Nat) (error : ParseError)
  /-- There is no such place for the sources of a query. -/
  | unknownPolicy (word : String)
  /-- The evaluation fails in another way than expected. -/
  | otherFailure (expected : String) (failure : Failure)
  /-- The evaluation does not fail. -/
  | noFailure (expected : String)
  /-- The evaluation fails. -/
  | failed (failure : Failure)
  /-- The output is another one. -/
  | otherOutput (expected actual : String)
deriving DecidableEq, Repr

/-- The wording of a failure, in one line or more. -/
def TestFailure.message : TestFailure → String
  | unreadable problem => "cannot read file: " ++ problem.message
  | badFile problem => "frontmatter error: " ++ problem.message
  | wellFormed => "expected parse error, but parsing succeeded"
  | malformed error => "unexpected parse error: " ++ error.message
  | badSource number error => "source " ++ toString number ++ " does not parse: " ++ error.message
  | unknownPolicy word => "unknown local_sources policy '" ++ word ++ "'"
  | otherFailure expected failure =>
    "expected error containing \"" ++ expected ++ "\", got: " ++ failure.message
  | noFailure expected =>
    "expected error containing \"" ++ expected ++ "\", but evaluation succeeded"
  | failed failure => "unexpected runtime error: " ++ failure.message
  | otherOutput expected actual =>
    "output mismatch\n  expected: " ++ expected ++ "\n  actual:   " ++ actual

/-! ## Expectations -/

/-- A text without blanks at its ends. -/
def trimmed (s : String) : String := .ofList (trim s.toList)

/-- What is wrong with the result of an evaluation. Where a failure is expected, an expected output
does not matter. -/
def TestSettings.judge (settings : TestSettings) (result : Except Failure String) :
    Option TestFailure :=
  match settings.failure, result with
  | some expected, .error failure =>
    if occursIn expected.toList failure.message.toList then none
    else some (.otherFailure expected failure)
  | some expected, .ok _ => some (.noFailure expected)
  | none, .error failure => some (.failed failure)
  | none, .ok actual =>
    settings.output.bind fun expected =>
      if trimmed expected = trimmed actual then none
      else some (.otherOutput (trimmed expected) (trimmed actual))

/-- Where the sources of a query go: nothing said means that they stay inside. -/
def TestSettings.policy (settings : TestSettings) : Except TestFailure LocalSources :=
  match settings.localSources with
  | none | some "scoped" => .ok .confined
  | some "global" => .ok .shared
  | some word => .error (.unknownPolicy word)

/-- The trees of sources, which are counted on from `number`. -/
def parseSources (number : Nat) : List String → Except TestFailure (List Element)
  | [] => .ok []
  | text :: rest => do
    let tree ← (Element.parse 0 text).mapError (.badSource number)
    return tree :: (← parseSources (number + 1) rest)

/-! ## Runs -/

/-- What comes of a test. -/
structure TestRun where
  /-- Why the test fails; nothing if it passes. -/
  failure : Option TestFailure
  /-- What there is to tell, in order. -/
  notices : List Notice
  /-- What lies outside, after the test. -/
  world : Surroundings

/-- A test that ends before its model is evaluated. -/
def TestRun.unevaluated (world : Surroundings) (failure : Option TestFailure) : TestRun :=
  ⟨failure, [], world⟩

/-- Runs a test on its model, whose paths are relative to a directory. -/
def TestSettings.evaluate (settings : TestSettings) (world : Surroundings) (baseDir : FilePath)
    (model : Element) : TestRun :=
  let prepared : Except TestFailure (List Element × LocalSources) := do
    let sources ← parseSources 1 settings.sources
    return (sources, ← settings.policy)
  match prepared with
  | .error failure => .unevaluated world failure
  | .ok (sources, policy) =>
    let options : Options :=
      { Options.standard with localSources := policy, baseDir := baseDir, writeOutput := false }
    let (result, after) :=
      ((Interpreter.create options .aggregator world).withSources sources).run model
    ⟨settings.judge result, after.session.notices.reverse, after.session.world⟩

/-- Runs a test on the text of its model. Where the model is to be malformed, nothing else matters. -/
def TestSettings.run (settings : TestSettings) (world : Surroundings) (baseDir : FilePath)
    (model : String) : TestRun :=
  match Element.parse 0 model with
  | .error error => .unevaluated world (if settings.malformed then none else some (.malformed error))
  | .ok model =>
    if settings.malformed then .unevaluated world (some .wellFormed)
    else settings.evaluate world baseDir model

end Docweave
