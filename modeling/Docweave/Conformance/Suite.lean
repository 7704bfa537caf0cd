import Docweave.Conformance.Category
import Docweave.Conformance.TestRun

set_option autoImplicit false

/-! # Running many tests

The tests of a suite run one after the other, each with an interpreter of its own. What one of them
reads from standard input is gone for the next. -/

namespace Docweave

open Docweave.Text

/-! ## One file -/

/-- What came of a test file. -/
structure TestResult where
  /-- The path of the file. -/
  path : FilePath
  /-- The name of the file. -/
  name : String
  /-- What the test is called, if it says so. -/
  description : Option String
  /-- Why the test fails; nothing if it passes. -/
  failure : Option TestFailure
  /-- What there is to tell, in order. -/
  notices : List Notice

namespace TestResult

/-- The test passes. -/
def passed (result : TestResult) : Bool := result.failure.isNone

/-- The name of the test for display. -/
def label (result : TestResult) : String :=
  let letters := result.name.toList
  let suffix := testSuffix.toList
  result.description.getD <|
    if suffix.isSuffixOf letters then .ofList (letters.take (letters.length - suffix.length))
    else result.name

end TestResult

/-- Runs the test in a file. Its model's paths are relative to the directory of the file. -/
def runTestFile (world : Surroundings) (path : FilePath) (name : String) :
    TestResult × Surroundings :=
  let stopped (failure : TestFailure) : TestResult × Surroundings :=
    (⟨path, name, none, some failure, []⟩, world)
  match world.files.readText path with
  | .error problem => stopped (.unreadable problem)
  | .ok text =>
    match TestFile.read text.toList with
    | .error problem => stopped (.badFile problem)
    | .ok (settings, model) =>
      let run := settings.run world (path.parent?.getD ⟨"."⟩) model
      (⟨path, name, settings.description, run.failure, run.notices⟩, run.world)

/-! ## Many files -/

/-- Runs the tests in files one after the other. -/
def runTestFiles (world : Surroundings) : List FoundFile → List TestResult × Surroundings
  | [] => ([], world)
  | file :: rest =>
    let (result, world) := runTestFile world file.path file.name
    let (results, world) := runTestFiles world rest
    (result :: results, world)

/-- The results of the tests of a category. -/
structure CategoryResult where
  /-- The category. -/
  category : Category
  /-- The results, in the order of the files. -/
  results : List TestResult

/-- Runs the tests of categories one after the other. -/
def runCategories (world : Surroundings) :
    List Category → List CategoryResult × Surroundings
  | [] => ([], world)
  | category :: rest =>
    let (results, world) := runTestFiles world category.tests
    let (others, world) := runCategories world rest
    (⟨category, results⟩ :: others, world)

/-! ## Tallies -/

/-- How many of some tests pass. -/
def passedCount (results : List TestResult) : Nat := results.countP TestResult.passed

/-- How many of some tests fail. -/
def failedCount (results : List TestResult) : Nat := results.countP fun result => !result.passed

/-- Each test either passes or fails. -/
theorem passedCount_add_failedCount (results : List TestResult) :
    passedCount results + failedCount results = results.length := by
  induction results with
  | nil => rfl
  | cons result rest ih =>
    cases h : result.passed <;>
      simp only [passedCount, failedCount, List.countP_cons, List.length_cons, h] at ih ⊢ <;>
      simp <;> omega

end Docweave
