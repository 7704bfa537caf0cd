import Docweave.Conformance.Suite

set_option autoImplicit false

/-! # Telling the results of tests

One line for each test, then what went wrong with those that fail, then the tally. -/

namespace Docweave

open Docweave.Text

/-! ## Colors -/

/-- A way to set off a word. -/
inductive Paint where
  /-- For what is well. -/
  | green
  /-- For what is not. -/
  | red
  /-- For headings. -/
  | bold
deriving DecidableEq, Repr

/-- The number of a color on a terminal. -/
def Paint.code : Paint → String
  | green => "32"
  | red => "31"
  | bold => "1"

/-- A word set off for a terminal, or plain. -/
def Paint.apply (paint : Paint) (plain : Bool) (word : String) : String :=
  if plain then word else "\x1b[" ++ paint.code ++ "m" ++ word ++ "\x1b[0m"

/-! ## Lines -/

/-- The line of a test. -/
def TestResult.line (plain : Bool) (result : TestResult) : String :=
  let verdict :=
    if result.passed then Paint.green.apply plain "PASS" else Paint.red.apply plain "FAIL"
  "  " ++ verdict ++ "  " ++ result.label

/-- The heading of a category. -/
def Category.heading (plain : Bool) (category : Category) : List String :=
  ["", Paint.bold.apply plain category.label]

/-- The lines of a text without their ends. -/
def textLines (s : String) : List String :=
  (splitLines s.toList).map fun line =>
    .ofList (((stripEnd? '\n' line).map (dropFinal '\r')).getD line)

/-- What went wrong with a test. -/
def TestResult.complaint (result : TestResult) : List String :=
  match result.failure with
  | none => []
  | some failure =>
    ["", "  --- " ++ result.path.text ++ " ---"] ++ (textLines failure.message).map ("  " ++ ·)

/-- What went wrong with all tests that fail. -/
def complaints (results : List TestResult) : List String :=
  if failedCount results = 0 then []
  else ["", "failures:"] ++ results.flatMap TestResult.complaint

/-- The tally. -/
def tally (plain : Bool) (results : List TestResult) : List String :=
  let passed := toString (passedCount results)
  let failed := toString (failedCount results)
  if failedCount results = 0 then
    ["", "test result: " ++ Paint.green.apply plain "ok" ++ ". " ++ passed ++ " passed, 0 failed"]
  else
    ["", "test result: " ++ Paint.red.apply plain "FAILED" ++ ". " ++ passed ++ " passed, " ++
      failed ++ " failed (of " ++ toString results.length ++ ")"]

end Docweave
