import Docweave.Text.Blank
import Docweave.Text.Search
import Docweave.Toml.Reader

set_option autoImplicit false

/-! # Test files

A test file starts with settings between two fences of three hyphens. The model follows the second
fence and goes on to the end of the file, whatever it holds. -/

namespace Docweave

open Docweave.Text

/-! ## The two parts -/

/-- A test file in its two parts. -/
structure TestFile where
  /-- The text of the settings. -/
  settings : List Char
  /-- The text of the model. -/
  model : List Char
deriving DecidableEq, Repr

/-- How the lines of a file end. -/
inductive LineEnd where
  /-- In a line feed. -/
  | lf
  /-- In a carriage return and a line feed. -/
  | crlf
deriving DecidableEq, Repr

/-- The characters of a line end. -/
def LineEnd.chars : LineEnd → List Char
  | lf => ['\n']
  | crlf => ['\r', '\n']

/-- What stands around the settings. -/
def fence : List Char := ['-', '-', '-']

/-- Why the parts or the settings of a test file cannot be told. -/
inductive TestFileProblem where
  /-- There is no fence at the start. -/
  | notOpened
  /-- There is no second fence. -/
  | notClosed
  /-- The settings are malformed. -/
  | badSettings (problem : Toml.Problem)
deriving DecidableEq, Repr

/-- The wording of a problem. -/
def TestFileProblem.message : TestFileProblem → String
  | notOpened => "missing opening --- frontmatter delimiter"
  | notClosed => "missing closing --- frontmatter delimiter"
  | badSettings problem => "TOML parse error: " ++ problem.message

/-- The text without one line end at its start. -/
def skipLineEnd : List Char → List Char
  | '\n' :: rest => rest
  | '\r' :: '\n' :: rest => rest
  | s => s

namespace TestFile

/-- The file as it is written, each part and each fence on lines of its own. -/
def written (lineEnd : LineEnd) (file : TestFile) : List Char :=
  fence ++ lineEnd.chars ++ file.settings ++ lineEnd.chars ++ fence ++ lineEnd.chars ++ file.model

/-- The parts of a file. Byte order marks in front are skipped. The second fence is the first one that
starts a line after the first, and carriage returns before it do not belong to the settings. -/
def split (s : List Char) : Except TestFileProblem TestFile :=
  match stripStart? fence (s.dropWhile (· = '\uFEFF')) with
  | none => .error .notOpened
  | some opened =>
    match splitAtText? ('\n' :: fence) (skipLineEnd opened) with
    | none => .error .notClosed
    | some (settings, rest) => .ok ⟨dropEndWhile (· = '\r') settings, skipLineEnd rest⟩

end TestFile

/-! ## Settings -/

/-- What a test asks for. -/
structure TestSettings where
  /-- What the test is called. -/
  description : Option String
  /-- The output of the model, but for blanks at its ends. -/
  output : Option String
  /-- A part of the wording of the failure. -/
  failure : Option String
  /-- The model is malformed. -/
  malformed : Bool
  /-- Documents that the model gets records from. -/
  sources : List String
  /-- The word for where the sources of a query go. -/
  localSources : Option String
deriving DecidableEq, Repr

namespace TestSettings

/-- The settings that a configuration gives. Other keys do not matter. -/
def ofEntries (entries : Toml.Entries) : Except Toml.Problem TestSettings := do
  return {
    description := ← entries.text? "description"
    output := ← entries.text? "expect_output"
    failure := ← entries.text? "expect_error"
    malformed := ← entries.flag "expect_parse_error"
    sources := ← entries.texts "sources"
    localSources := ← entries.text? "local_sources" }

/-- The settings that a text writes. -/
def parse (s : List Char) : Except TestFileProblem TestSettings :=
  (Toml.parse s >>= ofEntries).mapError .badSettings

end TestSettings

/-- The settings of a test file and the text of its model. -/
def TestFile.read (s : List Char) : Except TestFileProblem (TestSettings × String) := do
  let file ← TestFile.split s
  let settings ← TestSettings.parse file.settings
  return (settings, .ofList file.model)

end Docweave
