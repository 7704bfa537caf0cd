import Docweave.Files.Path
import Docweave.Text.Quoted

set_option autoImplicit false

/-! # Options of an evaluation -/

namespace Docweave

/-- Where the sources go that are declared directly inside a query. -/
inductive LocalSources where
  /-- They are seen inside the query only, and dropped when it ends. -/
  | confined
  /-- They are seen by everything evaluated later, like all others. -/
  | shared
deriving DecidableEq, Repr

/-- The word for a choice. -/
def LocalSources.word : LocalSources → String
  | confined => "Scoped"
  | shared => "Global"

/-- How many models may be nested in one another, unless told otherwise. -/
def defaultNesting : Nat := 64

/-- What an evaluation is told from outside. -/
structure Options where
  /-- One level of indentation of copied elements. -/
  indent : String
  /-- Where the sources of a query go. -/
  localSources : LocalSources
  /-- Where relative paths of sources, models and outputs start. -/
  baseDir : FilePath
  /-- The output of a model is written to its file. -/
  writeOutput : Bool
  /-- How many models may enclose one. -/
  maxNesting : Nat
deriving DecidableEq, Repr

namespace Options

/-- The options of someone who asks for nothing special. -/
def standard : Options := ⟨"    ", .confined, ⟨"."⟩, true, defaultNesting⟩

/-- The options for display, all on one line. -/
def display (o : Options) : String :=
  "Options \x7b indent: " ++ Text.quoted o.indent ++ ", local_sources: " ++ o.localSources.word ++
    ", base_dir: " ++ Text.quoted o.baseDir.text ++ ", write_output: " ++
    (if o.writeOutput then "true" else "false") ++ ", max_nesting: " ++ toString o.maxNesting ++
    " \x7d"

end Options

end Docweave
