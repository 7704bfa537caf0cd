import Docweave.Digest.Sha256
import Docweave.Directive
import Docweave.Failure

set_option autoImplicit false

/-! # Notices

What an evaluation tells about its course, for someone who looks for the reason of an output. Notices
change nothing. -/

namespace Docweave

/-- How much a notice matters. -/
inductive Level where
  /-- For debugging. -/
  | debug
  /-- For information. -/
  | info
  /-- Something was left out. -/
  | warn
deriving DecidableEq, Repr

/-- The word for a level. -/
def Level.word : Level → String
  | debug => "DEBUG"
  | info => "INFO"
  | warn => "WARN"

/-- One thing that an evaluation tells. -/
inductive Notice where
  /-- A directive is evaluated. -/
  | evaluating (name : String) (kind : DirectiveKind)
  /-- An output was written. -/
  | wroteOutput (path : FilePath)
  /-- An output was not written because it was not wanted. -/
  | keptOutput (path : FilePath)
  /-- A source has no type, or an unknown one. -/
  | unknownSourceKind (declared : Option String)
  /-- A source of files lacks its path or its name. -/
  | filesSourceIncomplete
  /-- A source of one document has no path. -/
  | urlSourceWithoutPath
  /-- A source from a script has no name. -/
  | customSourceWithoutName
  /-- The text that the script of a source emitted is dropped. -/
  | sourceTextDropped (name : String)
  /-- A source is left out. -/
  | sourceSkipped (failure : Failure)
  /-- A query has no path. -/
  | queryWithoutPath
  /-- A query has a type that is not known. -/
  | unknownQueryKind (declared : String)
  /-- An action has a type that is not known. -/
  | unknownActionKind (declared : String)
  /-- There is no path to get records by. -/
  | getNodeWithoutPath
  /-- The path to get records by is malformed. -/
  | getNodeBadPath (error : PathError)
  /-- Records were found. -/
  | recordsFound (path : String) (count : Nat)
  /-- Records cannot be sorted by the key of an action. -/
  | cannotSort (key : String) (error : PathError)
  /-- An action that sorts has no key. -/
  | sortWithoutKey
  /-- There is no path to get a text by. -/
  | getContentWithoutPath
  /-- There is no record to get a text from. -/
  | getContentWithoutRecord (path : String)
  /-- The path to get a text by is malformed. -/
  | getContentBadPath (error : PathError)
  /-- A nested model has neither path nor children. -/
  | nestedModelEmpty
  /-- A nested model is left out. -/
  | nestedModelSkipped (failure : Failure)
  /-- A script was compiled before. -/
  | scriptCached (key : Digest)
  /-- A script was compiled. -/
  | scriptCompiled (key : Digest) (statements : Nat)
  /-- A file became part of a source. -/
  | aggregated (file : FilePath) (root : String)
  /-- An address is looked up. -/
  | fetching (address : String)

namespace Notice

/-- How much a notice matters. -/
def level : Notice → Level
  | wroteOutput _ => .info
  | sourceSkipped _ => .warn
  | _ => .debug

/-- The part of the program that a notice comes from. -/
def target : Notice → String
  | scriptCached _ | scriptCompiled .. => "interpreter::runner"
  | aggregated .. | fetching _ => "interpreter::source"
  | _ => "interpreter::model"

/-- The wording of a notice. -/
def message : Notice → String
  | evaluating name kind => "evaluating <" ++ name ++ "> as " ++ kind.tag
  | wroteOutput path => "wrote output to " ++ path.text
  | keptOutput path => "not writing output to " ++ path.text
  | unknownSourceKind declared =>
    "source: undefined source type " ++ match declared with
      | none => "None"
      | some word => "Some(" ++ Text.quoted word ++ ")"
  | filesSourceIncomplete => "source: files source needs both a path and a name"
  | urlSourceWithoutPath => "source: url source without a path"
  | customSourceWithoutName => "source: custom source without a name"
  | sourceTextDropped name => "source: discarding text emitted by custom source '" ++ name ++ "'"
  | sourceSkipped failure => "skipping source: " ++ failure.message
  | queryWithoutPath => "query: no path"
  | unknownQueryKind declared => "query: unsupported type '" ++ declared ++ "', fetching"
  | unknownActionKind declared => "action: unknown type '" ++ declared ++ "'"
  | getNodeWithoutPath => "getnode: no path and no enclosing query path"
  | getNodeBadPath error => "getnode: " ++ error.message
  | recordsFound path count =>
    "getnode: '" ++ path ++ "' matched " ++ toString count ++ " records"
  | cannotSort key error => "getnode: cannot sort by '" ++ key ++ "': " ++ error.message
  | sortWithoutKey => "getnode: sort action without a key"
  | getContentWithoutPath => "getcontent: no path"
  | getContentWithoutRecord path => "getcontent: '" ++ path ++ "' outside a getnode"
  | getContentBadPath error => "getcontent: " ++ error.message
  | nestedModelEmpty => "model: a nested model without a path needs children"
  | nestedModelSkipped failure => "model: skipping nested model: " ++ failure.message
  | scriptCached key => "script cache hit for " ++ key.display
  | scriptCompiled key statements =>
    "compiled script " ++ key.display ++ " (" ++ toString statements ++ " statements)"
  | aggregated file root => "aggregated " ++ file.text ++ " into <" ++ root ++ ">"
  | fetching address => "fetching " ++ address

end Notice

end Docweave
