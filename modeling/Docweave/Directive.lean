import Docweave.Tree.Basic

set_option autoImplicit false

/-! # Directives

The elements of a model that are evaluated rather than copied. They live in one namespace and are told
apart by their local names; their attributes are read by the words given here. -/

namespace Docweave

/-- The namespace of the directives. -/
def directiveUri : String := "xdra"

/-- What an element of a model does. -/
inductive DirectiveKind where
  /-- Holds a model: the root, or one nested in another. -/
  | model
  /-- Registers a source of records. -/
  | source
  /-- Gives a path to the directives inside. -/
  | query
  /-- Gives a transform to the directives inside. -/
  | action
  /-- Renders its content once for each record. -/
  | getNode
  /-- Renders a text of the current record. -/
  | getContent
  /-- Renders its own text and children as they are. -/
  | literal
  /-- Any other element: rendered with its own tags. -/
  | passThrough
deriving DecidableEq, Repr

namespace DirectiveKind

/-- The kind of an element with a given name. -/
def ofName (name : QName) : DirectiveKind :=
  if name.uri = some directiveUri then
    match name.localPart with
    | "model" => model
    | "source" => source
    | "query" => query
    | "action" => action
    | "getnode" => getNode
    | "getcontent" => getContent
    | "literal" => literal
    | _ => passThrough
  else passThrough

/-- The word for a kind: the local name of its directives. -/
def tag : DirectiveKind → String
  | model => "model"
  | source => "source"
  | query => "query"
  | action => "action"
  | getNode => "getnode"
  | getContent => "getcontent"
  | literal => "literal"
  | passThrough => "(pass-through)"

end DirectiveKind

/-- The kind of an element. -/
def Element.kind (e : Element) : DirectiveKind := .ofName e.name

@[simp] theorem Element.kind_withChildren (e : Element) (children : List Element) :
    (e.withChildren children).kind = e.kind := rfl

/-- Where a source takes its records from. -/
inductive SourceKind where
  /-- The documents in a directory. -/
  | files
  /-- One document, from a file, an address, standard input or the attribute itself. -/
  | url
  /-- A script. -/
  | custom
deriving DecidableEq, Repr

/-- The kind of source that a word names. -/
def SourceKind.ofWord? : String → Option SourceKind
  | "files" => some files
  | "url" => some url
  | "custom" => some custom
  | _ => none

/-- What an action does to the records. -/
inductive ActionKind where
  /-- Sorts them by a key, smallest first. -/
  | sort
  /-- Sorts them by a key, greatest first. -/
  | reverseSort
  /-- Runs a script on them. -/
  | custom
deriving DecidableEq, Repr

/-- The kind of action that a word names. -/
def ActionKind.ofWord? : String → Option ActionKind
  | "sort" => some sort
  | "reversesort" => some reverseSort
  | "custom" => some custom
  | _ => none

/-- A flag attribute is set by `1` or `yes`. -/
def isFlagSet (value : Option String) : Bool := value == some "1" || value == some "yes"

/-! ## Attributes of directives -/

namespace AttrName

/-- The place of a source, a query path, the path of a record, or the file of a model. -/
def path : String := "path"

/-- The name of a source. -/
def name : String := "name"

/-- A source goes into directories below its own. -/
def recursive : String := "recursive"

/-- The kind of a source, of an action, or of a query. -/
def type : String := "type"

/-- The key of a sort. -/
def key : String := "key"

/-- The file that a model writes. -/
def output : String := "output"

end AttrName

end Docweave
