import Docweave.Notice
import Docweave.Text.Blank

set_option autoImplicit false

/-! # Loading sources

A loader makes one tree of outside data: the documents in a directory, or a single document. Each
document becomes a child of a new root. -/

namespace Docweave

open Docweave.Text

/-- What lies outside of an evaluation. -/
structure Surroundings where
  /-- The files that can be seen. -/
  files : Disk
  /-- What is left of standard input. -/
  input : FileContent

/-- No files and nothing to read. -/
def Surroundings.empty : Surroundings := ⟨.around (.directory []), .text ""⟩

/-- What a loader brings back. -/
structure Loading where
  /-- The tree, or why there is none. -/
  result : Except Failure Element
  /-- What there is to tell, in order. -/
  notices : List Notice
  /-- Standard input was read to its end. -/
  drained : Bool

/-- A way to load sources. -/
structure Loader where
  /-- The documents in a directory, under a root of the given name; also those in the directories
  below if the flag is set. -/
  files : Surroundings → FilePath → String → Bool → Loading
  /-- A single document at a location, looked up from a base directory, under a root of the given
  name. -/
  location : Surroundings → String → FilePath → String → Loading

/-! ## The default loader -/

/-- The document of a text that was found at a location. -/
def readSource (location text : String) : Except Failure Element :=
  (Element.parse 0 text).mapError fun error => .sourceLoad location (.malformed error)

/-- The document in a file met on a walk. -/
def FoundFile.document (found : FoundFile) : Except Failure Element :=
  match found.content.read with
  | .error problem => .error (.sourceLoad found.path.text (.unreadable problem))
  | .ok text => readSource found.path.text text

/-- The documents of files as children of `root`, one notice for each; the first file that gives no
document ends the loading. -/
def aggregate (root : Element) (notices : List Notice) : List FoundFile → Loading
  | [] => ⟨.ok root, notices, false⟩
  | found :: rest =>
    match found.document with
    | .error failure => ⟨.error failure, notices, false⟩
    | .ok document =>
      aggregate (root.append document)
        (notices ++ [.aggregated found.path root.name.display]) rest

/-- The file is taken for a document. -/
def FoundFile.isDocument (found : FoundFile) : Bool := nameExtension? found.name == some "xml"

/-- All documents in a directory. -/
def loadFiles (world : Surroundings) (directory : FilePath) (root : String) (deep : Bool) :
    Loading :=
  match world.files.filesIn deep directory with
  | .error problem =>
    ⟨.error (.sourceLoad directory.text (.unwalkable directory problem)), [], false⟩
  | .ok found => aggregate (.ofTag root) [] (found.filter FoundFile.isDocument)

/-- A location is an address on the network. -/
def isAddress (location : String) : Bool :=
  "http://".toList.isPrefixOf location.toList || "https://".toList.isPrefixOf location.toList

/-- The text of a location: standard input for a hyphen, the location itself if it looks like markup,
else a file. Addresses on the network are not reached. -/
def locationText (world : Surroundings) (location : String) (base : FilePath) :
    Except SourceProblem String :=
  if isAddress location then .error .badAddress
  else if location = "-" then world.input.read.mapError .unreadable
  else if (trimStart location.toList).head? = some '<' then .ok location
  else
    let path := (stripStart? "file://".toList location.toList).getD location.toList
    (world.files.readText (base.join ⟨.ofList path⟩)).mapError .unreadable

/-- The document at a location. -/
def loadLocation (world : Surroundings) (location : String) (base : FilePath) (root : String) :
    Loading :=
  let result :=
    match locationText world location base with
    | .error problem => .error (.sourceLoad location problem)
    | .ok text => (readSource location text).map (Element.ofTag root).append
  ⟨result, if isAddress location then [.fetching location] else [], location == "-"⟩

/-- The loader for files, standard input and documents given in place. -/
def Loader.aggregator : Loader := ⟨loadFiles, loadLocation⟩

/-! ## Model files -/

/-- The model in a file. -/
def loadModel (files : Disk) (path : FilePath) : Except Failure Element :=
  match files.readText path with
  | .error problem => .error (.modelLoad path.text problem)
  | .ok text => (Element.parse 0 text).mapError (.modelParse path.text ·)

end Docweave
