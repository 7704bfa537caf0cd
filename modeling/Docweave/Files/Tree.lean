import Docweave.Files.Path

set_option autoImplicit false

/-! # Files on disk

The files that a program can see are a tree of directories, and one of them is the current directory. A
path leads from there, or from the root of the tree if it is absolute. A file holds text, or bytes that are
no text. -/

namespace Docweave

/-! ## Contents and problems -/

/-- What a file holds. -/
inductive FileContent where
  /-- Text. -/
  | text (data : String)
  /-- Bytes that are not UTF-8. -/
  | binary
deriving DecidableEq, Repr

/-- Why a file or directory cannot be used. -/
inductive FileProblem where
  /-- There is nothing of that name. -/
  | notFound
  /-- A directory stands where a file is needed. -/
  | isDirectory
  /-- A file stands where a directory is needed. -/
  | notDirectory
  /-- The path, or a part of it, is longer than it may be. -/
  | nameTooLong
  /-- The path holds a null character, which no name can have. -/
  | nullInName
  /-- The bytes of the file are no text. -/
  | notText
deriving DecidableEq, Repr

/-- The wording of a problem. -/
def FileProblem.message : FileProblem → String
  | notFound => "No such file or directory (os error 2)"
  | isDirectory => "Is a directory (os error 21)"
  | notDirectory => "Not a directory (os error 20)"
  | nameTooLong => "File name too long (os error 36)"
  | nullInName => "file name contained an unexpected NUL byte"
  | notText => "stream did not contain valid UTF-8"

/-- The text that a file holds. -/
def FileContent.read : FileContent → Except FileProblem String
  | text data => .ok data
  | binary => .error .notText

/-- A file, or a directory with its entries. -/
inductive FileNode where
  /-- A file. -/
  | file (content : FileContent)
  /-- A directory. -/
  | directory (entries : List (String × FileNode))

/-- The entry called `name`. -/
def entryNamed? (name : String) (entries : List (String × FileNode)) : Option FileNode :=
  (entries.find? (·.1 == name)).map (·.2)

/-- The entries with the one called `name` replaced, or a new one at the end. -/
def putFile (name : String) (node : FileNode) : List (String × FileNode) → List (String × FileNode)
  | [] => [(name, node)]
  | entry :: rest =>
    if entry.1 = name then (name, node) :: rest else entry :: putFile name node rest

/-- What the file holds that names lead to. -/
def FileNode.contentAt? : FileNode → List String → Option FileContent
  | .file content, [] => some content
  | .directory entries, name :: rest =>
    (entryNamed? name entries).bind fun node => node.contentAt? rest
  | .file _, _ :: _ => none
  | .directory _, [] => none

/-! ## Following a path -/

/-- A node together with the directories that lead to it from the root. -/
structure FileCursor where
  /-- The node. -/
  here : FileNode
  /-- The directories above, nearest first: the name taken in each and all its entries. -/
  above : List (String × List (String × FileNode))

/-- The longest name that a file can have, in bytes. -/
def longestName : Nat := 255

namespace FileCursor

/-- One step along a path: to an entry, to the directory above, or nowhere. There is nothing above the
root, and the step leads to the root itself. -/
def step (cursor : FileCursor) (name : String) : Except FileProblem FileCursor :=
  match cursor.here with
  | .file _ => .error .notDirectory
  | .directory entries =>
    if name.isEmpty || name = "." then .ok cursor
    else if name = ".." then
      match cursor.above with
      | (_, siblings) :: above => .ok ⟨.directory siblings, above⟩
      | [] => .ok cursor
    else if name.utf8ByteSize > longestName then .error .nameTooLong
    else match entryNamed? name entries with
      | some node => .ok ⟨node, (name, entries) :: cursor.above⟩
      | none => .error .notFound

/-- The node in place of the one at the cursor, seen from the root. -/
def rebuild (node : FileNode) : List (String × List (String × FileNode)) → FileNode
  | [] => node
  | (name, siblings) :: above => rebuild (.directory (putFile name node siblings)) above

end FileCursor

/-- All files, and the place of the current directory among them. -/
structure Disk where
  /-- The directory that absolute paths start from. -/
  root : FileNode
  /-- The names that lead from there to the current directory. -/
  current : List String

namespace Disk

/-- Where the parts of a path lead from the current directory, or from the root. -/
def follow (disk : Disk) (absolute : Bool) (parts : List String) : Except FileProblem FileCursor :=
  (if absolute then parts else disk.current ++ parts).foldlM FileCursor.step ⟨disk.root, []⟩

/-- The longest path that can be followed, in bytes. -/
def longestPath : Nat := 4095

/-- Why a path cannot lead anywhere, whatever the files are. -/
def hopeless? (path : FilePath) : Option FileProblem :=
  if path.text.contains '\x00' then some .nullInName
  else if path.text.isEmpty then some .notFound
  else if path.text.utf8ByteSize > longestPath then some .nameTooLong
  else none

theorem hopeless?_eq_none_iff {path : FilePath} :
    hopeless? path = none ↔
      '\x00' ∉ path.text.toList ∧ path.text ≠ "" ∧ path.text.utf8ByteSize ≤ longestPath := by
  unfold hopeless?
  rw [String.contains_char_eq, ← Nat.not_lt, Ne, ← String.isEmpty_iff]
  split
  · next h => simp [of_decide_eq_true h]
  · next h =>
    split
    · next hempty => simp [hempty]
    · next hempty => split <;> simp_all

/-- The node at a path. -/
def open? (disk : Disk) (path : FilePath) : Except FileProblem FileNode :=
  match hopeless? path with
  | some problem => .error problem
  | none => (disk.follow path.isAbsolute path.segments).map (·.here)

/-- A path that can lead anywhere is followed. -/
theorem open?_eq_follow {path : FilePath}
    (h : '\x00' ∉ path.text.toList ∧ path.text ≠ "" ∧ path.text.utf8ByteSize ≤ longestPath)
    (disk : Disk) : disk.open? path = (disk.follow path.isAbsolute path.segments).map (·.here) := by
  rw [open?, hopeless?_eq_none_iff.2 h]

/-- The text of the file at a path. -/
def readText (disk : Disk) (path : FilePath) : Except FileProblem String :=
  match disk.open? path with
  | .error problem => .error problem
  | .ok (.directory _) => .error .isDirectory
  | .ok (.file content) => content.read

/-- There is a file at the path. -/
def isFile (disk : Disk) (path : FilePath) : Bool :=
  match disk.open? path with
  | .ok (.file _) => true
  | _ => false

/-- The disk after a text is written to the file at a path, which is made if it is not there. -/
def writeText (disk : Disk) (path : FilePath) (data : String) : Except FileProblem Disk :=
  match hopeless? path, path.segments.reverse.dropWhile String.isEmpty with
  | some problem, _ => .error problem
  | none, [] => .error .isDirectory
  | none, name :: before => do
    let cursor ← disk.follow path.isAbsolute before.reverse
    if name = "." || name = ".." then
      let _ ← cursor.step name
      .error .isDirectory
    else match cursor.here with
      | .file _ => .error .notDirectory
      | .directory entries =>
        if path.segments.getLast? = some "" then .error .isDirectory
        else if name.utf8ByteSize > longestName then .error .nameTooLong
        else match entryNamed? name entries with
          | some (.directory _) => .error .isDirectory
          | _ =>
            let made := FileNode.directory (putFile name (.file (.text data)) entries)
            .ok { disk with root := FileCursor.rebuild made cursor.above }

/-- A disk on which there is nothing but a node, as its current directory. -/
def around (node : FileNode) : Disk := ⟨.directory [("current", node)], ["current"]⟩

/-- The node of the current directory; an empty directory if there is none. -/
def here (disk : Disk) : FileNode :=
  match disk.follow false [] with
  | .ok cursor => cursor.here
  | .error _ => .directory []

/-- A directory stands for the disk with nothing else on it. -/
instance : Coe FileNode Disk := ⟨around⟩

/-- A disk stands for its current directory. -/
instance : Coe Disk FileNode := ⟨here⟩

end Disk

/-! ## Walking a directory -/

/-- A file met on a walk. -/
structure FoundFile where
  /-- The path of the file, from the path of the directory that the walk starts from. -/
  path : FilePath
  /-- The directories between the two. -/
  within : List String
  /-- The name of the file. -/
  name : String
  /-- What the file holds. -/
  content : FileContent

/-- The lists of entries one after the other, in the order of the names of the entries. -/
def inNameOrder {α : Type} (entries : List (String × List α)) : List α :=
  (entries.mergeSort fun a b => decide (a.1 ≤ b.1)).flatMap (·.2)

mutual

/-- The files that an entry stands for: itself, or those below it if the walk is `deep`. -/
def FileNode.walk (deep : Bool) (path : FilePath) (within : List String) (name : String) :
    FileNode → List FoundFile
  | .file content => [⟨path, within, name, content⟩]
  | .directory entries =>
    if deep then inNameOrder (walkEntries deep path (within ++ [name]) entries) else []

/-- The files that each entry of the directory at `path` stands for. -/
def walkEntries (deep : Bool) (path : FilePath) (within : List String) :
    List (String × FileNode) → List (String × List FoundFile)
  | [] => []
  | (name, node) :: rest =>
    (name, node.walk deep (path.join ⟨name⟩) within name) :: walkEntries deep path within rest

end

/-- The names that lead to a file from where the walk started. -/
def FoundFile.place (found : FoundFile) : List String := found.within ++ [found.name]

/-- The files in the directory at a path, and in those below it if the walk is `deep`. The entries of
a directory come in the order of their names, those of a directory in its place. A file has no
entries. -/
def Disk.filesIn (disk : Disk) (deep : Bool) (path : FilePath) :
    Except FileProblem (List FoundFile) :=
  (disk.open? path).map fun
    | .file _ => []
    | .directory entries => inNameOrder (walkEntries deep path [] entries)

namespace FileNode

/-- All files of the tree. -/
def allFiles (root : FileNode) : List FoundFile :=
  match root with
  | .file _ => []
  | .directory entries => inNameOrder (walkEntries true ⟨""⟩ [] entries)

/-- The files that are new or hold something else than before. -/
def changesSince (root before : FileNode) : List FoundFile :=
  root.allFiles.filter fun found => before.contentAt? found.place != some found.content

/-- The tree with a node planted at the parts of a path, the directories above it made where they are
missing. -/
def plant : FileNode → List String → FileNode → FileNode
  | _, [], planted => planted
  | .file _, part :: rest, planted => .directory [(part, (FileNode.directory []).plant rest planted)]
  | .directory entries, part :: rest, planted =>
    let below := (entryNamed? part entries).getD (.directory [])
    .directory (putFile part (below.plant rest planted) entries)

end FileNode

end Docweave
