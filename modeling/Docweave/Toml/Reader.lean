import Docweave.Toml.Scalar

set_option autoImplicit false

/-! # Reading a configuration

A configuration is read line by line: keys with their values, and headers of tables. Lists may go over
several lines, tables in braces may not. -/

namespace Docweave.Toml

open Docweave.Text

/-- The text after spaces and tabs. -/
def skipWs (s : List Char) : List Char := s.dropWhile isWs

/-- The text after a comment, if there is one. -/
def skipComment (s : List Char) : List Char :=
  match s with
  | '#' :: rest => rest.dropWhile isPlainChar
  | s => s

/-! ## Keys -/

/-- The character may stand in a key without quotation marks. -/
def isKeyChar (c : Char) : Bool := c.isAlphanum || c == '_' || c == '-'

/-- One part of a key: a word, or a text on one line. -/
def readKeyPart (s : List Char) : Except Problem (String × List Char) :=
  match s with
  | [] => stopAt s
  | c :: rest =>
    if c = '"' || c = '\'' then
      (readTextRest ⟨c, false⟩ (rest.length + 1) rest).map fun got => (.ofList got.1, got.2)
    else if isKeyChar c then .ok (.ofList (s.takeWhile isKeyChar), s.dropWhile isKeyChar)
    else stopAt s

/-- How many parts a key can have, and how many lists and tables in braces can stand in one another. -/
def maxDepth : Nat := 79

/-- The parts of a key with dots between them, at most `parts` of them: the first one and the
others. -/
def readKeyParts : Nat → List Char → Except Problem ((String × List String) × List Char)
  | 0, _ => .error .tooDeep
  | parts + 1, s => do
    let (part, rest) ← readKeyPart (skipWs s)
    match skipWs rest with
    | '.' :: rest => do
      let ((next, more), rest) ← readKeyParts parts rest
      return ((part, next :: more), rest)
    | rest => return ((part, []), rest)

/-- A key. -/
def readKey (s : List Char) : Except Problem ((String × List String) × List Char) :=
  readKeyParts maxDepth s

/-! ## Values -/

theorem length_of_lineEnd? {s rest : List Char} (h : lineEnd? s = some rest) :
    rest.length < s.length := by
  unfold lineEnd? at h
  split at h <;> cases h <;> simp only [List.length_cons] <;> omega

theorem length_skipComment_le (s : List Char) : (skipComment s).length ≤ s.length := by
  unfold skipComment
  split
  · next rest => exact Nat.le_succ_of_le (List.dropWhile_sublist isPlainChar (l := rest)).length_le
  · exact Nat.le_refl _

/-- The text after blanks, line ends and comments. -/
def skipGaps (s : List Char) : List Char :=
  match _h : lineEnd? (skipComment (skipWs s)) with
  | some rest => skipGaps rest
  | none => skipComment (skipWs s)
termination_by s.length
decreasing_by
  have h1 := length_of_lineEnd? _h
  have h2 := length_skipComment_le (skipWs s)
  have h3 : (skipWs s).length ≤ s.length := (List.dropWhile_sublist _).length_le
  omega

/-- The items of a list after its opening bracket or a comma, at most `fuel` of them. -/
def readItems (readItem : List Char → Except Problem (Value × List Char)) :
    Nat → List Char → Except Problem (List Value × List Char)
  | 0, s => stopAt s
  | fuel + 1, s =>
    match skipGaps s with
    | ']' :: rest => .ok ([], rest)
    | s => do
      let (item, rest) ← readItem s
      match skipGaps rest with
      | ',' :: rest => do
        let (items, rest) ← readItems readItem fuel rest
        return (item :: items, rest)
      | ']' :: rest => return ([item], rest)
      | rest => stopAt rest

/-- A key, an equals sign and a value, added to some entries. -/
def readPair (readItem : List Char → Except Problem (Value × List Char)) (entries : Entries)
    (s : List Char) : Except Problem (Entries × List Char) := do
  let ((key, more), rest) ← readKey s
  match rest with
  | '=' :: rest => do
    let (value, rest) ← readItem (skipWs rest)
    let entries ← entries.assign true key more value
    return (entries, rest)
  | rest => stopAt rest

/-- The entries of a table in braces that come after those already read, at most `fuel` of them. -/
def readInline (readItem : List Char → Except Problem (Value × List Char)) :
    Nat → Entries → List Char → Except Problem (Entries × List Char)
  | 0, _, s => stopAt s
  | fuel + 1, entries, s => do
    let (entries, rest) ← readPair readItem entries s
    match skipWs rest with
    | ',' :: rest => readInline readItem fuel entries rest
    | '\x7d' :: rest => return (entries, rest)
    | rest => stopAt rest

/-- A value with at most `levels` lists and tables in braces in one another. -/
def readValue (levels : Nat) (s : List Char) : Except Problem (Value × List Char) :=
  match s, levels with
  | '"' :: _, _ => (readText s).map fun got => (.text got.1, got.2)
  | '\'' :: _, _ => (readText s).map fun got => (.text got.1, got.2)
  | '[' :: _, 0 => .error .tooDeep
  | '[' :: rest, levels + 1 =>
    (readItems (readValue levels) (rest.length + 1) rest).map fun got => (.list got.1, got.2)
  | '\x7b' :: _, 0 => .error .tooDeep
  | '\x7b' :: rest, levels + 1 =>
    match skipWs rest with
    | '\x7d' :: rest => .ok (.table .inline [], rest)
    | rest =>
      (readInline (readValue levels) (rest.length + 1) [] rest).map fun got =>
        (.table .inline got.1, got.2)
  | s, _ => readWord s

/-! ## Lines -/

/-- A configuration while it is read: what was given so far, and the table that keys now go to. -/
structure Draft where
  /-- The entries of the outermost table. -/
  root : Entries
  /-- The keys of the header read last. -/
  path : List String

/-- A header between its brackets, and what follows them. -/
def readHeader (draft : Draft) (s : List Char) : Except Problem (Draft × List Char) := do
  let listed := s.head? == some '['
  let s := if listed then s.drop 1 else s
  let ((first, more), rest) ← readKey s
  let path := first :: more
  let change := if listed then Entries.openListed (path.getLast?.getD first)
    else Entries.openTable (path.getLast?.getD first)
  let close := if listed then [']', ']'] else [']']
  match stripStart? close rest with
  | some rest => do
    let root ← Entries.within change draft.root path.dropLast
    return (⟨root, path⟩, rest)
  | none => stopAt rest

/-- A key and its value on a line. -/
def readSetting (draft : Draft) (s : List Char) : Except Problem (Draft × List Char) := do
  let ((key, more), rest) ← readKey s
  match rest with
  | '=' :: rest => do
    let (value, rest) ← readValue maxDepth (skipWs rest)
    let root ← Entries.within (Entries.assign true · key more value) draft.root draft.path
    return (⟨root, draft.path⟩, rest)
  | rest => stopAt rest

/-- The lines of a configuration, at most `fuel` of them. -/
def readLines : Nat → Draft → List Char → Except Problem Entries
  | 0, draft, _ => .ok draft.root
  | fuel + 1, draft, s => do
    let (draft, rest) ← match skipWs s with
      | '[' :: rest => readHeader draft rest
      | [] => .ok (draft, [])
      | c :: rest =>
        if c = '#' || c = '\n' || c = '\r' then .ok (draft, c :: rest)
        else readSetting draft (c :: rest)
    let rest := skipComment (skipWs rest)
    match rest, lineEnd? rest with
    | [], _ => return draft.root
    | _, some rest => readLines fuel draft rest
    | rest, none => stopAt rest

/-- The entries that a text gives. -/
def parse (s : List Char) : Except Problem Entries :=
  let s := (stripStart? ['\uFEFF'] s).getD s
  readLines (s.length + 1) ⟨[], []⟩ s

/-! ## Values of a given type -/

namespace Entries

/-- The text under a key, if the key is there. -/
def text? (entries : Entries) (key : String) : Except Problem (Option String) :=
  match get? entries key with
  | none => .ok none
  | some (.text data) => .ok (some data)
  | some _ => .error (.wrongType key)

/-- The truth value under a key; false, if the key is not there. -/
def flag (entries : Entries) (key : String) : Except Problem Bool :=
  match get? entries key with
  | none => .ok false
  | some (.flag data) => .ok data
  | some _ => .error (.wrongType key)

/-- The texts under a key; none, if the key is not there. -/
def texts (entries : Entries) (key : String) : Except Problem (List String) :=
  match get? entries key with
  | none => .ok []
  | some (.list items) =>
    items.mapM fun
      | .text data => .ok data
      | _ => .error (.wrongType key)
  | some _ => .error (.wrongType key)

end Entries

end Docweave.Toml
