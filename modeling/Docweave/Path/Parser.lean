import Docweave.Path.Basic
import Docweave.Text.Alphanumeric
import Docweave.Text.Blank
import Docweave.Text.Number
import Docweave.Text.Search

set_option autoImplicit false

/-! # Reading a path

A path is cut at its slashes into segments, where slashes inside brackets and braces do not count. A
segment is a name test followed by predicates in brackets; an empty segment makes the next step a
descendant step. -/

namespace Docweave

open Docweave.Text

/-! ## Names -/

/-- The character may stand in a name of a path. -/
def isPathNameChar (c : Char) : Bool := isAlphanumeric c || c == '-' || c == '_' || c == '.'

/-- A name of a path: letters, numbers, hyphens, underscores and dots, and neither a hyphen nor a dot
in front. -/
def isPathName : List Char → Bool
  | [] => false
  | c :: rest => (c :: rest).all isPathNameChar && c != '-' && c != '.'

/-- The name test that a text writes. A prefix is allowed and not looked at. -/
def readNameTest? (name : List Char) : Option NameTest :=
  let tagged (s : List Char) : Option NameTest :=
    if isPathName s then some (.tagged (.ofList s)) else none
  match name with
  | ['*'] => some .any
  | '\x7b' :: rest =>
    match splitAtFirst? (· == '\x7d') rest with
    | some (uri, base) =>
      if isPathName base then some (.inNamespace (.ofList uri) (.ofList base)) else none
    | none => none
  | name =>
    match splitAtFirst? (· == ':') name with
    | some (lead, base) => if isPathName lead then tagged base else none
    | none => tagged name

/-- A name test of the path `path`. -/
def readNameTest (path : String) (name : List Char) : Except PathError NameTest :=
  match readNameTest? name with
  | some test => .ok test
  | none => .error (.invalidName path (.ofList name))

/-! ## Predicates -/

/-- What stands between two quotation marks of one kind; only the two outermost are looked at. -/
def unquote? (value : List Char) : Option String :=
  match trim value with
  | q :: rest =>
    if (q = '\'' || q = '"') && rest.getLast? == some q then some (.ofList rest.dropLast) else none
  | [] => none

/-- The predicate that is written in brackets, without the brackets. -/
def readPredicate (path : String) (inner : List Char) : Except PathError Predicate :=
  let invalid : PathError := .invalidPredicate path (.ofList inner)
  let literal (value : List Char) : Except PathError String :=
    match unquote? value with
    | some text => .ok text
    | none => .error invalid
  match trim inner with
  | [] => .error invalid
  | '@' :: written =>
    match splitAtFirst? (· == '=') written with
    | some (name, value) => (literal value).map (.attrEquals (.ofList (trim name)) ·)
    | none =>
      if (trim written).isEmpty then .error invalid
      else .ok (.hasAttr (.ofList (trim written)))
  | s =>
    match count? s with
    | some n => if n = 0 then .error invalid else .ok (.position n)
    | none =>
      match stripStart? ['l', 'a', 's', 't', '(', ')'] s with
      | some rest =>
        match trim rest with
        | [] => .ok (.fromLast 0)
        | '-' :: n =>
          match count? (trim n) with
          | some offset => .ok (.fromLast offset)
          | none => .error invalid
        | _ => .error invalid
      | none =>
        match splitAtFirst? (· == '=') s with
        | some (name, value) => do
          let test ← readNameTest path (trim name)
          let text ← literal value
          return .childEquals test text
        | none => (readNameTest path s).map .hasChild

/-- What stands in front of the first closing bracket outside of quotation marks, and what stands
behind it. -/
def splitAtClose? (quote : Option Char) : List Char → Option (List Char × List Char)
  | [] => none
  | c :: rest =>
    let keep (quote : Option Char) := (splitAtClose? quote rest).map fun got => (c :: got.1, got.2)
    match quote with
    | some q => keep (if c = q then none else some q)
    | none =>
      if c = '\'' || c = '"' then keep (some c)
      else if c = ']' then some ([], rest)
      else keep none

theorem length_of_splitAtClose? {quote : Option Char} {s inner rest : List Char}
    (h : splitAtClose? quote s = some (inner, rest)) : rest.length < s.length := by
  induction s generalizing quote inner with
  | nil => cases h
  | cons c s ih =>
    have keep {quote : Option Char} (h : (splitAtClose? quote s).map (fun got => (c :: got.1, got.2))
        = some (inner, rest)) : rest.length < (c :: s).length := by
      obtain ⟨got, hgot, heq⟩ := Option.map_eq_some_iff.1 h
      cases heq
      exact Nat.lt_succ_of_lt (ih hgot)
    unfold splitAtClose? at h
    simp only at h
    split at h
    · exact keep h
    · split at h
      · exact keep h
      · split at h
        · cases h; simp
        · exact keep h

/-- The predicates that follow a name test, each in its own brackets. -/
def readPredicates (path : String) (s : List Char) : Except PathError (List Predicate) :=
  match s with
  | [] => .ok []
  | '[' :: rest =>
    match _h : splitAtClose? none rest with
    | none => .error (.unterminatedPredicate path)
    | some (inner, after) =>
      match readPredicate path inner with
      | .error e => .error e
      | .ok predicate => (readPredicates path after).map (predicate :: ·)
  | s => .error (.invalidPredicate path (.ofList s))
termination_by s.length
decreasing_by
  have := length_of_splitAtClose? _h
  simp only [List.length_cons]; omega

/-! ## Segments and steps -/

/-- The character added to the first of some segments. -/
def extendFirst (c : Char) : List (List Char) → List (List Char)
  | [] => [[c]]
  | segment :: rest => (c :: segment) :: rest

/-- The segments between slashes, given how many brackets are open and what closes the quotation or
the brace that is open. Nothing, if one of them stays open. -/
def splitSegments? (depth : Nat) (quote : Option Char) : List Char → Option (List (List Char))
  | [] => if depth > 0 || quote.isSome then none else some [[]]
  | c :: rest =>
    let keep (depth : Nat) (quote : Option Char) :=
      (splitSegments? depth quote rest).map (extendFirst c)
    match quote with
    | some q => keep depth (if c = q then none else some q)
    | none =>
      if (c = '\'' || c = '"') && depth > 0 then keep depth (some c)
      else if c = '\x7b' && depth = 0 then keep depth (some '\x7d')
      else if c = '[' then keep (depth + 1) none
      else if c = ']' then keep (depth - 1) none
      else if c = '/' && depth = 0 then (splitSegments? depth none rest).map ([] :: ·)
      else keep depth none

/-- The step that a segment writes; `below` if an empty segment came before it. -/
def readStep (path : String) (below : Bool) (segment : List Char) : Except PathError Step := do
  let name := segment.takeWhile (· != '[')
  let predicates ← readPredicates path (segment.dropWhile (· != '['))
  if name = ['.'] && !below then return ⟨.itself, .any, predicates⟩
  else if name = ['.', '.'] then .error (.parent path)
  else
    let test ← readNameTest path name
    return ⟨if below then .descendant else .child, test, predicates⟩

/-- The steps that segments write. -/
def readSteps (path : String) (below : Bool) : List (List Char) → Except PathError (List Step)
  | [] => if below then .error (.missingStep path) else .ok []
  | segment :: rest =>
    if segment.isEmpty then
      if below then .error (.missingStep path) else readSteps path true rest
    else do
      let step ← readStep path below segment
      let steps ← readSteps path false rest
      return step :: steps

namespace ElementPath

/-- The path that a text writes. One slash at its end is ignored. -/
def parse (path : String) : Except PathError ElementPath :=
  match trim path.toList with
  | [] => .error .empty
  | '/' :: _ => .error (.absolute path)
  | s =>
    match splitSegments? 0 none (dropFinal '/' s) with
    | none => .error (.unterminatedPredicate path)
    | some segments => (readSteps path false segments).map fun steps => ⟨path, steps⟩

/-- The path to everything below that is called `name`. -/
def descendant (name : String) : Except PathError ElementPath := parse (".//" ++ name)

end ElementPath

end Docweave
