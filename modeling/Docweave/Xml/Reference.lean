import Docweave.Xml.Scan

set_option autoImplicit false

/-! # References and line ends

The characters between tags and the values of attributes hold references, which stand for one
character each. Both are first cut into pieces, literal characters and references told apart, because
line ends and tabs are only changed where they were written literally. -/

namespace Docweave.Xml

open Docweave.Text

/-! ## References -/

/-- The characters that have a name. -/
def entityChar? (name : List Char) : Option Char :=
  match name with
  | ['l', 't'] => some '<'
  | ['g', 't'] => some '>'
  | ['a', 'm', 'p'] => some '&'
  | ['q', 'u', 'o', 't'] => some '"'
  | ['a', 'p', 'o', 's'] => some '\''
  | _ => none

/-- The value of a digit, in any base up to sixteen. -/
def digitValue (c : Char) : Nat :=
  if c.isDigit then c.toNat - '0'.toNat
  else if c.isLower then c.toNat - 'a'.toNat + 10
  else c.toNat - 'A'.toNat + 10

/-- The number that digits of a base write. -/
def numeral (base : Nat) (digits : List Char) : Nat :=
  digits.foldl (fun n c => base * n + digitValue c) 0

/-- A digit in base sixteen. -/
def isHexDigit (c : Char) : Bool :=
  c.isDigit || ('a' ≤ c && c ≤ 'f') || ('A' ≤ c && c ≤ 'F')

/-- The character with a number of at most 32 bits. A number that belongs to no character gives the
replacement character; a character that may not stand in a document gives none. -/
def numberedChar? (base : Nat) (digits : List Char) : Option Char :=
  let n := numeral base digits
  if digits.isEmpty || n ≥ Nat.pow 2 32 then none
  else
    let c := if n.isValidChar then Char.ofNat n else '\uFFFD'
    if isXmlChar c then some c else none

/-- What a reference names. -/
inductive Referent where
  /-- A character. -/
  | char (c : Char)
  /-- A name that stands for no character. -/
  | unknown (name : String)
deriving DecidableEq, Repr

/-- A reference without its ampersand and semicolon. -/
def readReferent? (s : List Char) : Option (Referent × List Char) :=
  match s with
  | '#' :: 'x' :: rest =>
    (numberedChar? 16 (rest.takeWhile isHexDigit)).map fun c => (.char c, rest.dropWhile isHexDigit)
  | '#' :: rest =>
    (numberedChar? 10 (rest.takeWhile Char.isDigit)).map fun c =>
      (.char c, rest.dropWhile Char.isDigit)
  | s =>
    match readName s with
    | .ok (name, rest) => some (((entityChar? name).map .char).getD (.unknown (.ofList name)), rest)
    | .error _ => none

/-- A reference whose ampersand has been read, up to and with its semicolon. -/
def readReference? (s : List Char) : Option (Referent × List Char) :=
  match readReferent? s with
  | some (referent, ';' :: rest) => some (referent, rest)
  | _ => none

theorem length_of_readReferent? {s rest : List Char} {referent : Referent}
    (h : readReferent? s = some (referent, rest)) : rest.length ≤ s.length := by
  unfold readReferent? at h
  split at h
  · next tl =>
    obtain ⟨c, -, hc⟩ := Option.map_eq_some_iff.1 h
    cases hc
    have := (List.dropWhile_sublist isHexDigit (l := tl)).length_le
    simp only [List.length_cons]; omega
  · next tl _ =>
    obtain ⟨c, -, hc⟩ := Option.map_eq_some_iff.1 h
    cases hc
    have := (List.dropWhile_sublist Char.isDigit (l := tl)).length_le
    simp only [List.length_cons]; omega
  · split at h
    · next hname => cases h; exact length_of_readName hname
    · cases h

theorem length_of_readReference? {s rest : List Char} {referent : Referent}
    (h : readReference? s = some (referent, rest)) : rest.length < s.length := by
  unfold readReference? at h
  split at h
  · next heq =>
    cases h
    have := length_of_readReferent? heq
    simp only [List.length_cons] at this; omega
  · cases h

/-! ## Pieces -/

/-- One character of a text, told by how it was written. -/
inductive Piece where
  /-- The character itself was written. -/
  | literal (c : Char)
  /-- A reference to the character was written. -/
  | referred (c : Char)
deriving DecidableEq, Repr

/-- The pieces of a text that `after` follows in the document. -/
def pieces (after s : List Char) : Except Fault (List Piece) :=
  match s with
  | [] => .ok []
  | c :: rest =>
    if c = '&' then
      match _h : readReference? rest with
      | some (.char c, tail) => (pieces after tail).map (.referred c :: ·)
      | some (.unknown name, _) => stopAt (.unknownEntity name) (c :: rest ++ after)
      | none => stopAt .malformedReference (c :: rest ++ after)
    else (pieces after rest).map (.literal c :: ·)
termination_by s.length
decreasing_by
  · have := length_of_readReference? _h
    simp only [List.length_cons]; omega
  · simp

/-! ## Values -/

/-- The characters of a value: a written line end or tab becomes a space. -/
def valueOf : List Piece → List Char
  | [] => []
  | .literal '\r' :: .literal '\n' :: rest => ' ' :: valueOf rest
  | .literal c :: rest =>
    (if c = '\n' || c = '\r' || c = '\t' then ' ' else c) :: valueOf rest
  | .referred c :: rest => c :: valueOf rest

/-- A value with its references resolved and its line ends and tabs made spaces. -/
def normalizeValue (after s : List Char) : Except Fault String :=
  (pieces after s).map fun ps => .ofList (valueOf ps)

/-! ## Character data -/

/-- The characters of character data, given what has been written so far, last first. A written line
end becomes a line feed; one carriage return is held back until the next character shows whether it
is part of a pair. A character just after a reference is taken as it stands, and a carriage return
that a reference leaves at the end stays. -/
def characterDataOf (written : List Char) (afterReference : Bool) : List Piece → List Char
  | [] => written.reverse
  | .referred c :: rest => characterDataOf (c :: written) true rest
  | .literal c :: rest =>
    if afterReference then characterDataOf (c :: written) false rest
    else
      let final := rest.isEmpty && c == '\r'
      match written with
      | '\r' :: before =>
        let written := '\n' :: before
        if final then characterDataOf ('\n' :: written) false rest
        else if c = '\n' then characterDataOf written false rest
        else characterDataOf (c :: written) false rest
      | _ =>
        characterDataOf ((if final then '\n' else c) :: written) false rest

/-- Character data with its references resolved and its line ends made line feeds. -/
def normalizeCharacterData (after s : List Char) : Except Fault String :=
  (pieces after s).map fun ps => .ofList (characterDataOf [] false ps)

end Docweave.Xml
