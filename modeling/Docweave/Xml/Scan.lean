import Docweave.Text.Search
import Docweave.Xml.Chars
import Docweave.Xml.Fault

set_option autoImplicit false

/-! # Small readers

Readers for the smallest parts of markup: fixed characters and texts, blanks, names, and text up to a
mark. Each returns the text that follows, which is never longer than what it was given. -/

namespace Docweave.Xml

open Docweave.Text

/-- The first byte of a character, shown as a character of its own. -/
def leadByte (c : Char) : Char :=
  let n := c.toNat
  Char.ofNat <|
    if n < 0x80 then n
    else if n < 0x800 then 0xC0 + n / 0x40
    else if n < 0x10000 then 0xE0 + n / 0x1000
    else 0xF0 + n / 0x40000

/-! ## Fixed texts and blanks -/

/-- The text after the character `wanted`. -/
def expectChar (wanted : Char) : List Char → Except Fault (List Char)
  | [] => stopAtEnd
  | c :: rest =>
    if c = wanted then .ok rest else stopAt (.expectedChar wanted (leadByte c)) (c :: rest)

/-- The text after the fixed text `wanted`. -/
def expectText (wanted : String) (s : List Char) : Except Fault (List Char) :=
  match stripStart? wanted.toList s with
  | some rest => .ok rest
  | none => stopAt (.expectedText wanted) s

/-! ## Names -/

/-- A qualified name as it is written. -/
structure WrittenName where
  /-- The part before the colon; empty if there is none. -/
  lead : String
  /-- The part after the colon, or all of it. -/
  base : String
deriving DecidableEq, Repr

/-- The name with its colon, which an empty prefix does without. -/
def WrittenName.display (name : WrittenName) : String :=
  if name.lead.isEmpty then name.base else name.lead ++ ":" ++ name.base

/-- The text starts with a character that may start a name. -/
def startsName : List Char → Bool
  | [] => false
  | c :: _ => isNameStart c

/-- A qualified name: two names with a colon between them, or one name; nothing may stand in front of
the colon. -/
def readQName (s : List Char) : Except Fault (WrittenName × List Char) :=
  let written := s.takeWhile isNameChar
  let rest := s.dropWhile isNameChar
  match splitOn ':' written with
  | [base] => if startsName base then .ok (⟨"", .ofList base⟩, rest) else stopAt .invalidName s
  | [lead, base] =>
    if (lead.isEmpty || startsName lead) && startsName base then
      .ok (⟨.ofList lead, .ofList base⟩, rest)
    else stopAt .invalidName s
  | _ => stopAt .invalidName s

/-- A name in which the colon has no meaning of its own. -/
def readName (s : List Char) : Except Fault (List Char × List Char) :=
  if startsName s then .ok (s.takeWhile isNameChar, s.dropWhile isNameChar)
  else stopAt .invalidName s

/-! ## Text up to a mark -/

/-- The text in front of the first `mark`, or all of it; every character of it must be allowed in a
document. The rest begins with the mark. -/
def readUntil (mark : List Char) : List Char → Except Fault (List Char × List Char)
  | [] => .ok ([], [])
  | c :: rest =>
    if mark.isPrefixOf (c :: rest) then .ok ([], c :: rest)
    else if isXmlChar c then (readUntil mark rest).map fun got => (c :: got.1, got.2)
    else stopAt (.nonXmlChar c) (c :: rest)

/-! ## How much is left -/

theorem length_skipSpaces_le (s : List Char) : (skipSpaces s).length ≤ s.length :=
  (List.dropWhile_sublist _).length_le

theorem length_of_expectChar {wanted : Char} {s rest : List Char}
    (h : expectChar wanted s = .ok rest) : rest.length < s.length := by
  unfold expectChar at h
  split at h
  · cases h
  · split at h
    · cases h; simp
    · cases h

theorem length_of_expectText {wanted : String} {s rest : List Char}
    (h : expectText wanted s = .ok rest) : rest.length ≤ s.length := by
  unfold expectText at h
  split at h
  · next after heq =>
    cases h
    rw [← eq_append_of_stripStart? heq]
    simp
  · cases h

theorem length_of_readQName {s rest : List Char} {name : WrittenName}
    (h : readQName s = .ok (name, rest)) : rest.length ≤ s.length := by
  have hle := (List.dropWhile_sublist isNameChar (l := s)).length_le
  unfold readQName at h
  grind [stopAt]

theorem length_of_readName {s rest name : List Char} (h : readName s = .ok (name, rest)) :
    rest.length ≤ s.length := by
  have hle := (List.dropWhile_sublist isNameChar (l := s)).length_le
  unfold readName at h
  grind [stopAt]

theorem length_of_readUntil {mark s taken rest : List Char}
    (h : readUntil mark s = .ok (taken, rest)) : rest.length ≤ s.length := by
  induction s generalizing taken with
  | nil => cases h; simp
  | cons c s ih =>
    rw [readUntil] at h
    split at h
    · cases h; simp
    · split at h
      · cases hr : readUntil mark s with
        | error e => rw [hr] at h; cases h
        | ok got =>
          rw [hr] at h
          cases h
          exact Nat.le_succ_of_le (ih hr)
      · cases h

end Docweave.Xml
