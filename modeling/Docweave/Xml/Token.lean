import Docweave.Text.Newline
import Docweave.Xml.Tag

set_option autoImplicit false

/-! # Tokens of element content

Inside an element the text falls into tags, character data, comments and processing instructions. A
token never is empty, which is why reading them one after the other comes to an end. -/

namespace Docweave.Xml

open Docweave.Text

/-- One piece of element content. -/
inductive Token where
  /-- A start tag, or a tag of a single-tag element; none if the text ends inside it. -/
  | start (tag : Option StartTag)
  /-- An end tag, and the document from it on. -/
  | stop (name : WrittenName) (start : List Char)
  /-- Character data. -/
  | text (data : String)
  /-- A comment. -/
  | comment (data : String)
  /-- A processing instruction. -/
  | instruction (target data : String)
deriving DecidableEq, Repr

/-! ## Comments, instructions and character data sections -/

/-- Text up to a fixed end, which is read too. -/
def readThrough (finish : String) (s : List Char) : Except Fault (List Char × List Char) := do
  let (data, rest) ← readUntil finish.toList s
  let rest ← expectText finish rest
  return (data, rest)

/-- A comment, after the four characters that open it. -/
def readComment (s : List Char) : Except Fault (Token × List Char) := do
  let (data, rest) ← readThrough "-->" s
  if occursIn ['-', '-'] data || data.getLast? = some '-' then
    stopAt .commentHyphens ('<' :: '!' :: '-' :: '-' :: s)
  else return (.comment (.ofList data), rest)

/-- A character data section, after the characters that open it. -/
def readCdata (s : List Char) : Except Fault (Token × List Char) := do
  let (data, rest) ← readThrough "]]>" s
  return (.text (.ofList (normalizeNewlines data)), rest)

/-- A processing instruction, after the two characters that open it. -/
def readInstruction (s : List Char) : Except Fault (Token × List Char) := do
  if ['x', 'm', 'l', ' '].isPrefixOf s then stopAt .unexpectedDeclaration ('<' :: '?' :: s)
  else
    let (target, rest) ← readName s
    let (data, rest) ← readThrough "?>" (skipSpaces rest)
    return (.instruction (.ofList target) (.ofList data), rest)

/-- An end tag, after the two characters that open it. -/
def readEndTag (s : List Char) : Except Fault (Token × List Char) := do
  let (name, rest) ← readQName s
  let rest ← expectChar '>' (skipSpaces rest)
  return (.stop name ('<' :: '/' :: s), rest)

/-- Character data up to the next tag. -/
def readText (s : List Char) : Except Fault (Token × List Char) := do
  let (raw, rest) ← readUntil ['<'] s
  if occursIn [']', ']', '>'] raw then stopAt .strayCdataEnd rest
  else
    let data ← normalizeCharacterData rest raw
    return (.text data, rest)

/-- The next token of the content of an element, where the text is not over. -/
def readToken (c : Char) (rest : List Char) : Except Fault (Token × List Char) :=
  if c = '<' then
    match rest with
    | [] => stopAt .unknownToken (c :: rest)
    | '!' :: '-' :: '-' :: tail => readComment tail
    | '!' :: '[' :: 'C' :: 'D' :: 'A' :: 'T' :: 'A' :: '[' :: tail => readCdata tail
    | '!' :: _ => stopAt .unknownToken (c :: rest)
    | '?' :: tail => readInstruction tail
    | '/' :: tail => readEndTag tail
    | _ => (readStartTag rest).map fun got => (.start got.1, got.2)
  else readText (c :: rest)

/-! ## Tokens are not empty -/

theorem length_of_readThrough {finish : String} {s data rest : List Char}
    (h : readThrough finish s = .ok (data, rest)) : rest.length ≤ s.length := by
  unfold readThrough at h
  cases hu : readUntil finish.toList s with
  | error e => rw [hu] at h; cases h
  | ok got =>
    cases he : expectText finish got.2 with
    | error e => simp only [bind, Except.bind, hu, he] at h; cases h
    | ok tail =>
      simp only [bind, Except.bind, hu, he] at h
      cases h
      exact Nat.le_trans (length_of_expectText he) (length_of_readUntil hu)

theorem length_of_readComment {s rest : List Char} {token : Token}
    (h : readComment s = .ok (token, rest)) : rest.length ≤ s.length := by
  unfold readComment at h
  cases hr : readThrough "-->" s with
  | error e => rw [hr] at h; cases h
  | ok got =>
    simp only [bind, Except.bind, hr] at h
    split at h
    · cases h
    · cases h; exact length_of_readThrough hr

theorem length_of_readCdata {s rest : List Char} {token : Token}
    (h : readCdata s = .ok (token, rest)) : rest.length ≤ s.length := by
  unfold readCdata at h
  cases hr : readThrough "]]>" s with
  | error e => rw [hr] at h; cases h
  | ok got => rw [hr] at h; cases h; exact length_of_readThrough hr

theorem length_of_readInstruction {s rest : List Char} {token : Token}
    (h : readInstruction s = .ok (token, rest)) : rest.length ≤ s.length := by
  unfold readInstruction at h
  split at h
  · cases h
  · cases hn : readName s with
    | error e => rw [hn] at h; cases h
    | ok name =>
      cases hr : readThrough "?>" (skipSpaces name.2) with
      | error e => simp only [bind, Except.bind, hn, hr] at h; cases h
      | ok got =>
        simp only [bind, Except.bind, hn, hr] at h
        cases h
        have h1 := length_of_readName hn
        have h2 := length_skipSpaces_le name.2
        have h3 := length_of_readThrough hr
        omega

theorem length_of_readEndTag {s rest : List Char} {token : Token}
    (h : readEndTag s = .ok (token, rest)) : rest.length < s.length := by
  unfold readEndTag at h
  cases hn : readQName s with
  | error e => rw [hn] at h; cases h
  | ok name =>
    cases he : expectChar '>' (skipSpaces name.2) with
    | error e => simp only [bind, Except.bind, hn, he] at h; cases h
    | ok tail =>
      simp only [bind, Except.bind, hn, he] at h
      cases h
      have h1 := length_of_readQName hn
      have h2 := length_skipSpaces_le name.2
      have h3 := length_of_expectChar he
      omega

theorem length_of_readText {c : Char} {s rest : List Char} {token : Token} (hc : c ≠ '<')
    (h : readText (c :: s) = .ok (token, rest)) : rest.length < (c :: s).length := by
  unfold readText at h
  cases hu : readUntil ['<'] (c :: s) with
  | error e => rw [hu] at h; cases h
  | ok got =>
    have hlt : got.2.length < (c :: s).length := by
      rw [readUntil] at hu
      split at hu
      · next hp => exact absurd (by simpa using hp : '<' = c).symm hc
      · split at hu
        · cases hr : readUntil ['<'] s with
          | error e => rw [hr] at hu; cases hu
          | ok more =>
            rw [hr] at hu
            cases hu
            exact Nat.lt_succ_of_le (length_of_readUntil hr)
        · cases hu
    simp only [bind, Except.bind, hu] at h
    split at h
    · cases h
    · split at h
      · cases h
      · cases h; exact hlt

theorem length_of_readToken {c : Char} {s rest : List Char} {token : Token}
    (h : readToken c s = .ok (token, rest)) : rest.length ≤ s.length := by
  unfold readToken at h
  split at h
  · split at h
    · cases h
    · next tail => have := length_of_readComment h; simp only [List.length_cons]; omega
    · next tail => have := length_of_readCdata h; simp only [List.length_cons]; omega
    · cases h
    · next tail => have := length_of_readInstruction h; simp only [List.length_cons]; omega
    · next tail => have := length_of_readEndTag h; simp only [List.length_cons]; omega
    · cases hr : readStartTag s with
      | error e => rw [hr] at h; cases h
      | ok got => rw [hr] at h; cases h; exact length_of_readStartTag hr
  · next hc => exact Nat.le_of_lt_succ (length_of_readText hc h)

end Docweave.Xml
