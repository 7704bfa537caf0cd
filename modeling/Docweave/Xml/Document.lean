import Docweave.Xml.Node
import Docweave.Xml.Token

set_option autoImplicit false

/-! # Reading a document

A document is an optional declaration, one element, and comments and processing instructions around
it. Content is read token by token; the elements that are still open are kept in a list, innermost
first. -/

namespace Docweave.Xml

open Docweave.Text

/-! ## Open elements -/

/-- An element whose end tag has not been read. -/
structure OpenElement where
  /-- Its name as the start tag writes it. -/
  name : WrittenName
  /-- What the start tag says. -/
  head : ElementHead
  /-- The nodes read so far, last first. -/
  content : List Node

namespace OpenElement

/-- The element with one more node. Character data joins the character data just before it. -/
def push (e : OpenElement) (node : Node) : OpenElement :=
  { e with content :=
      match node, e.content with
      | .text more, .text data :: before => .text (data ++ more) :: before
      | node, before => node :: before }

/-- The finished element. -/
def close (e : OpenElement) : Node := .element e.head e.content.reverse

end OpenElement

/-! ## Content -/

/-- An element as the reader delivers the root of a document. -/
structure Document where
  /-- What the start tag of the root says. -/
  head : ElementHead
  /-- What the root holds. -/
  content : List Node

/-- The rest of the document up to the end tag of its root, inside the element `current`, which
stands in the elements `outer`. -/
def readContent (current : OpenElement) (outer : List OpenElement) (s : List Char) :
    Except Fault (Document × List Char) :=
  match s with
  | [] => .error ⟨.unclosedRoot, 0⟩
  | c :: rest =>
    match _h : readToken c rest with
    | .error e => .error e
    | .ok (.start none, tail) => readContent current outer tail
    | .ok (.start (some tag), tail) =>
      match tag.resolve current.head.scope with
      | .error e => .error e
      | .ok head =>
        if tag.closed then readContent (current.push (.element head [])) outer tail
        else readContent ⟨tag.name, head, []⟩ (current :: outer) tail
    | .ok (.stop name start, tail) =>
      if name = current.name then
        match outer with
        | [] => .ok (⟨current.head, current.content.reverse⟩, tail)
        | parent :: outer => readContent (parent.push current.close) outer tail
      else stopAt (.wrongEndTag current.name.display name.display) start
    | .ok (.text data, tail) => readContent (current.push (.text data)) outer tail
    | .ok (.comment data, tail) => readContent (current.push (.comment data)) outer tail
    | .ok (.instruction target data, tail) =>
      readContent (current.push (.instruction target data)) outer tail
termination_by s.length
decreasing_by
  all_goals
    have := length_of_readToken _h
    simp only [List.length_cons]; omega

/-- The root element of a document, whose first character has been read; none if the text ends inside
its start tag. -/
def readRoot (s : List Char) : Except Fault (Option Document × List Char) := do
  match ← readStartTag s with
  | (none, rest) => return (none, rest)
  | (some tag, rest) =>
    let head ← tag.resolve []
    if tag.closed then return (some ⟨head, []⟩, rest)
    else
      let (root, rest) ← readContent ⟨tag.name, head, []⟩ [] rest
      return (some root, rest)

/-! ## Around the root -/

/-- The rest of a text after spaces, comments and processing instructions. -/
def skipMisc (s : List Char) : Except Fault (List Char) :=
  match _h : skipSpaces s with
  | '<' :: '!' :: '-' :: '-' :: tail =>
    match _hread : readComment tail with
    | .error e => .error e
    | .ok (_, rest) => skipMisc rest
  | '<' :: '?' :: tail =>
    match _hread : readInstruction tail with
    | .error e => .error e
    | .ok (_, rest) => skipMisc rest
  | rest => .ok rest
termination_by s.length
decreasing_by
  · have h1 := length_skipSpaces_le s
    have h2 := length_of_readComment _hread
    rw [_h] at h1
    simp only [List.length_cons] at h1; omega
  · have h1 := length_skipSpaces_le s
    have h2 := length_of_readInstruction _hread
    rw [_h] at h1
    simp only [List.length_cons] at h1; omega

/-- The blanks after an item of the XML declaration. None are needed before its end. -/
def skipItemSpaces (s : List Char) : Except Fault (List Char) :=
  match s with
  | [] => .ok []
  | '?' :: '>' :: _ => .ok s
  | c :: _ => if isSpace c then .ok (skipSpaces s) else stopAt (.expectedSpace (leadByte c)) s

/-- The text from the end of a value on: from the quote that closes it, or from a `<`. Every character
before that must be allowed in a document, also where the value has no end. -/
def skipValue (quote : Char) : List Char → Except Fault (List Char)
  | [] => .ok []
  | c :: rest =>
    if c = quote || c = '<' then .ok (c :: rest)
    else if isXmlChar c then skipValue quote rest
    else stopAt (.nonXmlChar c) (c :: rest)

/-- The text after a value in quotes. -/
def skipQuoted (s : List Char) : Except Fault (List Char) :=
  match s with
  | [] => stopAtEnd
  | q :: rest =>
    if q = '"' || q = '\'' then do expectChar q (← skipValue q rest)
    else stopAt (.expectedQuote (leadByte q)) s

/-- An item of the XML declaration that may be left out: a name, an equals sign and a value. -/
def skipItem (name : String) (s : List Char) : Except Fault (List Char) :=
  if name.toList.isPrefixOf s then do
    let (_, rest) ← readQName s
    skipQuoted (skipSpaces (← expectChar '=' (skipSpaces rest)))
  else .ok s

/-- The XML declaration after the characters that open it: a version, then an encoding and a
standalone mark, either of which may be missing. What they say is not looked at. -/
def skipDeclaration (s : List Char) : Except Fault (List Char) := do
  let s := skipSpaces s
  let _ ← expectText "version" s
  let rest ← skipItemSpaces (← skipItem "version" s)
  let rest ← if "encoding".toList.isPrefixOf rest then skipItemSpaces (← skipItem "encoding" rest)
    else .ok rest
  let rest ← skipItem "standalone" rest
  expectText "?>" (skipSpaces rest)

/-- The text after the byte order mark and the XML declaration, if it has them. -/
def skipPrologue (s : List Char) : Except Fault (List Char) :=
  let s := (stripStart? ['\uFEFF'] s).getD s
  match stripStart? "<?xml ".toList s with
  | some rest => skipDeclaration rest
  | none => .ok s

/-- The document that a text writes. -/
def readDocument (s : List Char) : Except Fault Document := do
  let rest ← skipMisc (← skipPrologue s)
  if "<!DOCTYPE".toList.isPrefixOf rest then .error ⟨.doctype, 0⟩
  else
    let (root, rest) ← match rest with
      | '<' :: tail => readRoot tail
      | _ => .ok (none, rest)
    let rest ← skipMisc rest
    if rest.isEmpty then
      match root with
      | some root => return root
      | none => .error ⟨.noRoot, 0⟩
    else stopAt .unknownToken rest

end Docweave.Xml
