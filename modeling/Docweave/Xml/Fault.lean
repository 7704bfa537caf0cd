import Docweave.Text.Position
import Docweave.Text.Quoted

set_option autoImplicit false

/-! # What can be wrong with a document

Each cause has its own constructor, and one function words them all. Four causes concern the document
as a whole; the others are worded with the place where the reader met them. -/

namespace Docweave.Xml

open Docweave.Text

/-- Why a text is not a document. -/
inductive Problem where
  /-- The text ends in the middle of a construct. -/
  | unexpectedEnd
  /-- A document type declaration, which is not supported. -/
  | doctype
  /-- There is no element at all. -/
  | noRoot
  /-- The text ends before the end tag of the root. -/
  | unclosedRoot
  /-- One character was required and another one found. -/
  | expectedChar (wanted found : Char)
  /-- A quotation mark was required. -/
  | expectedQuote (found : Char)
  /-- A blank was required. -/
  | expectedSpace (found : Char)
  /-- A fixed text was required. -/
  | expectedText (wanted : String)
  /-- A name is missing or malformed. -/
  | invalidName
  /-- A character that may not stand in a document. -/
  | nonXmlChar (found : Char)
  /-- Markup of no known kind. -/
  | unknownToken
  /-- Two hyphens inside a comment, or one at its end. -/
  | commentHyphens
  /-- An XML declaration that is not at the start. -/
  | unexpectedDeclaration
  /-- The end of a character data section outside of one. -/
  | strayCdataEnd
  /-- A reference to a name that stands for no character. -/
  | unknownEntity (name : String)
  /-- An ampersand that starts no reference. -/
  | malformedReference
  /-- An element whose prefix is the one that declares prefixes. -/
  | xmlnsPrefix
  /-- A declaration of the namespace of declarations. -/
  | xmlnsUri
  /-- The prefix `xml` declared for another namespace. -/
  | xmlPrefixUri
  /-- Another prefix declared for the namespace of `xml`. -/
  | xmlUri
  /-- A prefix declared twice on an element. -/
  | repeatedNamespace (name : String)
  /-- A prefix that is not declared. -/
  | unknownPrefix (name : String)
  /-- An attribute given twice. -/
  | repeatedAttribute (localPart : String)
  /-- An end tag of another element than the open one. -/
  | wrongEndTag (wanted found : String)
deriving DecidableEq, Repr

namespace Problem

/-- The problem concerns the document as a whole and has no place in it. -/
def isPlaceless : Problem → Bool
  | unexpectedEnd | doctype | noRoot | unclosedRoot => true
  | _ => false

/-- The wording of a problem met at a place. -/
def message (problem : Problem) (place : RowCol) : String :=
  let spot := toString place.row ++ ":" ++ toString place.col
  let one (c : Char) := String.singleton c
  match problem with
  | unexpectedEnd => "unexpected end of stream"
  | doctype => "XML with DTD detected"
  | noRoot => "the document does not have a root node"
  | unclosedRoot => "the root node was opened but never closed"
  | expectedChar wanted found => "expected '" ++ one wanted ++ "' not '" ++ one found ++ "' at " ++ spot
  | expectedQuote found => "expected a quote not '" ++ one found ++ "' at " ++ spot
  | expectedSpace found => "expected a whitespace not '" ++ one found ++ "' at " ++ spot
  | expectedText wanted => "expected '" ++ wanted ++ "' at " ++ spot
  | invalidName => "invalid name token at " ++ spot
  | nonXmlChar found => "a non-XML character " ++ quotedChar found ++ " found at " ++ spot
  | unknownToken => "unknown token at " ++ spot
  | commentHyphens => "comment at " ++ spot ++ " contains '--'"
  | unexpectedDeclaration => "unexpected XML declaration at " ++ spot
  | strayCdataEnd => "']]>' at " ++ spot ++ " is not allowed inside a character data"
  | unknownEntity name => "unknown entity reference '" ++ name ++ "' at " ++ spot
  | malformedReference => "malformed entity reference at " ++ spot
  | xmlnsPrefix => "the 'xmlns' prefix is used at " ++ spot ++ ", but it must not be"
  | xmlnsUri => "the 'xmlns' URI is used at " ++ spot ++ ", but it must not be declared"
  | xmlPrefixUri => "'xml' namespace prefix mapped to wrong URI at " ++ spot
  | xmlUri => "the 'xml' namespace URI is used for not 'xml' prefix at " ++ spot
  | repeatedNamespace name => "namespace '" ++ name ++ "' at " ++ spot ++ " is already defined"
  | unknownPrefix name => "an unknown namespace prefix '" ++ name ++ "' at " ++ spot
  | repeatedAttribute localPart =>
    "attribute '" ++ localPart ++ "' at " ++ spot ++ " is already defined"
  | wrongEndTag wanted found =>
    "expected '" ++ wanted ++ "' tag, not '" ++ found ++ "' at " ++ spot

end Problem

/-- A problem, and how many characters of the document were left where it was met. -/
structure Fault where
  /-- What is wrong. -/
  problem : Problem
  /-- The number of characters from the place of the problem to the end. -/
  left : Nat
deriving DecidableEq, Repr

/-- Where the fault was met in a document; its start for a problem that has no place. -/
def Fault.place (fault : Fault) (document : List Char) : RowCol :=
  if fault.problem.isPlaceless then ⟨1, 1⟩
  else RowCol.after (document.take (document.length - fault.left))

/-- A reader stops with a problem in front of the text that is left. -/
def stopAt {α : Type} (problem : Problem) (rest : List Char) : Except Fault α :=
  .error ⟨problem, rest.length⟩

/-- A reader stops because the text is over. -/
def stopAtEnd {α : Type} : Except Fault α := .error ⟨.unexpectedEnd, 0⟩

end Docweave.Xml
