import Docweave.Text.Ranges

set_option autoImplicit false

/-! # Characters of markup

Which characters may stand in a document, and which make up names. -/

namespace Docweave.Xml

open Docweave.Text

/-- The characters beyond ASCII that a name may start with. -/
def nameStartRanges : List (Nat × Nat) :=
  [(0xC0, 0xD6), (0xD8, 0xF6), (0xF8, 0x2FF), (0x370, 0x37D), (0x37F, 0x1FFF), (0x200C, 0x200D),
    (0x2070, 0x218F), (0x2C00, 0x2FEF), (0x3001, 0xD7FF), (0xF900, 0xFDCF), (0xFDF0, 0xFFFD),
    (0x10000, 0xEFFFF)]

/-- The characters beyond ASCII that a name may go on with, but not start with. -/
def nameExtraRanges : List (Nat × Nat) := [(0xB7, 0xB7), (0x300, 0x36F), (0x203F, 0x2040)]

/-- A name may start with the character. -/
def isNameStart (c : Char) : Bool :=
  c.isAlpha || c == '_' || c == ':' || inRanges nameStartRanges c

/-- A name may go on with the character. -/
def isNameChar (c : Char) : Bool :=
  isNameStart c || c.isDigit || c == '-' || c == '.' || inRanges nameExtraRanges c

/-- The blanks of markup: space, tab and the two line ends. -/
def isSpace (c : Char) : Bool := c == ' ' || c == '\t' || c == '\r' || c == '\n'

/-- The character may stand in a document: it is no control character other than tab and line ends,
and neither of the two non-characters at the end of the basic plane. -/
def isXmlChar (c : Char) : Bool :=
  if c.toNat < 0x20 then c == '\t' || c == '\n' || c == '\r'
  else c.toNat != 0xFFFE && c.toNat != 0xFFFF

/-- The blanks at the start of a text skipped. -/
def skipSpaces (s : List Char) : List Char := s.dropWhile isSpace

end Docweave.Xml
