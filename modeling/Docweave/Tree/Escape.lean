set_option autoImplicit false

/-! # Escaping

Character data and attribute values are written with references in place of the characters that
could end the surrounding tag or value. -/

namespace Docweave

/-- A character of character data as it is written. -/
def escapeTextChar (c : Char) : List Char :=
  match c with
  | '&' => ['&', 'a', 'm', 'p', ';']
  | '<' => ['&', 'l', 't', ';']
  | '>' => ['&', 'g', 't', ';']
  | c => [c]

/-- A character of a value between double quotes as it is written. -/
def escapeValueChar (c : Char) : List Char :=
  match c with
  | '&' => ['&', 'a', 'm', 'p', ';']
  | '<' => ['&', 'l', 't', ';']
  | '>' => ['&', 'g', 't', ';']
  | '"' => ['&', 'q', 'u', 'o', 't', ';']
  | '\n' => ['&', '#', '1', '0', ';']
  | c => [c]

/-- Character data as it is written inside an element. -/
def escapeText (s : List Char) : List Char := s.flatMap escapeTextChar

/-- A value as it is written between double quotes. -/
def escapeValue (s : List Char) : List Char := s.flatMap escapeValueChar

end Docweave
