import Docweave.Text.Search
import Docweave.Toml.Value

set_option autoImplicit false

/-! # Texts, numbers and times of a configuration -/

namespace Docweave.Toml

open Docweave.Text

/-- A reader stops in front of what it cannot use. -/
def stopAt {α : Type} (rest : List Char) : Except Problem α := .error (.unexpected rest.length)

/-- A space or a tab. -/
def isWs (c : Char) : Bool := c == ' ' || c == '\t'

/-- Texts and comments may hold the character: it is a tab or no control character. -/
def isPlainChar (c : Char) : Bool := c == '\t' || (0x20 ≤ c.toNat && c.toNat != 0x7F)

/-- The text after a line end. -/
def lineEnd? : List Char → Option (List Char)
  | '\n' :: rest => some rest
  | '\r' :: '\n' :: rest => some rest
  | _ => none

/-! ## Texts -/

/-- The number that hexadecimal digits write, if all of them are such digits. -/
def hexValue? (digits : List Char) : Option Nat :=
  digits.foldlM (fun n c =>
    if c.isDigit then some (16 * n + (c.toNat - '0'.toNat))
    else if 'a' ≤ c && c ≤ 'f' then some (16 * n + (c.toNat - 'a'.toNat + 10))
    else if 'A' ≤ c && c ≤ 'F' then some (16 * n + (c.toNat - 'A'.toNat + 10))
    else none) 0

/-- The character with a hexadecimal number of `count` digits. -/
def readNumbered (count : Nat) (s : List Char) : Except Problem (Char × List Char) :=
  match hexValue? (s.take count) with
  | some n =>
    if count ≤ s.length && n.isValidChar then .ok (Char.ofNat n, s.drop count) else stopAt s
  | none => stopAt s

/-- The character of an escape, after its backslash. -/
def readEscape : List Char → Except Problem (Char × List Char)
  | 'b' :: rest => .ok ('\x08', rest)
  | 't' :: rest => .ok ('\t', rest)
  | 'n' :: rest => .ok ('\n', rest)
  | 'f' :: rest => .ok ('\x0c', rest)
  | 'r' :: rest => .ok ('\r', rest)
  | '"' :: rest => .ok ('"', rest)
  | '\\' :: rest => .ok ('\\', rest)
  | 'u' :: rest => readNumbered 4 rest
  | 'U' :: rest => readNumbered 8 rest
  | s => stopAt s

/-- A kind of text: between quotation marks of one sort, and on one line or on several. -/
structure TextKind where
  /-- The quotation mark. -/
  quote : Char
  /-- The text may go over several lines, between three marks on either side. -/
  long : Bool

/-- The texts in which a backslash starts an escape. -/
def TextKind.escapes (kind : TextKind) : Bool := kind.quote == '"'

/-- The text after blanks and line ends. -/
def skipLineBlanks : List Char → List Char
  | '\r' :: '\n' :: rest => skipLineBlanks rest
  | c :: rest => if isWs c || c = '\n' then skipLineBlanks rest else c :: rest
  | [] => []

/-- The text after the blanks and line ends that a backslash at the end of a line removes; nothing, if
the backslash is not at the end of a line. -/
def joinedLine? (s : List Char) : Option (List Char) :=
  (lineEnd? (s.dropWhile isWs)).map skipLineBlanks

/-- The rest of a text after its opening marks, in at most `fuel` steps; each step takes a
character. -/
def readTextRest (kind : TextKind) : Nat → List Char → Except Problem (List Char × List Char)
  | 0, s => stopAt s
  | fuel + 1, s =>
    let goOn (taken rest : List Char) : Except Problem (List Char × List Char) :=
      (readTextRest kind fuel rest).map fun got => (taken ++ got.1, got.2)
    match s with
    | [] => stopAt s
    | c :: rest =>
      if c = kind.quote then
        if kind.long then
          let marks := (s.takeWhile (· == kind.quote)).length
          if marks < 3 then goOn (s.take marks) (s.drop marks)
          else .ok (s.take (min marks 5 - 3), s.drop (min marks 5))
        else .ok ([], rest)
      else if c = '\\' && kind.escapes then
        match if kind.long then joinedLine? rest else none with
        | some rest => goOn [] rest
        | none =>
          match readEscape rest with
          | .ok (c, rest) => goOn [c] rest
          | .error problem => .error problem
      else if isPlainChar c then goOn [c] rest
      else match if kind.long then lineEnd? s else none with
        | some rest => goOn ['\n'] rest
        | none => stopAt s

/-- A text from its opening to its closing marks. A line end just after three opening marks is left
out. -/
def readText (s : List Char) : Except Problem (String × List Char) :=
  match s with
  | [] => stopAt s
  | q :: rest =>
    if q = '"' || q = '\'' then
      match stripStart? [q, q] rest with
      | some long =>
        let body := (lineEnd? long).getD long
        (readTextRest ⟨q, true⟩ (body.length + 1) body).map fun got => (.ofList got.1, got.2)
      | none =>
        (readTextRest ⟨q, false⟩ (rest.length + 1) rest).map fun got => (.ofList got.1, got.2)
    else stopAt s

/-! ## Numbers -/

/-- Digits of a class, with single underscores between them. -/
def areDigits (isOne : Char → Bool) (s : List Char) : Bool :=
  (splitOn '_' s).all fun part => !part.isEmpty && part.all isOne

/-- A text without a sign in front. -/
def unsigned : List Char → List Char
  | '+' :: rest => rest
  | '-' :: rest => rest
  | s => s

/-- Decimal digits without a zero in front. -/
def isWholeNumber (s : List Char) : Bool :=
  areDigits Char.isDigit s && (s.head? != some '0' || s.length == 1)

/-- The value of digits in a base, underscores left out. -/
def valueIn (base : Nat) (s : List Char) : Nat :=
  (s.filter (· != '_')).foldl (fun n c => base * n + ((hexValue? [c]).getD 0)) 0

/-- A whole number that fits in 64 bits with a sign. -/
def isInteger (s : List Char) : Bool :=
  match s with
  | '0' :: 'x' :: digits =>
    areDigits (fun c => (hexValue? [c]).isSome) digits && valueIn 16 digits < Nat.pow 2 63
  | '0' :: 'o' :: digits =>
    areDigits (fun c => '0' ≤ c && c ≤ '7') digits && valueIn 8 digits < Nat.pow 2 63
  | '0' :: 'b' :: digits =>
    areDigits (fun c => c == '0' || c == '1') digits && valueIn 2 digits < Nat.pow 2 63
  | s =>
    isWholeNumber (unsigned s) &&
      valueIn 10 (unsigned s) < Nat.pow 2 63 + (if s.head? = some '-' then 1 else 0)

/-- A number `digits * 10 ^ exponent`. -/
structure Decimal where
  /-- The digits as a whole number. -/
  digits : Nat
  /-- The power of ten. -/
  exponent : Int
deriving DecidableEq, Repr

namespace Decimal

/-- The least number that is nearer to `2 ^ 1024`, which no binary fraction of 64 bits reaches, than to
any such fraction; half way counts as nearer. -/
def tooLarge : Nat := Nat.pow 2 1024 - Nat.pow 2 970

/-- No binary fraction of 64 bits is near enough to stand for the number. The powers of ten are only
written out where the number of digits does not tell. -/
def overflows (d : Decimal) : Bool :=
  let size := (Nat.toDigits 10 d.digits).length + d.exponent
  if d.digits = 0 || size < 309 then false
  else if size > 309 then true
  else tooLarge * Nat.pow 10 (-d.exponent).toNat ≤ d.digits * Nat.pow 10 d.exponent.toNat

end Decimal

/-- Decimal digits, with a sign if need be, as a whole number. -/
def signedValue (s : List Char) : Int :=
  let n := valueIn 10 (unsigned s)
  if s.head? = some '-' then -n else n

/-- A number without a sign that has a fraction, an exponent or both. -/
def decimal? (s : List Char) : Option Decimal :=
  let (bare, power) := match splitAtFirst? (fun c => c == 'e' || c == 'E') s with
    | some (bare, power) => (bare, some power)
    | none => (s, none)
  let (whole, fraction) := match splitAtFirst? (· == '.') bare with
    | some (whole, fraction) => (whole, some fraction)
    | none => (bare, none)
  if isWholeNumber whole && (fraction.all (areDigits Char.isDigit)) &&
      (power.all fun power => areDigits Char.isDigit (unsigned power)) &&
      (fraction.isSome || power.isSome) then
    let places := (fraction.getD []).filter (· != '_')
    some ⟨valueIn 10 (whole ++ places), (power.map signedValue).getD 0 - places.length⟩
  else none

/-- A number with a fraction, an exponent or both, or one of the two special ones. A number above zero
must not be too large. -/
def isFloat (s : List Char) : Bool :=
  unsigned s = ['i', 'n', 'f'] || unsigned s = ['n', 'a', 'n'] ||
    match decimal? (unsigned s) with
    | some d => s.head? == some '-' || !d.overflows
    | none => false

/-! ## Times -/

/-- Two digits up to a greatest value. -/
def isPair (least greatest : Nat) (a b : Char) : Bool :=
  a.isDigit && b.isDigit &&
    (let n := valueIn 10 [a, b]
     least ≤ n && n ≤ greatest)

/-- The number of days of a month. -/
def daysIn (year month : Nat) : Nat :=
  if month = 2 then
    if year % 4 = 0 && (year % 100 != 0 || year % 400 = 0) then 29 else 28
  else if month = 4 || month = 6 || month = 9 || month = 11 then 30
  else 31

/-- The text after a date. -/
def afterDate? : List Char → Option (List Char)
  | a :: b :: c :: d :: '-' :: m :: n :: '-' :: x :: y :: rest =>
    let year := [a, b, c, d]
    if year.all Char.isDigit && isPair 1 12 m n &&
        isPair 1 (daysIn (valueIn 10 year) (valueIn 10 [m, n])) x y then
      some rest
    else none
  | _ => none

/-- The text after a time of day. -/
def afterTime? : List Char → Option (List Char)
  | a :: b :: ':' :: c :: d :: ':' :: e :: f :: rest =>
    if isPair 0 23 a b && isPair 0 59 c d && isPair 0 60 e f then
      match rest with
      | '.' :: fraction =>
        if (fraction.head?.map Char.isDigit).getD false then some (fraction.dropWhile Char.isDigit)
        else none
      | rest => some rest
    else none
  | _ => none

/-- A distance from universal time, or nothing at all. -/
def isOffset : List Char → Bool
  | [] => true
  | ['Z'] => true
  | ['z'] => true
  | [sign, a, b, ':', c, d] => (sign == '+' || sign == '-') && isPair 0 23 a b && isPair 0 59 c d
  | _ => false

/-- A date, a time of day, or both. -/
def isTime (s : List Char) : Bool :=
  match afterDate? s with
  | some [] => true
  | some (mark :: rest) =>
    (mark == 'T' || mark == 't' || mark == ' ') &&
      match afterTime? rest with
      | some offset => isOffset offset
      | none => false
  | none => afterTime? s == some []

/-! ## Words -/

/-- The character may be part of a number, a time or a truth value. -/
def isWordChar (c : Char) : Bool :=
  c.isAlphanum || c == '_' || c == '+' || c == '-' || c == '.' || c == ':'

/-- The word at the start of a text and what follows it. A date may be followed by a blank and a
time. -/
def splitWord (s : List Char) : List Char × List Char :=
  let word := s.takeWhile isWordChar
  let rest := s.dropWhile isWordChar
  match rest with
  | ' ' :: d :: more =>
    if afterDate? word = some [] && d.isDigit then
      (word ++ ' ' :: (d :: more).takeWhile isWordChar, (d :: more).dropWhile isWordChar)
    else (word, rest)
  | _ => (word, rest)

/-- A truth value, a number or a time. -/
def readWord (s : List Char) : Except Problem (Value × List Char) :=
  let (word, rest) := splitWord s
  if word = ['t', 'r', 'u', 'e'] then .ok (.flag true, rest)
  else if word = ['f', 'a', 'l', 's', 'e'] then .ok (.flag false, rest)
  else if isInteger word || isFloat word || isTime word then .ok (.scalar, rest)
  else stopAt s

end Docweave.Toml
