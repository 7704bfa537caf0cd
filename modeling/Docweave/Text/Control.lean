set_option autoImplicit false

/-! # Control sequences

Text for a terminal can hold control characters, and sequences of characters that steer the terminal.
They are taken out here, so that visible characters, blanks and line ends are left. The main statement
is that nothing else is left. -/

namespace Docweave.Text

/-! ## Characters -/

/-- The character is shown where it does not belong to a sequence: it is a blank, a line end, or no
control character. Control characters beyond ASCII count as visible. -/
def isShown (c : Char) : Bool :=
  if c.toNat < 0x20 then c == '\t' || c == '\n' || c == '\x0c' || c == '\r' else c != '\x7f'

/-- The character starts a sequence, wherever it stands. -/
def startsSequence (c : Char) : Bool := c == '\x1b'

/-- The character breaks off a sequence, wherever it stands. -/
def breaksSequence (c : Char) : Bool := c == '\x18' || c == '\x1a'

/-- The byte 9C, which ends a string for the terminal, is part of the character. -/
def holdsStringEnd (c : Char) : Bool := (String.singleton c).toUTF8.toList.contains 0x9C

/-! ## Sequences -/

/-- Where in a sequence a text stands. -/
inductive ControlState where
  /-- In no sequence. -/
  | outside
  /-- After the character that starts one. -/
  | started
  /-- In a short sequence, before the character that ends it. -/
  | short
  /-- In a sequence with parameters. -/
  | parameters
  /-- At the head of a string for a device. -/
  | deviceHead
  /-- In the parameters at the head of a string for a device. -/
  | deviceParameters
  /-- After the marks that follow those parameters. -/
  | deviceMarks
  /-- In the body of a string, for a device or the terminal. -/
  | string
  /-- In a command to the system. -/
  | command
deriving DecidableEq, Repr

namespace ControlState

/-- A sequence of this kind lets blanks and line ends pass. -/
def passesBlanks : ControlState → Bool
  | deviceHead | deviceParameters | deviceMarks | string | command => false
  | _ => true

/-- Where the text stands after a character that neither starts nor breaks off a sequence. The end of
a string is only looked for in its body. -/
def advance (state : ControlState) (c : Char) : ControlState :=
  let isMark : Bool := ' ' ≤ c && c ≤ '/'
  let isFrom (first : Char) : Bool := first ≤ c && c ≤ '~'
  match state with
  | outside => outside
  | started =>
    if c = '[' then parameters
    else if c = ']' then command
    else if c = 'P' then deviceHead
    else if c = 'X' || c = '^' || c = '_' then string
    else if isMark then short
    else if isFrom '0' then outside
    else started
  | short => if isFrom '0' then outside else short
  | parameters => if isFrom '@' then outside else parameters
  | deviceHead =>
    if isMark then deviceMarks
    else if isFrom '@' then string
    else if isFrom '0' then deviceParameters
    else deviceHead
  | deviceParameters =>
    if isMark then deviceMarks else if isFrom '<' then string else deviceParameters
  | deviceMarks => if isFrom '0' then string else deviceMarks
  | string => if holdsStringEnd c then outside else string
  | command => if c = '\x07' then outside else command

/-- Where the text stands after a character. -/
def next (state : ControlState) (c : Char) : ControlState :=
  if startsSequence c then started
  else if breaksSequence c then outside
  else state.advance c

/-- The character is shown although the text stands here. -/
def shows (state : ControlState) (c : Char) : Bool :=
  isShown c && (state == outside || (c.toNat < 0x20 && state.passesBlanks))

end ControlState

/-- The text without its control sequences, from a place in one of them on. A blank control character
is shown in the middle of a sequence too, and what comes after it is then taken for text, up to the
next character that cannot be shown: `resumed` tells whether this is so. -/
def withoutControlsFrom (state : ControlState) (resumed : Bool) : List Char → List Char
  | [] => []
  | c :: rest =>
    if resumed && isShown c then
      c :: withoutControlsFrom (if c.toNat < 0x80 then state else .outside) true rest
    else if state.shows c then c :: withoutControlsFrom (state.next c) true rest
    else withoutControlsFrom (state.next c) false rest

/-- The text without its control sequences. -/
def withoutControls (s : List Char) : List Char := withoutControlsFrom .outside false s

end Docweave.Text
