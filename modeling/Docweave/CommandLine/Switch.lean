set_option autoImplicit false

/-! # Switches

A switch is an argument with hyphens in front. Two hyphens come before its name, one before its letter,
and letters can be joined. Some switches take a value, after an equals sign or as the argument that
follows. Two hyphens alone end the switches. -/

namespace Docweave

/-- The switches that are known. -/
inductive Switch where
  /-- Show how the program is used. -/
  | help
  /-- Show the version. -/
  | version
  /-- Use no colors. -/
  | noColor
  /-- Only see whether the model is well-formed. -/
  | check
  /-- Show the tree of the model. -/
  | dumpTree
  /-- Do not show the output. -/
  | quiet
  /-- Do not write to files. -/
  | noWrite
  /-- Log what happens. -/
  | debug
  /-- The width of an indentation. -/
  | indent
  /-- Where the sources of a query go. -/
  | localSources
  /-- A category of tests. -/
  | category
  /-- Show the categories. -/
  | listCategories
deriving DecidableEq, Repr

namespace Switch

/-- The name of a switch. -/
def name : Switch → String
  | help => "help"
  | version => "version"
  | noColor => "no-color"
  | check => "check"
  | dumpTree => "dump-tree"
  | quiet => "quiet"
  | noWrite => "no-write"
  | debug => "debug"
  | indent => "indent"
  | localSources => "local-sources"
  | category => "category"
  | listCategories => "list-categories"

/-- The letter of a switch, if it has one. -/
def letter? : Switch → Option Char
  | help => some 'h'
  | version => some 'V'
  | quiet => some 'q'
  | category => some 'c'
  | _ => none

/-- The switch takes a value. -/
def takesValue : Switch → Bool
  | indent | localSources | category => true
  | _ => false

/-- The switch can be given more than once. -/
def repeats : Switch → Bool
  | category => true
  | _ => false

/-- The switch among some that has a name. -/
def named? (known : List Switch) (name : String) : Option Switch := known.find? (·.name == name)

/-- The switch among some that has a letter. -/
def lettered? (known : List Switch) (letter : Char) : Option Switch :=
  known.find? (·.letter? == some letter)

end Switch

/-! ## Reading arguments -/

/-- What is wrong with arguments. -/
inductive UsageProblem where
  /-- There is no such switch, or one word too many. -/
  | unexpected (argument : String)
  /-- A switch is given twice. -/
  | repeated (switch : Switch)
  /-- A switch lacks its value. -/
  | valueMissing (switch : Switch)
  /-- A switch cannot have this value. -/
  | badValue (switch : Switch) (value : String)
  /-- A switch has a value but takes none. -/
  | valueUnneeded (switch : Switch)
  /-- The word that says what to work on is missing. -/
  | wordMissing (what : String)
deriving DecidableEq, Repr

/-- What arguments say, piece by piece. -/
inductive Piece where
  /-- A switch without a value. -/
  | flag (switch : Switch)
  /-- A switch with a value. -/
  | setting (switch : Switch) (value : String)
  /-- A word. -/
  | word (text : String)
  /-- The end of the switches. -/
  | endOfSwitches
  /-- Something that cannot be understood. -/
  | wrong (problem : UsageProblem)
deriving DecidableEq, Repr

/-- The argument looks like a switch. A hyphen alone does not. -/
def isSwitchLike (argument : String) : Bool :=
  match argument.toList with
  | '-' :: _ :: _ => true
  | _ => false

/-- The pieces of letters that are joined, and the switch that still waits for its value. -/
def readLetters (known : List Switch) (argument : String) :
    List Char → List Piece × Option Switch
  | [] => ([], none)
  | letter :: rest =>
    match Switch.lettered? known letter with
    | none => ([.wrong (.unexpected argument)], none)
    | some switch =>
      if switch.takesValue then
        -- What is left of the argument is the value, however it looks.
        match rest with
        | [] => ([], some switch)
        | '=' :: value => ([.setting switch (.ofList value)], none)
        | value => ([.setting switch (.ofList value)], none)
      else
        let (pieces, waiting) := readLetters known argument rest
        (.flag switch :: pieces, waiting)

/-- The piece of a switch that is given by name, or the switch that still waits for its value. -/
def readName (known : List Switch) (argument : String) (body : List Char) :
    List Piece × Option Switch :=
  let name := body.takeWhile (· ≠ '=')
  match Switch.named? known (.ofList name), body.drop name.length with
  | none, _ => ([.wrong (.unexpected argument)], none)
  | some switch, [] => if switch.takesValue then ([], some switch) else ([.flag switch], none)
  | some switch, _ :: value =>
    if switch.takesValue then ([.setting switch (.ofList value)], none)
    else ([.wrong (.valueUnneeded switch)], none)

/-- The pieces of one argument, and the switch that still waits for its value. -/
def readArgument (known : List Switch) (argument : String) : List Piece × Option Switch :=
  match argument.toList with
  | '-' :: '-' :: body => readName known argument body
  | '-' :: letter :: rest => readLetters known argument (letter :: rest)
  | _ => ([.word argument], none)

/-- The pieces of arguments when some switches are known. -/
def readArguments (known : List Switch) : List String → List Piece
  | [] => []
  | argument :: rest =>
    if argument = "--" then .endOfSwitches :: rest.map .word
    else match readArgument known argument with
      | (pieces, none) => pieces ++ readArguments known rest
      | (pieces, some switch) =>
        match rest with
        | [] => pieces ++ [.wrong (.valueMissing switch)]
        | value :: rest =>
          if isSwitchLike value then pieces ++ [.wrong (.valueMissing switch)]
          else pieces ++ .setting switch value :: readArguments known rest

end Docweave
