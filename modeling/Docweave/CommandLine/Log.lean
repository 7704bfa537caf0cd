import Docweave.Notice
import Docweave.Text.Blank
import Docweave.Text.Control
import Docweave.Text.Search

set_option autoImplicit false

/-! # The log

Notices go to the log, where a filter lets some of them through. The filter comes from the
environment; without one, only errors pass, or everything for someone who asks for it. The environment
also says whether lines have colors. -/

namespace Docweave

open Docweave.Text

/-! ## Entries -/

/-- A line for the log. -/
structure LogEntry where
  /-- How much it matters. -/
  level : Level
  /-- The part of the program that it comes from. -/
  target : String
  /-- What it says. -/
  message : String
deriving DecidableEq, Repr

/-- The entry of a notice. -/
def Notice.entry (notice : Notice) : LogEntry := ⟨notice.level, notice.target, notice.message⟩

/-- The width of the column of levels. -/
def levelWidth : Nat := 5

/-- What makes a terminal use the color of a level. -/
def Level.code : Level → String
  | debug => "\x1b[34m"
  | info => "\x1b[32m"
  | warn => "\x1b[33m"

/-- What makes a terminal use the color of the brackets. -/
def bracketCode : String := "\x1b[90m"

/-- The line of an entry with its end. Further lines of the message are indented. -/
def LogEntry.line (entry : LogEntry) (colored : Bool) : String :=
  let dye (code text : String) : String := if colored then code ++ text ++ "\x1b[0m" else text
  let word := entry.level.word
  dye bracketCode "[" ++ dye entry.level.code (word ++ "".pushn ' ' (levelWidth - word.length)) ++
    " " ++ entry.target ++ dye bracketCode "]" ++ " " ++
    .ofList (replaceAll ['\n'] "\n    ".toList entry.message.toList) ++ "\n"

/-- The entry as it is written. Without colors, control sequences are taken out; one that is not
finished takes the end of the line with it. -/
def LogEntry.written (entry : LogEntry) (colored : Bool) : String :=
  if colored then entry.line true else .ofList (withoutControls (entry.line false).toList)

/-! ## Filters -/

/-- How much passes a filter. -/
inductive Verbosity where
  /-- Nothing. -/
  | off
  /-- Errors. -/
  | error
  /-- Warnings, and what is above them. -/
  | warn
  /-- Information, and what is above it. -/
  | info
  /-- What is for debugging, and all above it. -/
  | debug
  /-- Everything. -/
  | trace
deriving DecidableEq, Repr

namespace Verbosity

/-- A level passes. -/
def admits : Verbosity → Level → Bool
  | off, _ | error, _ => false
  | warn, level => level == .warn
  | info, level => level != .debug
  | debug, _ | trace, _ => true

/-- The meaning of a word, in small or capital letters. -/
def ofWord? (word : String) : Option Verbosity :=
  match word.map Char.toLower with
  | "off" => some off
  | "error" => some error
  | "warn" => some warn
  | "info" => some info
  | "debug" => some debug
  | "trace" => some trace
  | _ => none

end Verbosity

/-- What passes to the log. -/
structure LogFilter where
  /-- How much passes. -/
  verbosity : Verbosity
  /-- How the targets start from which something passes. -/
  target : String
deriving DecidableEq, Repr

namespace LogFilter

/-- An entry passes. -/
def admits (filter : LogFilter) (entry : LogEntry) : Bool :=
  filter.verbosity.admits entry.level && filter.target.toList.isPrefixOf entry.target.toList

/-- The filter that a word stands for: how much passes, or from where. -/
def ofWord (word : String) : LogFilter :=
  let word := String.ofList (trim word.toList)
  if word.isEmpty then ⟨.error, ""⟩
  else match Verbosity.ofWord? word with
    | some verbosity => ⟨verbosity, ""⟩
    | none => ⟨.trace, word⟩

/-- The filter for a program that is run in an environment, with or without a wish for all
entries. -/
def choose (environment : List (String × String)) (wanted : Bool) : LogFilter :=
  match environment.lookup "RUST_LOG" with
  | some word => ofWord word
  | none =>
    if wanted || (environment.lookup "DEBUG").isSome then ⟨.debug, ""⟩ else ⟨.error, ""⟩

end LogFilter

/-! ## The log itself -/

/-- How entries get to the log. -/
structure Log where
  /-- What passes. -/
  filter : LogFilter
  /-- Lines are written in colors. -/
  colored : Bool
deriving DecidableEq, Repr

namespace Log

/-- The log is written in colors: they are asked for, or nothing is said of the log and colors are
forced and not forbidden. -/
def showsColors (environment : List (String × String)) : Bool :=
  let isFilled (name : String) : Bool := (environment.lookup name).any (· ≠ "")
  match environment.lookup "RUST_LOG_STYLE" with
  | some "always" => true
  | some "never" => false
  | _ => isFilled "CLICOLOR_FORCE" && !isFilled "NO_COLOR"

/-- The log of a program that is run in an environment, with or without a wish for all entries. -/
def choose (environment : List (String × String)) (wanted : Bool) : Log :=
  ⟨.choose environment wanted, showsColors environment⟩

/-- The entries that pass, as they are written. -/
def texts (log : Log) (entries : List LogEntry) : List String :=
  (entries.filter log.filter.admits).map (·.written log.colored)

end Log

end Docweave
