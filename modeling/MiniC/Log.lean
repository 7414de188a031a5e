import MiniC.Text.Column

/-!
# Log records

Each part of the compiler tells what it does in records, which are kept in the order they were made.
A filter lets through the records that are at least as grave as a chosen level.
-/

namespace MiniC.Log

/-- How grave a record is, from the gravest on. -/
inductive Level where
  | error
  | warn
  | info
  | debug
  | trace
  deriving DecidableEq, Repr

/-- The levels, from the gravest on. -/
def Level.all : List Level := [.error, .warn, .info, .debug, .trace]

/-- A level's name in records. -/
def Level.name : Level → String
  | .error => "ERROR"
  | .warn => "WARN"
  | .info => "INFO"
  | .debug => "DEBUG"
  | .trace => "TRACE"

/-- How many levels are graver. -/
def Level.rank : Level → Nat
  | .error => 0
  | .warn => 1
  | .info => 2
  | .debug => 3
  | .trace => 4

/-- The part of the compiler that makes a record. -/
inductive Part where
  | command
  | lexer
  | parser
  | generator
  | linker
  deriving DecidableEq, Repr

/-- The name under which a part makes its records. -/
def Part.target : Part → String
  | .command => "clanger"
  | .lexer => "clanger::lex"
  | .parser => "clanger::parse"
  | .generator => "clanger::codegen"
  | .linker => "clanger::link"

/-- One message of the log. -/
structure Record where
  /-- How grave it is. -/
  level : Level
  /-- The part that made it. -/
  part : Part
  /-- What it says. -/
  text : String
  deriving DecidableEq, Repr

/-- A level's name, filled up to five characters, then the target in brackets and the message. -/
def Record.line (r : Record) : String :=
  fillRight 5 r.level.name ++ " [" ++ r.part.target ++ "] " ++ r.text ++ "\n"

/-- The least grave level that is let through, if any is. -/
abbrev Filter := Option Level

/-- Whether a filter lets a record through. -/
def Filter.passes (filter : Filter) (r : Record) : Bool :=
  match filter with
  | none => false
  | some level => r.level.rank ≤ level.rank

/-- The filter that a name stands for: a level or `off`, in upper or lower case. -/
def Filter.ofName? (name : String) : Option Filter :=
  let name := name.toUpper
  if name = "OFF" then some none
  else (Level.all.find? fun level => level.name = name).map some

/-- The filter for a number of requests for more detail. -/
def Filter.ofVerbosity : Nat → Filter
  | 0 => some .warn
  | 1 => some .info
  | 2 => some .debug
  | _ => some .trace

end MiniC.Log
