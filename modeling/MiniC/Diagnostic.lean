import MiniC.Source.File
import MiniC.Source.Position
import MiniC.Text.Column

/-!
# Diagnostics

A report shows each error with its place, the line it lies in and a caret under its column, and ends
with their number. A line that the file does not have is shown empty. A report is shown row by row,
so that a fault comes after the rows before it.
-/

namespace MiniC

/-- A text that is shown piece by piece, up to a fault if there is one. -/
abbrev Showing := ExceptT Fault (StateM String)

namespace Showing

/-- Shows a piece of text. -/
def put (piece : String) : Showing Unit := modify (· ++ piece)

/-- How showing a text ends, and what was shown until then. -/
def outcome (x : Showing Unit) : Except Fault Unit × String := StateT.run (ExceptT.run x) ""

/-- The whole text, if there is no fault. -/
def text (x : Showing Unit) : Except Fault String := x.outcome.1.map fun _ => x.outcome.2

end Showing

namespace Diagnostic

open Showing

/-- How errors are called if nothing else is said. -/
def defaultKind : String := "error"

/-- Shows one error. -/
def showEntry (kind : String) (file : SourceFile) (error : Located String) : Showing Unit := do
  let number := toString error.position.line
  let margin := blanks number.length
  put (kind ++ ": " ++ error.val ++ "\n")
  put (" --> " ++ file.name ++ ":" ++ error.position.text ++ "\n")
  put (margin ++ " |\n")
  put (number ++ " | " ++ (file.line? error.position.line).getD "" ++ "\n")
  let skip ← indent (error.position.column - 1)
  put (margin ++ " | " ++ skip ++ "^\n")
  put "\n"

/-- The last line of a report. -/
def summary (count : Nat) : String :=
  "Build failed with " ++ toString count ++ (if count = 1 then " error\n" else " errors\n")

/-- Shows the report of some errors in a file. -/
def showReport (kind : String) (file : SourceFile) (errors : List (Located String)) :
    Showing Unit := do
  if errors.isEmpty then
    put "No errors were reported\n"
  else
    errors.forM (showEntry kind file)
    put (summary errors.length)

/-- The report of some errors in a file. -/
def report (kind : String) (file : SourceFile) (errors : List (Located String)) :
    Except Fault String :=
  (showReport kind file errors).text

end Diagnostic

end MiniC
