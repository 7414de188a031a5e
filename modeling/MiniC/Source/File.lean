/-!
# Source files

A source file is a named text. Its lines end at a line feed, and a carriage return right before that
line feed ends with it; any other carriage return belongs to its line. Nothing after the last line
feed is no line.
-/

namespace MiniC

/-- A named text. -/
structure SourceFile where
  /-- The name that reports show. -/
  name : String
  /-- The whole text. -/
  text : String
  deriving DecidableEq, Repr

/-- The lines of a text without their ends. -/
def linesOf : List Char → List (List Char)
  | [] => []
  | '\r' :: '\n' :: rest => [] :: linesOf rest
  | '\n' :: rest => [] :: linesOf rest
  | c :: rest =>
    match linesOf rest with
    | [] => [[c]]
    | line :: lines => (c :: line) :: lines

/-- The line with the given number, counted from one. -/
def SourceFile.line? (file : SourceFile) (number : Nat) : Option String :=
  match number with
  | 0 => none
  | index + 1 => (linesOf file.text.toList)[index]?.map String.ofList

end MiniC
