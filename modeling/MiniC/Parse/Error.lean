import MiniC.Parse.Literal
import MiniC.Source.Position
import MiniC.Token.Basic

/-!
# Syntax errors

A text is refused at its first token that cannot go on, or at its first literal without a value.
-/

namespace MiniC

/-- What could have stood where a token was refused. -/
inductive Expected where
  | token (t : Token)
  | identifier
  | expression
  | endOfInput
  deriving DecidableEq, Repr

/-- Why a text is refused. -/
inductive SyntaxError where
  /-- A token, or the end of the input, stands where something else could have stood. -/
  | unexpected (expected : Expected) (found : Option Token)
  /-- A literal has no value as an `int`. -/
  | literalOverflow (text : String)
  deriving DecidableEq, Repr

/-- How messages show the end of the input. -/
private def endDescription : String := "end of input"

/-- How messages show what could have stood. -/
def Expected.description : Expected → String
  | .token t => t.description
  | .identifier => "an identifier"
  | .expression => "an expression"
  | .endOfInput => endDescription

/-- The text of an error. -/
def SyntaxError.message : SyntaxError → String
  | .unexpected expected found =>
    "Expected " ++ expected.description ++ ", found " ++
      (found.map Token.description).getD endDescription
  | .literalOverflow text =>
    "Integer literal `" ++ text ++ "` overflows `int`, valid range is [0, " ++
      toString Literal.intMax ++ "]"

end MiniC
