import MiniC.Assembly.Generator
import MiniC.Parse.Program
import MiniC.Token.Lexer

/-!
# Translation

A text is parsed as a program and its code is written to a sink. Nothing is written of a text that
is refused.
-/

namespace MiniC

/-- Parses from a source that was not used before. -/
def Parse.run {σ α : Type} (parse : Parse σ α) (source : σ) :
    Except Fault (Except (Located SyntaxError) α × Reader σ) :=
  StateT.run (ExceptT.run parse) { source }

/-- Parses a text as a program, and tells the records that this makes. -/
def parseText (text : String) :
    Except Fault (Except (Located SyntaxError) Program × Array Log.Record) := do
  let (result, reader) ← (Parse.program : Parse Lexer Program).run (Lexer.ofText text)
  return (result, reader.log)

/-- The outcome of a translation. -/
inductive Translation where
  /-- The whole code was written. -/
  | done (code : Bytes)
  /-- The text is no program. -/
  | refused (error : Located SyntaxError)
  /-- The sink was full after some of the code. -/
  | cut (code : Bytes)
  deriving DecidableEq, Repr

namespace Translation

/-- The text of a failure. -/
def message? : Translation → Option String
  | .done _ => none
  | .refused _ => some "Syntax error"
  | .cut _ => some "Failed to emit assembly"

/-- The text of the error behind a failure: that of the refusal, with its place, or the sink's
own. -/
def cause? : Translation → Option String
  | .done _ => none
  | .refused error => some (error.map SyntaxError.message).text
  | .cut _ => some Assembly.Room.fullMessage

/-- What the sink took. -/
def written : Translation → Bytes
  | .done code => code
  | .refused _ => []
  | .cut code => code

end Translation

/-- Translates a text to assembly in a sink, and tells the records that this makes. -/
def translate (text : String) (room : Assembly.Room) :
    Except Fault (Translation × Array Log.Record) := do
  match ← parseText text with
  | (.error error, log) => return (.refused error, log)
  | (.ok program, log) =>
    let emission ← Assembly.emitProgram program room
    let outcome := if emission.complete then .done emission.bytes else .cut emission.bytes
    return (outcome, log ++ (Assembly.Piece.program program).log)

end MiniC
