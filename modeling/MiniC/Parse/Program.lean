import MiniC.Parse.Expr
import MiniC.Tree.Print

/-!
# Parsing programs

A program is one function up to the end of the input; a function is a name between fixed tokens and
a statement in braces; a statement returns an expression. Each of these can be parsed on its own,
and one after the other from the same reader.
-/

namespace MiniC

namespace Parse

variable {σ : Type} [TokenSource σ]

/-- A statement: `return`, an expression and a semicolon. -/
def statement : Parse σ Statement := do
  expect (.keyword .ret)
  let value ← expr
  expect (.punctuator .semicolon)
  return .ret value

/-- Takes the next token, which has to be an identifier. -/
def identifier : Parse σ String := do
  match ← take with
  | some (.identifier name) => return name
  | found => unexpected .identifier found

/-- A function: `int`, its name, empty parentheses and a statement in braces. -/
def function : Parse σ FunctionDef := do
  expect (.keyword .int)
  let name ← identifier
  expect (.punctuator .openParen)
  expect (.punctuator .closeParen)
  expect (.punctuator .openCurly)
  let body ← statement
  expect (.punctuator .closeCurly)
  read (Reader.note ⟨.debug, .parser, "Parsed function `" ++ name ++ "`"⟩)
  return ⟨name, body⟩

/-- A program: a function and the end of the input. -/
def program : Parse σ Program := do
  let function ← function
  match ← take with
  | none => return ⟨function⟩
  | found => unexpected .endOfInput found

/-- What can be parsed on its own. -/
inductive Goal where
  | program
  | function
  | statement
  | expr
  deriving DecidableEq, Repr

/-- What was parsed. -/
inductive Tree where
  | program (p : Program)
  | function (f : FunctionDef)
  | statement (s : Statement)
  | expr (e : Expr)
  deriving DecidableEq, Repr

/-- The printed form of what was parsed. -/
def Tree.print : Tree → String
  | .program p => p.print
  | .function f => f.print
  | .statement s => s.print
  | .expr e => e.print

/-- Parses what is asked for. -/
def tree : Goal → Parse σ Tree
  | .program => return .program (← program)
  | .function => return .function (← function)
  | .statement => return .statement (← statement)
  | .expr => return .expr (← expr)

/-- Parses one thing after the other, going on after an error from where the reader then is. -/
def inTurn (goals : List Goal) : ReadM σ (List (Except (Located SyntaxError) Tree)) :=
  goals.mapM fun goal => ExceptT.run (tree goal)

end Parse

end MiniC
