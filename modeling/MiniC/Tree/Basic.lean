/-!
# Syntax trees

A program is one function without parameters, whose body returns the value of an expression over
32-bit integers.
-/

namespace MiniC

/-- An operator on one operand. -/
inductive UnaryOp where
  | negate
  | complement
  | not
  deriving DecidableEq, Repr

/-- An operator on two operands. -/
inductive BinaryOp where
  | add
  | sub
  | mul
  | div
  | equal
  | notEqual
  | less
  | lessEqual
  | greater
  | greaterEqual
  | and
  | or
  deriving DecidableEq, Repr

/-- An expression with an `int` value. -/
inductive Expr where
  | integer (value : Int32)
  | unary (op : UnaryOp) (operand : Expr)
  | binary (op : BinaryOp) (left right : Expr)
  deriving DecidableEq, Repr

/-- A step of a function's body. -/
inductive Statement where
  /-- Ends the function with the value of an expression. -/
  | ret (value : Expr)
  deriving DecidableEq, Repr

/-- A named function without parameters. -/
structure FunctionDef where
  /-- The name. -/
  name : String
  /-- What the function does. -/
  body : Statement
  deriving DecidableEq, Repr

/-- A whole program. -/
structure Program where
  /-- The one function. -/
  function : FunctionDef
  deriving DecidableEq, Repr

end MiniC
