import MiniC.Tree.Basic

/-!
# Printed trees

An expression is printed on one line as the kind of its root and, between angle brackets, the
operator and the operands. A program is printed as an outline of its function.
-/

namespace MiniC

/-- An operator's name in printed trees. -/
def UnaryOp.name : UnaryOp → String
  | .negate => "negation"
  | .complement => "bitwiseComplement"
  | .not => "logicalNegation"

/-- An operator's name in printed trees. -/
def BinaryOp.name : BinaryOp → String
  | .add => "add"
  | .sub => "minus"
  | .mul => "multiply"
  | .div => "divide"
  | .equal => "equal"
  | .notEqual => "notEqual"
  | .less => "lessThan"
  | .lessEqual => "lessThanOrEqual"
  | .greater => "greaterThan"
  | .greaterEqual => "greaterThanOrEqual"
  | .and => "and"
  | .or => "or"

/-- The printed form of an expression. -/
def Expr.print : Expr → String
  | .integer value => "Int<" ++ toString value.toInt ++ ">"
  | .unary op operand => "UnaryOp<" ++ op.name ++ "," ++ operand.print ++ ">"
  | .binary op left right =>
    "BinaryOp<" ++ op.name ++ "," ++ left.print ++ "," ++ right.print ++ ">"

/-- The printed form of a statement. -/
def Statement.print : Statement → String
  | .ret value => "RETURN " ++ value.print

/-- The printed form of a function: a heading, its parameters and its body, each further in. -/
def FunctionDef.print (f : FunctionDef) : String :=
  "FUNC INT " ++ f.name ++ ":\n    params: ()\n    body:\n        " ++ f.body.print ++ "\n"

/-- The printed form of a program is that of its function. -/
def Program.print (p : Program) : String := p.function.print

end MiniC
