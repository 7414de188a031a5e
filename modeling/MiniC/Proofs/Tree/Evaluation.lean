import MiniC.Tree.Basic

/-!
# Values of expressions

Arithmetic wraps around in 32 bits, and truth values are one and zero. Division rounds toward zero
and has no value if the divisor is zero or the quotient is no `int`. The operators `&&` and `||`
look at their right operand only if the left one leaves the result open, so an operand without a
value does not matter where it is not looked at.
-/

namespace MiniC

/-- The `int` that stands for a truth value. -/
def truth (b : Bool) : Int32 := if b then 1 else 0

/-- The value of an operator on one operand. -/
def UnaryOp.value : UnaryOp → Int32 → Int32
  | .negate, v => -v
  | .complement, v => ~~~v
  | .not, v => truth (v == 0)

namespace BinaryOp

/-- Whether the quotient of two numbers exists and is an `int`. -/
def HasQuotient (l r : Int32) : Prop := r ≠ 0 ∧ ¬(l = Int32.minValue ∧ r = -1)

instance (l r : Int32) : Decidable (HasQuotient l r) := inferInstanceAs (Decidable (_ ∧ _))

/-- The value of an operator on two operands, if there is one. -/
def value? : BinaryOp → Int32 → Int32 → Option Int32
  | .add, l, r => some (l + r)
  | .sub, l, r => some (l - r)
  | .mul, l, r => some (l * r)
  | .div, l, r => if HasQuotient l r then some (l / r) else none
  | .equal, l, r => some (truth (l == r))
  | .notEqual, l, r => some (truth (l != r))
  | .less, l, r => some (truth (l < r))
  | .lessEqual, l, r => some (truth (l ≤ r))
  | .greater, l, r => some (truth (l > r))
  | .greaterEqual, l, r => some (truth (l ≥ r))
  | .and, l, r => some (truth (l != 0 && r != 0))
  | .or, l, r => some (truth (l != 0 || r != 0))

/-- The value of an operator that its left operand alone decides. -/
def decided? : BinaryOp → Int32 → Option Int32
  | .and, l => if l = 0 then some 0 else none
  | .or, l => if l = 0 then none else some 1
  | _, _ => none

end BinaryOp

namespace Expr

/-- The value of an expression, if it has one. -/
def eval : Expr → Option Int32
  | .integer value => some value
  | .unary op operand => operand.eval.map op.value
  | .binary op left right => do
    let l ← left.eval
    match op.decided? l with
    | some v => some v
    | none => op.value? l (← right.eval)

/-- The number of operators `&&` and `||` in an expression. -/
def branchCount : Expr → Nat
  | .integer _ => 0
  | .unary _ operand => operand.branchCount
  | .binary op left right =>
    (if op = .and ∨ op = .or then 1 else 0) + left.branchCount + right.branchCount

end Expr

/-- The expression whose value a program returns. -/
def Program.result (p : Program) : Expr :=
  match p.function.body with
  | .ret value => value

end MiniC
