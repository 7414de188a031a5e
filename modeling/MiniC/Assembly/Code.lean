import MiniC.Assembly.Line
import MiniC.Tree.Basic

/-!
# Code of a tree

An expression's code leaves its value in the accumulator and the stack as it was. Of two operands
the first is saved on the stack while the second is computed, and is taken back into the counter.
Subtraction and division need the left operand in the accumulator, so their right operand comes
first. The operators `&&` and `||` skip their right operand by jumps; they reserve two labels before
anything of theirs is written.
-/

namespace MiniC

open Assembly

namespace Assembly

/-- A step of writing code, with labels of type `L`. -/
inductive Step (L : Type) where
  /-- Opens the scope that labels are local to from here on. -/
  | enter (scope : String)
  /-- Takes the next two labels. -/
  | reserve
  /-- Writes a line. -/
  | write (line : Line L)
  deriving DecidableEq, Repr

/-- Writes an instruction. -/
abbrev Step.instr {L : Type} (i : Instr L) : Step L := .write (.instr i)

/-- Compares the accumulator with zero. -/
def compareZero {L : Type} : Step L := .instr (.cmplConst 0 .a)

/-- Leaves one in the accumulator if the condition holds, else zero. Storing the zero keeps the
outcome of the comparison, which clearing the register by arithmetic would not. -/
def setTo {L : Type} (cond : Cond) : List (Step L) := [.instr (.movl 0 .a), .instr (.set cond .a)]

/-- Leaves one in the accumulator if the left operand, in the counter, relates so to the right one,
in the accumulator, else zero. -/
def relate {L : Type} (cond : Cond) : List (Step L) := .instr (.cmpl .a .c) :: setTo cond

end Assembly

/-- What is done with an operand in the accumulator. -/
def UnaryOp.finish {L : Type} : UnaryOp → List (Step L)
  | .negate => [.instr (.negl .a)]
  | .complement => [.instr (.notl .a)]
  | .not => compareZero :: setTo .equal

/-- What is done with two operands in the accumulator and the counter; of `&&` and `||` only the
right one is left then, and its truth value is the result. -/
def BinaryOp.finish {L : Type} : BinaryOp → List (Step L)
  | .add => [.instr (.addl .c .a)]
  | .sub => [.instr (.subl .c .a)]
  | .mul => [.instr (.imull .c .a)]
  | .div => [.instr .cdq, .instr (.idivl .c)]
  | .equal => relate .equal
  | .notEqual => relate .notEqual
  | .less => relate .less
  | .lessEqual => relate .lessEqual
  | .greater => relate .greater
  | .greaterEqual => relate .greaterEqual
  | .and => compareZero :: setTo .notEqual
  | .or => compareZero :: setTo .notEqual

namespace Expr

/-- The number of labels that an expression's code reserves. -/
def labelCount : Expr → Nat
  | .integer _ => 0
  | .unary _ operand => operand.labelCount
  | .binary .and left right => 2 + left.labelCount + right.labelCount
  | .binary .or left right => 2 + left.labelCount + right.labelCount
  | .binary _ left right => left.labelCount + right.labelCount

/-- The code of an expression whose labels are numbered from `n` on, in front of what follows it. -/
def code (n : Nat) : Expr → List (Step Nat) → List (Step Nat)
  | .integer value, rest => .instr (.movl value .a) :: rest
  | .unary op operand, rest => operand.code n (op.finish ++ rest)
  | .binary op left right, rest =>
    match op with
    | .or =>
      .reserve :: left.code (n + 2) (compareZero :: .instr (.jumpIf .equal n) ::
        .instr (.movl 1 .a) :: .instr (.jmp (n + 1)) :: .write (.label n) ::
          right.code (n + 2 + left.labelCount) (op.finish ++ .write (.label (n + 1)) :: rest))
    | .and =>
      .reserve :: left.code (n + 2) (compareZero :: .instr (.jumpIf .notEqual n) ::
        .instr (.jmp (n + 1)) :: .write (.label n) ::
          right.code (n + 2 + left.labelCount) (op.finish ++ .write (.label (n + 1)) :: rest))
    | .sub | .div =>
      right.code n (.instr (.pushq .a) ::
        left.code (n + right.labelCount) (.instr (.popq .c) :: (op.finish ++ rest)))
    | _ =>
      left.code n (.instr (.pushq .a) ::
        right.code (n + left.labelCount) (.instr (.popq .c) :: (op.finish ++ rest)))

/-- An expression's code does not depend on what follows it. -/
theorem code_append (e : Expr) (n : Nat) (first rest : List (Step Nat)) :
    e.code n (first ++ rest) = e.code n first ++ rest := by
  induction e generalizing n first rest with
  | integer value => rfl
  | unary op operand ih => simp only [code, ← List.append_assoc, ih]
  | binary op left right ihl ihr =>
    cases op <;> simp only [code, ← List.append_assoc, ← List.cons_append, ihl, ihr]

end Expr

/-- The code of a statement whose labels are numbered from `n` on. -/
def Statement.code (n : Nat) : Statement → List (Step Nat)
  | .ret value => value.code n [.instr .ret]

/-- The code of a function: its symbol, visible to the linker, and its body in a scope of its
name. -/
def FunctionDef.code (n : Nat) (f : FunctionDef) : List (Step Nat) :=
  .write (.global (symbol f.name)) :: .write (.symbol (symbol f.name)) :: .enter f.name ::
    f.body.code n

/-- The code of a program is that of its function. -/
def Program.code (n : Nat) (p : Program) : List (Step Nat) := p.function.code n

end MiniC
