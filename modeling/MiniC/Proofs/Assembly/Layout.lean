import MiniC.Assembly.Generator
import MiniC.Proofs.Tree.Evaluation

/-!
# Layout of the code

Code is a sequence of lines, spelled in the scope it stands in. The code of an expression is made of
the codes of its operands and of a few lines between and after them, and marks each of the labels
that it reserves exactly once.
-/

namespace MiniC

open Assembly

namespace Assembly

/-- The lines that steps write, spelled in the scope where each of them stands. -/
def spelled (scope : String) : List (Step Nat) → List (Line String)
  | [] => []
  | .enter scope :: steps => spelled scope steps
  | .reserve :: steps => spelled scope steps
  | .write line :: steps => line.mapLabel (spellLabel scope) :: spelled scope steps

/-- The scope after some steps. -/
def scopeAfter (scope : String) : List (Step Nat) → String
  | [] => scope
  | .enter scope :: steps => scopeAfter scope steps
  | _ :: steps => scopeAfter scope steps

/-- The number of labels that steps reserve. -/
def reserved : List (Step Nat) → Nat
  | [] => 0
  | .reserve :: steps => 2 + reserved steps
  | _ :: steps => reserved steps

/-- The label that a step marks the place of. -/
def Step.mark? : Step Nat → Option Nat
  | .write (.label l) => some l
  | _ => none

/-- The labels that steps mark the places of. -/
def marked (steps : List (Step Nat)) : List Nat := steps.filterMap Step.mark?

/-- Whether a step marks a label, holds an instruction or reserves labels. -/
def Step.IsLocal (step : Step Nat) : Prop :=
  (∃ n, step = .write (.label n)) ∨ (∃ i, step = .instr i) ∨ step = .reserve

/-- Later steps are spelled in the scope that earlier ones leave. -/
theorem spelled_append (scope : String) (first rest : List (Step Nat)) :
    spelled scope (first ++ rest) =
      spelled scope first ++ spelled (scopeAfter scope first) rest := by
  induction first generalizing scope with
  | nil => rfl
  | cons step steps ih => cases step <;> simp only [List.cons_append, spelled, scopeAfter, ih]

@[simp] theorem scopeAfter_append (scope : String) (first rest : List (Step Nat)) :
    scopeAfter scope (first ++ rest) = scopeAfter (scopeAfter scope first) rest := by
  induction first generalizing scope with
  | nil => rfl
  | cons step steps ih => cases step <;> simp only [List.cons_append, scopeAfter, ih]

/-- Local steps stay in their scope. -/
theorem scopeAfter_of_isLocal {steps : List (Step Nat)} (h : ∀ step ∈ steps, step.IsLocal)
    (scope : String) : scopeAfter scope steps = scope := by
  induction steps with
  | nil => rfl
  | cons step steps ih =>
    have hsteps := ih (List.forall_mem_cons.mp h).2
    obtain ⟨_, rfl⟩ | ⟨_, rfl⟩ | rfl := (List.forall_mem_cons.mp h).1 <;> exact hsteps

@[simp] theorem reserved_append (first rest : List (Step Nat)) :
    reserved (first ++ rest) = reserved first + reserved rest := by
  induction first with
  | nil => simp only [List.nil_append, reserved, Nat.zero_add]
  | cons step steps ih => cases step <;> simp only [List.cons_append, reserved, ih, Nat.add_assoc]

@[simp] theorem marked_append (first rest : List (Step Nat)) :
    marked (first ++ rest) = marked first ++ marked rest := List.filterMap_append

@[simp] theorem marked_instr (i : Instr Nat) (steps : List (Step Nat)) :
    marked (.instr i :: steps) = marked steps := rfl

@[simp] theorem marked_reserve (steps : List (Step Nat)) :
    marked (.reserve :: steps) = marked steps := rfl

@[simp] theorem marked_label (l : Nat) (steps : List (Step Nat)) :
    marked (.write (.label l) :: steps) = l :: marked steps := rfl

end Assembly

/-- Finishing a unary operator only writes instructions. -/
theorem UnaryOp.finish_inert (op : UnaryOp) (scope : String) :
    scopeAfter scope op.finish = scope ∧ reserved op.finish = 0 ∧ marked op.finish = [] := by
  cases op <;> exact ⟨rfl, rfl, rfl⟩

theorem UnaryOp.isLocal_finish (op : UnaryOp) : ∀ step ∈ op.finish, step.IsLocal := by
  cases op <;> simp [UnaryOp.finish, compareZero, setTo, Step.IsLocal]

namespace BinaryOp

/-- Finishing a binary operator only writes instructions. -/
theorem finish_inert (op : BinaryOp) (scope : String) :
    scopeAfter scope op.finish = scope ∧ reserved op.finish = 0 ∧ marked op.finish = [] := by
  cases op <;> exact ⟨rfl, rfl, rfl⟩

theorem isLocal_finish (op : BinaryOp) : ∀ step ∈ op.finish, step.IsLocal := by
  cases op <;> simp [finish, relate, compareZero, setTo, Step.IsLocal]

/-- Whether an operator may skip its right operand. -/
def IsLogical (op : BinaryOp) : Prop := op = .and ∨ op = .or

instance (op : BinaryOp) : Decidable op.IsLogical := inferInstanceAs (Decidable (_ ∨ _))

/-- What belongs to the operands of an operator, in the order of their codes. -/
def inOrder {α : Type} (op : BinaryOp) (left right : α) : α × α :=
  match op with
  | .sub | .div => (right, left)
  | _ => (left, right)

/-- What stands between the operands of `&&` and `||`: the left one is compared with zero, and the
right one is skipped unless the result depends on it. -/
def skip (n : Nat) : BinaryOp → List (Step Nat)
  | .or => [compareZero, .instr (.jumpIf .equal n), .instr (.movl 1 .a), .instr (.jmp (n + 1))]
  | .and => [compareZero, .instr (.jumpIf .notEqual n), .instr (.jmp (n + 1))]
  | _ => []

/-- Skipping an operand only writes instructions. -/
theorem skip_inert (op : BinaryOp) (n : Nat) (scope : String) :
    scopeAfter scope (op.skip n) = scope ∧ reserved (op.skip n) = 0 ∧ marked (op.skip n) = [] := by
  cases op <;> exact ⟨rfl, rfl, rfl⟩

private theorem isLocal_skip (op : BinaryOp) (n : Nat) : ∀ step ∈ op.skip n, step.IsLocal := by
  cases op <;> simp [skip, compareZero, Step.IsLocal]

end BinaryOp

namespace Expr

theorem code_eq_append (e : Expr) (n : Nat) (rest : List (Step Nat)) :
    e.code n rest = e.code n [] ++ rest := code_append e n [] rest

theorem code_unary (op : UnaryOp) (operand : Expr) (n : Nat) :
    (Expr.unary op operand).code n [] = operand.code n [] ++ op.finish := by
  rw [code, List.append_nil, code_eq_append]

/-- Two operands are computed one after the other, the first being kept on the stack. -/
theorem code_of_not_isLogical {op : BinaryOp} (h : ¬op.IsLogical) (left right : Expr) (n : Nat) :
    (Expr.binary op left right).code n [] =
      (op.inOrder left right).1.code n [] ++ .instr (.pushq .a) ::
        ((op.inOrder left right).2.code (n + (op.inOrder left right).1.labelCount) [] ++
          .instr (.popq .c) :: op.finish) := by
  have hcode : (Expr.binary op left right).code n [] =
      (op.inOrder left right).1.code n (.instr (.pushq .a) ::
        (op.inOrder left right).2.code (n + (op.inOrder left right).1.labelCount)
          (.instr (.popq .c) :: op.finish)) := by
    cases op <;> first | rfl | exact absurd (by decide) h
  rw [hcode, code_eq_append (op.inOrder left right).1, code_eq_append (op.inOrder left right).2]

/-- The right operand of `&&` and `||` stands between two labels. -/
theorem code_of_isLogical {op : BinaryOp} (h : op.IsLogical) (left right : Expr) (n : Nat) :
    (Expr.binary op left right).code n [] =
      .reserve :: (left.code (n + 2) [] ++ (op.skip n ++ .write (.label n) ::
        (right.code (n + 2 + left.labelCount) [] ++
          (op.finish ++ [.write (.label (n + 1))])))) := by
  have hcode : (Expr.binary op left right).code n [] =
      .reserve :: left.code (n + 2) (op.skip n ++ .write (.label n) ::
        right.code (n + 2 + left.labelCount) (op.finish ++ [.write (.label (n + 1))])) := by
    rcases h with rfl | rfl <;> rfl
  rw [hcode, code_eq_append left, code_eq_append right]

theorem labelCount_of_not_isLogical {op : BinaryOp} (h : ¬op.IsLogical) (left right : Expr) :
    (Expr.binary op left right).labelCount =
      (op.inOrder left right).1.labelCount + (op.inOrder left right).2.labelCount := by
  cases op <;> first | rfl | exact absurd (by decide) h | exact Nat.add_comm ..

theorem labelCount_of_isLogical {op : BinaryOp} (h : op.IsLogical) (left right : Expr) :
    (Expr.binary op left right).labelCount = 2 + left.labelCount + right.labelCount := by
  rcases h with rfl | rfl <;> rfl

/-- Induction along the code: an operator that skips nothing is reached with its operands in the
order of their codes. -/
@[elab_as_elim] theorem code_induction {P : Expr → Prop}
    (integer : ∀ value, P (.integer value))
    (unary : ∀ op operand, P operand → P (.unary op operand))
    (strict : ∀ op left right, ¬op.IsLogical → P (op.inOrder left right).1 →
      P (op.inOrder left right).2 → P (.binary op left right))
    (logical : ∀ op left right, op.IsLogical → P left → P right → P (.binary op left right))
    (e : Expr) : P e := by
  induction e with
  | integer value => exact integer value
  | unary op operand ih => exact unary op operand ih
  | binary op left right ihl ihr =>
    by_cases h : op.IsLogical
    · exact logical op left right h ihl ihr
    · cases op <;> first | exact strict _ left right h ihl ihr | exact strict _ left right h ihr ihl

/-- The code of an expression consists of local steps. -/
theorem isLocal_code (e : Expr) (n : Nat) : ∀ step ∈ e.code n [], step.IsLocal := by
  have hinstr : ∀ i, Step.IsLocal (.instr i) := fun i => Or.inr (Or.inl ⟨i, rfl⟩)
  have hlabel : ∀ n, Step.IsLocal (.write (.label n)) := fun n => Or.inl ⟨n, rfl⟩
  induction e using code_induction generalizing n with
  | integer value => exact List.forall_mem_singleton.mpr (hinstr _)
  | unary op operand ih =>
    rw [code_unary, List.forall_mem_append]
    exact ⟨ih n, op.isLocal_finish⟩
  | strict op left right h ihf ihs =>
    rw [code_of_not_isLogical h]
    simp only [List.forall_mem_append, List.forall_mem_cons]
    exact ⟨ihf n, hinstr _, ihs _, hinstr _, op.isLocal_finish⟩
  | logical op left right h ihl ihr =>
    rw [code_of_isLogical h]
    simp only [List.forall_mem_append, List.forall_mem_cons]
    exact ⟨Or.inr (Or.inr rfl), ihl _, op.isLocal_skip n, hlabel _, ihr _, op.isLocal_finish,
      hlabel _, List.forall_mem_nil _⟩

@[simp] theorem scopeAfter_code (e : Expr) (n : Nat) (scope : String) :
    scopeAfter scope (e.code n []) = scope := scopeAfter_of_isLocal (e.isLocal_code n) scope

@[simp] theorem reserved_code (e : Expr) (n : Nat) : reserved (e.code n []) = e.labelCount := by
  induction e using code_induction generalizing n with
  | integer value => rfl
  | unary op operand ih =>
    rw [code_unary, reserved_append, ih, (op.finish_inert "").2.1, labelCount, Nat.add_zero]
  | strict op left right h ihf ihs =>
    rw [code_of_not_isLogical h, labelCount_of_not_isLogical h]
    simp [reserved, ihf, ihs, (op.finish_inert "").2.1]
  | logical op left right h ihl ihr =>
    rw [code_of_isLogical h, labelCount_of_isLogical h]
    simp [reserved, ihl, ihr, (op.finish_inert "").2.1, (op.skip_inert n "").2.1]
    omega

/-- The code of an expression marks each label that it reserves once, and no other. -/
theorem marked_code_perm (e : Expr) (n : Nat) :
    (marked (e.code n [])).Perm (List.range' n e.labelCount) := by
  induction e using code_induction generalizing n with
  | integer value => exact List.Perm.refl _
  | unary op operand ih =>
    rw [code_unary, marked_append, (op.finish_inert "").2.2, List.append_nil]
    exact ih n
  | strict op left right h ihf ihs =>
    rw [code_of_not_isLogical h, labelCount_of_not_isLogical h, ← List.range'_append_1,
      marked_append, marked_instr, marked_append, marked_instr, (op.finish_inert "").2.2,
      List.append_nil]
    exact (ihf n).append (ihs _)
  | logical op left right h ihl ihr =>
    have hmarked : marked ((Expr.binary op left right).code n []) =
        marked (left.code (n + 2) []) ++
          n :: (marked (right.code (n + 2 + left.labelCount) []) ++ [n + 1]) := by
      rw [code_of_isLogical h, marked_reserve, marked_append, marked_append, marked_label,
        marked_append, marked_append, (op.skip_inert n "").2.2, (op.finish_inert "").2.2]
      rfl
    have hrange : List.range' n (2 + left.labelCount + right.labelCount) =
        n :: (n + 1) :: (List.range' (n + 2) left.labelCount ++
          List.range' (n + 2 + left.labelCount) right.labelCount) := by
      rw [List.range'_append_1, Nat.add_assoc, Nat.add_comm 2]
      rfl
    rw [hmarked, labelCount_of_isLogical h, hrange]
    have hlast := List.perm_append_singleton (n + 1)
      (marked (left.code (n + 2) []) ++ marked (right.code (n + 2 + left.labelCount) []))
    rw [List.append_assoc] at hlast
    exact List.perm_middle.trans ((hlast.trans (((ihl _).append (ihr _)).cons _)).cons _)

/-- An expression reserves two labels for each operator `&&` or `||`. -/
theorem labelCount_eq_branchCount (e : Expr) : e.labelCount = 2 * e.branchCount := by
  induction e with
  | integer value => rfl
  | unary op operand ih => exact ih
  | binary op left right ihl ihr =>
    by_cases h : op.IsLogical
    · have hone : (if op = .and ∨ op = .or then 1 else 0) = 1 := if_pos h
      rw [labelCount_of_isLogical h, branchCount, hone]
      omega
    · have hnone : (if op = .and ∨ op = .or then 1 else 0) = 0 := if_neg h
      rw [branchCount, hnone]
      cases op <;> simp only [labelCount] <;> first | omega | exact absurd (by decide) h

/-- The lines of an expression whose labels are numbered from `n` on in a scope. -/
def lines (scope : String) (n : Nat) (e : Expr) : List (Line String) := spelled scope (e.code n [])

theorem lines_unary (scope : String) (n : Nat) (op : UnaryOp) (operand : Expr) :
    (Expr.unary op operand).lines scope n = operand.lines scope n ++ spelled scope op.finish := by
  rw [lines, code_unary, spelled_append, scopeAfter_code, lines]

theorem lines_of_not_isLogical {op : BinaryOp} (h : ¬op.IsLogical) (scope : String) (n : Nat)
    (left right : Expr) :
    (Expr.binary op left right).lines scope n =
      (op.inOrder left right).1.lines scope n ++ .instr (.pushq .a) ::
        ((op.inOrder left right).2.lines scope (n + (op.inOrder left right).1.labelCount) ++
          .instr (.popq .c) :: spelled scope op.finish) := by
  rw [lines, code_of_not_isLogical h, spelled_append, scopeAfter_code, spelled, spelled_append,
    scopeAfter_code, spelled, lines, lines]
  rfl

theorem lines_of_isLogical {op : BinaryOp} (h : op.IsLogical) (scope : String) (n : Nat)
    (left right : Expr) :
    (Expr.binary op left right).lines scope n =
      left.lines scope (n + 2) ++ (spelled scope (op.skip n) ++ .label (spellLabel scope n) ::
        (right.lines scope (n + 2 + left.labelCount) ++
          (spelled scope op.finish ++ [.label (spellLabel scope (n + 1))]))) := by
  rw [lines, code_of_isLogical h, spelled, spelled_append, scopeAfter_code, spelled_append,
    (op.skip_inert n scope).1, spelled, spelled_append, scopeAfter_code, spelled_append,
    (op.finish_inert scope).1, lines, lines]
  rfl

theorem length_lines_of_isLogical {op : BinaryOp} (h : op.IsLogical) (scope : String) (n : Nat)
    (left right : Expr) :
    ((Expr.binary op left right).lines scope n).length =
      (left.lines scope (n + 2)).length + (spelled scope (op.skip n)).length + 1 +
        (right.lines scope (n + 2 + left.labelCount)).length +
        (spelled scope op.finish).length + 1 := by
  rw [lines_of_isLogical h]
  simp only [List.length_append, List.length_cons, List.length_nil]
  omega

end Expr

end MiniC
