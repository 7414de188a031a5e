import MiniC.Proofs.Parse.Grammar
import MiniC.Proofs.Tree.Evaluation

/-!
# Writing trees as tokens

An operand of a binary operator is put in parentheses if its own operator binds looser, or, on the
right, not tighter, and so is every binary operand of a unary operator. Any subexpression may be put
in more parentheses than that. However a tree is written, the grammar derives it.
-/

namespace MiniC

open Grammar

/-- How a unary operator is written. -/
def UnaryOp.punctuator : UnaryOp → Punctuator
  | .negate => .minus
  | .complement => .tilde
  | .not => .bang

namespace BinaryOp

/-- How a binary operator is written. -/
def punctuator : BinaryOp → Punctuator
  | .add => .plus
  | .sub => .minus
  | .mul => .star
  | .div => .slash
  | .equal => .equalEqual
  | .notEqual => .bangEqual
  | .less => .less
  | .lessEqual => .lessEqual
  | .greater => .greater
  | .greaterEqual => .greaterEqual
  | .and => .andAnd
  | .or => .orOr

/-- How tightly a binary operator binds its operands. -/
def precedence : BinaryOp → Nat
  | .or => 1
  | .and => 2
  | .equal | .notEqual => 3
  | .less | .lessEqual | .greater | .greaterEqual => 4
  | .add | .sub => 5
  | .mul | .div => 6

end BinaryOp

/-- A way from an expression to an operand of it. -/
inductive Branch where
  | operand
  | left
  | right
  deriving DecidableEq, Repr

/-- Tokens in pairs of parentheses. -/
def parenthesize (u : List Token) : Nat → List Token
  | 0 => u
  | pairs + 1 =>
    .punctuator .openParen :: (parenthesize u pairs ++ [.punctuator .closeParen])

namespace Expr

/-- How tightly an expression holds together. -/
def precedence : Expr → Nat
  | .binary op _ _ => op.precedence
  | _ => 7

/-- The tokens of an expression where it has to hold together so tightly. Around the subexpression
at a path there are so many pairs of parentheses more than needed. -/
def tokens (least : Nat) (extra : List Branch → Nat) (e : Expr) : List Token :=
  let bare := match e with
    | .integer value => [.literal (toString value.toInt)]
    | .unary op operand =>
      .punctuator op.punctuator :: operand.tokens 7 fun path => extra (.operand :: path)
    | .binary op left right =>
      (left.tokens op.precedence fun path => extra (.left :: path)) ++
        .punctuator op.punctuator ::
          right.tokens (op.precedence + 1) fun path => extra (.right :: path)
  parenthesize bare ((if e.precedence < least then 1 else 0) + extra [])

/-- The constants in an expression. -/
def constants : Expr → List Int32
  | .integer value => [value]
  | .unary _ operand => operand.constants
  | .binary _ left right => left.constants ++ right.constants

end Expr

/-- The tokens of a program, with redundant parentheses around subexpressions of its expression. -/
def Program.tokens (extra : List Branch → Nat) (p : Program) : List Token :=
  .keyword .int :: .identifier p.function.name :: .punctuator .openParen ::
    .punctuator .closeParen :: .punctuator .openCurly :: .keyword .ret ::
    (p.result.tokens 1 extra ++ [.punctuator .semicolon, .punctuator .closeCurly])

namespace Grammar

/-- The number of a level, counted from one. -/
def Level.rank : Level → Nat
  | .logicalOr => 1
  | .logicalAnd => 2
  | .equality => 3
  | .relational => 4
  | .additive => 5
  | .term => 6
  | .factor => 7

theorem Level.rank_bounds (level : Level) : 1 ≤ level.rank ∧ level.rank ≤ 7 := by
  cases level <;> decide

/-- What is derived of a level is derived of the levels before it. -/
theorem Derives.of_rank_le {level level' : Level} {u : List Token} {e : Expr}
    (h : Derives level u e) (hrank : level'.rank ≤ level.rank) : Derives level' u e := by
  induction hcount : level.rank - level'.rank generalizing level' with
  | zero =>
    have heq : level' = level := by
      revert hrank hcount
      cases level <;> cases level' <;> decide
    exact heq ▸ h
  | succ count ih =>
    obtain ⟨next, hnext, hnextRank⟩ : ∃ next, level'.next? = some next ∧
        next.rank = level'.rank + 1 := by
      cases level' with
      | factor =>
        have hmax := level.rank_bounds.2
        have hfactor : Level.factor.rank = 7 := rfl
        omega
      | _ => exact ⟨_, rfl, rfl⟩
    exact .operand hnext (ih (by omega) (by omega))

/-- Parentheses may stand around anything, and make a factor of it. -/
theorem Derives.parenthesize {inner level : Level} {u : List Token} {e : Expr}
    (h : Derives inner u e) {pairs : Nat} (hlevel : pairs = 0 → level.rank ≤ inner.rank) :
    Derives level (parenthesize u pairs) e := by
  induction pairs generalizing level with
  | zero => exact h.of_rank_le (hlevel rfl)
  | succ pairs ih =>
    have hexpr : Derives .logicalOr (MiniC.parenthesize u pairs) e :=
      ih fun _ => inner.rank_bounds.1
    exact (Derives.parens hexpr).of_rank_le level.rank_bounds.2

end Grammar

/-- A binary operator belongs to the level of its precedence. -/
theorem BinaryOp.exists_level (op : BinaryOp) :
    ∃ level next : Level, level.next? = some next ∧ level.rank = op.precedence ∧
      next.rank = op.precedence + 1 ∧ (op.punctuator, op) ∈ level.operators := by
  cases op with
  | or => exact ⟨.logicalOr, _, rfl, rfl, rfl, by decide⟩
  | and => exact ⟨.logicalAnd, _, rfl, rfl, rfl, by decide⟩
  | equal => exact ⟨.equality, _, rfl, rfl, rfl, by decide⟩
  | notEqual => exact ⟨.equality, _, rfl, rfl, rfl, by decide⟩
  | less => exact ⟨.relational, _, rfl, rfl, rfl, by decide⟩
  | lessEqual => exact ⟨.relational, _, rfl, rfl, rfl, by decide⟩
  | greater => exact ⟨.relational, _, rfl, rfl, rfl, by decide⟩
  | greaterEqual => exact ⟨.relational, _, rfl, rfl, rfl, by decide⟩
  | add => exact ⟨.additive, _, rfl, rfl, rfl, by decide⟩
  | sub => exact ⟨.additive, _, rfl, rfl, rfl, by decide⟩
  | mul => exact ⟨.term, _, rfl, rfl, rfl, by decide⟩
  | div => exact ⟨.term, _, rfl, rfl, rfl, by decide⟩

/-- A constant that is not negative is derived from its decimal digits. -/
theorem derives_constant {value : Int32} (h : 0 ≤ value.toInt) :
    Derives .factor [.literal (toString value.toInt)] (.integer value) := by
  obtain ⟨n, hn⟩ := Int.eq_ofNat_of_zero_le h
  have hle : n ≤ 2147483647 := by
    have hlt := value.toInt_lt
    omega
  have hvalue : value = Int32.ofNat n := by
    rw [← Int32.ofInt_toInt value, hn]
    rfl
  have hderives := Derives.integer (Literal.denotes_toString n) hle
  rw [← hvalue] at hderives
  rw [hn]
  exact hderives

/-- The needed parentheses make an expression hold together as tightly as it has to. -/
theorem Expr.derives_enclosed {e : Expr} {u : List Token} {inner level : Level} {least : Nat}
    (h : Derives inner u e) (hinner : inner.rank = e.precedence) (hlevel : level.rank ≤ least)
    (extra : Nat) :
    Derives level (parenthesize u ((if e.precedence < least then 1 else 0) + extra)) e := by
  refine h.parenthesize fun hpairs => ?_
  split at hpairs <;> omega

/-- However an expression is written, it is derived of every level that is not tighter than it has
to hold together. -/
theorem Expr.derives_tokens {e : Expr} (h : ∀ v ∈ e.constants, 0 ≤ v.toInt) {level : Level}
    {least : Nat} (hlevel : level.rank ≤ least) (extra : List Branch → Nat) :
    Derives level (e.tokens least extra) e := by
  induction e generalizing level least extra with
  | integer value =>
    have hvalue := derives_constant (h value List.mem_cons_self)
    rw [tokens]
    exact derives_enclosed hvalue rfl hlevel _
  | unary op operand ih =>
    have hop : (op.punctuator, op) ∈ unaryOperators := by
      cases op <;> decide
    have hoperand : Derives .factor (operand.tokens 7 fun path => extra (.operand :: path))
        operand := ih h (Nat.le_refl 7) _
    rw [tokens]
    exact derives_enclosed (.unary hop hoperand) rfl hlevel _
  | binary op left right ihl ihr =>
    obtain ⟨inner, next, hnext, hinner, hnextRank, hop⟩ := op.exists_level
    rw [constants, List.forall_mem_append] at h
    have hleft := ihl h.1 (Nat.le_of_eq hinner) fun path => extra (.left :: path)
    have hright := ihr h.2 (Nat.le_of_eq hnextRank) fun path => extra (.right :: path)
    rw [tokens]
    exact derives_enclosed (.binary hnext hop hleft hright) hinner hlevel _

/-- However a program is written, it is derived. -/
theorem Program.derives_tokens {p : Program} (h : ∀ v ∈ p.result.constants, 0 ≤ v.toInt)
    (extra : List Branch → Nat) : DerivesProgram (p.tokens extra) p := by
  obtain ⟨name, ⟨value⟩⟩ := p
  have hvalue : Derives .logicalOr (value.tokens 1 extra) value :=
    Expr.derives_tokens h (Nat.le_refl 1) extra
  have htokens : Program.tokens extra ⟨⟨name, .ret value⟩⟩ =
      .keyword .int :: .identifier name :: .punctuator .openParen :: .punctuator .closeParen ::
        .punctuator .openCurly ::
          ((.keyword .ret :: (value.tokens 1 extra ++ [.punctuator .semicolon])) ++
            [.punctuator .closeCurly]) := by
    simp [tokens, result]
  rw [DerivesProgram, htokens]
  exact .function (.ret hvalue)

/-- The constants of a derived expression are not negative. -/
theorem Grammar.Derives.constants_nonneg {level : Level} {u : List Token} {e : Expr}
    (h : Derives level u e) : ∀ v ∈ e.constants, 0 ≤ v.toInt := by
  induction h with
  | operand hnext h ih => exact ih
  | binary hnext hop hleft hright ihl ihr => exact List.forall_mem_append.mpr ⟨ihl, ihr⟩
  | parens h ih => exact ih
  | unary hop h ih => exact ih
  | @integer text n h hn =>
    have hvalue : (Int32.ofNat n).toInt = n := Int32.toInt_ofNat_of_lt (by omega)
    exact List.forall_mem_singleton.mpr (hvalue ▸ Int.natCast_nonneg n)

end MiniC
