import MiniC.Parse.Error
import MiniC.Token.Source
import MiniC.Tree.Basic

/-!
# Parsing expressions

Binary operators stand in tiers, the loosest first, and group to the left within a tier. A factor is
a literal, a factor under a unary operator, or an expression in parentheses. A parser takes tokens
from a reader and looks at one token beyond an expression; it stops at the first error, which lies
at the reader's place, and the reader can be used on from there.
-/

namespace MiniC

/-- A computation that parses: it uses a reader and may refuse the tokens it takes. -/
abbrev Parse (σ : Type) := ExceptT (Located SyntaxError) (ReadM σ)

/-- The operators of equal binding strength. -/
abbrev Tier := List (Punctuator × BinaryOp)

namespace Tier

/-- The tiers, the loosest first. -/
def all : List Tier :=
  [[(.orOr, .or)],
    [(.andAnd, .and)],
    [(.equalEqual, .equal), (.bangEqual, .notEqual)],
    [(.less, .less), (.greater, .greater), (.lessEqual, .lessEqual),
      (.greaterEqual, .greaterEqual)],
    [(.plus, .add), (.minus, .sub)],
    [(.star, .mul), (.slash, .div)]]

/-- The operator of a tier that a token stands for. -/
def operator? (tier : Tier) : Option Token → Option BinaryOp
  | some (.punctuator p) => tier.lookup p
  | _ => none

end Tier

/-- The unary operator that a punctuator stands for at the beginning of a factor. -/
def UnaryOp.ofPunctuator? : Punctuator → Option UnaryOp
  | .minus => some .negate
  | .tilde => some .complement
  | .bang => some .not
  | _ => none

namespace Parse

variable {σ α : Type} [TokenSource σ]

/-- Uses the reader and refuses nothing. -/
def read (use : ReadM σ α) : Parse σ α := ExceptT.lift use

/-- Refuses at the reader's place. -/
def fail (error : SyntaxError) : Parse σ α := do
  throw ⟨error, ← read Reader.position⟩

/-- Refuses the token just taken. -/
def unexpected (expected : Expected) (found : Option Token) : Parse σ α :=
  fail (.unexpected expected found)

/-- Takes the next token. -/
def take : Parse σ (Option Token) := return (← read Reader.next).map Located.val

/-- Looks at the next token. -/
def peek : Parse σ (Option Token) := return (← read Reader.peek).map Located.val

/-- Takes the next token, which has to be `t`. -/
def expect (t : Token) : Parse σ Unit := do
  let found ← take
  if found = some t then pure () else unexpected (.token t) found

/-- The value of a literal just taken. -/
def integer (text : String) : Parse σ Expr :=
  match Literal.value? text with
  | some value => return .integer value
  | none => fail (.literalOverflow text)

/-- Goes on from a left operand while an operator of the tier follows. The budget bounds the tokens
to come, each of which is at most one operator. -/
def chain (operand : Parse σ Expr) (tier : Tier) : Nat → Expr → Parse σ Expr
  | 0, left => return left
  | budget + 1, left => do
    match tier.operator? (← peek) with
    | none => return left
    | some op => do
      let _ ← take
      let right ← operand
      chain operand tier budget (.binary op left right)

/-- Operands joined by the operators of some tiers, the loosest first. -/
def tiered (operand : Parse σ Expr) (budget : Nat) : List Tier → Parse σ Expr
  | [] => operand
  | tier :: tighter => do
    let left ← tiered operand budget tighter
    chain (tiered operand budget tighter) tier budget left

/-- A factor. The budget bounds the tokens to come; without it there is none to take. -/
def factor : Nat → Parse σ Expr
  | 0 => do unexpected .expression (← take)
  | budget + 1 => do
    match ← take with
    | some (.literal text) => integer text
    | some (.punctuator .openParen) => do
      let inner ← tiered (factor budget) budget Tier.all
      expect (.punctuator .closeParen)
      return inner
    | some (.punctuator p) =>
      match UnaryOp.ofPunctuator? p with
      | some op => return .unary op (← factor budget)
      | none => unexpected .expression (some (.punctuator p))
    | found => unexpected .expression found

/-- An expression, up to the first token that cannot belong to it. -/
def expr : Parse σ Expr := do
  let budget := TokenSource.pending (← get : Reader σ).source
  tiered (factor budget) budget Tier.all

end Parse

end MiniC
