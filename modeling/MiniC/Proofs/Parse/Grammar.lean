import MiniC.Proofs.Parse.Literal
import MiniC.Token.Basic
import MiniC.Tree.Basic

/-!
# The grammar

    program    := function
    function   := "int" identifier "(" ")" "{" statement "}"
    statement  := "return" logicalOr ";"
    logicalOr  := logicalAnd ( "||" logicalAnd )*
    logicalAnd := equality ( "&&" equality )*
    equality   := relational ( ("==" | "!=") relational )*
    relational := additive ( ("<" | ">" | "<=" | ">=") additive )*
    additive   := term ( ("+" | "-") term )*
    term       := factor ( ("*" | "/") factor )*
    factor     := "(" logicalOr ")" | ("-" | "~" | "!") factor | integer

A derivation gives tokens a tree. The operators of a level group to the left: everything of the
level before an operator is its left operand, and its right operand is of the next level.
-/

namespace MiniC

namespace Grammar

/-- The levels of expressions. -/
inductive Level where
  | logicalOr
  | logicalAnd
  | equality
  | relational
  | additive
  | term
  | factor
  deriving DecidableEq, Repr

namespace Level

/-- The next level, to which operands belong. -/
def next? : Level → Option Level
  | .logicalOr => some .logicalAnd
  | .logicalAnd => some .equality
  | .equality => some .relational
  | .relational => some .additive
  | .additive => some .term
  | .term => some .factor
  | .factor => none

/-- The operators that join operands. -/
def operators : Level → List (Punctuator × BinaryOp)
  | .logicalOr => [(.orOr, .or)]
  | .logicalAnd => [(.andAnd, .and)]
  | .equality => [(.equalEqual, .equal), (.bangEqual, .notEqual)]
  | .relational =>
    [(.less, .less), (.greater, .greater), (.lessEqual, .lessEqual), (.greaterEqual, .greaterEqual)]
  | .additive => [(.plus, .add), (.minus, .sub)]
  | .term => [(.star, .mul), (.slash, .div)]
  | .factor => []

end Level

/-- The operators of a factor. -/
def unaryOperators : List (Punctuator × UnaryOp) :=
  [(.minus, .negate), (.tilde, .complement), (.bang, .not)]

/-- Tokens that are an expression of a level, and its tree. -/
inductive Derives : Level → List Token → Expr → Prop
  | operand {level next : Level} {u : List Token} {e : Expr} (hnext : level.next? = some next)
    (h : Derives next u e) : Derives level u e
  | binary {level next : Level} {u v : List Token} {p : Punctuator} {op : BinaryOp}
    {left right : Expr} (hnext : level.next? = some next) (hop : (p, op) ∈ level.operators)
    (hleft : Derives level u left) (hright : Derives next v right) :
    Derives level (u ++ .punctuator p :: v) (.binary op left right)
  | parens {u : List Token} {e : Expr} (h : Derives .logicalOr u e) :
    Derives .factor (.punctuator .openParen :: (u ++ [.punctuator .closeParen])) e
  | unary {p : Punctuator} {op : UnaryOp} {u : List Token} {e : Expr}
    (hop : (p, op) ∈ unaryOperators) (h : Derives .factor u e) :
    Derives .factor (.punctuator p :: u) (.unary op e)
  | integer {text : String} {n : Nat} (h : Literal.Denotes text n) (hn : n ≤ 2147483647) :
    Derives .factor [.literal text] (.integer (Int32.ofNat n))

/-- Tokens that are a statement, and its tree. -/
inductive DerivesStatement : List Token → Statement → Prop
  | ret {u : List Token} {e : Expr} (h : Derives .logicalOr u e) :
    DerivesStatement (.keyword .ret :: (u ++ [.punctuator .semicolon])) (.ret e)

/-- Tokens that are a function, and its tree. -/
inductive DerivesFunction : List Token → FunctionDef → Prop
  | function {name : String} {u : List Token} {body : Statement} (h : DerivesStatement u body) :
    DerivesFunction (.keyword .int :: .identifier name :: .punctuator .openParen ::
      .punctuator .closeParen :: .punctuator .openCurly :: (u ++ [.punctuator .closeCurly]))
      ⟨name, body⟩

/-- Tokens that are a program, and its tree. -/
def DerivesProgram (u : List Token) (p : Program) : Prop := DerivesFunction u p.function

end Grammar

end MiniC
