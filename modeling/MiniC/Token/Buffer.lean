import MiniC.Token.Source

/-!
# Token buffers

A token buffer is a token source over a list. Its end lies one column after its last token, and it
stands there whenever it has no current token.
-/

namespace MiniC

/-- A list of tokens to be handed out. -/
structure TokenBuffer where
  /-- The tokens to come. -/
  rest : List (Located Token)
  /-- The token handed out last. -/
  current : Option (Located Token) := none
  /-- The place of the end. -/
  stop : Position
  deriving DecidableEq, Repr

namespace TokenBuffer

/-- A buffer of tokens that have their places. -/
def ofLocated (tokens : List (Located Token)) : Except Fault TokenBuffer := do
  let stop ← match tokens.getLast? with
    | some last => last.position.advance
    | none => pure .start
  return { rest := tokens, stop }

/-- Places tokens side by side, one column for each. -/
def place (position : Position) : List Token → Except Fault (List (Located Token))
  | [] => .ok []
  | t :: ts => do return ⟨t, position⟩ :: (← place (← position.advance) ts)

/-- A buffer of tokens on the first line, one column for each. -/
def ofTokens (tokens : List Token) : Except Fault TokenBuffer := do
  ofLocated (← place .start tokens)

/-- Hands out the first token to come. -/
def next (b : TokenBuffer) : TokenBuffer :=
  { b with rest := b.rest.tail, current := b.rest.head? }

instance : TokenSource TokenBuffer where
  next b := .ok b.next
  peek b := .ok (b.rest.head?, b)
  current := current
  position b := (b.current.map Located.position).getD b.stop
  notice? _ := none
  pending b := b.rest.length

end TokenBuffer

end MiniC
