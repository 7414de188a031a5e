import MiniC.Log
import MiniC.Source.Position
import MiniC.Token.Basic

/-!
# Token sources

A token source hands out tokens one by one, shows the one to come, and tells the place of the one
handed out last. A reader is a source in use, together with the log records made so far.
-/

namespace MiniC

/-- A supply of tokens with one token of lookahead. -/
class TokenSource (σ : Type) where
  /-- Hands out one token, which becomes the current one; at the end there is none. -/
  next : σ → Except Fault σ
  /-- Shows the token that will be handed out next. -/
  peek : σ → Except Fault (Option (Located Token) × σ)
  /-- The token handed out last. -/
  current : σ → Option (Located Token)
  /-- The place of the current token, or of the end of the input. -/
  position : σ → Position
  /-- The record made when the current token was handed out, for a source that makes records. -/
  notice? : σ → Option Log.Record
  /-- A bound on the number of tokens still to come. -/
  pending : σ → Nat

/-- A token source in use. -/
structure Reader (σ : Type) where
  /-- The source. -/
  source : σ
  /-- The records made so far. -/
  log : Array Log.Record := #[]
  deriving DecidableEq

/-- A computation that uses a reader and may end in a fault. -/
abbrev ReadM (σ : Type) := StateT (Reader σ) (Except Fault)

namespace Reader

variable {σ : Type} [TokenSource σ]

/-- Takes the next token and keeps the record that this makes. -/
def next : ReadM σ (Option (Located Token)) := do
  let r ← get
  let source ← TokenSource.next r.source
  set (Reader.mk source (r.log ++ (TokenSource.notice? source).toArray))
  return TokenSource.current source

/-- Looks at the next token, which makes no record. -/
def peek : ReadM σ (Option (Located Token)) := do
  let r ← get
  let (token, source) ← TokenSource.peek r.source
  set { r with source }
  return token

/-- The current token. -/
def current : ReadM σ (Option (Located Token)) := return TokenSource.current (← get).source

/-- The place of the current token, or of the end of the input. -/
def position : ReadM σ Position := return TokenSource.position (← get).source

/-- Keeps a record. -/
def note (record : Log.Record) : ReadM σ Unit :=
  modify fun r => { r with log := r.log.push record }

/-- A single use of a source. -/
inductive Call where
  | next
  | peek
  | current
  deriving DecidableEq, Repr

/-- What a single use shows: its answer, and the source's state after it. -/
structure Observation where
  /-- The token that the call gave. -/
  answer : Option (Located Token)
  /-- The current token after the call. -/
  current : Option (Located Token)
  /-- The place after the call. -/
  position : Position
  deriving DecidableEq, Repr

/-- Makes one call. -/
def call (c : Call) : ReadM σ Observation := do
  let answer ← match c with
    | .next => next
    | .peek => peek
    | .current => current
  return ⟨answer, ← current, ← position⟩

/-- Makes calls one after the other. -/
def calls (cs : List Call) : ReadM σ (List Observation) := cs.mapM call

end Reader

end MiniC
