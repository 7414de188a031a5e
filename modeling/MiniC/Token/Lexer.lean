import MiniC.Token.Scan
import MiniC.Token.Source

/-!
# Lexers

A lexer is a token source over a text. It scans one token at a time and keeps a token that was
looked at until it is handed out, so that its place in the text may run ahead of the current token.
-/

namespace MiniC

/-- A text that is scanned on demand. -/
structure Lexer where
  /-- The text not yet scanned. -/
  cursor : Cursor
  /-- What was scanned ahead and not handed out: a token, or the end of the text. -/
  lookahead : Option (Option (Located Token)) := none
  /-- The token handed out last. -/
  current : Option (Located Token) := none
  /-- The place of the current token, or of the end of the text. -/
  position : Position := .start
  deriving DecidableEq, Repr

namespace Lexer

/-- A lexer before the first character of a text. -/
def ofText (text : String) : Lexer := { cursor := .ofText text }

/-- Shows the next token, scanning it if that was not done before. -/
def peek (l : Lexer) : Except Fault (Option (Located Token) × Lexer) :=
  match l.lookahead with
  | some ahead => .ok (ahead, l)
  | none => do
    let (ahead, cursor) ← l.cursor.scan
    return (ahead, { l with cursor, lookahead := some ahead })

/-- Hands out the next token, scanning it if that was not done before. -/
def next (l : Lexer) : Except Fault Lexer := do
  let (token, cursor) ← match l.lookahead with
    | some ahead => pure (ahead, l.cursor)
    | none => l.cursor.scan
  let position := (token.map Located.position).getD cursor.position
  return { cursor, lookahead := none, current := token, position }

/-- The record of a token that was handed out. -/
def notice (t : Located Token) : Log.Record :=
  ⟨.trace, .lexer, t.val.description ++ " at " ++ t.position.text⟩

/-- Every token to come is ahead already or takes up a character of the text. -/
def pending (l : Lexer) : Nat :=
  l.cursor.rest.length + match l.lookahead with
    | some (some _) => 1
    | _ => 0

instance : TokenSource Lexer where
  next := next
  peek := peek
  current := current
  position := position
  notice? l := l.current.map notice
  pending := pending

/-- Takes the next token of an iteration, which ends where there is none. -/
def iterate : ReadM Lexer (Option (Located Token)) := do
  match ← Reader.next with
  | none => return none
  | some _ => Reader.current

/-- A single use of a lexer: a call that any source takes, or a step of an iteration. -/
inductive Use where
  | call (c : Reader.Call)
  | iterate
  deriving DecidableEq, Repr

/-- Makes a single use. -/
def use : Use → ReadM Lexer Reader.Observation
  | .call c => Reader.call c
  | .iterate => do
    let answer ← iterate
    return ⟨answer, ← Reader.current, ← Reader.position⟩

/-- Makes uses one after the other. -/
def uses (us : List Use) : ReadM Lexer (List Reader.Observation) := us.mapM use

end Lexer

end MiniC
