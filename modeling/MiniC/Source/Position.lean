import MiniC.Fault

/-!
# Positions

A position is the line and column of a character, both counted from one. Reading a line feed leads
to the first column of the next line, and reading any other character to the next column.
-/

namespace MiniC

/-- The place of a character in a text. -/
structure Position where
  /-- The line, counted from one. -/
  line : Nat
  /-- The column, counted from one in characters. -/
  column : Nat
  deriving DecidableEq, Repr

namespace Position

/-- The place of a text's first character. -/
def start : Position := ⟨1, 1⟩

/-- The next column of the same line. -/
def advance (p : Position) : Except Fault Position := do
  return { p with column := ← raiseCounter p.column 1 }

/-- The first column of the next line. -/
def newline (p : Position) : Except Fault Position := do
  return ⟨← raiseCounter p.line 1, 1⟩

/-- The place after the character `c`, read at `p`. -/
def after (p : Position) (c : Char) : Except Fault Position :=
  if c = '\n' then p.newline else p.advance

/-- The place after the characters `text`, read from `p` on. -/
def past (p : Position) (text : List Char) : Except Fault Position := text.foldlM after p

/-- A position is shown as its line and column around a colon. -/
def text (p : Position) : String := toString p.line ++ ":" ++ toString p.column

end Position

/-- A value together with the place it comes from. -/
structure Located (α : Type) where
  /-- The value itself. -/
  val : α
  /-- The place of its first character. -/
  position : Position
  deriving DecidableEq, Repr

/-- A located text shows its place in front. -/
def Located.text (message : Located String) : String :=
  message.position.text ++ ": " ++ message.val

/-- Changing the value keeps the place. -/
def Located.map {α β : Type} (f : α → β) (x : Located α) : Located β := ⟨f x.val, x.position⟩

end MiniC
