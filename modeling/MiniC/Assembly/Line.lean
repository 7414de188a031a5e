import MiniC.Assembly.Instr

/-!
# Lines of assembly

A line makes a symbol visible, marks a place by a symbol or a label, or holds an instruction. Labels
are numbered within a function and spelled with its name.
-/

namespace MiniC.Assembly

/-- The linker symbol of a function: object files keep the name as it is. -/
def symbol (name : String) : String := name

/-- A line of assembly with labels of type `L`. -/
inductive Line (L : Type) where
  /-- Makes a symbol visible to the linker. -/
  | global (name : String)
  /-- Marks the place of a symbol. -/
  | symbol (name : String)
  /-- Marks the place of a label. -/
  | label (l : L)
  /-- Holds an instruction. -/
  | instr (i : Instr L)
  deriving DecidableEq, Repr

/-- Replaces the labels. -/
def Line.mapLabel {L M : Type} (f : L → M) : Line L → Line M
  | .global name => .global name
  | .symbol name => .symbol name
  | .label l => .label (f l)
  | .instr i => .instr (i.mapLabel f)

/-- The text of a line without its end. -/
def Line.text : Line String → String
  | .global name => ".global " ++ name
  | .symbol name => name ++ ":"
  | .label l => l ++ ":"
  | .instr i => i.text

/-- The spelling of a label: the scope it is local to and its number. -/
def spellLabel (scope : String) (number : Nat) : String :=
  ".L" ++ scope ++ "." ++ toString number

end MiniC.Assembly
