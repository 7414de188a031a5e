import MiniC.Fault

/-!
# Columns

Texts are laid out in columns by runs of blanks. A run has a largest width, past which laying out is
a fault.
-/

namespace MiniC

/-- A run of blanks. -/
def blanks (width : Nat) : String := String.ofList (List.replicate width ' ')

/-- A text filled up with blanks on the right, and left alone if it is wide enough. -/
def fillRight (width : Nat) (text : String) : String := text ++ blanks (width - text.length)

/-- The widest run of blanks that is laid out on request. -/
def indentMax : Nat := 65535

/-- A run of blanks of the requested width, if it is not too wide. -/
def indent (width : Nat) : Except Fault String :=
  if width ≤ indentMax then .ok (blanks width) else .error .paddingTooWide

end MiniC
