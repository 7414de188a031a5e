/-!
# Blanks

A blank separates tokens and belongs to none. Blanks are the 25 characters with the Unicode
property White_Space.
-/

namespace MiniC

/-- The code points with the property White_Space, as inclusive ranges in ascending order. -/
def blankRanges : List (Nat × Nat) :=
  [(0x09, 0x0D), (0x20, 0x20), (0x85, 0x85), (0xA0, 0xA0), (0x1680, 0x1680), (0x2000, 0x200A),
    (0x2028, 0x2029), (0x202F, 0x202F), (0x205F, 0x205F), (0x3000, 0x3000)]

/-- Whether a character is blank. -/
def isBlank (c : Char) : Bool := blankRanges.any fun r => r.1 ≤ c.toNat && c.toNat ≤ r.2

/-- The table holds 25 characters. -/
example : (blankRanges.map fun r => r.2 + 1 - r.1).sum = 25 := by decide

end MiniC
