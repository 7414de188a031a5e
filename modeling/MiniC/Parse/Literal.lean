/-!
# Integer literals

A literal is read in base 16 after `0x` or `0X`, in base 8 after a `0` that is not all of it, and
otherwise in base 10. One plus sign may stand before the first digit. The value is gathered in an
unsigned 64-bit word, and a literal is refused if it leaves that word, holds anything but digits of
its base, or is larger than the largest `int`.
-/

namespace MiniC.Literal

/-- The base of a literal and what is left to be read in it. -/
def parts : List Char → Nat × List Char
  | '0' :: 'x' :: digits => (16, digits)
  | '0' :: 'X' :: digits => (16, digits)
  | '0' :: digit :: digits => (8, digit :: digits)
  | digits => (10, digits)

/-- Drops a plus sign that does not stand alone. -/
def dropSign : List Char → List Char
  | '+' :: digit :: digits => digit :: digits
  | digits => digits

/-- The value of a digit, if it is one in the given base. -/
def digit? (base : Nat) (c : Char) : Option Nat :=
  let value? :=
    if '0' ≤ c ∧ c ≤ '9' then some (c.toNat - '0'.toNat)
    else if 'a' ≤ c ∧ c ≤ 'z' then some (c.toNat - 'a'.toNat + 10)
    else if 'A' ≤ c ∧ c ≤ 'Z' then some (c.toNat - 'A'.toNat + 10)
    else none
  value?.filter (· < base)

/-- The number of values of a 64-bit word. -/
def wordSize : Nat := 18446744073709551616

/-- A word with one more digit, if the result is a word. -/
def append? (base word : Nat) (c : Char) : Option Nat := do
  let digit ← digit? base c
  if word * base + digit < wordSize then some (word * base + digit) else none

/-- The word that digits of a base stand for, of which there has to be one. -/
def word? (base : Nat) (digits : List Char) : Option Nat :=
  if digits.isEmpty then none else digits.foldlM (append? base) 0

/-- The largest `int`. -/
def intMax : Nat := 2147483647

/-- The value of a literal. -/
def value? (text : String) : Option Int32 := do
  let (base, digits) := parts text.toList
  let word ← word? base (dropSign digits)
  if word ≤ intMax then some (Int32.ofNat word) else none

end MiniC.Literal
