/-!
# Decimal numbers

A number is written with decimal digits, the most significant one first, and a sign before them if
it is negative. Reading the digits gives the number back, so that no two numbers are written alike.
-/

namespace MiniC

/-- A natural number is written with digits. -/
theorem isDigit_of_mem_toString {n : Nat} {c : Char} (h : c ∈ (toString n).toList) :
    c.isDigit = true :=
  Nat.isDigit_of_mem_toDigits (by decide) (by decide) (Nat.toList_repr ▸ h)

/-- A negative number is written with a sign, and any other one with its digits only. -/
theorem toString_int (n : Int) :
    toString n = if 0 ≤ n then toString n.toNat else "-" ++ toString (-n).toNat :=
  Int.repr_eq_if

/-- An integer is written with digits, and a sign if it is negative. -/
theorem eq_minus_or_isDigit_of_mem_toString {n : Int} {c : Char} (h : c ∈ (toString n).toList) :
    c = '-' ∨ c.isDigit = true := by
  rw [toString_int] at h
  split at h
  · exact Or.inr (isDigit_of_mem_toString h)
  · rw [String.toList_append, List.mem_append] at h
    rcases h with h | h
    · exact Or.inl (List.mem_singleton.mp h)
    · exact Or.inr (isDigit_of_mem_toString h)

/-- The number that decimal digits stand for, of which there has to be one. -/
def natural? (digits : List Char) : Option Nat :=
  if digits ≠ [] ∧ digits.all Char.isDigit then some (Nat.ofDigitChars 10 digits 0) else none

/-- The number that decimal digits stand for, with a minus sign before them or none. -/
def decimal? : List Char → Option Int
  | '-' :: digits => (natural? digits).map fun n => -Int.ofNat n
  | digits => (natural? digits).map Int.ofNat

theorem natural?_toString (n : Nat) : natural? (toString n).toList = some n := by
  have hlist : (toString n).toList = Nat.toDigits 10 n := Nat.toList_repr
  have hne : (toString n).toList ≠ [] := by
    rw [hlist]
    exact List.ne_nil_of_length_pos Nat.length_toDigits_pos
  have hdigits : (toString n).toList.all Char.isDigit = true :=
    List.all_eq_true.mpr fun _ hc => isDigit_of_mem_toString hc
  rw [natural?, if_pos ⟨hne, hdigits⟩, hlist, Nat.ofDigitChars_toDigits (by decide) (by decide)]

theorem toString_nat_injective {n m : Nat} (h : toString n = toString m) : n = m := by
  have hread : natural? (toString n).toList = some m := h ▸ natural?_toString m
  exact Option.some.inj ((natural?_toString n).symm.trans hread)

/-- A number is read back from its digits. -/
theorem decimal?_toString (n : Int) : decimal? (toString n).toList = some n := by
  rw [toString_int]
  split
  · next hn =>
    have hsign : ∀ digits, (toString n.toNat).toList ≠ '-' :: digits := by
      intro digits hdigits
      have hminus := isDigit_of_mem_toString (hdigits ▸ List.mem_cons_self)
      exact absurd hminus (by decide)
    rw [decimal?.eq_2 _ hsign, natural?_toString]
    exact congrArg some (Int.toNat_of_nonneg hn)
  · next hn =>
    have hlist : ("-" ++ toString (-n).toNat).toList = '-' :: (toString (-n).toNat).toList := by
      rw [String.toList_append]
      rfl
    rw [hlist, decimal?, natural?_toString, Option.map_some, Int.ofNat_eq_natCast,
      Int.toNat_of_nonneg (by omega), Int.neg_neg]

theorem toString_int_injective {n m : Int} (h : toString n = toString m) : n = m := by
  have hread : decimal? (toString n).toList = some m := h ▸ decimal?_toString m
  exact Option.some.inj ((decimal?_toString n).symm.trans hread)

end MiniC
