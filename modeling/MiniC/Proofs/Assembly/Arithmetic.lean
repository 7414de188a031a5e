import MiniC.Proofs.Assembly.Machine
import MiniC.Proofs.Tree.Evaluation

/-!
# Arithmetic of the machine

The flags after a comparison decide every relation of the two numbers, also where their difference
overflows. A number whose sign was extended into the upper half of a dividend is divided as it is,
and the machine stops exactly where the quotient is no `int`.
-/

namespace MiniC.Assembly

/-- The sign of a difference is wrong exactly if the difference overflows. -/
theorem sub_msb_bne_ssubOverflow (x y : BitVec 32) :
    ((x - y).msb != x.ssubOverflow y) = decide (x.toInt < y.toInt) := by
  have hx := x.toInt_lt
  have hx' := x.le_toInt
  have hy := y.toInt_lt
  have hy' := y.le_toInt
  have hd := (x - y).toInt_lt
  have hd' := (x - y).le_toInt
  have hwrap : (x - y).toInt = x.toInt - y.toInt ∨
      (x - y).toInt = x.toInt - y.toInt - 4294967296 ∨
      (x - y).toInt = x.toInt - y.toInt + 4294967296 := by
    rw [BitVec.toInt_sub, Int.bmod_def]
    omega
  rw [BitVec.msb_eq_toInt, BitVec.ssubOverflow, Bool.eq_iff_iff, bne_iff_ne, Ne, Bool.eq_iff_iff]
  simp only [Bool.or_eq_true, decide_eq_true_eq]
  omega

/-- The flags of a difference tell which number is less. -/
theorem Flags.less?_ofSub (x y : Int32) :
    (Flags.ofSub x.toBitVec y.toBitVec).less? = some (decide (x < y)) := by
  have hless := sub_msb_bne_ssubOverflow x.toBitVec y.toBitVec
  rw [Int32.toInt_toBitVec, Int32.toInt_toBitVec] at hless
  simp only [Int32.lt_iff_toInt_lt, ← hless]
  rfl

/-- The flags of a difference tell whether the numbers are equal. -/
theorem Flags.zero_ofSub (x y : Int32) :
    (Flags.ofSub x.toBitVec y.toBitVec).zero = some (x == y) := by
  have hzero : x.toBitVec - y.toBitVec = 0 ↔ x = y := by
    rw [← Int32.toBitVec_inj, BitVec.sub_eq_iff_eq_add, BitVec.ofNat_eq_ofNat, BitVec.zero_add]
  simp only [ofSub, ofResult, Option.some.injEq]
  rw [Bool.eq_iff_iff, beq_iff_eq, beq_iff_eq]
  exact hzero

/-- The relation of two numbers that a condition stands for. -/
def Cond.relates : Cond → Int32 → Int32 → Bool
  | .equal, x, y => x == y
  | .notEqual, x, y => x != y
  | .less, x, y => x < y
  | .lessEqual, x, y => x ≤ y
  | .greater, x, y => x > y
  | .greaterEqual, x, y => x ≥ y

/-- A condition holds after a comparison exactly if the numbers are so related. -/
theorem Cond.holds?_ofSub (cond : Cond) (x y : Int32) :
    cond.holds? (.ofSub x.toBitVec y.toBitVec) = some (cond.relates x y) := by
  have hle : (x == y || decide (x < y)) = decide (x ≤ y) := by
    rw [Bool.eq_iff_iff]
    simp only [Bool.or_eq_true, beq_iff_eq, decide_eq_true_eq, ← Int32.toInt_inj,
      Int32.lt_iff_toInt_lt, Int32.le_iff_toInt_le]
    omega
  cases cond with
  | equal => exact Flags.zero_ofSub x y
  | notEqual =>
    simp only [holds?, Flags.zero_ofSub, Option.map_some]
    rfl
  | less => exact Flags.less?_ofSub x y
  | lessEqual =>
    simp only [holds?, Flags.zero_ofSub, Flags.less?_ofSub, ← hle, relates]
    rfl
  | greater =>
    have hgt : decide (x > y) = !decide (x ≤ y) := by
      simp only [gt_iff_lt, ← decide_not, Int32.not_le]
    simp only [holds?, Flags.zero_ofSub, Flags.less?_ofSub, relates, hgt, ← hle]
    rfl
  | greaterEqual =>
    have hge : decide (x ≥ y) = !decide (x < y) := by
      simp only [ge_iff_le, ← decide_not, Int32.not_lt]
    simp only [holds?, Flags.less?_ofSub, Option.map_some, relates, hge]

/-- A sign extended into the upper half of a number keeps its value. -/
theorem toInt_sign_append (x : BitVec 32) :
    ((if x.msb then .allOnes 32 else 0 : BitVec 32) ++ x).toInt = x.toInt := by
  rw [BitVec.toInt_append, BitVec.toInt_eq_msb_cond x]
  cases x.msb with
  | false => simp
  | true =>
    simp only [BitVec.toInt_allOnes, if_true]
    simp
    omega

/-- A quotient is too large for an `int` only if the least `int` is divided by minus one. -/
theorem tdiv_bounds_iff {l r : Int} (hl : -2147483648 ≤ l) (hl' : l ≤ 2147483647) :
    (l.tdiv r < -2147483648 ∨ 2147483647 < l.tdiv r) ↔ l = -2147483648 ∧ r = -1 := by
  constructor
  · intro hout
    have hsize : (l.tdiv r).natAbs = l.natAbs / r.natAbs := Int.natAbs_tdiv l r
    have hunit : r.natAbs = 1 := by
      rcases (show r.natAbs = 0 ∨ r.natAbs = 1 ∨ 2 ≤ r.natAbs by omega) with h | h | h
      · simp only [h, Nat.div_zero] at hsize
        omega
      · exact h
      · have hhalf : l.natAbs / r.natAbs ≤ l.natAbs / 2 := Nat.div_le_div_left h (by omega)
        omega
    rcases (show r = 1 ∨ r = -1 by omega) with rfl | rfl
    · rw [Int.tdiv_one] at hout
      omega
    · rw [Int.tdiv_neg, Int.tdiv_one] at hout
      omega
  · rintro ⟨rfl, rfl⟩
    exact Or.inr (by decide)

/-- The machine refuses a division exactly if the quotient is no `int`. -/
theorem divideError_iff (l r : Int32) :
    (r.toBitVec = 0 ∨ l.toInt.tdiv r.toInt < -2147483648 ∨ 2147483647 < l.toInt.tdiv r.toInt) ↔
      ¬BinaryOp.HasQuotient l r := by
  rw [tdiv_bounds_iff l.le_toInt (by have := l.toInt_lt; omega), BinaryOp.HasQuotient]
  have hzero : r.toBitVec = 0 ↔ r = 0 := Int32.toBitVec_inj (b := 0)
  have hmin : l.toInt = -2147483648 ↔ l = Int32.minValue := Int32.toInt_inj (y := Int32.minValue)
  have hminus : r.toInt = -1 ↔ r = -1 := Int32.toInt_inj (y := -1)
  rw [hzero, hmin, hminus, ne_eq, ← not_or, Classical.not_not]

/-- The quotient of two numbers, cut to 32 bits, is the one of their division. -/
theorem ofInt_tdiv (l r : Int32) :
    BitVec.ofInt 32 (l.toInt.tdiv r.toInt) = (l / r).toBitVec := by
  apply BitVec.eq_of_toInt_eq
  rw [Int32.toInt_toBitVec, Int32.toInt_div, BitVec.toInt_ofInt]

end MiniC.Assembly
