import MiniC.Parse.Literal
import MiniC.Proofs.Token.Word
import Mathlib.Data.List.Forall2
import Mathlib.Data.List.Induction
import Mathlib.Data.Nat.Digits.Defs

/-!
# Values of literals

A literal denotes the number that its digits stand for in its base, however large that is. A literal
has a value as an `int` exactly if it denotes a number that is small enough; that the number is
gathered in a word which it may leave makes no difference.
-/

namespace MiniC.Literal

/-- A text is marked as one of a base, in which the rest of it is to be read. -/
inductive Marked : List Char → Nat → List Char → Prop
  | hexLower (rest : List Char) : Marked ('0' :: 'x' :: rest) 16 rest
  | hexUpper (rest : List Char) : Marked ('0' :: 'X' :: rest) 16 rest
  | octal {c : Char} {rest : List Char} (hlower : c ≠ 'x') (hupper : c ≠ 'X') :
    Marked ('0' :: c :: rest) 8 (c :: rest)
  | zero : Marked ['0'] 10 ['0']
  | decimal {text : List Char} (h : text.head? ≠ some '0') : Marked text 10 text

/-- The value of a digit is its place among the digits. -/
def HasValue (c : Char) (v : Nat) : Prop :=
  "0123456789abcdef".toList[v]? = some c ∨ "0123456789ABCDEF".toList[v]? = some c

instance (c : Char) (v : Nat) : Decidable (HasValue c v) := inferInstanceAs (Decidable (_ ∨ _))

/-- Digits of a base stand for a number, however large. The least significant one is the last. -/
def StandFor (base : Nat) (digits : List Char) (n : Nat) : Prop :=
  ∃ values : List Nat, List.Forall₂ (fun c v => HasValue c v ∧ v < base) digits.reverse values ∧
    n = Nat.ofDigits base values

/-- A literal denotes the number of its digits, of which there is one at least, behind the mark of
its base and a plus sign that may stand there. -/
def Denotes (text : String) (n : Nat) : Prop :=
  ∃ base rest digits, Marked text.toList base rest ∧ (rest = digits ∨ rest = '+' :: digits) ∧
    digits ≠ [] ∧ StandFor base digits n

theorem parts_of_marked {text rest : List Char} {base : Nat} (h : Marked text base rest) :
    parts text = (base, rest) := by
  cases h with
  | hexLower => rfl
  | hexUpper => rfl
  | octal hlower hupper =>
    unfold parts
    split <;> simp_all
  | zero => rfl
  | decimal h =>
    unfold parts
    split <;> simp_all

theorem marked_parts (text : List Char) : Marked text (parts text).1 (parts text).2 := by
  unfold parts
  split
  · exact .hexLower _
  · exact .hexUpper _
  · next hlower hupper => exact .octal hlower hupper
  · next hlower hupper hoctal =>
    rcases text with _ | ⟨c, _ | ⟨d, rest⟩⟩
    · exact .decimal (by simp)
    · by_cases hc : c = '0'
      · exact hc ▸ .zero
      · exact .decimal (by simpa using hc)
    · refine .decimal ?_
      intro hc
      obtain rfl : c = '0' := by simpa using hc
      exact hoctal d rest rfl

theorem digit?_sixteen_eq_some_iff {c : Char} {v : Nat} :
    digit? 16 c = some v ↔ HasValue c v := by
  constructor
  · intro h
    rw [digit?, Option.filter_eq_some_iff, decide_eq_true_iff] at h
    obtain ⟨hvalue, hlt⟩ := h
    have hdecimal : "0123456789".toList.all fun c => HasValue c (c.toNat - '0'.toNat) := by decide
    have hlower : "abcdefghijklmnopqrstuvwxyz".toList.all fun c =>
        c.toNat - 'a'.toNat + 10 < 16 → HasValue c (c.toNat - 'a'.toNat + 10) := by decide
    have hupper : "ABCDEFGHIJKLMNOPQRSTUVWXYZ".toList.all fun c =>
        c.toNat - 'A'.toNat + 10 < 16 → HasValue c (c.toNat - 'A'.toNat + 10) := by decide
    simp only [List.all_eq_true, decide_eq_true_iff] at hdecimal hlower hupper
    split at hvalue
    · next hc =>
      obtain rfl := Option.some.inj hvalue
      exact hdecimal c ((between_iff_mem (by decide)).mp hc)
    split at hvalue
    · next hc =>
      obtain rfl := Option.some.inj hvalue
      exact hlower c ((between_iff_mem (by decide)).mp hc) hlt
    split at hvalue
    · next hc =>
      obtain rfl := Option.some.inj hvalue
      exact hupper c ((between_iff_mem (by decide)).mp hc) hlt
    · cases hvalue
  · have hall : ∀ v : Fin 16, "0123456789abcdef".toList[v.val]?.bind (digit? 16) = some v.val ∧
        "0123456789ABCDEF".toList[v.val]?.bind (digit? 16) = some v.val := by decide
    rintro (h | h)
    · have hv : v < 16 := (List.getElem?_eq_some_iff.mp h).1
      simpa only [h, Option.bind_some] using (hall ⟨v, hv⟩).1
    · have hv : v < 16 := (List.getElem?_eq_some_iff.mp h).1
      simpa only [h, Option.bind_some] using (hall ⟨v, hv⟩).2

/-- The digits of a base are those of base 16 whose value is small enough. -/
theorem digit?_eq_some_iff {base : Nat} (hbase : base ≤ 16) {c : Char} {v : Nat} :
    digit? base c = some v ↔ HasValue c v ∧ v < base := by
  rw [← digit?_sixteen_eq_some_iff]
  simp only [digit?, Option.filter_eq_some_iff, decide_eq_true_iff, and_assoc]
  refine and_congr_right fun _ => ?_
  omega

theorem append?_eq_some_iff {base word r : Nat} {c : Char} :
    append? base word c = some r ↔
      ∃ v, digit? base c = some v ∧ r = word * base + v ∧ r < wordSize := by
  simp only [append?, Option.bind_eq_bind, Option.bind_eq_some_iff, Option.ite_none_right_eq_some,
    Option.some.injEq]
  constructor
  · rintro ⟨v, hv, hlt, rfl⟩
    exact ⟨v, hv, rfl, hlt⟩
  · rintro ⟨v, hv, rfl, hlt⟩
    exact ⟨v, hv, hlt, rfl⟩

theorem standFor_nil {base r : Nat} : StandFor base [] r ↔ r = 0 := by
  simp [StandFor]

/-- A number goes on with one more digit. -/
theorem standFor_concat {base r : Nat} {digits : List Char} {c : Char} :
    StandFor base (digits ++ [c]) r ↔
      ∃ w v, StandFor base digits w ∧ (HasValue c v ∧ v < base) ∧ r = w * base + v := by
  have hnumber : ∀ (v : Nat) (values : List Nat), Nat.ofDigits base (v :: values) =
      Nat.ofDigits base values * base + v := by
    intro v values
    rw [Nat.ofDigits_cons, Nat.mul_comm, Nat.add_comm]
  rw [StandFor, List.reverse_concat]
  constructor
  · rintro ⟨_, hvalues, rfl⟩
    obtain ⟨v, values, hv, hrest, rfl⟩ := List.forall₂_cons_left_iff.mp hvalues
    exact ⟨_, v, ⟨values, hrest, rfl⟩, hv, hnumber v values⟩
  · rintro ⟨_, v, ⟨values, hvalues, rfl⟩, hv, rfl⟩
    exact ⟨v :: values, .cons hv hvalues, (hnumber v values).symm⟩

/-- Gathering digits in a word gives the number that they stand for, if that is a word: what is
gathered on the way is not larger. -/
theorem foldlM_append?_eq_some_iff {base : Nat} (hpos : 0 < base) (hbase : base ≤ 16)
    {digits : List Char} {r : Nat} :
    digits.foldlM (append? base) 0 = some r ↔ StandFor base digits r ∧ r < wordSize := by
  induction digits using List.reverseRecOn generalizing r with
  | nil =>
    rw [standFor_nil, List.foldlM_nil]
    constructor
    · intro h
      obtain rfl : 0 = r := Option.some.inj h
      exact ⟨rfl, by decide⟩
    · rintro ⟨rfl, -⟩
      rfl
  | append_singleton digits c ih =>
    have hsplit : (digits ++ [c]).foldlM (append? base) 0 = some r ↔
        ∃ w, digits.foldlM (append? base) 0 = some w ∧ append? base w c = some r := by
      simp [List.foldlM_append, Option.bind_eq_some_iff]
    rw [hsplit, standFor_concat]
    constructor
    · rintro ⟨w, hw, hr⟩
      obtain ⟨v, hv, rfl, hlt⟩ := append?_eq_some_iff.mp hr
      exact ⟨⟨w, v, (ih.mp hw).1, (digit?_eq_some_iff hbase).mp hv, rfl⟩, hlt⟩
    · rintro ⟨⟨w, v, hw, hv, rfl⟩, hlt⟩
      have hle : w ≤ w * base := Nat.le_mul_of_pos_right w hpos
      exact ⟨w, ih.mpr ⟨hw, by omega⟩,
        append?_eq_some_iff.mpr ⟨v, (digit?_eq_some_iff hbase).mpr hv, rfl, hlt⟩⟩

/-- A sign is no digit. -/
theorem not_standFor_plus {base n : Nat} {digits : List Char} :
    ¬ StandFor base ('+' :: digits) n := by
  rintro ⟨values, hvalues, -⟩
  rw [← values.reverse_reverse, List.forall₂_reverse_iff] at hvalues
  obtain ⟨v, _, ⟨hplus | hplus, -⟩, -⟩ := List.forall₂_cons_left_iff.mp hvalues
  · exact absurd (List.mem_of_getElem? hplus) (by decide)
  · exact absurd (List.mem_of_getElem? hplus) (by decide)

/-- Dropping a sign leaves the digits that may stand behind one. -/
theorem exists_digits_iff {base n : Nat} {rest : List Char} :
    (∃ digits, (rest = digits ∨ rest = '+' :: digits) ∧ digits ≠ [] ∧ StandFor base digits n) ↔
      dropSign rest ≠ [] ∧ StandFor base (dropSign rest) n := by
  constructor
  · rintro ⟨digits, rfl | rfl, hne, hstand⟩
    · have hdrop : dropSign rest = rest := by
        unfold dropSign
        split
        · exact absurd hstand not_standFor_plus
        · rfl
      rw [hdrop]
      exact ⟨hne, hstand⟩
    · cases digits with
      | nil => exact absurd rfl hne
      | cons c digits => exact ⟨hne, hstand⟩
  · unfold dropSign
    split
    · rintro ⟨hne, hstand⟩
      exact ⟨_, Or.inr rfl, hne, hstand⟩
    · rintro ⟨hne, hstand⟩
      exact ⟨_, Or.inl rfl, hne, hstand⟩

theorem Marked.base_pos {text rest : List Char} {base : Nat} (h : Marked text base rest) :
    0 < base := by
  cases h <;> decide

theorem Marked.base_le {text rest : List Char} {base : Nat} (h : Marked text base rest) :
    base ≤ 16 := by
  cases h <;> decide

/-- A literal denotes what its digits gather to in a word, if that is a word. -/
theorem denotes_iff_word?_eq_some {text : String} {n : Nat} (h : n < wordSize) :
    Denotes text n ↔
      word? (parts text.toList).1 (dropSign (parts text.toList).2) = some n := by
  have hmarked := marked_parts text.toList
  have hdenotes : Denotes text n ↔ ∃ digits, ((parts text.toList).2 = digits ∨
      (parts text.toList).2 = '+' :: digits) ∧ digits ≠ [] ∧
      StandFor (parts text.toList).1 digits n := by
    constructor
    · rintro ⟨base, rest, digits, htext, hdigits⟩
      rw [parts_of_marked htext]
      exact ⟨digits, hdigits⟩
    · rintro ⟨digits, hdigits⟩
      exact ⟨_, _, digits, hmarked, hdigits⟩
  rw [hdenotes, exists_digits_iff, word?]
  simp [foldlM_append?_eq_some_iff hmarked.base_pos hmarked.base_le, h]

/-- A literal has a value exactly if it denotes a number that is an `int`, and this is the value. -/
theorem value?_eq_some_iff {text : String} {v : Int32} :
    value? text = some v ↔ ∃ n, Denotes text n ∧ n ≤ 2147483647 ∧ v = Int32.ofNat n := by
  have hvalue : value? text = some v ↔ ∃ n,
      word? (parts text.toList).1 (dropSign (parts text.toList).2) = some n ∧
        n ≤ 2147483647 ∧ v = Int32.ofNat n := by
    simp only [value?, intMax, Option.bind_eq_bind, Option.bind_eq_some_iff]
    refine exists_congr fun n => and_congr_right fun _ => ?_
    by_cases hn : n ≤ 2147483647
    · simp [hn, eq_comm]
    · simp [hn]
  rw [hvalue]
  refine exists_congr fun n => and_congr_left fun h => ?_
  exact (denotes_iff_word?_eq_some (Nat.lt_of_le_of_lt h.1 (by decide))).symm

theorem hasValue_digitChar {d : Nat} (h : d < 16) : HasValue d.digitChar d := by
  have hall : ∀ d : Fin 16, HasValue (Nat.digitChar d) d := by decide
  exact hall ⟨d, h⟩

/-- The digits of a number stand for it. -/
theorem standFor_toDigits {base : Nat} (hone : 1 < base) (hbase : base ≤ 16) (n : Nat) :
    StandFor base (Nat.toDigits base n) n := by
  induction n using Nat.strongRecOn with
  | ind n ih =>
    by_cases hn : n < base
    · rw [Nat.toDigits_of_lt_base hn, ← List.nil_append [n.digitChar], standFor_concat]
      exact ⟨0, n, standFor_nil.mpr rfl, ⟨hasValue_digitChar (by omega), hn⟩, by omega⟩
    · have hless : n / base < n := Nat.div_lt_self (by omega) hone
      have hlast : n % base < base := Nat.mod_lt n (by omega)
      rw [Nat.toDigits_of_base_le hone (by omega), standFor_concat]
      exact ⟨n / base, n % base, ih _ hless, ⟨hasValue_digitChar (by omega), hlast⟩,
        (Nat.div_add_mod' n base).symm⟩

theorem toDigits_ne_nil (base n : Nat) : Nat.toDigits base n ≠ [] :=
  List.ne_nil_of_length_pos Nat.length_toDigits_pos

/-- The decimal digits of a number do not begin with a zero unless that is all. -/
theorem head?_toDigits {n : Nat} (h : 0 < n) : (Nat.toDigits 10 n).head? ≠ some '0' := by
  induction n using Nat.strongRecOn with
  | ind n ih =>
    by_cases hn : n < 10
    · have hall : ∀ d : Fin 10, 0 < d.val → some (Nat.digitChar d) ≠ some '0' := by decide
      rw [Nat.toDigits_of_lt_base hn]
      exact hall ⟨n, hn⟩ h
    · have hfirst := ih (n / 10) (by omega) (by omega)
      obtain ⟨c, cs, hcs⟩ := List.exists_cons_of_ne_nil (toDigits_ne_nil 10 (n / 10))
      rw [hcs] at hfirst
      rw [Nat.toDigits_of_base_le (by decide) (by omega), hcs]
      exact hfirst

/-- A number is denoted by its decimal digits. -/
theorem denotes_toString (n : Nat) : Denotes (toString n) n := by
  have hmarked : Marked (Nat.toDigits 10 n) 10 (Nat.toDigits 10 n) := by
    by_cases hn : n = 0
    · subst hn
      exact .zero
    · exact .decimal (head?_toDigits (by omega))
  rw [← Nat.toList_repr] at hmarked
  exact ⟨10, _, _, hmarked, Or.inl rfl, Nat.toList_repr ▸ toDigits_ne_nil 10 n,
    Nat.toList_repr ▸ standFor_toDigits (by decide) (by decide) n⟩

/-- A hexadecimal, an octal and a decimal literal, and one with a digit that is not of its base. -/
example : value? "0x1F" = some 31 ∧ value? "017" = some 15 ∧ value? "2147483647" = some 2147483647 ∧
    value? "09" = none := by decide

end MiniC.Literal
