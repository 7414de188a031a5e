import MiniC.Proofs.Parse.Resumption

/-!
# Numbers as literals

The digits of base 16 are `0` to `9` and six letters in either case, and a smaller base has the
first of them. A number can be spelled in base 10, or behind the mark of base 16 or 8 with any
number of zeros before its digits. Parsing a literal as an expression gives the number that its
digits write in its base, however many they are, unless this number is no `int`: then the literal is
refused at its place. So whether a spelling of a number is accepted depends on the number alone.
-/

namespace MiniC

namespace Literal

/-- The spellings of a number: its digits in base 10, or behind the mark of the base and any number
of zeros those in base 16, in either case, or in base 8. -/
inductive Spells (n : Nat) : String → Prop
  | decimal : Spells n (toString n)
  | hexadecimal {x : Char} {digits : List Char} (hx : x = 'x' ∨ x = 'X') (zeros : Nat)
    (h : digits.map Char.toLower = Nat.toDigits 16 n) :
    Spells n (String.ofList ('0' :: x :: (List.replicate zeros '0' ++ digits)))
  | octal (zeros : Nat) :
    Spells n (String.ofList ('0' :: (List.replicate zeros '0' ++ Nat.toDigits 8 n)))

/-- The case of a digit does not matter. -/
theorem digit?_toLower (c : Char) : digit? 16 c.toLower = digit? 16 c := by
  by_cases hc : 'A' ≤ c ∧ c ≤ 'Z'
  · have hall : "ABCDEFGHIJKLMNOPQRSTUVWXYZ".toList.all fun c =>
        digit? 16 c.toLower = digit? 16 c := by decide
    simp only [List.all_eq_true, decide_eq_true_iff] at hall
    exact hall c ((between_iff_mem (by decide)).mp hc)
  · have hlower : c.toLower = c := dif_neg hc
    rw [hlower]

theorem HasValue.unique {c : Char} {v w : Nat} (hv : HasValue c v) (hw : HasValue c w) : v = w := by
  rw [← digit?_sixteen_eq_some_iff] at hv hw
  exact Option.some.inj (hv.symm.trans hw)

theorem StandFor.unique {base m n : Nat} {digits : List Char} (hm : StandFor base digits m)
    (hn : StandFor base digits n) : m = n := by
  obtain ⟨values, hvalues, rfl⟩ := hm
  obtain ⟨values', hvalues', rfl⟩ := hn
  have hunique : Relator.RightUnique fun c v => HasValue c v ∧ v < base :=
    fun _ _ _ hv hw => hv.1.unique hw.1
  rw [hunique.forall₂ hvalues hvalues']

/-- A literal denotes one number at most. -/
theorem Denotes.unique {text : String} {m n : Nat} (hm : Denotes text m) (hn : Denotes text n) :
    m = n := by
  obtain ⟨base, rest, digits, hmarked, hdigits⟩ := hm
  obtain ⟨base', rest', digits', hmarked', hdigits'⟩ := hn
  have hparts := (parts_of_marked hmarked).symm.trans (parts_of_marked hmarked')
  obtain ⟨rfl, rfl⟩ := Prod.mk.inj hparts
  exact (exists_digits_iff.mp ⟨digits, hdigits⟩).2.unique
    (exists_digits_iff.mp ⟨digits', hdigits'⟩).2

/-- Zeros before the digits change nothing. -/
theorem StandFor.replicate_append {base n : Nat} (hbase : 0 < base) {digits : List Char}
    (h : StandFor base digits n) (zeros : Nat) :
    StandFor base (List.replicate zeros '0' ++ digits) n := by
  obtain ⟨values, hvalues, rfl⟩ := h
  have hzero : HasValue '0' 0 ∧ 0 < base := ⟨Or.inl rfl, hbase⟩
  refine ⟨values ++ List.replicate zeros 0, ?_, ?_⟩
  · rw [List.reverse_append, List.reverse_replicate]
    refine List.rel_append hvalues ?_
    induction zeros with
    | zero => exact .nil
    | succ zeros ih => exact .cons hzero ih
  · rw [Nat.ofDigits_append_replicate_zero]

/-- The digits of base 16 stand for a number in either case. -/
theorem standFor_of_map_toLower_eq {n : Nat} {digits : List Char}
    (h : digits.map Char.toLower = Nat.toDigits 16 n) : StandFor 16 digits n := by
  obtain ⟨values, hvalues, hn⟩ := standFor_toDigits (by decide) (by decide : 16 ≤ 16) n
  refine ⟨values, ?_, hn⟩
  rw [← h, ← List.map_reverse, List.forall₂_map_left_iff] at hvalues
  refine hvalues.imp fun c v hv => ⟨?_, hv.2⟩
  rw [← digit?_sixteen_eq_some_iff, ← digit?_toLower]
  exact digit?_sixteen_eq_some_iff.mpr hv.1

/-- A number is denoted by its spellings. -/
theorem Spells.denotes {n : Nat} {text : String} (h : Spells n text) : Denotes text n := by
  cases h with
  | decimal => exact denotes_toString n
  | @hexadecimal x digits hx zeros h =>
    have hmarked : Marked (String.ofList ('0' :: x :: (List.replicate zeros '0' ++ digits))).toList
        16 (List.replicate zeros '0' ++ digits) := by
      rw [String.toList_ofList]
      rcases hx with rfl | rfl
      · exact .hexLower _
      · exact .hexUpper _
    have hne : digits ≠ [] := by
      rintro rfl
      exact toDigits_ne_nil 16 n h.symm
    exact ⟨16, _, _, hmarked, Or.inl rfl, by simp [hne],
      (standFor_of_map_toLower_eq h).replicate_append (by decide) zeros⟩
  | octal zeros =>
    have hstand := (standFor_toDigits (by decide) (by decide : 8 ≤ 16) n).replicate_append
      (by decide) zeros
    have hne : List.replicate zeros '0' ++ Nat.toDigits 8 n ≠ [] :=
      List.append_ne_nil_of_right_ne_nil _ (toDigits_ne_nil 8 n)
    have hdigit : ∀ c ∈ List.replicate zeros '0' ++ Nat.toDigits 8 n, c.isDigit = true := by
      intro c hc
      rcases List.mem_append.mp hc with hc | hc
      · rw [List.eq_of_mem_replicate hc]
        rfl
      · exact Nat.isDigit_of_mem_toDigits (by decide) (by decide) hc
    obtain ⟨c, cs, hcs⟩ := List.exists_cons_of_ne_nil hne
    have hfirst : ∀ x, x.isDigit = false → c ≠ x := by
      rintro x hx rfl
      have hc := hdigit c (hcs ▸ List.mem_cons_self)
      rw [hx] at hc
      cases hc
    have hmarked : Marked (String.ofList ('0' :: (List.replicate zeros '0' ++
        Nat.toDigits 8 n))).toList 8 (List.replicate zeros '0' ++ Nat.toDigits 8 n) := by
      rw [String.toList_ofList, hcs]
      exact .octal (hfirst 'x' (by decide)) (hfirst 'X' (by decide))
    exact ⟨8, _, _, hmarked, Or.inl rfl, hne, hstand⟩

/-- A spelling of a number has it as value, if it is an `int`, and else none. -/
theorem Spells.value?_eq {n : Nat} {text : String} (h : Spells n text) :
    value? text = if n ≤ 2147483647 then some (Int32.ofNat n) else none := by
  split
  · next hn => exact value?_eq_some_iff.mpr ⟨n, h.denotes, hn, rfl⟩
  · next hn =>
    refine Option.eq_none_iff_forall_ne_some.mpr fun v hv => hn ?_
    obtain ⟨m, hm, hle, -⟩ := value?_eq_some_iff.mp hv
    rwa [h.denotes.unique hm]

end Literal

namespace Phase

variable {stop : Position} {ts rest : List (Located Token)} {all : List Tier}

/-- A factor that no operator follows is all of an expression. -/
theorem Course.tiers_of_factor {e : Expr} (h : factor.Course stop ts (.ok e) rest)
    (hrest : Ends all rest) : (tiers all).Course stop ts (.ok e) rest := by
  induction all with
  | nil => exact .single h
  | cons tier tighter ih =>
    exact .joined (ih hrest.tail) (.chainEnd (hrest tier List.mem_cons_self))

/-- An expression whose first factor is refused is refused. -/
theorem Course.tiers_of_factor_error {error : Located SyntaxError}
    (h : factor.Course stop ts (.error error) rest) :
    (tiers all).Course stop ts (.error error) rest := by
  induction all with
  | nil => exact .single h
  | cons tier tighter ih => exact .joinedError ih

end Phase

/-- What parsing a literal as an expression gives: the number that it denotes, if this is an
`int`, and otherwise an error with the whole text of the literal at its place. -/
structure Literal.Settles (text : String) (place : Position)
    (result : Except (Located SyntaxError) Expr) : Prop where
  ok_iff : ∀ v : Int32, result = .ok (.integer v) ↔
    ∃ n : Nat, Denotes text n ∧ n ≤ 2147483647 ∧ v.toInt = n
  eq_error : (¬∃ n : Nat, Denotes text n ∧ n ≤ 2147483647) →
    result = .error ⟨.literalOverflow text, place⟩
  eq_of_spells : ∀ n, Spells n text →
    (n ≤ 2147483647 → result = .ok (.integer (Int32.ofNat n))) ∧
    (2147483647 < n → result = .error ⟨.literalOverflow text, place⟩)

namespace Literal

/-- A number that is small enough is the value of its `int`. -/
theorem eq_ofNat_iff {n : Nat} (h : n ≤ 2147483647) {v : Int32} :
    v = Int32.ofNat n ↔ v.toInt = n := by
  rw [← Int32.toInt_inj, Int32.toInt_ofNat_of_lt (by omega)]

theorem value?_eq_some_iff_toInt {text : String} {v : Int32} :
    value? text = some v ↔ ∃ n : Nat, Denotes text n ∧ n ≤ 2147483647 ∧ v.toInt = n := by
  rw [value?_eq_some_iff]
  refine exists_congr fun n => ?_
  exact and_congr_right fun _ => and_congr_right fun h => eq_ofNat_iff h

private theorem settles_of_value?_eq_some {text : String} {v : Int32} (h : value? text = some v)
    (place : Position) : Settles text place (.ok (.integer v)) where
  ok_iff w := by
    rw [← value?_eq_some_iff_toInt, h]
    simp
  eq_error hnone := by
    obtain ⟨n, hn, hle, -⟩ := value?_eq_some_iff_toInt.mp h
    exact absurd ⟨n, hn, hle⟩ hnone
  eq_of_spells n hspells := by
    have hvalue := hspells.value?_eq
    rw [h] at hvalue
    constructor
    · intro hle
      rw [if_pos hle] at hvalue
      rw [Option.some.inj hvalue]
    · intro hlt
      rw [if_neg (by omega)] at hvalue
      cases hvalue

private theorem settles_of_value?_eq_none {text : String} (h : value? text = none)
    (place : Position) : Settles text place (.error ⟨.literalOverflow text, place⟩) where
  ok_iff w := by
    rw [← value?_eq_some_iff_toInt, h]
    simp
  eq_error _ := rfl
  eq_of_spells n hspells := by
    have hvalue := hspells.value?_eq
    rw [h] at hvalue
    refine ⟨fun hle => ?_, fun _ => rfl⟩
    rw [if_pos hle] at hvalue
    cases hvalue

end Literal

/-- Parsing a literal that no operator follows takes the literal and settles it. -/
theorem Supply.exists_run_expr_literal {σ : Type} [TokenSource σ] (S : Supply σ) {s : σ}
    {text : String} {place stop : Position} {rest : List (Located Token)}
    (h : S.Holds s (⟨.literal text, place⟩ :: rest) stop) (hrest : Ends Tier.all rest) :
    ∃ result reader, Parse.expr.run s = .ok (result, reader) ∧ S.Holds reader.source rest stop ∧
      Literal.Settles text place result := by
  cases hvalue : Literal.value? text with
  | some v =>
    obtain ⟨reader, hrun, hreader⟩ :=
      S.performs_expr (Phase.Course.tiers_of_factor (.literal hvalue) hrest) { source := s } h
    exact ⟨_, reader, hrun, hreader, Literal.settles_of_value?_eq_some hvalue place⟩
  | none =>
    obtain ⟨reader, hrun, hreader⟩ :=
      S.performs_expr (Phase.Course.tiers_of_factor_error (.overflow hvalue)) { source := s } h
    exact ⟨_, reader, hrun, hreader, Literal.settles_of_value?_eq_none hvalue place⟩

open Grammar in
/-- An expression that is one literal, whatever its text, has the number that its digits write in
its base as value, or is refused at its place if there is no such number or it is no `int`. It makes
no difference whether the literal comes from a buffer or from the text that it was found in. -/
theorem Parse.run_expr_settles_literal {text : String} {place : Position}
    {rest : List (Located Token)}
    (hrest : ∀ p ∈ binaryOperators, front rest ≠ some (.punctuator p)) :
    (∀ b : TokenBuffer, b.rest = ⟨.literal text, place⟩ :: rest →
      ∃ result reader, Parse.expr.run b = .ok (result, reader) ∧ reader.source.rest = rest ∧
        Literal.Settles text place result) ∧
    ∀ source stop, tokenize source = .ok (⟨.literal text, place⟩ :: rest, stop) →
      ∃ result reader, Parse.expr.run (Lexer.ofText source) = .ok (result, reader) ∧
        Literal.Settles text place result := by
  have hends : Ends Tier.all rest := ends_all_iff.mpr hrest
  constructor
  · intro b hb
    obtain ⟨result, reader, hrun, ⟨hreader, -⟩, hsettles⟩ :=
      TokenBuffer.supply.exists_run_expr_literal ⟨hb, rfl⟩ hends
    exact ⟨result, reader, hrun, hreader, hsettles⟩
  · intro source stop htokens
    obtain ⟨result, reader, hrun, -, hsettles⟩ :=
      Lexer.supply.exists_run_expr_literal (s := Lexer.ofText source) htokens hends
    exact ⟨result, reader, hrun, hsettles⟩

/-- The largest `int` behind many zeros, with letters of both cases, and a number that fits no word
of 64 bits. -/
theorem Parse.run_expr_settles_literal_of_many_digits :
    let b : TokenBuffer :=
      { rest := [⟨.literal "0X0000000000000000007fFfFFFf", ⟨3, 7⟩⟩,
          ⟨.punctuator .semicolon, ⟨3, 35⟩⟩]
        stop := ⟨3, 36⟩ }
    let source := "\n 02000000000000000000000"
    (∃ reader, Parse.expr.run b = .ok (.ok (.integer 2147483647), reader)) ∧
    ∃ reader, Parse.expr.run (Lexer.ofText source) =
      .ok (.error ⟨.literalOverflow "02000000000000000000000", ⟨2, 2⟩⟩, reader) := by
  intro b source
  have hdigits : "7fFfFFFf".toList.map Char.toLower = Nat.toDigits 16 2147483647 := by decide
  have hspells : Literal.Spells 2147483647 "0X0000000000000000007fFfFFFf" :=
    .hexadecimal (Or.inr rfl) 18 hdigits
  have hspells' : Literal.Spells 18446744073709551616 "02000000000000000000000" := .octal 0
  have htokens : tokenize source =
      .ok ([⟨.literal "02000000000000000000000", ⟨2, 2⟩⟩], ⟨2, 25⟩) := by
    have hscan : (Cursor.ofText source).scan =
        .ok (some ⟨.literal "02000000000000000000000", ⟨2, 2⟩⟩, ⟨[], ⟨2, 25⟩⟩) := by
      decide +kernel
    refine Cursor.tokens_eq_ok_iff.mpr (Or.inr ⟨_, _, _, hscan, ?_, rfl⟩)
    exact Cursor.tokens_eq_ok_iff.mpr (Or.inl ⟨_, rfl, rfl, rfl⟩)
  obtain ⟨result, reader, hrun, -, hsettles⟩ :=
    (Parse.run_expr_settles_literal (by decide)).1 b rfl
  obtain ⟨result', reader', hrun', hsettles'⟩ :=
    (Parse.run_expr_settles_literal (by decide)).2 source _ htokens
  rw [(hsettles.eq_of_spells _ hspells).1 (by decide)] at hrun
  rw [(hsettles'.eq_of_spells _ hspells').2 (by decide)] at hrun'
  exact ⟨⟨reader, hrun⟩, reader', hrun'⟩

end MiniC
