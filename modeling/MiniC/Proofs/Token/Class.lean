import MiniC.Proofs.Token.Spacing

/-!
# Classes of words

A word is a keyword, a numeral or a name, and its text alone tells which. Two tokens have to be
kept apart if both are words, or if the second begins with a character that makes a longer
punctuator of the first.
-/

namespace MiniC

/-- Whether a text is written like a number: decimal digits only, or `0x` or `0X` and hexadecimal
digits only, of which there may be none. -/
def IsNumeral (text : String) : Prop :=
  (∀ c ∈ text.toList, c ∈ "0123456789".toList) ∨
    ∃ digits, (text.toList = '0' :: 'x' :: digits ∨ text.toList = '0' :: 'X' :: digits) ∧
      ∀ c ∈ digits, c ∈ "0123456789abcdefABCDEF".toList

theorem isDecimalDigit_iff {c : Char} :
    isDecimalDigit c = true ↔ c ∈ "0123456789".toList := by
  rw [isDecimalDigit, Bool.and_eq_true, decide_eq_true_iff, decide_eq_true_iff]
  exact between_iff_mem (by decide)

theorem isHexDigit_iff {c : Char} :
    isHexDigit c = true ↔ c ∈ "0123456789abcdefABCDEF".toList := by
  have hlower : 'a' ≤ c ∧ c ≤ 'f' ↔ c ∈ "abcdef".toList := between_iff_mem (by decide)
  have hupper : 'A' ≤ c ∧ c ≤ 'F' ↔ c ∈ "ABCDEF".toList := between_iff_mem (by decide)
  have hlist : "0123456789abcdefABCDEF".toList =
      "0123456789".toList ++ "abcdef".toList ++ "ABCDEF".toList := by decide
  simp only [isHexDigit, Bool.or_eq_true, Bool.and_eq_true, decide_eq_true_iff, isDecimalDigit_iff,
    hlower, hupper, hlist, List.mem_append]

theorem isLiteral_iff_isNumeral {text : String} :
    isLiteral text.toList = true ↔ IsNumeral text := by
  have hdecimal : text.toList.all isDecimalDigit = true ↔
      ∀ c ∈ text.toList, c ∈ "0123456789".toList := by
    simp only [List.all_eq_true, isDecimalDigit_iff]
  unfold isLiteral IsNumeral
  rw [Bool.or_eq_true, hdecimal]
  refine or_congr_right ?_
  split
  · next x digits htext =>
    simp only [Bool.and_eq_true, Bool.or_eq_true, beq_iff_eq, List.all_eq_true, isHexDigit_iff,
      htext, List.cons.injEq, true_and]
    constructor
    · rintro ⟨hx, hdigits⟩
      exact ⟨digits, hx.imp (⟨·, rfl⟩) (⟨·, rfl⟩), hdigits⟩
    · rintro ⟨_, ⟨hx, rfl⟩ | ⟨hx, rfl⟩, hdigits⟩
      · exact ⟨Or.inl hx, hdigits⟩
      · exact ⟨Or.inr hx, hdigits⟩
  · next hother =>
    simp only [Bool.false_eq_true, false_iff]
    rintro ⟨digits, htext | htext, -⟩
    · exact hother _ _ htext
    · exact hother _ _ htext

instance (text : String) : Decidable (IsNumeral text) := decidable_of_iff _ isLiteral_iff_isNumeral

theorem Keyword.ofText?_eq_none_iff {text : String} :
    ofText? text = none ↔ text ≠ "int" ∧ text ≠ "return" := by
  rw [ofText?, List.find?_eq_none]
  simp [all, Keyword.text, eq_comm]

/-- The text of a keyword is no numeral. -/
theorem Keyword.not_isNumeral_text (k : Keyword) : ¬ IsNumeral k.text := by
  rw [← isLiteral_iff_isNumeral]
  cases k <;> decide

namespace Token

/-- Whether a token is a word. -/
def isWord : Token → Bool
  | .punctuator _ => false
  | _ => true

/-- A token whose text is a word of its class: a name is neither a keyword nor a numeral, and a
literal is a numeral. -/
def IsWellFormed : Token → Prop
  | .identifier name => IsWord name ∧ name ≠ "int" ∧ name ≠ "return" ∧ ¬ IsNumeral name
  | .literal text => IsWord text ∧ IsNumeral text
  | _ => True

instance : (t : Token) → Decidable t.IsWellFormed
  | .identifier _ => inferInstanceAs (Decidable (_ ∧ _))
  | .keyword _ => .isTrue trivial
  | .literal _ => inferInstanceAs (Decidable (_ ∧ _))
  | .punctuator _ => .isTrue trivial

theorem isSpelled_iff_isWellFormed {t : Token} : t.IsSpelled ↔ t.IsWellFormed := by
  cases t with
  | identifier name =>
    simp only [IsSpelled, IsIdentifier, IsWellFormed, Keyword.ofText?_eq_none_iff, and_assoc,
      ← isLiteral_iff_isNumeral, Bool.not_eq_true]
  | keyword k => exact Iff.rfl
  | literal text =>
    simp only [IsSpelled, IsWellFormed, isLiteral_iff_isNumeral]
    refine and_congr_right fun _ => and_iff_right_of_imp fun hnumeral => ?_
    rw [Keyword.ofText?_eq_none_iff]
    constructor
    · rintro rfl
      exact Keyword.int.not_isNumeral_text hnumeral
    · rintro rfl
      exact Keyword.ret.not_isNumeral_text hnumeral
  | punctuator p => exact Iff.rfl

/-- A word whose class is the one of its text. -/
structure IsClassed (t : Token) : Prop where
  isWord_text : IsWord t.text
  keyword_iff : (∃ k, t = .keyword k) ↔ t.text = "int" ∨ t.text = "return"
  literal_iff : (∃ text, t = .literal text) ↔ IsNumeral t.text
  identifier_iff : (∃ name, t = .identifier name) ↔
    t.text ≠ "int" ∧ t.text ≠ "return" ∧ ¬ IsNumeral t.text

/-- A word that is well formed has the class of its text. -/
theorem IsWellFormed.isClassed {t : Token} (h : t.IsWellFormed) (hword : t.isWord = true) :
    t.IsClassed := by
  cases t with
  | identifier name =>
    obtain ⟨hisWord, hint, hret, hnumeral⟩ := h
    exact ⟨hisWord, by simp [text, hint, hret], by simp [text, hnumeral],
      by simp [text, hint, hret, hnumeral]⟩
  | keyword k =>
    have hnumeral := k.not_isNumeral_text
    have htext : k.text = "int" ∨ k.text = "return" := by cases k <;> simp [Keyword.text]
    refine ⟨k.isWord_text.1, by simpa [text] using htext, by simpa [text] using hnumeral, ?_⟩
    simp only [reduceCtorEq, exists_const, false_iff]
    rintro ⟨hint, hret, -⟩
    exact htext.elim hint hret
  | literal text =>
    obtain ⟨hisWord, hnumeral⟩ := h
    have hkeyword : text ≠ "int" ∧ text ≠ "return" := by
      rw [← Keyword.ofText?_eq_none_iff]
      exact (isSpelled_iff_isWellFormed.mpr ⟨hisWord, hnumeral⟩ : IsSpelled (.literal text)).2.1
    exact ⟨hisWord, by simp [Token.text, hkeyword], by simp [Token.text, hnumeral],
      by simp [Token.text, hnumeral]⟩
  | punctuator p => cases hword

/-- Two tokens that would not be told apart without a blank: both are words, or the second begins
with a character that makes another punctuator of the first. -/
def RunsInto (t u : Token) : Prop :=
  (t.isWord = true ∧ u.isWord = true) ∨
    ∃ p q : Punctuator, ∃ c, t = .punctuator p ∧ u.text.toList.head? = some c ∧
      q.text.toList = p.text.toList ++ [c]

/-- Two tokens that need a blank between them: both are words, or the first is one of `!`, `=`, `<`
and `>` before a `=`, or `&` or `|` before another of its kind. -/
def NeedsGap (t u : Token) : Prop :=
  (t.isWord = true ∧ u.isWord = true) ∨
    ((t = .punctuator .bang ∨ t = .punctuator .equal ∨ t = .punctuator .less ∨
      t = .punctuator .greater) ∧ u.text.toList.head? = some '=') ∨
    (t = .punctuator .ampersand ∧ u.text.toList.head? = some '&') ∨
    (t = .punctuator .pipe ∧ u.text.toList.head? = some '|')

instance (t u : Token) : Decidable (t.NeedsGap u) := inferInstanceAs (Decidable (_ ∨ _))

/-- A token is a word exactly if a character of words begins it. -/
theorem isWord_eq_isWordChar {t : Token} (h : t.IsSpelled) {c : Char} {cs : List Char}
    (hc : t.text.toList = c :: cs) : t.isWord = isWordChar c := by
  have hword : ∀ {text : String}, IsWord text → text.toList = c :: cs → isWordChar c = true := by
    intro text htext hlist
    exact htext.2 c (hlist ▸ List.mem_cons_self)
  cases t with
  | identifier name => exact (hword h.1 hc).symm
  | keyword k => exact (hword k.isWord_text.1 hc).symm
  | literal text => exact (hword h.1 hc).symm
  | punctuator p =>
    have hoperator : (Punctuator.ofChar? c).isSome = true := by
      obtain ⟨d, htext, hd⟩ | ⟨q, d, e, htext, hd, -⟩ := p.text_cases
      · obtain ⟨rfl, -⟩ := List.cons.inj (htext.symm.trans hc)
        rw [hd, Option.isSome_some]
      · obtain ⟨rfl, -⟩ := List.cons.inj (htext.symm.trans hc)
        rw [hd, Option.isSome_some]
    simp [isWord, isWordChar, ← Option.not_isSome, hoperator]

/-- Two tokens merge if both are words, or if the second begins with a character that joins the
first. -/
theorem merges_iff {t u : Token} (hu : u.IsSpelled) :
    t.merges u = true ↔ (t.isWord = true ∧ u.isWord = true) ∨
      ∃ p c, t = .punctuator p ∧ u.text.toList.head? = some c ∧ (p.join? c).isSome = true := by
  obtain ⟨c, cs, hc, -⟩ := exists_cons_of_isSpelled hu
  rw [isWord_eq_isWordChar hu hc, merges, hc, List.head?_cons, Option.any_some]
  cases t with
  | punctuator p => simp [isWord, goesOn]
  | _ => simp [isWord, goesOn]

end Token

namespace Punctuator

/-- A character joins a punctuator exactly if the two are written like another one. -/
theorem isSome_join?_iff {p : Punctuator} {c : Char} :
    (p.join? c).isSome = true ↔ ∃ q : Punctuator, q.text.toList = p.text.toList ++ [c] := by
  constructor
  · intro h
    obtain ⟨q, hq⟩ := Option.isSome_iff_exists.mp h
    exact ⟨q, text_of_join? hq⟩
  · rintro ⟨q, hq⟩
    obtain ⟨c', hc', hofChar⟩ | ⟨p', c', d', hc', hofChar, -⟩ := p.text_cases
    · obtain ⟨d, hd, -⟩ | ⟨r, d, e, hd, hdOfChar, hjoin⟩ := q.text_cases
      · simp [hc', hd] at hq
      · rw [hc', hd, List.singleton_append, List.cons.injEq, List.cons.injEq] at hq
        obtain ⟨rfl, rfl, -⟩ := hq
        obtain rfl := Option.some.inj (hofChar.symm.trans hdOfChar)
        rw [hjoin, Option.isSome_some]
    · -- No punctuator has three characters.
      obtain ⟨d, hd, -⟩ | ⟨r, d, e, hd, -, -⟩ := q.text_cases <;> simp [hc', hd] at hq

/-- The punctuators that a character joins, and these characters. -/
theorem isSome_join?_iff_or {p : Punctuator} {c : Char} :
    (p.join? c).isSome = true ↔
      ((p = .bang ∨ p = .equal ∨ p = .less ∨ p = .greater) ∧ c = '=') ∨
        (p = .ampersand ∧ c = '&') ∨ (p = .pipe ∧ c = '|') := by
  unfold join?
  split <;> grind

end Punctuator

namespace Token

theorem merges_iff_runsInto {t u : Token} (hu : u.IsSpelled) :
    t.merges u = true ↔ t.RunsInto u := by
  rw [merges_iff hu, RunsInto]
  refine or_congr_right ?_
  constructor
  · rintro ⟨p, c, ht, hc, hjoin⟩
    obtain ⟨q, hq⟩ := Punctuator.isSome_join?_iff.mp hjoin
    exact ⟨p, q, c, ht, hc, hq⟩
  · rintro ⟨p, q, c, ht, hc, hq⟩
    exact ⟨p, c, ht, hc, Punctuator.isSome_join?_iff.mpr ⟨q, hq⟩⟩

theorem merges_iff_needsGap {t u : Token} (hu : u.IsSpelled) :
    t.merges u = true ↔ t.NeedsGap u := by
  rw [merges_iff hu, NeedsGap]
  refine or_congr_right ?_
  constructor
  · rintro ⟨p, c, rfl, hc, hjoin⟩
    rw [hc]
    simpa using Punctuator.isSome_join?_iff_or.mp hjoin
  · rintro (⟨rfl | rfl | rfl | rfl, hc⟩ | ⟨rfl, hc⟩ | ⟨rfl, hc⟩) <;> exact ⟨_, _, rfl, hc, rfl⟩

end Token

end MiniC
