import MiniC.Proofs.Parse.Recognition
import MiniC.Proofs.Parse.Rendering
import MiniC.Proofs.Text.Decimal
import MiniC.Proofs.Token.Layout
import MiniC.Translate

/-!
# Texts of programs

A text is parsed as a program exactly if the grammar derives the program from its tokens. In a
derived program no token but a keyword merges with the next one, so that a program may be written
with any blanks, and with none unless behind a keyword; the text is parsed as the program again.
-/

namespace MiniC

open Grammar

/-- Whether an operand may end with a token. -/
def endsFactor : Token → Bool
  | .literal _ => true
  | .punctuator .closeParen => true
  | _ => false

/-- The end of an operand does not merge with a punctuator. -/
theorem merges_punctuator_of_endsFactor {t : Token} (h : endsFactor t = true) (p : Punctuator) :
    t.merges (.punctuator p) = false := by
  cases t with
  | identifier name => cases h
  | keyword k => cases h
  | literal text => cases p <;> rfl
  | punctuator q =>
    cases q <;> cases h
    cases p <;> rfl

/-- A punctuator does not merge with the beginning of an operand. -/
theorem merges_of_beginsFactor {t : Token} (h : beginsFactor (some t) = true) (ht : t.IsSpelled)
    (p : Punctuator) : (Token.punctuator p).merges t = false := by
  cases t with
  | identifier name => cases h
  | keyword k => cases h
  | literal text =>
    obtain ⟨c, cs, htext, hc, -⟩ := ht.1.exists_cons
    have hoperator := ofChar?_eq_none_of_isWordChar hc
    have hjoin : p.join? c = none := by
      unfold Punctuator.join?
      split <;> first | rfl | cases hoperator
    simp [Token.merges, Token.text, htext, Token.goesOn, hjoin]
  | punctuator q => cases q <;> cases h <;> cases p <;> rfl

/-- No token merges with the next one. -/
def Apart (u : List Token) : Prop := u.IsChain fun t t' => t.merges t' = false

namespace Grammar

/-- A derived expression begins like an operand. -/
theorem Derives.exists_begin {level : Level} {u : List Token} {e : Expr} (h : Derives level u e) :
    ∃ t v, u = t :: v ∧ beginsFactor (some t) = true := by
  induction h with
  | operand hnext h ih => exact ih
  | binary hnext hop hleft hright ihl ihr =>
    obtain ⟨t, v, rfl, ht⟩ := ihl
    exact ⟨t, _, rfl, ht⟩
  | parens h ih => exact ⟨_, _, rfl, rfl⟩
  | @unary p op u e hop h ih =>
    have hall : ∀ q ∈ unaryOperators, beginsFactor (some (.punctuator q.1)) = true := by decide
    exact ⟨_, _, rfl, hall (p, op) hop⟩
  | integer h hn => exact ⟨_, _, rfl, rfl⟩

/-- A derived expression ends like an operand. -/
theorem Derives.exists_end {level : Level} {u : List Token} {e : Expr} (h : Derives level u e) :
    ∃ v t, u = v ++ [t] ∧ endsFactor t = true := by
  induction h with
  | operand hnext h ih => exact ih
  | binary hnext hop hleft hright ihl ihr =>
    obtain ⟨v, t, rfl, ht⟩ := ihr
    exact ⟨_, t, (List.append_assoc _ (_ :: v) [t]).symm, ht⟩
  | @parens u e h ih => exact ⟨_ :: u, _, rfl, rfl⟩
  | unary hop h ih =>
    obtain ⟨v, t, rfl, ht⟩ := ih
    exact ⟨_ :: v, t, rfl, ht⟩
  | integer h hn => exact ⟨[], _, rfl, rfl⟩

/-- A punctuator may stand right before a derived expression. -/
theorem Derives.apart_cons {level : Level} {u : List Token} {e : Expr} (h : Derives level u e)
    (hspelled : ∀ t ∈ u, t.IsSpelled) (hu : Apart u) (p : Punctuator) :
    Apart (.punctuator p :: u) := by
  obtain ⟨t, v, rfl, ht⟩ := h.exists_begin
  exact .cons_cons (merges_of_beginsFactor ht (hspelled t List.mem_cons_self) p) hu

/-- A punctuator may stand right behind a derived expression. -/
theorem Derives.apart_append {level : Level} {u : List Token} {e : Expr} (h : Derives level u e)
    (hu : Apart u) {p : Punctuator} {v : List Token} (hv : Apart (.punctuator p :: v)) :
    Apart (u ++ .punctuator p :: v) := by
  obtain ⟨w, t, rfl, ht⟩ := h.exists_end
  refine List.isChain_append.mpr ⟨hu, hv, ?_⟩
  simpa using merges_punctuator_of_endsFactor ht p

/-- No two tokens of a derived expression merge. -/
theorem Derives.apart {level : Level} {u : List Token} {e : Expr} (h : Derives level u e)
    (hspelled : ∀ t ∈ u, t.IsSpelled) : Apart u := by
  induction h with
  | operand hnext h ih => exact ih hspelled
  | binary hnext hop hleft hright ihl ihr =>
    rw [List.forall_mem_append, List.forall_mem_cons] at hspelled
    exact hleft.apart_append (ihl hspelled.1)
      (hright.apart_cons hspelled.2.2 (ihr hspelled.2.2) _)
  | parens h ih =>
    rw [List.forall_mem_cons, List.forall_mem_append] at hspelled
    have hclose := h.apart_append (ih hspelled.2.1) (.singleton (Token.punctuator .closeParen))
    obtain ⟨t, v, rfl, ht⟩ := h.exists_begin
    exact .cons_cons (merges_of_beginsFactor ht (hspelled.2.1 t List.mem_cons_self) _) hclose
  | unary hop h ih =>
    rw [List.forall_mem_cons] at hspelled
    exact h.apart_cons hspelled.2 (ih hspelled.2) _
  | integer h hn => exact .singleton _

/-- No token of a derived program merges with the next one unless it is a keyword. -/
theorem DerivesProgram.isChain {u : List Token} {p : Program} (h : DerivesProgram u p)
    (hspelled : ∀ t ∈ u, t.IsSpelled) :
    u.IsChain fun t t' => (∀ k, t ≠ .keyword k) → t.merges t' = false := by
  obtain ⟨⟨name, body⟩⟩ := p
  cases h with
  | function hbody =>
    cases hbody with
    | @ret u e h =>
      simp only [List.forall_mem_cons, List.forall_mem_append] at hspelled
      obtain ⟨-, -, -, -, -, ⟨-, hu, -⟩, -⟩ := hspelled
      have hclose : Apart [.punctuator .semicolon, .punctuator .closeCurly] :=
        .cons_cons rfl (.singleton _)
      have hexpr := h.apart_append (h.apart hu) hclose
      rw [List.cons_append, List.append_assoc]
      refine .cons_cons (fun hint => absurd rfl (hint .int)) (.cons_cons (fun _ => rfl)
        (.cons_cons (fun _ => rfl) (.cons_cons (fun _ => rfl) (.cons_cons (fun _ => rfl) ?_))))
      exact List.isChain_cons.mpr
        ⟨fun t _ hret => absurd rfl (hret .ret), hexpr.imp fun _ _ hapart _ => hapart⟩

end Grammar

theorem mem_parenthesize {u : List Token} {pairs : Nat} {t : Token}
    (h : t ∈ parenthesize u pairs) : t ∈ u ∨ ∃ p, t = .punctuator p := by
  induction pairs with
  | zero => exact Or.inl h
  | succ pairs ih =>
    rw [parenthesize, List.mem_cons, List.mem_append, List.mem_singleton] at h
    obtain rfl | hinner | rfl := h
    · exact Or.inr ⟨_, rfl⟩
    · exact ih hinner
    · exact Or.inr ⟨_, rfl⟩

/-- An expression is written with punctuators and the decimal digits of its constants. -/
theorem Expr.mem_tokens {e : Expr} {least : Nat} {extra : List Branch → Nat} {t : Token}
    (h : t ∈ e.tokens least extra) :
    (∃ p, t = .punctuator p) ∨ ∃ v ∈ e.constants, t = .literal (toString v.toInt) := by
  induction e generalizing least extra with
  | integer value =>
    rw [tokens] at h
    obtain hbare | hparen := mem_parenthesize h
    · exact Or.inr ⟨value, List.mem_cons_self, List.mem_singleton.mp hbare⟩
    · exact Or.inl hparen
  | unary op operand ih =>
    rw [tokens] at h
    obtain hbare | hparen := mem_parenthesize h
    · obtain rfl | hoperand := List.mem_cons.mp hbare
      · exact Or.inl ⟨_, rfl⟩
      · exact ih hoperand
    · exact Or.inl hparen
  | binary op left right ihl ihr =>
    rw [tokens] at h
    obtain hbare | hparen := mem_parenthesize h
    · rw [List.mem_append, List.mem_cons] at hbare
      obtain hleft | rfl | hright := hbare
      · refine (ihl hleft).imp_right ?_
        rintro ⟨v, hv, ht⟩
        exact ⟨v, List.mem_append_left _ hv, ht⟩
      · exact Or.inl ⟨_, rfl⟩
      · refine (ihr hright).imp_right ?_
        rintro ⟨v, hv, ht⟩
        exact ⟨v, List.mem_append_right _ hv, ht⟩
    · exact Or.inl hparen

/-- The decimal digits of a number are scanned as a literal. -/
theorem isSpelled_toString (n : Nat) : (Token.literal (toString n)).IsSpelled := by
  have hdigit : ∀ c ∈ (toString n).toList, c.isDigit = true := fun _ => isDigit_of_mem_toString
  refine ⟨⟨?_, fun c hc => isWordChar_of_isDigit (hdigit c hc)⟩, ?_, ?_⟩
  · intro hempty
    have hnil : Nat.toDigits 10 n = [] := Nat.toList_repr ▸ congrArg String.toList hempty
    exact Literal.toDigits_ne_nil 10 n hnil
  · refine List.find?_eq_none.mpr fun k _ hk => ?_
    have htext : k.text = toString n := of_decide_eq_true hk
    have hmem : 't' ∈ k.text.toList := by
      cases k <;> decide
    exact absurd (hdigit 't' (htext ▸ hmem)) (by decide)
  · have hdecimal : (toString n).toList.all isDecimalDigit = true :=
      List.all_eq_true.mpr fun c hc => hdigit c hc
    unfold isLiteral
    rw [hdecimal, Bool.true_or]

/-- A program that can be written: none of its constants is negative, and its name is an
identifier. -/
structure Program.IsWritable (p : Program) : Prop where
  nonneg : ∀ v ∈ p.result.constants, 0 ≤ v.toInt
  isIdentifier : IsIdentifier p.function.name

/-- The tokens of a program that can be written are those that their texts are scanned as. -/
theorem Program.IsWritable.isSpelled {p : Program} (h : p.IsWritable) {extra : List Branch → Nat} :
    ∀ t ∈ p.tokens extra, t.IsSpelled := by
  have hresult : ∀ t ∈ p.result.tokens 1 extra, t.IsSpelled := by
    intro t ht
    obtain ⟨q, rfl⟩ | ⟨v, hv, rfl⟩ := Expr.mem_tokens ht
    · trivial
    · obtain ⟨n, hn⟩ := Int.eq_ofNat_of_zero_le (h.nonneg v hv)
      rw [hn]
      exact isSpelled_toString n
  simp only [tokens, List.forall_mem_cons, List.forall_mem_append]
  exact ⟨trivial, h.isIdentifier, trivial, trivial, trivial, trivial, hresult, trivial, trivial,
    List.forall_mem_nil _⟩

/-- A derived program can be written. -/
theorem Grammar.DerivesProgram.isWritable {u : List Token} {p : Program} (h : DerivesProgram u p)
    (hspelled : ∀ t ∈ u, t.IsSpelled) : p.IsWritable := by
  obtain ⟨⟨name, body⟩⟩ := p
  cases h with
  | function hbody =>
    cases hbody with
    | ret h => exact ⟨h.constants_nonneg, hspelled (.identifier name) (by simp)⟩

/-- The course of the tokens of a text is what parsing the text does. -/
theorem exists_parseText_of_course {text : String} {ts rest : List (Located Token)}
    {stop : Position} {r : Except (Located SyntaxError) Program}
    (hholds : Lexer.supply.Holds (Lexer.ofText text) ts stop) (h : Course.program stop ts r rest) :
    ∃ log, parseText text = .ok (r, log) := by
  obtain ⟨reader, hrun, -⟩ :=
    Lexer.supply.performs_program h { source := Lexer.ofText text } hholds
  have hprogram : (Parse.program : Parse Lexer Program).run (Lexer.ofText text) =
    .ok (r, reader) := hrun
  exact ⟨reader.log, by rw [parseText, hprogram]; rfl⟩

/-- A text is parsed as a program exactly if this is derived from its tokens. -/
theorem exists_parseText_eq_iff {text : String} (h : text.length < 4294967295) {p : Program} :
    (∃ log, parseText text = .ok (.ok p, log)) ↔
      ∃ u, Reads text.toList u ∧ DerivesProgram u p := by
  obtain ⟨ts, stop, htokens, hholds⟩ := Lexer.exists_holds_ofText h
  have hreads : Reads text.toList (ts.map Located.val) := Cursor.reads_of_tokens_eq htokens
  constructor
  · rintro ⟨log, hlog⟩
    obtain ⟨r, rest, hcourse⟩ := Course.total_program stop ts
    obtain ⟨log', hlog'⟩ := exists_parseText_of_course hholds hcourse
    obtain ⟨rfl, -⟩ := Prod.mk.inj (Except.ok.inj (hlog'.symm.trans hlog))
    exact ⟨_, hreads, (Course.program_ok_iff.mp hcourse).1⟩
  · rintro ⟨u, hu, hp⟩
    rw [hu.unique hreads] at hp
    exact exists_parseText_of_course hholds (Course.program_ok_iff.mpr ⟨hp, rfl⟩)

/-- A layout with a blank behind each keyword. -/
structure Spacing (u : List Token) extends Layout u where
  gap_ne_nil : ∀ x ∈ spaced, ∀ k, x.1 = .keyword k → x.2 ≠ []

/-- A derived program with any blanks around its tokens is read back as these. -/
theorem Spacing.reads {u : List Token} {p : Program} (s : Spacing u) (h : DerivesProgram u p)
    (hspelled : ∀ t ∈ u, t.IsSpelled) : Reads s.text.toList u := by
  obtain ⟨⟨lead, spaced, rfl, hlead, hgaps⟩, hkeyword⟩ := s
  have hchain := (List.isChain_map Prod.fst).mp (h.isChain hspelled)
  rw [List.forall_mem_map] at hspelled
  rw [Layout.toList_text]
  refine reads_spread hlead hspelled hgaps (hchain.imp_of_mem_imp ?_)
  intro x y hx _ hapart hgap
  exact hapart fun k hk => hkeyword x hx k hk hgap

/-- A program that can be written is parsed from any text of it, with whatever parentheses and
blanks, and nothing but programs that can be written is parsed from any text. -/
theorem parseText_text_and_isWritable :
    (∀ {p : Program}, p.IsWritable → ∀ {extra : List Branch → Nat} (s : Spacing (p.tokens extra)),
      s.text.length < 4294967295 → ∃ log, parseText s.text = .ok (.ok p, log)) ∧
    ∀ {text : String} {p : Program} {log : Array Log.Record}, text.length < 4294967295 →
      parseText text = .ok (.ok p, log) →
        p.IsWritable ∧ ∀ v ∈ p.result.constants, v.toInt ≤ 2147483647 := by
  constructor
  · intro p hp extra s hlength
    have hderives := Program.derives_tokens hp.nonneg extra
    exact (exists_parseText_eq_iff hlength).mpr ⟨_, s.reads hderives hp.isSpelled, hderives⟩
  · intro text p log hlength hparse
    obtain ⟨u, hreads, hderives⟩ := (exists_parseText_eq_iff hlength).mp ⟨log, hparse⟩
    refine ⟨hderives.isWritable hreads.isSpelled, fun v _ => ?_⟩
    have hlt := v.toInt_lt
    omega

/-- The nested difference `1 - (2 - -3)` with a redundant pair of parentheses around its left
operand, and blanks behind the keywords and at the ends of lines. -/
theorem parseText_text_of_difference :
    let p : Program := ⟨⟨"main", .ret (.binary .sub (.integer 1)
      (.binary .sub (.integer 2) (.unary .negate (.integer 3))))⟩⟩
    ∃ log, parseText "int main()\x7b\nreturn (1)-(2--3);\x7d\n" = .ok (.ok p, log) ∧
      p.IsWritable ∧ ∀ v ∈ p.result.constants, v.toInt ≤ 2147483647 := by
  intro p
  let s : Spacing (p.tokens fun path => if path = [.left] then 1 else 0) :=
    { lead := []
      spaced := [(.keyword .int, [' ']), (.identifier "main", []), (.punctuator .openParen, []),
        (.punctuator .closeParen, []), (.punctuator .openCurly, ['\n']), (.keyword .ret, [' ']),
        (.punctuator .openParen, []), (.literal "1", []), (.punctuator .closeParen, []),
        (.punctuator .minus, []), (.punctuator .openParen, []), (.literal "2", []),
        (.punctuator .minus, []), (.punctuator .minus, []), (.literal "3", []),
        (.punctuator .closeParen, []), (.punctuator .semicolon, []),
        (.punctuator .closeCurly, ['\n'])]
      map_fst := by decide
      blank_lead := by simp
      blank_gap := by simp [isBlank, blankRanges]
      gap_ne_nil := by simp }
  have htext : s.text = "int main()\x7b\nreturn (1)-(2--3);\x7d\n" := by decide
  have hwritable : p.IsWritable := ⟨by simp [p, Program.result, Expr.constants], by decide⟩
  obtain ⟨log, hparse⟩ := parseText_text_and_isWritable.1 hwritable s (by decide)
  rw [htext] at hparse
  exact ⟨log, hparse, parseText_text_and_isWritable.2 (by decide) hparse⟩

end MiniC
