import MiniC.Proofs.Token.Scanning
import Mathlib.Data.List.Chain
import Mathlib.Data.List.TakeWhile

/-!
# Tokens and blanks

Tokens may be written with any blanks around them, and without a blank between two of them unless a
character of the second one would be read as part of the first. Such a text is read back as these
tokens.
-/

namespace MiniC

/-- A punctuator is a single operator character, or one that a second character is joined to. -/
theorem Punctuator.text_cases (p : Punctuator) :
    (∃ c, p.text.toList = [c] ∧ ofChar? c = some p) ∨
      ∃ q c d, p.text.toList = [c, d] ∧ ofChar? c = some q ∧ q.join? d = some p := by
  cases p <;> first | exact Or.inl ⟨_, rfl, rfl⟩ | exact Or.inr ⟨_, _, _, rfl, rfl, rfl⟩

namespace Token

/-- Whether a token is the one that its text is scanned as. -/
def IsSpelled : Token → Prop
  | .identifier name => IsIdentifier name
  | .keyword _ => True
  | .literal text => IsWord text ∧ Keyword.ofText? text = none ∧ isLiteral text.toList = true
  | .punctuator _ => True

/-- Whether a character right after a token would be read as part of it. -/
def goesOn : Token → Char → Bool
  | .punctuator p, c => (p.join? c).isSome
  | _, c => isWordChar c

/-- Whether the beginning of a token right after another would be read as part of that. -/
def merges (t u : Token) : Bool := u.text.toList.head?.any t.goesOn

private theorem goesOn_of_isBlank {t : Token} {c : Char} (h : isBlank c = true) :
    t.goesOn c = false := by
  cases t with
  | punctuator p =>
    simp only [goesOn, Punctuator.join?]
    split <;> first | rfl | exact absurd h (by decide)
  | _ => simp [goesOn, isWordChar, h]

/-- A word before something that does not belong to it is taken up as its token. -/
theorem first?_append_word {text : String} (htext : IsWord text) {more : List Char}
    (hmore : ∀ c, more.head? = some c → isWordChar c = false) :
    first? (text.toList ++ more) = some (ofWord text.toList, more) := by
  obtain ⟨c, cs, hlist, hc, hword⟩ := htext.exists_cons
  have htake : more.takeWhile isWordChar = [] := by
    cases more with
    | nil => rfl
    | cons d more => exact List.takeWhile_cons_of_neg (by simp [hmore d rfl])
  have hdrop : more.dropWhile isWordChar = more := by
    cases more with
    | nil => rfl
    | cons d more => exact List.dropWhile_cons_of_neg (by simp [hmore d rfl])
  rw [hlist, List.cons_append]
  simp only [first?, ofChar?_eq_none_of_isWordChar hc, List.takeWhile_append_of_pos hword,
    List.dropWhile_append_of_pos hword, htake, hdrop, List.append_nil]

/-- A punctuator before something that does not belong to it is taken up as it is. -/
theorem first?_append_punctuator {p : Punctuator} {more : List Char}
    (hmore : ∀ c, more.head? = some c → p.join? c = none) :
    first? (p.text.toList ++ more) = some (.punctuator p, more) := by
  obtain ⟨c, htext, hc⟩ | ⟨q, c, d, htext, hc, hd⟩ := p.text_cases
  · rw [htext]
    cases more with
    | nil => simp [first?, hc]
    | cons d more => simp [first?, hc, hmore d rfl]
  · rw [htext]
    simp [first?, hc, hd]

/-- A token is taken up from its text before something that does not belong to it. -/
theorem first?_append {t : Token} (ht : t.IsSpelled) {more : List Char}
    (hmore : ∀ c, more.head? = some c → t.goesOn c = false) :
    first? (t.text.toList ++ more) = some (t, more) := by
  cases t with
  | identifier name =>
    rw [text, first?_append_word ht.1 hmore]
    simp [ofWord, ht.2.1, ht.2.2]
  | keyword k =>
    rw [text, first?_append_word k.isWord_text.1 hmore]
    simp [ofWord, k.isWord_text.2]
  | literal text =>
    rw [Token.text, first?_append_word ht.1 hmore]
    simp [ofWord, ht.2.1, ht.2.2]
  | punctuator p => exact first?_append_punctuator (fun c hc => by simpa [goesOn] using hmore c hc)

theorem first?_eq_none_iff {cs : List Char} : first? cs = none ↔ cs = [] := by
  cases cs with
  | nil => simp [first?]
  | cons c cs =>
    simp only [first?, reduceCtorEq, iff_false]
    split
    · split
      · simp
      · split <;> simp
    · simp

/-- The text of a token begins with a character that is not blank. -/
theorem exists_cons_of_isSpelled {t : Token} (ht : t.IsSpelled) :
    ∃ c cs, t.text.toList = c :: cs ∧ isBlank c = false := by
  have hword : ∀ {text : String}, IsWord text →
      ∃ c cs, text.toList = c :: cs ∧ isBlank c = false := by
    intro text htext
    obtain ⟨c, cs, hlist, hc, -⟩ := htext.exists_cons
    exact ⟨c, cs, hlist, isBlank_eq_false_of_isWordChar hc⟩
  cases t with
  | identifier name => exact hword ht.1
  | keyword k => exact hword k.isWord_text.1
  | literal text => exact hword ht.1
  | punctuator p =>
    obtain ⟨c, htext, hc⟩ | ⟨q, c, d, htext, hc, -⟩ := p.text_cases
    · exact ⟨c, [], htext, isBlank_eq_false_of_ofChar? hc⟩
    · exact ⟨c, [d], htext, isBlank_eq_false_of_ofChar? hc⟩

private theorem isSpelled_ofWord {word : List Char} (hne : word ≠ [])
    (hword : ∀ c ∈ word, isWordChar c = true) : (ofWord word).IsSpelled := by
  have hisWord : IsWord (String.ofList word) := by
    refine ⟨fun hempty => hne ?_, by simpa using hword⟩
    rw [← String.toList_ofList (l := word), hempty]
    rfl
  unfold ofWord
  split
  · trivial
  · next hkeyword =>
    split
    · next hliteral => exact ⟨hisWord, hkeyword, by simpa using hliteral⟩
    · next hliteral => exact ⟨hisWord, hkeyword, by simpa using hliteral⟩

/-- The token that is taken up after blanks is the one that its text is scanned as. -/
theorem isSpelled_of_first?_eq {cs rest : List Char} {t : Token}
    (h : first? (cs.dropWhile isBlank) = some (t, rest)) : t.IsSpelled := by
  cases hcs : cs.dropWhile isBlank with
  | nil => simp [hcs, first?] at h
  | cons c cs' =>
    have hblank : isBlank c = false := by
      simpa [hcs] using List.head?_dropWhile_not isBlank cs
    rw [hcs] at h
    simp only [first?] at h
    split at h
    · split at h
      · cases h
        trivial
      · split at h <;> cases h <;> trivial
    · next hoperator =>
      cases h
      refine isSpelled_ofWord (by simp) (List.forall_mem_cons.mpr ⟨?_, ?_⟩)
      · simp [isWordChar, hblank, hoperator]
      · exact fun d hd => List.mem_takeWhile_imp hd

end Token

/-- The tokens of a text, apart from their places. -/
inductive Reads : List Char → List Token → Prop
  | nil {cs : List Char} (h : cs.dropWhile isBlank = []) : Reads cs []
  | cons {cs rest : List Char} {t : Token} {ts : List Token}
    (h : Token.first? (cs.dropWhile isBlank) = some (t, rest)) (hrest : Reads rest ts) :
    Reads cs (t :: ts)

/-- A text has its tokens only. -/
theorem Reads.unique {cs : List Char} {ts ts' : List Token} (h : Reads cs ts)
    (h' : Reads cs ts') : ts = ts' := by
  induction h generalizing ts' with
  | nil h =>
    cases h' with
    | nil h' => rfl
    | cons h' hrest' => simp [h, Token.first?] at h'
  | cons h hrest ih =>
    cases h' with
    | nil h' => simp [h', Token.first?] at h
    | cons h' hrest' =>
      cases h.symm.trans h'
      rw [ih hrest']

/-- The tokens of a text are those that their texts are scanned as. -/
theorem Reads.isSpelled {cs : List Char} {ts : List Token} (h : Reads cs ts) :
    ∀ t ∈ ts, t.IsSpelled := by
  induction h with
  | nil h => simp
  | cons h hrest ih => exact List.forall_mem_cons.mpr ⟨Token.isSpelled_of_first?_eq h, ih⟩

/-- Scanning reads the tokens of a text. -/
theorem Cursor.reads_of_tokens_eq {c : Cursor} {ts : List (Located Token)} {stop : Position}
    (h : c.tokens = .ok (ts, stop)) : Reads c.rest (ts.map Located.val) := by
  induction ts generalizing c with
  | nil =>
    obtain ⟨c', hscan, -⟩ | ⟨t, c', rest, -, -, heq⟩ := tokens_eq_ok_iff.mp h
    · obtain ⟨p, -, ⟨hfirst, -⟩ | ⟨token, rest, p', -, -, hfound, -⟩⟩ := scan_cases hscan
      · exact .nil (Token.first?_eq_none_iff.mp hfirst)
      · simp at hfound
    · simp at heq
  | cons t ts ih =>
    obtain ⟨c', -, hnil, -⟩ | ⟨t', c', rest, hscan, htokens, heq⟩ := tokens_eq_ok_iff.mp h
    · simp at hnil
    · cases heq
      obtain ⟨p, -, ⟨-, hfound, -⟩ | ⟨token, rest, p', hfirst, -, hfound, rfl⟩⟩ := scan_cases hscan
      · simp at hfound
      · cases hfound
        exact .cons hfirst (ih htokens)

/-- Blanks, and tokens with blanks after each. -/
def spread (lead : List Char) (spaced : List (Token × List Char)) : List Char :=
  lead ++ spaced.flatMap fun x => x.1.text.toList ++ x.2

theorem spread_cons (lead : List Char) (t : Token) (gap : List Char)
    (spaced : List (Token × List Char)) :
    spread lead ((t, gap) :: spaced) = lead ++ (t.text.toList ++ spread gap spaced) := by
  simp [spread]

/-- What stands behind a token that does not merge with the next one is not read as part of it. -/
theorem goesOn_head_spread {t : Token} {gap : List Char} {spaced : List (Token × List Char)}
    (hgap : ∀ c ∈ gap, isBlank c = true) (hspaced : ∀ x ∈ spaced, x.1.IsSpelled)
    (hapart : ∀ x ∈ spaced.head?, gap = [] → t.merges x.1 = false) {c : Char}
    (hc : (spread gap spaced).head? = some c) : t.goesOn c = false := by
  cases gap with
  | cons g gap =>
    obtain rfl : g = c := by simpa [spread] using hc
    exact Token.goesOn_of_isBlank (hgap g List.mem_cons_self)
  | nil =>
    rcases spaced with _ | ⟨⟨u, gap⟩, spaced⟩
    · simp [spread] at hc
    · obtain ⟨d, ds, hu, -⟩ := Token.exists_cons_of_isSpelled (hspaced _ List.mem_cons_self)
      have hmerges := hapart (u, gap) rfl rfl
      obtain rfl : d = c := by simpa [spread, hu] using hc
      simpa [Token.merges, hu] using hmerges

/-- Nothing but the blanks before a token is skipped. -/
theorem dropWhile_isBlank_append {lead more : List Char} {t : Token}
    (hlead : ∀ c ∈ lead, isBlank c = true) (ht : t.IsSpelled) :
    (lead ++ (t.text.toList ++ more)).dropWhile isBlank = t.text.toList ++ more := by
  obtain ⟨c, cs, hcs, hc⟩ := Token.exists_cons_of_isSpelled ht
  rw [List.dropWhile_append_of_pos hlead, hcs, List.cons_append,
    List.dropWhile_cons_of_neg (by simp [hc])]

/-- Tokens that do not merge with what follows them are read back. -/
theorem reads_spread {lead : List Char} {spaced : List (Token × List Char)}
    (hlead : ∀ c ∈ lead, isBlank c = true) (hspelled : ∀ x ∈ spaced, x.1.IsSpelled)
    (hgaps : ∀ x ∈ spaced, ∀ c ∈ x.2, isBlank c = true)
    (hapart : spaced.IsChain fun x y => x.2 = [] → x.1.merges y.1 = false) :
    Reads (spread lead spaced) (spaced.map Prod.fst) := by
  induction spaced generalizing lead with
  | nil => exact .nil (by simpa [spread, List.dropWhile_eq_nil_iff] using hlead)
  | cons x spaced ih =>
    obtain ⟨t, gap⟩ := x
    rw [List.forall_mem_cons] at hspelled hgaps
    rw [List.isChain_cons] at hapart
    have hfirst : Token.first? ((spread lead ((t, gap) :: spaced)).dropWhile isBlank) =
        some (t, spread gap spaced) := by
      rw [spread_cons, dropWhile_isBlank_append hlead hspelled.1]
      refine Token.first?_append hspelled.1 fun d hd => ?_
      exact goesOn_head_spread hgaps.1 hspelled.2 hapart.1 hd
    exact .cons hfirst (ih hgaps.1 hspelled.2 hgaps.2 hapart.2)

end MiniC
