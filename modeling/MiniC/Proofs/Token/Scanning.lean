import MiniC.Proofs.Parse.Supply
import MiniC.Proofs.Token.Word

/-!
# Scanning a whole text

A scan takes the text of the token it finds and nothing else, apart from the blanks before it. So a
text that is short enough for its places is scanned to the end, and a lexer over it has exactly the
tokens of the text to come.
-/

namespace MiniC

theorem Punctuator.text_of_ofChar? {c : Char} {p : Punctuator} (h : ofChar? c = some p) :
    p.text.toList = [c] := by
  unfold ofChar? at h
  split at h <;> cases h <;> simp [text]

theorem Punctuator.text_of_join? {p q : Punctuator} {d : Char} (h : p.join? d = some q) :
    q.text.toList = p.text.toList ++ [d] := by
  unfold join? at h
  split at h <;> cases h <;> simp [text]

namespace Token

private theorem text_ofWord (word : List Char) : (ofWord word).text.toList = word := by
  unfold ofWord
  split
  · next k hk =>
    have htext : k.text = String.ofList word := by
      simpa [Keyword.ofText?] using List.find?_some hk
    simp [text, htext]
  · split <;> simp [text]

/-- The first token of a text is written at its beginning. -/
theorem eq_append_of_first?_eq {cs rest : List Char} {t : Token}
    (h : first? cs = some (t, rest)) : cs = t.text.toList ++ rest := by
  cases cs with
  | nil => simp [first?] at h
  | cons c cs =>
    simp only [first?] at h
    split at h
    · next p hp =>
      have htext := Punctuator.text_of_ofChar? hp
      split at h
      · cases h
        simp [text, htext]
      · split at h
        · next q hq =>
          cases h
          simp [text, Punctuator.text_of_join? hq, htext]
        · cases h
          simp [text, htext]
    · cases h
      rw [text_ofWord, List.cons_append, List.takeWhile_append_dropWhile]

end Token

namespace Position

/-- So many more characters can be read from a place on. -/
def Fits (p : Position) (count : Nat) : Prop :=
  p.line + count ≤ counterMax ∧ p.column + count ≤ counterMax

theorem Fits.mono {p : Position} {m n : Nat} (h : p.Fits n) (hle : m ≤ n) : p.Fits m :=
  ⟨Nat.le_trans (Nat.add_le_add_left hle _) h.1, Nat.le_trans (Nat.add_le_add_left hle _) h.2⟩

theorem Fits.exists_after {p : Position} {count : Nat} (h : p.Fits (count + 1)) (c : Char) :
    ∃ p', p.after c = .ok p' ∧ p'.Fits count := by
  obtain ⟨hline, hcolumn⟩ := h
  by_cases hc : c = '\n'
  · refine ⟨⟨p.line + 1, 1⟩, ?_, by simp only; omega, by simp only; omega⟩
    have hraise : raiseCounter p.line 1 = .ok (p.line + 1) := if_pos (by omega)
    simp only [after, if_pos hc, newline, hraise]
    rfl
  · refine ⟨⟨p.line, p.column + 1⟩, ?_, by simp only; omega, by simp only; omega⟩
    have hraise : raiseCounter p.column 1 = .ok (p.column + 1) := if_pos (by omega)
    simp only [after, if_neg hc, advance, hraise]
    rfl

theorem Fits.exists_past {p : Position} {cs : List Char} {count : Nat}
    (h : p.Fits (cs.length + count)) : ∃ p', p.past cs = .ok p' ∧ p'.Fits count := by
  induction cs generalizing p with
  | nil => exact ⟨p, rfl, by simpa using h⟩
  | cons c cs ih =>
    rw [List.length_cons, Nat.add_right_comm] at h
    obtain ⟨p', hafter, hp'⟩ := h.exists_after c
    obtain ⟨p'', hpast, hp''⟩ := ih hp'
    refine ⟨p'', ?_, hp''⟩
    rw [past, List.foldlM_cons, hafter]
    exact hpast

end Position

namespace Cursor

variable {c c' : Cursor} {t : Located Token} {ts : List (Located Token)} {stop : Position}

/-- A scan of a text that fits succeeds, and what it leaves fits. -/
theorem exists_scan (h : c.position.Fits c.rest.length) :
    ∃ t c', c.scan = .ok (t, c') ∧ c'.position.Fits c'.rest.length := by
  have hsplit : c.position.Fits
      ((c.rest.takeWhile isBlank).length + (c.rest.dropWhile isBlank).length) := by
    rwa [← List.length_append, List.takeWhile_append_dropWhile]
  obtain ⟨p, hp, hfits⟩ := hsplit.exists_past
  cases hfirst : Token.first? (c.rest.dropWhile isBlank) with
  | none =>
    refine ⟨none, ⟨[], p⟩, ?_, hfits.mono (Nat.zero_le _)⟩
    simp only [scan, hp, hfirst, bind, Except.bind]
    rfl
  | some found =>
    obtain ⟨token, rest⟩ := found
    rw [Token.eq_append_of_first?_eq hfirst, List.length_append] at hfits
    obtain ⟨p', hp', hfits'⟩ := hfits.exists_past
    refine ⟨some ⟨token, p⟩, ⟨rest, p'⟩, ?_, hfits'⟩
    simp only [scan, hp, hfirst, hp', bind, Except.bind]
    rfl

/-- What a scan does: it passes the blanks, and takes the first token if there is one. -/
theorem scan_cases {found : Option (Located Token)} (h : c.scan = .ok (found, c')) :
    ∃ p, c.position.past (c.rest.takeWhile isBlank) = .ok p ∧
      ((Token.first? (c.rest.dropWhile isBlank) = none ∧ found = none ∧ c' = ⟨[], p⟩) ∨
        ∃ token rest p', Token.first? (c.rest.dropWhile isBlank) = some (token, rest) ∧
          p.past token.text.toList = .ok p' ∧ found = some ⟨token, p⟩ ∧ c' = ⟨rest, p'⟩) := by
  simp only [scan, bind, Except.bind, pure, Except.pure] at h
  split at h
  · simp at h
  · next p hp =>
    refine ⟨p, hp, ?_⟩
    split at h
    · next hfirst =>
      cases h
      exact Or.inl ⟨hfirst, rfl, rfl⟩
    · next token rest hfirst =>
      split at h
      · simp at h
      · next p' hp' =>
        cases h
        exact Or.inr ⟨token, rest, p', hfirst, hp', rfl, rfl⟩

/-- A scan without a token comes to the end of the text and stays there. -/
theorem scan_of_scan_eq_none (h : c.scan = .ok (none, c')) : c'.scan = .ok (none, c') := by
  obtain ⟨p, -, ⟨-, -, rfl⟩ | ⟨token, rest, p', -, -, hfound, -⟩⟩ := scan_cases h
  · rfl
  · simp at hfound

/-- The tokens of a text are found by one scan after the other. -/
theorem tokens_eq_ok_iff : c.tokens = .ok (ts, stop) ↔
    (∃ c', c.scan = .ok (none, c') ∧ ts = [] ∧ stop = c'.position) ∨
      ∃ t c' rest, c.scan = .ok (some t, c') ∧ c'.tokens = .ok (rest, stop) ∧ ts = t :: rest := by
  rw [tokens]
  split
  · next hscan => simp [hscan]
  · next c' hscan =>
    simp [hscan, eq_comm]
  · next t c' hscan =>
    constructor
    · intro h
      cases htokens : c'.tokens with
      | error fault => simp [htokens, bind, Except.bind] at h
      | ok found =>
        simp only [htokens, bind, Except.bind] at h
        cases h
        exact Or.inr ⟨t, c', found.1, hscan, htokens, rfl⟩
    · rintro (⟨c'', hc'', -⟩ | ⟨t', c'', rest, hc'', htokens, rfl⟩)
      · exact absurd (hscan.symm.trans hc'') (by simp)
      · cases hscan.symm.trans hc''
        simp only [htokens, bind, Except.bind]
        rfl

/-- A text that fits has tokens. -/
theorem exists_tokens (h : c.position.Fits c.rest.length) :
    ∃ ts stop, c.tokens = .ok (ts, stop) := by
  induction hlength : c.rest.length using Nat.strongRecOn generalizing c with
  | ind length ih =>
    obtain ⟨found, c', hscan, hfits⟩ := exists_scan h
    cases found with
    | none => exact ⟨[], c'.position, tokens_eq_ok_iff.mpr (Or.inl ⟨c', hscan, rfl, rfl⟩)⟩
    | some t =>
      have hlt := length_lt_of_scan_eq hscan
      obtain ⟨ts, stop, htokens⟩ := ih c'.rest.length (by omega) hfits rfl
      exact ⟨t :: ts, stop, tokens_eq_ok_iff.mpr (Or.inr ⟨t, c', ts, hscan, htokens, rfl⟩)⟩

/-- Every token takes up a character. -/
theorem length_le_of_tokens_eq (h : c.tokens = .ok (ts, stop)) : ts.length ≤ c.rest.length := by
  induction ts generalizing c with
  | nil => exact Nat.zero_le _
  | cons t ts ih =>
    obtain ⟨c', -, hnil, -⟩ | ⟨t', c', rest, hscan, htokens, heq⟩ := tokens_eq_ok_iff.mp h
    · simp at hnil
    · cases heq
      have hlt := length_lt_of_scan_eq hscan
      have hle := ih htokens
      rw [List.length_cons]
      omega

end Cursor

namespace Lexer

/-- The tokens that a lexer has to come: the one it looked at, and those of its text. -/
def Holds (l : Lexer) (ts : List (Located Token)) (stop : Position) : Prop :=
  match l.lookahead with
  | none => l.cursor.tokens = .ok (ts, stop)
  | some none => ts = [] ∧ l.cursor.scan = .ok (none, l.cursor) ∧ stop = l.cursor.position
  | some (some t) => ∃ rest, ts = t :: rest ∧ l.cursor.tokens = .ok (rest, stop)

variable {l : Lexer} {ts : List (Located Token)} {stop : Position}

theorem Holds.next (h : l.Holds ts stop) :
    ∃ l', l.next = .ok l' ∧ l'.Holds ts.tail stop ∧ l'.current = ts.head? ∧
      l'.position = frontPlace stop ts := by
  unfold Holds at h
  split at h
  · next hahead =>
    obtain ⟨c', hscan, rfl, rfl⟩ | ⟨t, c', rest, hscan, htokens, rfl⟩ :=
      Cursor.tokens_eq_ok_iff.mp h
    · have hend : c'.tokens = .ok ([], c'.position) :=
        Cursor.tokens_eq_ok_iff.mpr (Or.inl ⟨c', Cursor.scan_of_scan_eq_none hscan, rfl, rfl⟩)
      refine ⟨⟨c', none, none, c'.position⟩, ?_, hend, rfl, rfl⟩
      simp only [Lexer.next, hahead, hscan, bind, Except.bind]
      rfl
    · refine ⟨⟨c', none, some t, t.position⟩, ?_, htokens, rfl, rfl⟩
      simp only [Lexer.next, hahead, hscan, bind, Except.bind]
      rfl
  · next hahead =>
    obtain ⟨rfl, hscan, rfl⟩ := h
    have hend : l.cursor.tokens = .ok ([], l.cursor.position) :=
      Cursor.tokens_eq_ok_iff.mpr (Or.inl ⟨l.cursor, hscan, rfl, rfl⟩)
    refine ⟨⟨l.cursor, none, none, l.cursor.position⟩, ?_, hend, rfl, rfl⟩
    simp only [Lexer.next, hahead, bind, Except.bind]
    rfl
  · next t hahead =>
    obtain ⟨rest, rfl, htokens⟩ := h
    refine ⟨⟨l.cursor, none, some t, t.position⟩, ?_, htokens, rfl, rfl⟩
    simp only [Lexer.next, hahead, bind, Except.bind]
    rfl

theorem Holds.peek (h : l.Holds ts stop) :
    ∃ l', l.peek = .ok (ts.head?, l') ∧ l'.Holds ts stop := by
  unfold Holds at h
  split at h
  · next hahead =>
    obtain ⟨c', hscan, rfl, rfl⟩ | ⟨t, c', rest, hscan, htokens, rfl⟩ :=
      Cursor.tokens_eq_ok_iff.mp h
    · refine ⟨{ l with cursor := c', lookahead := some none }, ?_,
        rfl, Cursor.scan_of_scan_eq_none hscan, rfl⟩
      simp only [Lexer.peek, hahead, hscan, bind, Except.bind]
      rfl
    · refine ⟨{ l with cursor := c', lookahead := some (some t) }, ?_, rest, rfl, htokens⟩
      simp only [Lexer.peek, hahead, hscan, bind, Except.bind]
      rfl
  · next hahead =>
    refine ⟨l, ?_, ?_⟩
    · simp only [Lexer.peek, hahead, h.1, List.head?_nil]
    · simpa only [Holds, hahead] using h
  · next t hahead =>
    refine ⟨l, ?_, ?_⟩
    · obtain ⟨rest, rfl, -⟩ := h
      simp only [Lexer.peek, hahead, List.head?_cons]
    · simpa only [Holds, hahead] using h

theorem Holds.length_le_pending (h : l.Holds ts stop) : ts.length ≤ l.pending := by
  unfold Holds at h
  split at h
  · next hahead =>
    have hle := Cursor.length_le_of_tokens_eq h
    simp only [pending, hahead]
    omega
  · rw [h.1]
    exact Nat.zero_le _
  · next t hahead =>
    obtain ⟨rest, rfl, htokens⟩ := h
    have hle := Cursor.length_le_of_tokens_eq htokens
    simp only [pending, hahead, List.length_cons]
    omega

/-- The tokens of lexers. -/
def supply : Supply Lexer where
  Holds := Holds
  next := Holds.next
  peek := Holds.peek
  length_le_pending := Holds.length_le_pending

/-- A text that is short enough has tokens, and a lexer over it has them to come. -/
theorem exists_holds_ofText {text : String} (h : text.length < 4294967295) :
    ∃ ts stop, tokenize text = .ok (ts, stop) ∧ supply.Holds (ofText text) ts stop := by
  have hfits : (Cursor.ofText text).position.Fits (Cursor.ofText text).rest.length := by
    simp only [Cursor.ofText, Position.start, Position.Fits, counterMax, String.length_toList]
    omega
  obtain ⟨ts, stop, htokens⟩ := Cursor.exists_tokens hfits
  exact ⟨ts, stop, htokens, htokens⟩

end Lexer

end MiniC
