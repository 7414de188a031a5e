import MiniC.Proofs.Token.Class
import MiniC.Proofs.Token.Following

/-!
# Layouts

A layout puts blanks before some tokens and behind each of them. Every text is the layout of the
tokens that a lexer over it hands out, each at the place behind what stands before it. Conversely
the tokens of a layout are handed out again exactly if those that need a gap between them have one.
-/

namespace MiniC

namespace Position

/-- Reading a character leads a line down or a column on. -/
theorem eq_of_after_eq {p q : Position} {c : Char} (h : p.after c = .ok q) :
    q = if c = '\n' then ⟨p.line + 1, 1⟩ else ⟨p.line, p.column + 1⟩ := by
  unfold after at h
  split at h
  · next hc =>
    rw [if_pos hc]
    cases hline : raiseCounter p.line 1 with
    | error fault => simp [newline, hline, bind, Except.bind] at h
    | ok line =>
      simp only [newline, hline, bind, Except.bind] at h
      rw [← Except.ok.inj h, eq_add_of_raiseCounter_eq hline]
  · next hc =>
    rw [if_neg hc]
    cases hcolumn : raiseCounter p.column 1 with
    | error fault => simp [advance, hcolumn, bind, Except.bind] at h
    | ok column =>
      simp only [advance, hcolumn, bind, Except.bind] at h
      rw [← Except.ok.inj h, eq_add_of_raiseCounter_eq hcolumn]

/-- The place behind some characters of a text: a line down for each line feed among them, and a
column on for each character since the last of these. -/
def behind (before : List Char) : Position :=
  ⟨1 + before.count '\n', 1 + (before.reverse.takeWhile (· ≠ '\n')).length⟩

private theorem eq_behind_of_after_eq {before : List Char} {c : Char} {p : Position}
    (h : (behind before).after c = .ok p) : p = behind (before ++ [c]) := by
  rw [eq_of_after_eq h]
  by_cases hc : c = '\n'
  · subst hc
    simp [behind, Nat.add_assoc]
  · simp [behind, hc, Nat.add_comm]

/-- Reading goes on from the place behind some characters to the one behind more of them. -/
theorem eq_behind_of_past_eq {before cs : List Char} {p : Position}
    (h : (behind before).past cs = .ok p) : p = behind (before ++ cs) := by
  induction cs generalizing before with
  | nil =>
    rw [List.append_nil]
    exact (Except.ok.inj h).symm
  | cons c cs ih =>
    rw [past, List.foldlM_cons] at h
    cases hafter : (behind before).after c with
    | error fault => simp [hafter, bind, Except.bind] at h
    | ok q =>
      rw [hafter, eq_behind_of_after_eq hafter] at h
      rw [ih h, List.append_assoc, List.singleton_append]

end Position

theorem Punctuator.join?_eq_none_of_join? {p q : Punctuator} {c : Char} (h : p.join? c = some q)
    (d : Char) : q.join? d = none := by
  unfold join? at h
  split at h <;> cases h <;> rfl

namespace Token

private theorem goesOn_ofWord (word : List Char) (c : Char) :
    (ofWord word).goesOn c = isWordChar c := by
  unfold ofWord
  split
  · rfl
  · split <;> rfl

/-- A first token is taken as far as it goes. -/
theorem goesOn_of_first?_eq {cs rest : List Char} {t : Token} (h : first? cs = some (t, rest))
    {c : Char} (hc : rest.head? = some c) : t.goesOn c = false := by
  cases cs with
  | nil => simp [first?] at h
  | cons b cs =>
    simp only [first?] at h
    split at h
    · next p hp =>
      split at h
      · cases h
        simp at hc
      · next d cs' =>
        split at h
        · next q hq =>
          cases h
          simp [goesOn, Punctuator.join?_eq_none_of_join? hq]
        · next hnone =>
          cases h
          obtain rfl : d = c := by simpa using hc
          simp [goesOn, hnone]
    · cases h
      rw [goesOn_ofWord]
      simpa [hc] using List.head?_dropWhile_not isWordChar cs

end Token

/-- Tokens that are read back from a layout do not merge where there is no gap. -/
theorem isChain_of_reads_spread {lead : List Char} {spaced : List (Token × List Char)}
    (hlead : ∀ c ∈ lead, isBlank c = true) (hspelled : ∀ x ∈ spaced, x.1.IsSpelled)
    (hgaps : ∀ x ∈ spaced, ∀ c ∈ x.2, isBlank c = true)
    (h : Reads (spread lead spaced) (spaced.map Prod.fst)) :
    spaced.IsChain fun x y => x.2 = [] → x.1.merges y.1 = false := by
  induction spaced generalizing lead with
  | nil => exact .nil
  | cons x spaced ih =>
    obtain ⟨t, gap⟩ := x
    rw [List.forall_mem_cons] at hspelled hgaps
    rw [spread_cons] at h
    cases h with
    | @cons _ rest _ _ hfirst hrest =>
      have hdrop : (lead ++ (t.text.toList ++ spread gap spaced)).dropWhile isBlank =
          t.text.toList ++ spread gap spaced := dropWhile_isBlank_append hlead hspelled.1
      rw [hdrop] at hfirst
      obtain rfl : spread gap spaced = rest :=
        List.append_cancel_left (Token.eq_append_of_first?_eq hfirst)
      refine List.isChain_cons.mpr ⟨fun y hy hgap => ?_, ih hgaps.1 hspelled.2 hgaps.2 hrest⟩
      obtain ⟨spaced', rfl⟩ := List.head?_eq_some_iff.mp hy
      obtain ⟨c, cs, hc, -⟩ := Token.exists_cons_of_isSpelled (hspelled.2 y List.mem_cons_self)
      have hgoesOn : t.goesOn c = false :=
        Token.goesOn_of_first?_eq hfirst (by simp [spread, show gap = [] from hgap, hc])
      simpa [Token.merges, hc] using hgoesOn

/-- Well-spelled tokens are read back from a text exactly if no two of them merge where there is no
gap, in whatever words this is said. -/
theorem reads_spread_iff {R : Token → Token → Prop}
    (hR : ∀ {t u : Token}, u.IsSpelled → (t.merges u = true ↔ R t u)) {lead : List Char}
    {spaced : List (Token × List Char)} (hlead : ∀ c ∈ lead, isBlank c = true)
    (hspelled : ∀ x ∈ spaced, x.1.IsSpelled) (hgaps : ∀ x ∈ spaced, ∀ c ∈ x.2, isBlank c = true) :
    Reads (spread lead spaced) (spaced.map Prod.fst) ↔
      spaced.IsChain fun x y => x.2 = [] → ¬ R x.1 y.1 := by
  constructor
  · intro h
    have hchain := isChain_of_reads_spread hlead hspelled hgaps h
    refine hchain.imp_of_mem_imp fun x y _ hy happart hgap => ?_
    rw [← hR (hspelled y hy), happart hgap]
    exact Bool.false_ne_true
  · intro h
    refine reads_spread hlead hspelled hgaps (h.imp_of_mem_imp fun x y _ hy happart hgap => ?_)
    rw [← Bool.not_eq_true, hR (hspelled y hy)]
    exact happart hgap

/-- Blanks before some tokens and behind each of them. -/
structure Layout (u : List Token) where
  lead : List Char
  spaced : List (Token × List Char)
  map_fst : spaced.map Prod.fst = u
  blank_lead : ∀ c ∈ lead, isBlank c = true
  blank_gap : ∀ x ∈ spaced, ∀ c ∈ x.2, isBlank c = true

namespace Layout

variable {u : List Token}

/-- The text of a layout. -/
def text (l : Layout u) : String := String.ofList (spread l.lead l.spaced)

/-- The characters before a token of a layout, which is counted from zero. -/
def before (l : Layout u) (i : Nat) : List Char := spread l.lead (l.spaced.take i)

theorem toList_text (l : Layout u) : l.text.toList = spread l.lead l.spaced :=
  String.toList_ofList

end Layout

namespace Cursor

variable {c c' : Cursor} {before : List Char}

/-- What a scan does behind some characters: it passes the blanks that are left, or it finds a token
behind blanks, and comes to the place behind it. -/
theorem scan_cases_behind {found : Option (Located Token)} (hplace : c.position = .behind before)
    (h : c.scan = .ok (found, c')) :
    (found = none ∧ (∀ b ∈ c.rest, isBlank b = true) ∧ c' = ⟨[], .behind (before ++ c.rest)⟩) ∨
      ∃ lead token rest, found = some ⟨token, .behind (before ++ lead)⟩ ∧
        (∀ b ∈ lead, isBlank b = true) ∧ c.rest = lead ++ (token.text.toList ++ rest) ∧
        c' = ⟨rest, .behind (before ++ lead ++ token.text.toList)⟩ := by
  have hblank : ∀ b ∈ c.rest.takeWhile isBlank, isBlank b = true :=
    fun b hb => List.mem_takeWhile_imp hb
  have hsplit : c.rest.takeWhile isBlank ++ c.rest.dropWhile isBlank = c.rest :=
    List.takeWhile_append_dropWhile
  obtain ⟨p, hp, hcases⟩ := scan_cases h
  rw [hplace] at hp
  obtain rfl := Position.eq_behind_of_past_eq hp
  obtain ⟨hfirst, rfl, rfl⟩ | ⟨token, rest, p', hfirst, hp', rfl, rfl⟩ := hcases
  · rw [Token.first?_eq_none_iff.mp hfirst, List.append_nil] at hsplit
    rw [hsplit] at hblank ⊢
    exact Or.inl ⟨rfl, hblank, rfl⟩
  · obtain rfl := Position.eq_behind_of_past_eq hp'
    rw [Token.eq_append_of_first?_eq hfirst] at hsplit
    exact Or.inr ⟨_, token, rest, rfl, hblank, hsplit.symm, rfl⟩

/-- A text that is scanned behind some characters is a layout of its tokens, each of which lies
behind what stands before it. -/
theorem exists_layout {ts : List (Located Token)} {stop : Position}
    (hplace : c.position = .behind before) (h : c.tokens = .ok (ts, stop)) :
    ∃ l : Layout (ts.map Located.val), spread l.lead l.spaced = c.rest ∧
      (∀ (i : Nat) (t : Located Token), ts[i]? = some t →
        t.position = .behind (before ++ l.before i)) ∧
      stop = .behind (before ++ c.rest) := by
  induction ts generalizing c before with
  | nil =>
    obtain ⟨c', hscan, -, rfl⟩ | ⟨t, c', rest, -, -, heq⟩ := tokens_eq_ok_iff.mp h
    · obtain ⟨-, hblank, rfl⟩ | ⟨lead, token, rest, hfound, -⟩ := scan_cases_behind hplace hscan
      · exact ⟨⟨c.rest, [], rfl, hblank, by simp⟩, by simp [spread], by simp, rfl⟩
      · simp at hfound
    · simp at heq
  | cons t ts ih =>
    obtain ⟨c', -, hnil, -⟩ | ⟨t', c', rest, hscan, htokens, heq⟩ := tokens_eq_ok_iff.mp h
    · simp at hnil
    · cases heq
      obtain ⟨hfound, -⟩ | ⟨lead, token, rest, hfound, hlead, hrest, rfl⟩ :=
        scan_cases_behind hplace hscan
      · simp at hfound
      · cases hfound
        obtain ⟨l, hl, hplaces, hstop⟩ := ih rfl htokens
        refine ⟨⟨lead, (token, l.lead) :: l.spaced, by simp [l.map_fst], hlead,
          List.forall_mem_cons.mpr ⟨l.blank_lead, l.blank_gap⟩⟩, ?_, ?_, ?_⟩
        · rw [spread_cons, hl, hrest]
        · intro i t hi
          cases i with
          | zero =>
            obtain rfl := Option.some.inj hi
            simp [Layout.before, spread]
          | succ i =>
            rw [hplaces i t hi]
            simp [Layout.before, spread_cons]
        · rw [hstop, hrest]
          simp

end Cursor

/-- The tokens of a text end where the text does. -/
theorem stop_eq_of_tokenize_eq {text : String} {ts : List (Located Token)} {stop : Position}
    (h : tokenize text = .ok (ts, stop)) : stop = .behind text.toList := by
  have hplace : (Cursor.ofText text).position = .behind [] := rfl
  obtain ⟨l, -, -, hstop⟩ := Cursor.exists_layout hplace h
  exact hstop

/-- A text that is short enough is a layout of the tokens that a lexer over it hands out. Each token
lies at its place in the text, the end at the end of the text, none runs into the next one, and
words have the class of their texts. -/
theorem Lexer.exists_layout_of_handsOut {text : String} (h : text.length < 4294967295) :
    ∃ ts stop, tokenize text = .ok (ts, stop) ∧ Reader.HandsOut (Lexer.ofText text) ts stop ∧
      ∃ l : Layout (ts.map Located.val), l.text = text ∧
        (∀ (i : Nat) (t : Located Token), ts[i]? = some t → t.position = .behind (l.before i)) ∧
        stop = .behind text.toList ∧
        l.spaced.IsChain (fun x y => x.2 = [] → ¬ x.1.RunsInto y.1) ∧
        ∀ t ∈ ts, t.val.isWord = true → t.val.IsClassed := by
  obtain ⟨ts, stop, htokens, hholds⟩ := exists_holds_ofText h
  have hplace : (Cursor.ofText text).position = .behind [] := rfl
  obtain ⟨l, hl, hplaces, hstop⟩ := Cursor.exists_layout hplace htokens
  have hreads : Reads (spread l.lead l.spaced) (l.spaced.map Prod.fst) := by
    rw [hl, l.map_fst]
    exact Cursor.reads_of_tokens_eq htokens
  have hspelled := List.forall_mem_map.mp hreads.isSpelled
  refine ⟨ts, stop, htokens, Lexer.handsOut_ofText hholds, l, ?_, hplaces, hstop, ?_, ?_⟩
  · rw [Layout.text, hl]
    exact String.ofList_toList
  · exact (reads_spread_iff Token.merges_iff_runsInto l.blank_lead hspelled l.blank_gap).mp hreads
  · intro t ht hword
    have hmem : t.val ∈ l.spaced.map Prod.fst := by
      rw [l.map_fst]
      exact List.mem_map_of_mem ht
    exact (Token.isSpelled_iff_isWellFormed.mp (hreads.isSpelled _ hmem)).isClassed hword

/-- A text of two lines, with a numeral of no digits right behind two punctuators. -/
theorem Lexer.exists_layout_of_two_lines :
    let ts : List (Located Token) := [⟨.identifier "a", ⟨1, 1⟩⟩, ⟨.punctuator .lessEqual, ⟨2, 2⟩⟩,
      ⟨.punctuator .equal, ⟨2, 4⟩⟩, ⟨.literal "0X", ⟨2, 5⟩⟩]
    "a\n <==0X".length < 4294967295 ∧ Reader.HandsOut (Lexer.ofText "a\n <==0X") ts ⟨2, 7⟩ ∧
      ∃ l : Layout (ts.map Located.val), l.text = "a\n <==0X" ∧
        (∀ (i : Nat) (t : Located Token), ts[i]? = some t → t.position = .behind (l.before i)) ∧
        (⟨2, 7⟩ : Position) = .behind "a\n <==0X".toList ∧
        l.spaced.IsChain (fun x y => x.2 = [] → ¬ x.1.RunsInto y.1) ∧
        ∀ t ∈ ts, t.val.isWord = true → t.val.IsClassed := by
  intro ts
  have hlength : "a\n <==0X".length < 4294967295 := by decide
  have htokens : tokenize "a\n <==0X" = .ok (ts, ⟨2, 7⟩) := by
    refine Cursor.tokens_eq_ok_iff.mpr (Or.inr ⟨_, _, _, rfl, ?_, rfl⟩)
    refine Cursor.tokens_eq_ok_iff.mpr (Or.inr ⟨_, _, _, rfl, ?_, rfl⟩)
    refine Cursor.tokens_eq_ok_iff.mpr (Or.inr ⟨_, _, _, rfl, ?_, rfl⟩)
    refine Cursor.tokens_eq_ok_iff.mpr (Or.inr ⟨_, _, _, rfl, ?_, rfl⟩)
    exact Cursor.tokens_eq_ok_iff.mpr (Or.inl ⟨_, rfl, rfl, rfl⟩)
  obtain ⟨ts', stop, htokens', hlayout⟩ := exists_layout_of_handsOut hlength
  cases htokens.symm.trans htokens'
  exact ⟨hlength, hlayout⟩

/-- Whether there is a gap between any two tokens that need one. -/
def Layout.IsSeparated {u : List Token} (l : Layout u) : Prop :=
  l.spaced.IsChain fun x y => x.2 = [] → ¬ x.1.NeedsGap y.1

instance {u : List Token} (l : Layout u) : Decidable l.IsSeparated :=
  inferInstanceAs (Decidable (List.IsChain _ _))

/-- A layout is separated exactly if its tokens are read back from its text. -/
theorem Layout.isSeparated_iff_reads {u : List Token} (l : Layout u)
    (hu : ∀ t ∈ u, t.IsSpelled) : l.IsSeparated ↔ Reads l.text.toList u := by
  have hspelled : ∀ x ∈ l.spaced, x.1.IsSpelled := by
    intro x hx
    exact hu x.1 (l.map_fst ▸ List.mem_map_of_mem hx)
  rw [Layout.IsSeparated, ← reads_spread_iff Token.merges_iff_needsGap l.blank_lead hspelled
    l.blank_gap, l.toList_text, l.map_fst]

/-- A layout of well-formed tokens is separated exactly if a lexer over its text hands out these
tokens. -/
theorem Layout.isSeparated_iff_handsOut {u : List Token} (l : Layout u)
    (hu : ∀ t ∈ u, t.IsWellFormed) (hlength : l.text.length < 4294967295) :
    l.IsSeparated ↔ ∃ ts stop, tokenize l.text = .ok (ts, stop) ∧
      Reader.HandsOut (Lexer.ofText l.text) ts stop ∧ ts.map Located.val = u := by
  obtain ⟨ts, stop, htokens, hholds⟩ := Lexer.exists_holds_ofText hlength
  have hreads : Reads l.text.toList (ts.map Located.val) := Cursor.reads_of_tokens_eq htokens
  rw [l.isSeparated_iff_reads fun t ht => Token.isSpelled_iff_isWellFormed.mpr (hu t ht)]
  constructor
  · intro hback
    exact ⟨ts, stop, htokens, Lexer.handsOut_ofText hholds, hreads.unique hback⟩
  · rintro ⟨ts', stop', htokens', -, rfl⟩
    cases htokens.symm.trans htokens'
    exact hreads

/-- Punctuators that are told apart without gaps, before a name and a numeral that are not. -/
theorem Layout.isSeparated_iff_handsOut_of_punctuators :
    let u : List Token := [.punctuator .bang, .punctuator .bangEqual, .punctuator .andAnd,
      .punctuator .ampersand, .identifier "x", .literal "1"]
    let l : Layout u := ⟨[], [(.punctuator .bang, []), (.punctuator .bangEqual, []),
      (.punctuator .andAnd, []), (.punctuator .ampersand, []), (.identifier "x", ['\t']),
      (.literal "1", [])], rfl, by simp, by simp [isBlank, blankRanges]⟩
    (∀ t ∈ u, t.IsWellFormed) ∧ l.text = "!!=&&&x\t1" ∧ l.IsSeparated ∧
      ∃ ts stop, tokenize "!!=&&&x\t1" = .ok (ts, stop) ∧
        Reader.HandsOut (Lexer.ofText "!!=&&&x\t1") ts stop ∧ ts.map Located.val = u := by
  intro u l
  have hu : ∀ t ∈ u, t.IsWellFormed := by decide
  have htext : l.text = "!!=&&&x\t1" := by decide
  have hseparated : l.IsSeparated := by decide
  refine ⟨hu, htext, hseparated, ?_⟩
  rw [← htext]
  exact (l.isSeparated_iff_handsOut hu (by decide)).mp hseparated

end MiniC
