import MiniC.Proofs.Token.Layout
import MiniC.Source.File
import Mathlib.Data.List.DropRight

/-!
# Places and lines

Scanning a text counts its line feeds one by one, while looking up a line splits the whole text at
them and drops a carriage return before each. Both agree on what the lines are: a token stands in
the line of its place, from its column on, and a text ends in the line that it leaves open, which
can be looked up unless it is empty.
-/

namespace MiniC

/-- The line that some characters leave open: what stands behind the last line feed. -/
def openLine (cs : List Char) : List Char := cs.rtakeWhile (· ≠ '\n')

theorem lineFeed_not_mem_openLine (cs : List Char) : '\n' ∉ openLine cs := by
  intro h
  simpa using List.mem_rtakeWhile_imp h

private theorem openLine_append_lineFeed (cs : List Char) : openLine (cs ++ ['\n']) = [] :=
  List.rtakeWhile_concat_neg _ _ _ (by simp)

private theorem openLine_append_of_ne {c : Char} (hc : c ≠ '\n') (cs : List Char) :
    openLine (cs ++ [c]) = openLine cs ++ [c] :=
  List.rtakeWhile_concat_pos _ _ _ (by simpa using hc)

theorem Position.column_behind (before : List Char) :
    (behind before).column = (openLine before).length + 1 := by
  simp [behind, openLine, List.rtakeWhile, Nat.add_comm]

/-- A character that does not end a line stands at the beginning of the first one. -/
theorem linesOf_cons {c : Char} {cs : List Char} (hc : c ≠ '\n')
    (hreturn : c = '\r' → cs.head? ≠ some '\n') :
    linesOf (c :: cs) = (c :: (linesOf cs).headD []) :: (linesOf cs).tail := by
  rw [linesOf]
  · cases linesOf cs <;> rfl
  · rintro rest rfl rfl
    exact hreturn rfl rfl
  · exact hc

/-- A line feed ends the first line, whatever stands before it. -/
theorem tail_linesOf_append {line : List Char} (h : '\n' ∉ line) (rest : List Char) :
    (linesOf (line ++ '\n' :: rest)).tail = linesOf rest := by
  induction line with
  | nil => simp [linesOf]
  | cons c line ih =>
    rw [List.mem_cons, not_or] at h
    by_cases hreturn : c = '\r' ∧ line = []
    · obtain ⟨rfl, rfl⟩ := hreturn
      simp [linesOf]
    · rw [List.cons_append, linesOf_cons (Ne.symm h.1), List.tail_cons, ih h.2]
      rintro rfl hhead
      cases line with
      | nil => exact hreturn ⟨rfl, rfl⟩
      | cons d line =>
        obtain rfl : d = '\n' := by simpa using hhead
        exact h.2 List.mem_cons_self

/-- Characters that end no line, the last of which no line feed takes along, are the beginning of
the first line. -/
theorem exists_linesOf_append {u : List Char} (hne : u ≠ []) (h : '\n' ∉ u)
    (hlast : u.getLast hne ≠ '\r') (more : List Char) :
    ∃ line lines, linesOf (u ++ more) = line :: lines ∧ u <+: line := by
  induction u with
  | nil => exact absurd rfl hne
  | cons c u ih =>
    rw [List.mem_cons, not_or] at h
    cases u with
    | nil =>
      refine ⟨_, _, linesOf_cons (Ne.symm h.1) fun hreturn => absurd hreturn hlast, ?_⟩
      simp
    | cons d u =>
      obtain ⟨line, lines, hlines, hprefix⟩ := ih (by simp) h.2 hlast
      refine ⟨c :: line, lines, ?_, List.prefix_cons_inj c |>.mpr hprefix⟩
      rw [List.cons_append, linesOf_cons (Ne.symm h.1), hlines, List.headD_cons, List.tail_cons]
      rintro - hhead
      obtain rfl : d = '\n' := by simpa using hhead
      exact h.2 List.mem_cons_self

/-- Characters that end no line are a line unless there are none. -/
theorem linesOf_of_not_mem {line : List Char} (h : '\n' ∉ line) :
    linesOf line = if line = [] then [] else [line] := by
  induction line with
  | nil => rfl
  | cons c line ih =>
    rw [List.mem_cons, not_or] at h
    rw [linesOf_cons (Ne.symm h.1) fun _ hhead => h.2 (List.mem_of_mem_head? hhead), ih h.2]
    cases line <;> simp

/-- No line holds a line feed. -/
theorem lineFeed_not_mem_of_mem_linesOf {cs line : List Char} (h : line ∈ linesOf cs) :
    '\n' ∉ line := by
  fun_induction linesOf cs generalizing line with
  | case1 => simp at h
  | case2 rest ih =>
    rcases List.mem_cons.mp h with rfl | h
    · simp
    · exact ih h
  | case3 rest ih =>
    rcases List.mem_cons.mp h with rfl | h
    · simp
    · exact ih h
  | case4 c rest hreturn hc hlines ih =>
    obtain rfl := List.mem_singleton.mp h
    simpa using Ne.symm hc
  | case5 c rest hreturn hc first lines hlines ih =>
    rw [hlines] at ih
    rcases List.mem_cons.mp h with rfl | h
    · rw [List.mem_cons, not_or]
      exact ⟨Ne.symm hc, ih List.mem_cons_self⟩
    · exact ih (List.mem_cons_of_mem _ h)

/-- Behind the lines that some characters end comes the line that they leave open, and those after
it. -/
theorem drop_linesOf (before more : List Char) :
    (linesOf (before ++ more)).drop (before.count '\n') = linesOf (openLine before ++ more) := by
  -- From the right, as reading a text goes on to its next character.
  induction before using List.reverseRecOn generalizing more with
  | nil => rfl
  | append_singleton before c ih =>
    rw [List.append_assoc, List.singleton_append, List.count_append]
    by_cases hc : c = '\n'
    · subst hc
      rw [List.count_singleton_self, ← List.drop_drop, ih, List.drop_one,
        tail_linesOf_append (lineFeed_not_mem_openLine before), openLine_append_lineFeed,
        List.nil_append]
    · rw [List.count_singleton, if_neg (by simpa using hc), Nat.add_zero, ih,
        openLine_append_of_ne hc, List.append_assoc, List.singleton_append]

namespace SourceFile

variable {file : SourceFile} {before more : List Char}

theorem lineFeed_not_mem_line? {number : Nat} {line : String} (h : file.line? number = some line) :
    '\n' ∉ line.toList := by
  cases number with
  | zero => simp [line?] at h
  | succ index =>
    obtain ⟨shown, hshown, rfl⟩ := Option.map_eq_some_iff.mp h
    rw [String.toList_ofList]
    exact lineFeed_not_mem_of_mem_linesOf (List.mem_of_getElem? hshown)

/-- The line of the place behind some characters is the one that they leave open. -/
theorem line?_behind (h : file.text.toList = before ++ more) :
    file.line? (Position.behind before).line =
      (linesOf (openLine before ++ more)).head?.map String.ofList := by
  rw [← drop_linesOf, List.head?_drop, ← h, Position.behind, Nat.add_comm]
  rfl

/-- Characters that are not blank stand in the line of their place, behind the characters that they
have before them in it. -/
theorem exists_line?_behind {word : List Char} (h : file.text.toList = before ++ (word ++ more))
    (hne : word ≠ []) (hword : ∀ c ∈ word, isBlank c = false) :
    ∃ line, file.line? (Position.behind before).line = some line ∧
      openLine before ++ word <+: line.toList := by
  have hnot (c : Char) (hc : isBlank c = true) : c ∉ word := by
    intro hmem
    exact absurd (hword c hmem) (by simp [hc])
  have hfeed : '\n' ∉ openLine before ++ word := by
    rw [List.mem_append, not_or]
    exact ⟨lineFeed_not_mem_openLine before, hnot '\n' (by decide)⟩
  have hlast : (openLine before ++ word).getLast (by simp [hne]) ≠ '\r' := by
    rw [List.getLast_append_of_ne_nil _ hne]
    intro hreturn
    exact hnot '\r' (by decide) (hreturn ▸ List.getLast_mem hne)
  obtain ⟨line, lines, hlines, hprefix⟩ := exists_linesOf_append (by simp [hne]) hfeed hlast more
  refine ⟨String.ofList line, ?_, by simpa using hprefix⟩
  rw [line?_behind h, ← List.append_assoc, hlines]
  rfl

/-- The line of the place where a text ends is the one that the text leaves open, unless that is
empty. -/
theorem line?_behind_text (file : SourceFile) :
    file.line? (Position.behind file.text.toList).line =
      if openLine file.text.toList = [] then none
      else some (String.ofList (openLine file.text.toList)) := by
  rw [line?_behind (List.append_nil _).symm, List.append_nil,
    linesOf_of_not_mem (lineFeed_not_mem_openLine _)]
  split <;> rfl

end SourceFile

/-- A token holds no blank. -/
theorem Token.isBlank_eq_false_of_mem_text {t : Token} (ht : t.IsSpelled) {c : Char}
    (hc : c ∈ t.text.toList) : isBlank c = false := by
  cases t with
  | identifier name => exact isBlank_eq_false_of_isWordChar (ht.1.2 c hc)
  | keyword k => exact isBlank_eq_false_of_isWordChar (k.isWord_text.1.2 c hc)
  | literal text => exact isBlank_eq_false_of_isWordChar (ht.1.2 c hc)
  | punctuator p =>
    have hall : p.text.toList.all (fun c => !isBlank c) = true := by cases p <;> decide
    simpa using List.all_eq_true.mp hall c hc

/-- What stands in a layout before a token, with the token. -/
theorem Layout.exists_text_eq {u : List Token} (l : Layout u) {i : Nat} {t : Token}
    (h : u[i]? = some t) : ∃ more, l.text.toList = l.before i ++ (t.text.toList ++ more) := by
  rw [← l.map_fst, List.getElem?_map, Option.map_eq_some_iff] at h
  obtain ⟨⟨t, gap⟩, hi, rfl⟩ := h
  obtain ⟨hlt, hget⟩ := List.getElem?_eq_some_iff.mp hi
  have hsplit : l.spaced.take i ++ (t, gap) :: l.spaced.drop (i + 1) = l.spaced := by
    rw [← hget, ← List.drop_eq_getElem_cons hlt, List.take_append_drop]
  refine ⟨spread gap (l.spaced.drop (i + 1)), ?_⟩
  calc l.text.toList
      = spread l.lead (l.spaced.take i ++ (t, gap) :: l.spaced.drop (i + 1)) := by
        rw [hsplit, l.toList_text]
    _ = l.before i ++ (t.text.toList ++ spread gap (l.spaced.drop (i + 1))) := by
        simp [spread, Layout.before]

/-- A token of a text is well spelled, and stands in the text at its place. -/
theorem exists_behind_of_mem_tokens {text : String} {ts : List (Located Token)} {stop : Position}
    (h : tokenize text = .ok (ts, stop)) {t : Located Token} (ht : t ∈ ts) :
    t.val.IsSpelled ∧ ∃ before more, text.toList = before ++ (t.val.text.toList ++ more) ∧
      t.position = .behind before := by
  obtain ⟨i, hi⟩ := List.mem_iff_getElem?.mp ht
  have hplace : (Cursor.ofText text).position = .behind [] := rfl
  obtain ⟨l, hl, hplaces, -⟩ := Cursor.exists_layout hplace h
  obtain ⟨more, hmore⟩ := l.exists_text_eq (i := i) (t := t.val) (by simp [hi])
  rw [l.toList_text, hl] at hmore
  exact ⟨(Cursor.reads_of_tokens_eq h).isSpelled _ (List.mem_map_of_mem ht), l.before i, more,
    hmore, hplaces i t hi⟩

/-- A token of a text stands in the line of its place, behind what stands before it in this line. -/
theorem SourceFile.exists_line?_of_mem_tokens {file : SourceFile} {ts : List (Located Token)}
    {stop : Position} (h : tokenize file.text = .ok (ts, stop)) {t : Located Token} (ht : t ∈ ts) :
    ∃ before more line rest, file.text.toList = before ++ (t.val.text.toList ++ more) ∧
      t.position = .behind before ∧ file.line? t.position.line = some line ∧
      line.toList = openLine before ++ (t.val.text.toList ++ rest) := by
  obtain ⟨hspelled, before, more, htext, hplace⟩ := exists_behind_of_mem_tokens h ht
  obtain ⟨c, cs, hcons, -⟩ := Token.exists_cons_of_isSpelled hspelled
  obtain ⟨line, hline, rest, hrest⟩ := exists_line?_behind htext (by simp [hcons])
    fun c hc => Token.isBlank_eq_false_of_mem_text hspelled hc
  refine ⟨before, more, line, rest, htext, hplace, ?_, ?_⟩
  · rw [hplace, hline]
  · rw [← hrest, List.append_assoc]

/-- A lexer over a text that is short enough hands out tokens that can be looked up: each of them
stands in the line of its place, from its column on. The text ends behind the characters of the line
that it leaves open, which is the line of this place, or there is none if it is empty. -/
theorem Lexer.tokens_stand_in_lines (file : SourceFile) (h : file.text.length < 4294967295) :
    ∃ ts stop, tokenize file.text = .ok (ts, stop) ∧
      Reader.HandsOut (Lexer.ofText file.text) ts stop ∧
      (∀ t ∈ ts, ∃ line, file.line? t.position.line = some line ∧ 1 ≤ t.position.column ∧
        t.val.text.toList <+: line.toList.drop (t.position.column - 1)) ∧
      (openLine file.text.toList).length + 1 = stop.column ∧
      file.line? stop.line = if openLine file.text.toList = [] then none
        else some (String.ofList (openLine file.text.toList)) := by
  obtain ⟨ts, stop, htokens, hholds⟩ := exists_holds_ofText h
  have hstop := stop_eq_of_tokenize_eq htokens
  refine ⟨ts, stop, htokens, Lexer.handsOut_ofText hholds, ?_, ?_, ?_⟩
  · intro t ht
    obtain ⟨before, more, line, rest, -, hplace, hline, hrest⟩ :=
      SourceFile.exists_line?_of_mem_tokens htokens ht
    have hcolumn : t.position.column = (openLine before).length + 1 := by
      rw [hplace, Position.column_behind]
    refine ⟨line, hline, by omega, ?_⟩
    rw [hcolumn, Nat.add_sub_cancel, hrest, List.drop_left]
    exact List.prefix_append _ _
  · rw [hstop, Position.column_behind]
  · rw [hstop]
    exact file.line?_behind_text

/-- A carriage return goes with the line feed behind it, and another one stays where there is none;
a character of two bytes takes up one column. -/
theorem Lexer.tokens_stand_in_lines_of_returns :
    let file : SourceFile := ⟨"a.c", "x\r\n é<=1\r"⟩
    let ts : List (Located Token) := [⟨.identifier "x", ⟨1, 1⟩⟩, ⟨.identifier "é", ⟨2, 2⟩⟩,
      ⟨.punctuator .lessEqual, ⟨2, 3⟩⟩, ⟨.literal "1", ⟨2, 5⟩⟩]
    file.text.length < 4294967295 ∧ Reader.HandsOut (Lexer.ofText file.text) ts ⟨2, 7⟩ ∧
      (∀ t ∈ ts, ∃ line, file.line? t.position.line = some line ∧ 1 ≤ t.position.column ∧
        t.val.text.toList <+: line.toList.drop (t.position.column - 1)) ∧
      file.line? 1 = some "x" ∧ file.line? 2 = some " é<=1\r" := by
  intro file ts
  have hlength : file.text.length < 4294967295 := by decide
  have htokens : tokenize "x\r\n é<=1\r" = .ok (ts, ⟨2, 7⟩) := by
    refine Cursor.tokens_eq_ok_iff.mpr (Or.inr ⟨_, _, _, rfl, ?_, rfl⟩)
    refine Cursor.tokens_eq_ok_iff.mpr (Or.inr ⟨_, _, _, rfl, ?_, rfl⟩)
    refine Cursor.tokens_eq_ok_iff.mpr (Or.inr ⟨_, _, _, rfl, ?_, rfl⟩)
    refine Cursor.tokens_eq_ok_iff.mpr (Or.inr ⟨_, _, _, rfl, ?_, rfl⟩)
    exact Cursor.tokens_eq_ok_iff.mpr (Or.inl ⟨_, rfl, rfl, rfl⟩)
  obtain ⟨ts', stop, htokens', hhands, hlines, -, hend⟩ := tokens_stand_in_lines file hlength
  cases htokens.symm.trans htokens'
  have hopen : openLine file.text.toList = " é<=1\r".toList := by decide
  rw [hopen] at hend
  exact ⟨hlength, hhands, hlines, by decide, hend⟩

end MiniC
