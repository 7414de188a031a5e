import MiniC.Proofs.Assembly.Delivery
import MiniC.Proofs.Parse.Refusal
import MiniC.Proofs.Token.Layout

/-!
# Other layouts of a text

No decision of a parse depends on where its tokens lie. So a text whose tokens are written with
other blanks is parsed to the same program and has the same code, or it is refused with the same
error, which lies at the token of the same number or at the end.
-/

namespace MiniC

open Assembly

/-- Two texts that differ in blanks: the tokens of the first one, which stand in it with some blanks
around them, stand in the second one with others that keep apart those which need it. -/
def Relaid (text text' : String) : Prop :=
  ∃ ts stop, tokenize text = .ok (ts, stop) ∧ ∃ l l' : Layout (ts.map Located.val),
    l.text = text ∧ l'.text = text' ∧ l'.IsSeparated

/-- Two separated layouts of the same tokens differ in blanks. -/
theorem Relaid.of_isSeparated {u : List Token} (hu : ∀ t ∈ u, t.IsSpelled) {l l' : Layout u}
    (hl : l.IsSeparated) (hl' : l'.IsSeparated) (hlength : l.text.length < 4294967295) :
    Relaid l.text l'.text := by
  obtain ⟨ts, stop, htokens, -⟩ := Lexer.exists_holds_ofText hlength
  obtain rfl : u = ts.map Located.val :=
    ((l.isSeparated_iff_reads hu).mp hl).unique (Cursor.reads_of_tokens_eq htokens)
  exact ⟨ts, stop, htokens, l, l', rfl, rfl, hl'⟩

/-- A text that is laid out anew has the same tokens. -/
theorem Relaid.map_val_eq {text text' : String} (h : Relaid text text')
    {ts ts' : List (Located Token)} {stop stop' : Position}
    (htokens : tokenize text = .ok (ts, stop)) (htokens' : tokenize text' = .ok (ts', stop')) :
    ts'.map Located.val = ts.map Located.val := by
  obtain ⟨_, _, htext, -, l, -, rfl, hseparated⟩ := h
  cases htext.symm.trans htokens
  have hspelled := (Cursor.reads_of_tokens_eq htokens).isSpelled
  exact (Cursor.reads_of_tokens_eq htokens').unique
    ((l.isSeparated_iff_reads hspelled).mp hseparated)

/-- What is written for a text depends on its program only. -/
theorem map_fst_translate {text : String} {p : Program} {log : Array Log.Record}
    (h : parseText text = .ok (.ok p, log)) (room : Room) :
    (translate text room).map Prod.fst =
      (emitProgram p room).map fun e => if e.complete then .done e.bytes else .cut e.bytes := by
  rw [translate, h]
  cases hemit : emitProgram p room with
  | error fault => simp [hemit, bind, Except.bind, Except.map]
  | ok e => simp [hemit, bind, Except.bind, Except.map, pure, Except.pure]

theorem translate_of_refused {text : String} {error : Located SyntaxError}
    {log : Array Log.Record} (h : parseText text = .ok (.error error, log)) (room : Room) :
    translate text room = .ok (.refused error, log) := by
  rw [translate, h]
  rfl

/-- A text that is short enough and the same tokens with other blanks are both parsed to the same
program, and the assembly of this program is written for both, or the same part of it to a sink
with less room. Or both are refused with the same error, which lies in each of them at the token of
the same number, or at the end, and nothing is written. -/
theorem translation_ignores_layout {text text' : String} (h : text.length < 4294967295)
    (h' : text'.length < 4294967295) (hrelaid : Relaid text text') :
    ∃ ts stop ts' stop', tokenize text = .ok (ts, stop) ∧ tokenize text' = .ok (ts', stop') ∧
      ts'.map Located.val = ts.map Located.val ∧ stop = .behind text.toList ∧
      stop' = .behind text'.toList ∧
      ((∃ p code, (parseText text).map Prod.fst = .ok (.ok p) ∧
          (parseText text').map Prod.fst = .ok (.ok p) ∧
          code = (Piece.program p).bytes {} ∧
          (translate text none).map Prod.fst = .ok (.done code) ∧
          (translate text' none).map Prod.fst = .ok (.done code) ∧
          ∀ room, (translate text' room).map Prod.fst = (translate text room).map Prod.fst) ∨
        ∃ e place place', (parseText text).map Prod.fst = .ok (.error ⟨e, place⟩) ∧
          (parseText text').map Prod.fst = .ok (.error ⟨e, place'⟩) ∧
          (∀ room, (translate text room).map Prod.fst = .ok (.refused ⟨e, place⟩) ∧
            (translate text' room).map Prod.fst = .ok (.refused ⟨e, place'⟩)) ∧
          ((∃ (i : Nat) (t t' : Located Token), ts[i]? = some t ∧ ts'[i]? = some t' ∧
              e.Blames (some t.val) ∧ place = t.position ∧ place' = t'.position) ∨
            (e.Blames none ∧ place = stop ∧ place' = stop'))) := by
  obtain ⟨ts, stop, htokens, hholds⟩ := Lexer.exists_holds_ofText h
  obtain ⟨ts', stop', htokens', hholds'⟩ := Lexer.exists_holds_ofText h'
  have hvals := hrelaid.map_val_eq htokens htokens'
  refine ⟨ts, stop, ts', stop', htokens, htokens', hvals, stop_eq_of_tokenize_eq htokens,
    stop_eq_of_tokenize_eq htokens', ?_⟩
  obtain ⟨r, rest, hcourse⟩ := Course.total_program stop ts
  obtain ⟨r', count, -, hcourse', hcorresponds⟩ :=
    Course.predictive_program.exists_corresponds hcourse hvals stop'
  obtain ⟨log, hparse⟩ := exists_parseText_of_course hholds hcourse
  obtain ⟨log', hparse'⟩ := exists_parseText_of_course hholds' hcourse'
  rw [hparse, hparse']
  cases hcorresponds with
  | accepted p =>
    obtain ⟨g, hemit⟩ := exists_emitProgram_of_parseText_eq h hparse
    refine Or.inl ⟨p, _, rfl, rfl, rfl, ?_, ?_, fun room => ?_⟩
    · rw [map_fst_translate hparse, hemit]
      rfl
    · rw [map_fst_translate hparse', hemit]
      rfl
    · rw [map_fst_translate hparse, map_fst_translate hparse']
  | @refused e i t t' ht ht' hblames =>
    refine Or.inr ⟨e, t.position, t'.position, rfl, rfl, fun room => ?_,
      Or.inl ⟨i, t, t', ht, ht', hblames, rfl, rfl⟩⟩
    rw [translate_of_refused hparse, translate_of_refused hparse']
    exact ⟨rfl, rfl⟩
  | atEnd e hblames =>
    refine Or.inr ⟨e, stop, stop', rfl, rfl, fun room => ?_, Or.inr ⟨hblames, rfl, rfl⟩⟩
    rw [translate_of_refused hparse, translate_of_refused hparse']
    exact ⟨rfl, rfl⟩

/-- A function on one line and on three, which has the same code, and a missing parenthesis, found
on the only line of a text and on the third line of another. -/
theorem translation_ignores_layout_of_two_texts :
    let code : Bytes := .ofText ".global x\nx:\n\tmovl    $7, %eax\n\tret\n"
    let e : SyntaxError :=
      .unexpected (.token (.punctuator .openParen)) (some (.punctuator .closeParen))
    (Relaid "int x()\x7breturn 7;\x7d" "int x ( )\n\x7b\treturn\n7 ;\x7d\n" ∧
      (translate "int x()\x7breturn 7;\x7d" none).map Prod.fst = .ok (.done code) ∧
      (translate "int x ( )\n\x7b\treturn\n7 ;\x7d\n" none).map Prod.fst = .ok (.done code)) ∧
    Relaid "int x)" "\nint\tx\n )" ∧
      (translate "int x)" none).map Prod.fst = .ok (.refused ⟨e, ⟨1, 6⟩⟩) ∧
      (translate "\nint\tx\n )" none).map Prod.fst = .ok (.refused ⟨e, ⟨3, 2⟩⟩) ∧
      ∃ ts stop ts' stop', tokenize "int x)" = .ok (ts, stop) ∧
        tokenize "\nint\tx\n )" = .ok (ts', stop') ∧
        ∃ (i : Nat) (t t' : Located Token), ts[i]? = some t ∧ ts'[i]? = some t' ∧
          t.position = ⟨1, 6⟩ ∧ t'.position = ⟨3, 2⟩ := by
  intro code e
  constructor
  · let u : List Token := [.keyword .int, .identifier "x", .punctuator .openParen,
      .punctuator .closeParen, .punctuator .openCurly, .keyword .ret, .literal "7",
      .punctuator .semicolon, .punctuator .closeCurly]
    let p : Program := ⟨⟨"x", .ret (.integer 7)⟩⟩
    let l : Layout u := ⟨[], u.zip [[' '], [], [], [], [], [' '], [], [], []], rfl, by simp,
      by simp [u, isBlank, blankRanges]⟩
    let l' : Layout u := ⟨[], u.zip [[' '], [' '], [' '], ['\n'], ['\t'], ['\n'], [' '], [],
      ['\n']], rfl, by simp, by simp [u, isBlank, blankRanges]⟩
    have hspelled : ∀ t ∈ u, t.IsSpelled := by
      simp only [Token.isSpelled_iff_isWellFormed]
      decide
    have htext : l.text = "int x()\x7breturn 7;\x7d" := by decide
    have htext' : l'.text = "int x ( )\n\x7b\treturn\n7 ;\x7d\n" := by decide
    have hrelaid := Relaid.of_isSeparated hspelled (by decide : l.IsSeparated)
      (by decide : l'.IsSeparated) (by decide)
    rw [htext, htext'] at hrelaid
    have hresult : (parseText "int x()\x7breturn 7;\x7d").map Prod.fst = .ok (.ok p) := by
      decide +kernel
    have hcode : (Piece.program p).bytes {} = code := by decide +kernel
    refine ⟨hrelaid, ?_⟩
    obtain ⟨_, _, _, _, -, -, -, -, -, ⟨q, _, hparse, -, rfl, hdone, hdone', -⟩ | hrefused⟩ :=
      translation_ignores_layout (by decide) (by decide) hrelaid
    · cases hresult.symm.trans hparse
      rw [hcode] at hdone hdone'
      exact ⟨hdone, hdone'⟩
    · obtain ⟨e', place, place', hparse, -⟩ := hrefused
      cases hresult.symm.trans hparse
  · let u : List Token := [.keyword .int, .identifier "x", .punctuator .closeParen]
    let l : Layout u := ⟨[], u.zip [[' '], [], []], rfl, by simp,
      by simp [u, isBlank, blankRanges]⟩
    let l' : Layout u := ⟨['\n'], u.zip [['\t'], ['\n', ' '], []], rfl,
      by simp [isBlank, blankRanges], by simp [u, isBlank, blankRanges]⟩
    have hspelled : ∀ t ∈ u, t.IsSpelled := by
      simp only [Token.isSpelled_iff_isWellFormed]
      decide
    have htext : l.text = "int x)" := by decide
    have htext' : l'.text = "\nint\tx\n )" := by decide
    have hrelaid := Relaid.of_isSeparated hspelled (by decide : l.IsSeparated)
      (by decide : l'.IsSeparated) (by decide)
    rw [htext, htext'] at hrelaid
    have hresult : (parseText "int x)").map Prod.fst = .ok (.error ⟨e, ⟨1, 6⟩⟩) := by decide +kernel
    have hresult' : (parseText "\nint\tx\n )").map Prod.fst = .ok (.error ⟨e, ⟨3, 2⟩⟩) := by
      decide +kernel
    refine ⟨hrelaid, ?_⟩
    obtain ⟨ts, stop, ts', stop', hts, hts', -, -, -, ⟨p, code, hparse, -⟩ | hrefused⟩ :=
      translation_ignores_layout (by decide) (by decide) hrelaid
    · cases hresult.symm.trans hparse
    · obtain ⟨e', place, place', hparse, hparse', htranslate, hplaces⟩ := hrefused
      cases hresult.symm.trans hparse
      cases hresult'.symm.trans hparse'
      obtain ⟨hrefused, hrefused'⟩ := htranslate none
      obtain ⟨i, t, t', ht, ht', -, hplace, hplace'⟩ | ⟨hblames, -⟩ := hplaces
      · exact ⟨hrefused, hrefused', ts, stop, ts', stop', hts, hts', i, t, t', ht, ht',
          hplace.symm, hplace'.symm⟩
      · cases hblames

end MiniC
