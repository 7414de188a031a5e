import MiniC.Proofs.Assembly.Piece
import MiniC.Proofs.Parse.RoundTrip

/-!
# Delivery

A sink with limited room takes the first bytes of what is written for it, and there is an error
exactly if something is left. So it is with each piece of code, and with a whole translation, where
nothing is written of a text that is refused. A text whose places can be counted never makes the
labels run out, since each operator that takes two labels is spelled with two characters.
-/

namespace MiniC

open Assembly Grammar

/-- The tokens of a text are together not longer than the text. -/
theorem Reads.sum_length_le {cs : List Char} {u : List Token} (h : Reads cs u) :
    (u.map fun t => t.text.length).sum ≤ cs.length := by
  induction h with
  | nil h => exact Nat.zero_le _
  | @cons cs rest t ts h hrest ih =>
    have hsplit := congrArg List.length (Token.eq_append_of_first?_eq h)
    have hdrop : (cs.dropWhile isBlank).length ≤ cs.length := (List.dropWhile_sublist _).length_le
    rw [List.length_append, String.length_toList] at hsplit
    rw [List.map_cons, List.sum_cons]
    omega

namespace Grammar

/-- Each operator `&&` or `||` of a derived expression takes up two characters. -/
theorem Derives.two_mul_branchCount_le {level : Level} {u : List Token} {e : Expr}
    (h : Derives level u e) : 2 * e.branchCount ≤ (u.map fun t => t.text.length).sum := by
  induction h with
  | operand hnext h ih => exact ih
  | @binary level next u v p op left right hnext hop hleft hright ihl ihr =>
    have hall : ∀ q ∈ level.operators,
        2 * (if q.2 = .and ∨ q.2 = .or then 1 else 0) ≤ (Token.punctuator q.1).text.length := by
      cases level <;> decide
    have hoperator := hall (p, op) hop
    simp only [List.map_append, List.map_cons, List.sum_append, List.sum_cons, Expr.branchCount]
    dsimp only at hoperator
    omega
  | parens h ih =>
    simp only [List.map_append, List.map_cons, List.sum_append, List.sum_cons]
    omega
  | unary hop h ih =>
    rw [List.map_cons, List.sum_cons, Expr.branchCount]
    omega
  | integer h hn => exact Nat.zero_le _

theorem DerivesProgram.two_mul_branchCount_le {u : List Token} {p : Program}
    (h : DerivesProgram u p) : 2 * p.result.branchCount ≤ (u.map fun t => t.text.length).sum := by
  obtain ⟨⟨name, body⟩⟩ := p
  cases h with
  | function hbody =>
    cases hbody with
    | ret h =>
      have hle := h.two_mul_branchCount_le
      simp only [List.map_append, List.map_cons, List.sum_append, List.sum_cons]
      exact Nat.le_trans hle (by omega)

end Grammar

/-- Parsing a text that is short enough ends without a fault. -/
theorem exists_parseText {text : String} (h : text.length < 4294967295) :
    ∃ result log, parseText text = .ok (result, log) := by
  obtain ⟨ts, stop, -, hholds⟩ := Lexer.exists_holds_ofText h
  obtain ⟨result, rest, hcourse⟩ := Course.total_program stop ts
  exact ⟨result, exists_parseText_of_course hholds hcourse⟩

/-- A text that is short enough has too few operators to make the labels run out. -/
theorem two_mul_branchCount_le_of_parseText_eq {text : String} (h : text.length < 4294967295)
    {p : Program} {log : Array Log.Record} (hparse : parseText text = .ok (.ok p, log)) :
    2 * p.result.branchCount ≤ text.length := by
  obtain ⟨u, hreads, hderives⟩ := (exists_parseText_eq_iff h).mp ⟨log, hparse⟩
  rw [← String.length_toList]
  exact hderives.two_mul_branchCount_le.trans hreads.sum_length_le

/-- The code of a program that is parsed from a text that is short enough is written completely. -/
theorem exists_emitProgram_of_parseText_eq {text : String} (h : text.length < 4294967295)
    {p : Program} {log : Array Log.Record} (hparse : parseText text = .ok (.ok p, log)) :
    ∃ g, emitProgram p none = .ok ⟨(Piece.program p).bytes {}, true, g⟩ := by
  have hcount := two_mul_branchCount_le_of_parseText_eq h hparse
  have hroom : 0 + (Piece.program p).result.labelCount ≤ counterMax := by
    have hlabels : (Piece.program p).result.labelCount = 2 * p.result.branchCount :=
      Expr.labelCount_eq_branchCount _
    rw [hlabels, counterMax]
    omega
  exact ⟨_, Generator.emit_none (g := {}) hroom⟩

/-- A text that is short enough and parses is translated completely. -/
theorem translate_none_of_parseText_eq {text : String} (h : text.length < 4294967295)
    {p : Program} {log : Array Log.Record} (hparse : parseText text = .ok (.ok p, log)) :
    translate text none =
      .ok (.done ((Piece.program p).bytes {}), log ++ (Piece.program p).log) := by
  obtain ⟨g, hemit⟩ := exists_emitProgram_of_parseText_eq h hparse
  simp only [translate, hparse, hemit, bind, Except.bind]
  rfl

/-- What a sink with room for so many bytes takes of some bytes, and its error if that is not all of
them. -/
structure Assembly.Delivers (limit : Nat) (all taken : Bytes) (error? : Option String) : Prop where
  taken_eq : taken = all.take (min limit all.length)
  eq_none_of_le : all.length ≤ limit → error? = none
  eq_some_of_lt : limit < all.length → error? = some Room.fullMessage

theorem Assembly.Delivers.of_emission {limit : Nat} {all : Bytes} {e : Emission}
    (hbytes : e.bytes = all.take limit) (hcomplete : e.complete = true ↔ all.length ≤ limit) :
    Delivers limit all e.bytes e.error? := by
  refine ⟨?_, fun hle => ?_, fun hlt => ?_⟩
  · rw [hbytes, ← List.take_eq_take_min]
  · rw [Emission.error?, if_pos (hcomplete.mpr hle)]
  · have hcut : ¬ e.complete = true := by
      rw [hcomplete]
      omega
    rw [Emission.error?, if_neg hcut]

/-- A translation of a program shows what the emission of its code does. -/
theorem Translation.eq_of_emission (e : Emission) :
    (if e.complete then done e.bytes else cut e.bytes).written = e.bytes ∧
      (if e.complete then done e.bytes else cut e.bytes).cause? = e.error? := by
  unfold Emission.error?
  split <;> exact ⟨rfl, rfl⟩

/-- Translating a program to a limited sink delivers the program's code. -/
theorem exists_translate_of_parseText_eq {text : String} {p : Program} {log : Array Log.Record}
    (hparse : parseText text = .ok (.ok p, log)) {all : Emission}
    (hall : emitProgram p none = .ok all) (limit : Nat) :
    ∃ outcome log', translate text (some limit) = .ok (outcome, log') ∧
      Delivers limit all.bytes outcome.written outcome.cause? ∧
      (all.bytes.length ≤ limit → outcome = .done all.bytes) ∧
      (limit < all.bytes.length → outcome = .cut (all.bytes.take limit)) := by
  obtain ⟨e, he, hbytes, hcomplete⟩ := Generator.exists_run_limit hall limit
  have hemit : emitProgram p (some limit) = .ok e := he
  have htranslate : translate text (some limit) =
      .ok (if e.complete then .done e.bytes else .cut e.bytes,
        log ++ (Piece.program p).log) := by
    simp only [translate, hparse, hemit, bind, Except.bind]
    rfl
  obtain ⟨hwritten, hcause⟩ := Translation.eq_of_emission e
  refine ⟨_, _, htranslate, ?_, fun hle => ?_, fun hlt => ?_⟩
  · rw [hwritten, hcause]
    exact .of_emission hbytes hcomplete
  · rw [if_pos (hcomplete.mpr hle), hbytes, List.take_of_length_le hle]
  · have hcut : ¬ e.complete = true := by
      rw [hcomplete]
      omega
    rw [if_neg hcut, hbytes]

/-- A text that is short enough is refused with the error of its parse and nothing written, or its
program's code is delivered to a limited sink. So is each piece of code that any generator writes,
if the labels do not run out. -/
theorem translate_delivers_all_or_prefix :
    (∀ {text : String}, text.length < 4294967295 → ∀ limit : Nat,
      ∃ result log outcome log', parseText text = .ok (result, log) ∧
        translate text (some limit) = .ok (outcome, log') ∧
        (∀ error, result = .error error → outcome = .refused error ∧ outcome.written = []) ∧
        ∀ p, result = .ok p → ∃ all, emitProgram p none = .ok all ∧ all.complete = true ∧
          all.bytes = .ofText (textOf ((Piece.program p).lines {})) ∧
          Delivers limit all.bytes outcome.written outcome.cause? ∧
          (all.bytes.length ≤ limit → outcome = .done all.bytes) ∧
          (limit < all.bytes.length → outcome = .cut (all.bytes.take limit))) ∧
    ∀ {g : Generator} {piece : Piece}, g.nextLabel + 2 * piece.result.branchCount < 4294967296 →
      ∀ limit : Nat, ∃ all e, g.emit piece none = .ok all ∧ all.complete = true ∧
        all.bytes = .ofText (textOf (piece.lines g)) ∧ g.emit piece (some limit) = .ok e ∧
        Delivers limit all.bytes e.bytes e.error? := by
  constructor
  · intro text h limit
    obtain ⟨result, log, hparse⟩ := exists_parseText h
    cases result with
    | error error =>
      have htranslate : translate text (some limit) = .ok (.refused error, log) := by
        rw [translate, hparse]
        rfl
      refine ⟨_, log, _, log, hparse, htranslate, ?_, by simp⟩
      rintro _ ⟨⟩
      exact ⟨rfl, rfl⟩
    | ok p =>
      have hcount := two_mul_branchCount_le_of_parseText_eq h hparse
      have hroom : 0 + (Piece.program p).result.labelCount ≤ counterMax := by
        have hlabels : (Piece.program p).result.labelCount = 2 * p.result.branchCount :=
          Expr.labelCount_eq_branchCount _
        rw [hlabels, counterMax]
        omega
      have hall := Generator.emit_none (g := {}) hroom
      obtain ⟨outcome, log', htranslate, hdelivers⟩ :=
        exists_translate_of_parseText_eq hparse hall limit
      refine ⟨_, log, outcome, log', hparse, htranslate, by simp, ?_⟩
      rintro _ ⟨⟩
      exact ⟨_, hall, rfl, rfl, hdelivers⟩
  · intro g piece h limit
    have hroom : g.nextLabel + piece.result.labelCount ≤ counterMax := by
      rw [Expr.labelCount_eq_branchCount, counterMax]
      omega
    obtain ⟨e, he, hbytes, hcomplete⟩ := Generator.exists_emit_limit hroom limit
    exact ⟨_, e, Generator.emit_none hroom, rfl, rfl, he, .of_emission hbytes hcomplete⟩

/-- A sink that is full in the middle of a name: of its two bytes there is room for one. -/
theorem translate_delivers_all_or_prefix_of_cut_name :
    let text := "int é()\x7breturn 1&&2;\x7d"
    text.length < 4294967295 ∧ (∃ log, translate text (some 9) =
      .ok (.cut (Bytes.ofText ".global " ++ [195]), log)) ∧
    ∃ e, (⟨"é", 3⟩ : Generator).emit (.expr (.integer 5)) (some 0) = .ok e ∧ e.bytes = [] ∧
      e.error? = some Room.fullMessage := by
  intro text
  let p : Program := ⟨⟨"é", .ret (.binary .and (.integer 1) (.integer 2))⟩⟩
  have hlength : text.length < 4294967295 := by decide
  have hresult : (parseText text).map Prod.fst = .ok (.ok p) := by decide +kernel
  have hfirst : ((Piece.program p).bytes {}).take 9 = Bytes.ofText ".global " ++ [195] := by
    decide +kernel
  have hsize : 9 < ((Piece.program p).bytes {}).length := by decide +kernel
  obtain ⟨result, log, outcome, log', hparse, htranslate, -, haccepted⟩ :=
    translate_delivers_all_or_prefix.1 hlength 9
  rw [hparse] at hresult
  obtain ⟨all, -, -, hall, -, -, hcut⟩ := haccepted p (Except.ok.inj hresult)
  have hroom : (⟨"é", 3⟩ : Generator).nextLabel +
      2 * (Piece.expr (.integer 5)).result.branchCount < 4294967296 := by decide
  obtain ⟨all', e, -, -, hall', he, hdelivers⟩ := translate_delivers_all_or_prefix.2 hroom 0
  refine ⟨hlength, ⟨log', ?_⟩, e, he, hdelivers.taken_eq, hdelivers.eq_some_of_lt ?_⟩
  · rw [← hfirst, htranslate, hcut (hall ▸ hsize), hall]
    rfl
  · rw [hall']
    decide +kernel

end MiniC
