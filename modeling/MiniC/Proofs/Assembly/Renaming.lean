import MiniC.Proofs.Assembly.Labels

/-!
# Renaming labels

The code of an expression depends on where its labels are numbered from only by these numbers: code
that is numbered from another label on is the same code with other labels. So an expression has one
pattern of lines, in which its labels are counted from zero. A generator writes this pattern with
each label spelled in its scope and counted from its next label on, whatever it wrote before.
-/

namespace MiniC

open Assembly

namespace Assembly

/-- Replaces the labels. -/
def Step.mapLabel {L M : Type} (f : L → M) : Step L → Step M
  | .enter scope => .enter scope
  | .reserve => .reserve
  | .write line => .write (line.mapLabel f)

theorem Line.mapLabel_mapLabel {L M N : Type} (f : L → M) (g : M → N) (line : Line L) :
    (line.mapLabel f).mapLabel g = line.mapLabel (g ∘ f) := by
  cases line with
  | instr i => cases i <;> rfl
  | _ => rfl

private theorem Step.line?_mapLabel {L M : Type} (f : L → M) (step : Step L) :
    (step.mapLabel f).line? = step.line?.map (Line.mapLabel f) := by
  cases step <;> rfl

end Assembly

theorem UnaryOp.map_finish {L M : Type} (f : L → M) (op : UnaryOp) :
    op.finish.map (Step.mapLabel f) = op.finish := by
  cases op <;> rfl

theorem BinaryOp.map_finish {L M : Type} (f : L → M) (op : BinaryOp) :
    op.finish.map (Step.mapLabel f) = op.finish := by
  cases op <;> rfl

private theorem BinaryOp.map_skip (op : BinaryOp) (m n : Nat) :
    (op.skip m).map (Step.mapLabel (n + ·)) = op.skip (n + m) := by
  cases op <;> rfl

namespace Expr

/-- Counting the labels from elsewhere renames them. -/
theorem code_add (e : Expr) (n m : Nat) :
    e.code (n + m) [] = (e.code m []).map (Step.mapLabel (n + ·)) := by
  induction e using code_induction generalizing m with
  | integer value => rfl
  | unary op operand ih => rw [code_unary, code_unary, List.map_append, ih, op.map_finish]
  | strict op left right h ihf ihs =>
    rw [code_of_not_isLogical h, code_of_not_isLogical h, ihf, Nat.add_assoc, ihs]
    simp only [List.map_append, List.map_cons, op.map_finish]
    rfl
  | logical op left right h ihl ihr =>
    rw [code_of_isLogical h, code_of_isLogical h, Nat.add_assoc, ihl, Nat.add_assoc, ihr]
    simp only [List.map_append, List.map_cons, op.map_finish, op.map_skip]
    rfl

/-- The lines of an expression, with its labels counted from zero. -/
def pattern (e : Expr) : List (Line Nat) := (e.code 0 []).filterMap Step.line?

/-- The lines of an expression are its pattern, wherever its labels are counted from. -/
theorem lines_eq_map_pattern (e : Expr) (scope : String) (n : Nat) :
    e.lines scope n = e.pattern.map (Line.mapLabel fun i => spellLabel scope (n + i)) := by
  have hcode : e.code n [] = (e.code 0 []).map (Step.mapLabel (n + ·)) := e.code_add n 0
  have hlines : ((e.code 0 []).map (Step.mapLabel (n + ·))).filterMap Step.line? =
      e.pattern.map (Line.mapLabel (n + ·)) := by
    rw [pattern, List.filterMap_map, List.map_filterMap]
    exact congrArg (List.filterMap · _) (funext fun step => step.line?_mapLabel _)
  rw [lines, spelled_of_isLocal scope (e.isLocal_code n), hcode, hlines, List.map_map]
  exact List.map_congr_left fun line _ => line.mapLabel_mapLabel _ _

/-- The pattern of an expression marks each of its labels once. -/
theorem filterMap_label?_pattern_perm (e : Expr) :
    (e.pattern.filterMap Line.label?).Perm (List.range (2 * e.branchCount)) := by
  have hmarked : e.pattern.filterMap Line.label? = marked (e.code 0 []) := by
    rw [pattern, List.filterMap_filterMap, marked]
    refine congrArg (List.filterMap · _) (funext fun step => ?_)
    cases step with
    | write line => cases line <;> rfl
    | _ => rfl
  rw [hmarked, ← labelCount_eq_branchCount, List.range_eq_range']
  exact e.marked_code_perm 0

/-- The pattern of an expression jumps only to labels that it marks. -/
theorem lt_of_mem_pattern (e : Expr) {line : Line Nat} (hline : line ∈ e.pattern) {l : Nat}
    (hl : line.label? = some l ∨ line.target? = some l) : l < 2 * e.branchCount := by
  have hmark : ∀ {l}, l ∈ e.pattern.filterMap Line.label? → l < 2 * e.branchCount := by
    intro l hmem
    rwa [e.filterMap_label?_pattern_perm.mem_iff, List.mem_range] at hmem
  rcases hl with hl | hl
  · exact hmark (List.mem_filterMap.mpr ⟨line, hline, hl⟩)
  · -- The spelled pattern jumps to labels that it marks, and labels are told by their spellings.
    obtain ⟨before, after, hpattern⟩ := List.append_of_mem hline
    have hsuffix : line.mapLabel (fun i => spellLabel "" (0 + i)) ::
        after.map (Line.mapLabel fun i => spellLabel "" (0 + i)) <:+ e.lines "" 0 := by
      rw [lines_eq_map_pattern, hpattern, List.map_append]
      exact List.suffix_append _ _
    have hmem := e.jumpsForward_lines "" 0 hsuffix (spellLabel "" (0 + l))
      (by rw [Line.target?_mapLabel, hl]; rfl)
    obtain ⟨marking, hmarking, heq⟩ := List.mem_map.mp hmem
    have hlabel : (marking.mapLabel fun i => spellLabel "" (0 + i)).label? =
        some (spellLabel "" (0 + l)) := by
      rw [heq]
      rfl
    rw [Line.label?_mapLabel, Option.map_eq_some_iff] at hlabel
    obtain ⟨l', hl', hsame⟩ := hlabel
    obtain rfl : l' = l := Nat.add_left_cancel (spellLabel_injective "" hsame)
    refine hmark (List.mem_filterMap.mpr ⟨marking, ?_, hl'⟩)
    rw [hpattern]
    exact List.mem_append_right _ (List.mem_cons_of_mem _ hmarking)

end Expr

/-- Texts that stand in a line whatever its labels are called, and the labels between them. -/
def Assembly.Line.segments {L : Type} : Line L → List (String ⊕ L)
  | .global name => [.inl (".global " ++ name)]
  | .symbol name => [.inl (name ++ ":")]
  | .label l => [.inr l, .inl ":"]
  | .instr (.jumpIf cond target) => [.inl ("\t" ++ fillRight 8 ("j" ++ cond.suffix)), .inr target]
  | .instr (.jmp target) => [.inl ("\t" ++ fillRight 8 "jmp"), .inr target]
  | .instr i => [.inl (i.mapLabel fun _ => "").text]

/-- The text of lines that are made of fixed texts and labels. -/
def Assembly.spellLines {L : Type} (spell : L → String) (lines : List (List (String ⊕ L))) :
    String :=
  String.join (lines.map fun line => String.join (line.map (Sum.elim id spell)) ++ "\n")

namespace Assembly

/-- Spelling the labels of a line changes nothing else of its text. -/
theorem Line.text_mapLabel {L : Type} (f : L → String) (line : Line L) :
    (line.mapLabel f).text = String.join (line.segments.map (Sum.elim id f)) := by
  cases line with
  | instr i =>
    cases i <;> simp [Line.mapLabel, Line.text, Line.segments, Instr.mapLabel, Instr.text,
      Instr.operands?, Instr.mnemonic]
  | _ => simp [Line.mapLabel, Line.text, Line.segments]

private theorem textOf_map_mapLabel {L : Type} (f : L → String) (lines : List (Line L)) :
    textOf (lines.map (Line.mapLabel f)) = spellLines f (lines.map Line.segments) := by
  rw [textOf, spellLines, List.map_map, List.map_map]
  exact congrArg String.join (List.map_congr_left fun line _ => by
    simp only [Function.comp, Line.text_mapLabel])

/-- The labels of a line are the one that it marks and the one that it jumps to. -/
theorem Line.inr_mem_segments_iff {L : Type} {line : Line L} {l : L} :
    .inr l ∈ line.segments ↔ line.label? = some l ∨ line.target? = some l := by
  cases line with
  | instr i => cases i <;> simp [segments, label?, target?, eq_comm]
  | _ => simp [segments, label?, target?, eq_comm]

namespace Generator

/-- The label that one generator hands out where the other hands out the given one. -/
def counterpart (g g' : Generator) (label : String) : String :=
  (labelNumber? label).elim label fun number =>
    spellLabel g'.scope (g'.nextLabel + (number - g.nextLabel))

theorem counterpart_spellLabel (g g' : Generator) (scope : String) (i : Nat) :
    g.counterpart g' (spellLabel scope (g.nextLabel + i)) =
      spellLabel g'.scope (g'.nextLabel + i) := by
  rw [counterpart, labelNumber?_spellLabel, Option.elim_some, Nat.add_sub_cancel_left]

end Generator

end Assembly

namespace Expr

/-- An expression's labels are those that stand in its pattern. -/
theorem lt_iff_exists_mem_pattern (e : Expr) {i : Nat} :
    i < 2 * e.branchCount ↔ ∃ segments ∈ e.pattern.map Line.segments, .inr i ∈ segments := by
  constructor
  · intro hi
    rw [← List.mem_range, ← e.filterMap_label?_pattern_perm.mem_iff, List.mem_filterMap] at hi
    obtain ⟨line, hline, hlabel⟩ := hi
    exact ⟨_, List.mem_map_of_mem hline, Line.inr_mem_segments_iff.mpr (Or.inl hlabel)⟩
  · rintro ⟨segments, hsegments, hi⟩
    obtain ⟨line, hline, rfl⟩ := List.mem_map.mp hsegments
    exact e.lt_of_mem_pattern hline (Line.inr_mem_segments_iff.mp hi)

/-- The lines that two generators write for an expression have each other's labels. -/
theorem map_counterpart_lines (e : Expr) (g g' : Generator) :
    (e.lines g.scope g.nextLabel).map (Line.mapLabel (g.counterpart g')) =
      e.lines g'.scope g'.nextLabel := by
  rw [lines_eq_map_pattern, lines_eq_map_pattern, List.map_map]
  refine List.map_congr_left fun line _ => ?_
  rw [Function.comp, Line.mapLabel_mapLabel]
  exact congrArg (Line.mapLabel · line) (funext fun i => g.counterpart_spellLabel g' g.scope i)

end Expr

theorem Assembly.Generator.emit_expr {g : Generator} {e : Expr}
    (h : g.nextLabel + 2 * e.branchCount < 4294967296) :
    g.emit (.expr e) none = .ok ⟨.ofText (textOf (e.lines g.scope g.nextLabel)), true,
      ⟨g.scope, g.nextLabel + 2 * e.branchCount⟩⟩ := by
  rw [← e.labelCount_eq_branchCount] at h ⊢
  have hlabels : g.nextLabel + (Piece.expr e).result.labelCount ≤ counterMax :=
    Nat.le_of_lt_succ h
  exact emit_none hlabels

/-- An expression has one pattern of fixed texts and labels, of which there are two for each
operator `&&` or `||`. Every generator whose labels do not run out writes this pattern, with each
label spelled in its scope and counted from its next label on, and keeps its scope. So what two
generators write for an expression differs by a renaming of labels. -/
theorem Assembly.Generator.emit_expr_spells_pattern (e : Expr) :
    (∃ pattern : List (List (String ⊕ Nat)),
      (∀ i, i < 2 * e.branchCount ↔ ∃ segments ∈ pattern, .inr i ∈ segments) ∧
      ∀ g : Generator, g.nextLabel + 2 * e.branchCount < 4294967296 →
        g.emit (.expr e) none = .ok
          ⟨.ofText (spellLines (fun i => spellLabel g.scope (g.nextLabel + i)) pattern), true,
            ⟨g.scope, g.nextLabel + 2 * e.branchCount⟩⟩) ∧
    ∀ g g' : Generator, g.nextLabel + 2 * e.branchCount < 4294967296 →
      g'.nextLabel + 2 * e.branchCount < 4294967296 →
      ∃ (rename : String → String) (lines : List (Line String)),
        (∀ i, rename (spellLabel g.scope (g.nextLabel + i)) =
          spellLabel g'.scope (g'.nextLabel + i)) ∧
        g.emit (.expr e) none = .ok ⟨.ofText (textOf lines), true,
          ⟨g.scope, g.nextLabel + 2 * e.branchCount⟩⟩ ∧
        g'.emit (.expr e) none = .ok ⟨.ofText (textOf (lines.map (Line.mapLabel rename))), true,
          ⟨g'.scope, g'.nextLabel + 2 * e.branchCount⟩⟩ := by
  constructor
  · refine ⟨e.pattern.map Line.segments, fun i => e.lt_iff_exists_mem_pattern, fun g h => ?_⟩
    rw [emit_expr h, e.lines_eq_map_pattern, textOf_map_mapLabel]
  · intro g g' h h'
    refine ⟨g.counterpart g', e.lines g.scope g.nextLabel,
      fun i => g.counterpart_spellLabel g' g.scope i, emit_expr h, ?_⟩
    rw [e.map_counterpart_lines]
    exact emit_expr h'

/-- A difference with an operator in each operand, of which the right one is numbered first, written
by a new generator and by one that was used before. -/
theorem Assembly.Generator.emit_expr_spells_pattern_of_difference :
    let e : Expr := .binary .sub (.binary .or (.integer 1) (.integer 2))
      (.binary .and (.integer 3) (.integer 4))
    let g : Generator := ⟨"f", 7⟩
    ∃ (rename : String → String) (lines : List (Line String)),
      rename ".L.0" = ".Lf.7" ∧ rename ".L.3" = ".Lf.10" ∧
      Generator.emit {} (.expr e) none = .ok ⟨.ofText (textOf lines), true, ⟨"", 4⟩⟩ ∧
      g.emit (.expr e) none =
        .ok ⟨.ofText (textOf (lines.map (Line.mapLabel rename))), true, ⟨"f", 11⟩⟩ := by
  intro e g
  obtain ⟨rename, lines, hrename, hnew, hused⟩ :=
    (emit_expr_spells_pattern e).2 {} g (by decide) (by decide)
  have hfirst : spellLabel "" 0 = ".L.0" ∧ spellLabel "f" 7 = ".Lf.7" := by decide
  have hlast : spellLabel "" 3 = ".L.3" ∧ spellLabel "f" 10 = ".Lf.10" := by decide
  exact ⟨rename, lines, hfirst.1 ▸ (hrename 0).trans hfirst.2, hlast.1 ▸ (hrename 3).trans hlast.2,
    hnew, hused⟩

end MiniC
