import MiniC.Proofs.Assembly.Execution
import MiniC.Proofs.Assembly.Piece
import Mathlib.Data.List.Nodup

/-!
# Compiled programs

The text that is written for a program is read back as an image that holds the code of the program's
expression between the function's label and a return. So a run from that label returns the value of
the expression, or is stopped by a division if there is none.
-/

namespace MiniC

open Assembly

namespace Assembly

/-- Labels of one scope differ by their numbers. -/
theorem spellLabel_injective (scope : String) : Function.Injective (spellLabel scope) := by
  intro a b h
  have hdigits := congrArg String.toList h
  simp only [spellLabel, String.toList_append, List.append_right_inj] at hdigits
  exact toString_nat_injective (String.toList_inj.mp hdigits)

/-- No label is the name of its scope. -/
theorem spellLabel_ne (scope : String) (number : Nat) : spellLabel scope number ≠ scope := by
  intro h
  have hlength := congrArg String.length h
  simp only [spellLabel, String.length_append] at hlength
  have hstart : ".L".length = 2 := rfl
  omega

theorem unbroken_spellLabel {scope : String} (h : IsWord scope) (number : Nat) :
    Unbroken (spellLabel scope number) := by
  have hlist : (spellLabel scope number).toList =
      '.' :: 'L' :: (scope.toList ++ '.' :: Nat.toDigits 10 number) := by
    simp [spellLabel]
  constructor
  · intro hempty
    simp [hempty] at hlist
  · intro c hc
    simp only [hlist, List.mem_cons, List.mem_append] at hc
    rcases hc with rfl | rfl | hc | rfl | hc
    · decide
    · decide
    · exact isBlank_eq_false_of_isWordChar (h.2 c hc)
    · decide
    · exact isBlank_eq_false_of_isWordChar
        (isWordChar_of_isDigit (Nat.isDigit_of_mem_toDigits (by decide) (by decide) hc))

private theorem Instr.legible_mapLabel {f : Nat → String} (h : ∀ n, Unbroken (f n))
    (i : Instr Nat) : (i.mapLabel f).Legible := by
  cases i with
  | jumpIf cond target => exact h target
  | jmp target => exact h target
  | _ => trivial

/-- The lines of local steps are legible in a scope whose name is a word. -/
theorem legible_of_mem_spelled {scope : String} (hscope : IsWord scope) {steps : List (Step Nat)}
    (h : ∀ step ∈ steps, step.IsLocal) : ∀ line ∈ spelled scope steps, line.Legible := by
  induction steps with
  | nil => simp [spelled]
  | cons step steps ih =>
    rw [List.forall_mem_cons] at h
    rcases h.1 with ⟨n, rfl⟩ | ⟨i, rfl⟩ | rfl
    · exact List.forall_mem_cons.mpr ⟨unbroken_spellLabel hscope n, ih h.2⟩
    · exact List.forall_mem_cons.mpr
        ⟨Instr.legible_mapLabel (unbroken_spellLabel hscope) i, ih h.2⟩
    · exact ih h.2

/-- Local steps mark the labels that they spell. -/
theorem filterMap_label?_spelled (scope : String) {steps : List (Step Nat)}
    (h : ∀ step ∈ steps, step.IsLocal) :
    (spelled scope steps).filterMap Line.label? = (marked steps).map (spellLabel scope) := by
  induction steps with
  | nil => rfl
  | cons step steps ih =>
    rw [List.forall_mem_cons] at h
    rcases h.1 with ⟨n, rfl⟩ | ⟨i, rfl⟩ | rfl
    · exact congrArg (spellLabel scope n :: ·) (ih h.2)
    · exact ih h.2
    · exact ih h.2

/-- The lines of local steps are read back as they are. -/
theorem map_asRead_spelled (scope : String) {steps : List (Step Nat)}
    (h : ∀ step ∈ steps, step.IsLocal) :
    (spelled scope steps).map Line.asRead = spelled scope steps := by
  induction steps with
  | nil => rfl
  | cons step steps ih =>
    rw [List.forall_mem_cons] at h
    rcases h.1 with ⟨n, rfl⟩ | ⟨i, rfl⟩ | rfl
    · exact congrArg (.label (spellLabel scope n) :: ·) (ih h.2)
    · exact congrArg (.instr (i.mapLabel (spellLabel scope)) :: ·) (ih h.2)
    · exact ih h.2

end Assembly

/-- The bytes of a text hold that text. -/
theorem Bytes.text?_ofText (text : String) : Bytes.text? (Bytes.ofText text) = some text := by
  have hvalid : (⟨text.toUTF8.data⟩ : ByteArray).IsValidUTF8 := text.isValidUTF8
  simp only [Bytes.text?, Bytes.ofText, Array.toArray_toList, String.fromUTF8?]
  exact dif_pos hvalid

namespace Program

/-- The lines that are written for a program. -/
def listing (p : Program) : List (Line String) :=
  .global (symbol p.function.name) :: .symbol (symbol p.function.name) ::
    (p.result.lines p.function.name 0 ++ [.instr .ret])

theorem lines_program (p : Program) : (Piece.program p).lines {} = p.listing := by
  rw [Piece.lines_eq]
  rfl

/-- A program with few enough labels is written completely. -/
theorem emitProgram_eq {p : Program} (h : p.result.branchCount < 2147483648) :
    emitProgram p none = .ok ⟨.ofText (textOf p.listing), true,
      ⟨p.function.name, p.result.labelCount⟩⟩ := by
  have hroom : 0 + (Piece.program p).result.labelCount ≤ counterMax := by
    rw [Piece.result, Expr.labelCount_eq_branchCount, counterMax]
    omega
  have hemit := Generator.emit_none (g := {}) hroom
  rwa [Piece.bytes, lines_program, Nat.zero_add] at hemit

/-- The image that the text of a program is read back as. -/
def image? (p : Program) : Option Image :=
  match emitProgram p none with
  | .ok ⟨bytes, true, _⟩ => (Bytes.text? bytes).bind Image.ofText?
  | _ => none

/-- The image of a program holds its code after the label of its function. -/
theorem exists_image?_eq_some {p : Program} (hname : IsWord p.function.name)
    (hbranches : p.result.branchCount < 2147483648) :
    ∃ image, p.image? = some image ∧ image.place? (symbol p.function.name) = some 1 ∧
      image.Holds 1 (.label (symbol p.function.name) ::
        (p.result.lines p.function.name 0 ++ [.instr .ret])) := by
  have hsteps := p.result.isLocal_code 0
  have hread : p.listing.map Line.asRead = .global (symbol p.function.name) ::
      .label (symbol p.function.name) :: (p.result.lines p.function.name 0 ++ [.instr .ret]) := by
    simp [listing, Line.asRead, Expr.lines, map_asRead_spelled _ hsteps]
  have hunbroken : Unbroken p.function.name :=
    ⟨hname.1, fun c hc => isBlank_eq_false_of_isWordChar (hname.2 c hc)⟩
  have hlegible : ∀ line ∈ p.listing, line.Legible := by
    simp only [listing, List.forall_mem_cons, List.forall_mem_append]
    exact ⟨hunbroken, hunbroken, legible_of_mem_spelled hname hsteps, trivial,
      List.forall_mem_nil _⟩
  have hlabels : (p.listing.map Line.asRead).filterMap Line.label? =
      p.function.name :: (marked (p.result.code 0 [])).map (spellLabel p.function.name) := by
    have hbody : (p.result.lines p.function.name 0 ++ [Line.instr .ret]).filterMap Line.label? =
        (marked (p.result.code 0 [])).map (spellLabel p.function.name) := by
      rw [List.filterMap_append, Expr.lines, filterMap_label?_spelled _ hsteps]
      exact List.append_nil _
    rw [hread, ← hbody]
    rfl
  have hnodup : ((p.listing.map Line.asRead).filterMap Line.label?).Nodup := by
    rw [hlabels, List.nodup_cons]
    constructor
    · intro hmem
      obtain ⟨number, -, heq⟩ := List.mem_map.mp hmem
      exact spellLabel_ne p.function.name number heq
    · have hmarked := ((p.result.marked_code_perm 0).nodup_iff).mpr List.nodup_range'
      exact hmarked.map (spellLabel_injective p.function.name)
  have himage : p.image? = some ⟨p.listing.map Line.asRead, hnodup⟩ := by
    simp only [image?, emitProgram_eq hbranches, Bytes.text?_ofText, Option.bind_some]
    exact Image.ofText?_textOf hlegible hnodup
  have hholds : Image.Holds ⟨p.listing.map Line.asRead, hnodup⟩ 1
      (.label (symbol p.function.name) ::
        (p.result.lines p.function.name 0 ++ [.instr .ret])) :=
    ⟨[.global (symbol p.function.name)], [], by simp [hread], rfl⟩
  exact ⟨_, himage, Image.place?_eq_some hholds.uncons.1, hholds⟩

/-- A run of a program's image comes to a return with the value of the program's expression, or is
stopped by a division if there is none. -/
theorem exists_computes {p : Program} (hname : IsWord p.function.name)
    (hbranches : p.result.branchCount < 2147483648) :
    ∃ image start, p.image? = some image ∧ image.place? (symbol p.function.name) = some start ∧
      ∀ m : Machine, m.place = start → image.Computes m p.result.eval fun v m' =>
        image.lines[m'.place]? = some (.instr .ret) ∧ Settled m m'.place v m' := by
  obtain ⟨image, himage, hplace, hholds⟩ := exists_image?_eq_some hname hbranches
  refine ⟨image, 1, himage, hplace, fun m hm => ?_⟩
  rw [← hm] at hholds
  obtain ⟨hlabel, hcode⟩ := hholds.uncons
  obtain ⟨hbody, hret⟩ := hcode.split
  refine .of_step (Image.step_eq_advance hlabel) ?_
  refine (p.result.computes_lines (m := m.advance) hbody).mono fun v m' h => ?_
  have hend : m'.place = m.place + 1 + (p.result.lines p.function.name 0).length := h.place_eq
  rw [hend]
  exact ⟨hret.uncons.1, hend, h.value_eq, h.stack_eq, h.others_eq⟩

/-- If the expression of a program has a value, then the program's text is read back as an image
that, run from the function's label in any state, comes to a return with the value in the low half
of the accumulator, the stack as it was and only scratch registers changed. -/
theorem run_returns_value {p : Program} (hname : IsWord p.function.name)
    (hbranches : p.result.branchCount < 2147483648) {v : Int32} (hv : p.result.eval = some v) :
    ∃ image start, p.image? = some image ∧ image.place? (symbol p.function.name) = some start ∧
      ∀ m : Machine, m.place = start → ∃ m', image.Reaches m m' ∧
        image.lines[m'.place]? = some (.instr .ret) ∧ m'.long .rax = v.toBitVec ∧
        m'.stack = m.stack ∧ ∀ r, r ∉ scratch → m'.registers r = m.registers r := by
  obtain ⟨image, start, himage, hstart, hrun⟩ := exists_computes hname hbranches
  refine ⟨image, start, himage, hstart, fun m hm => ?_⟩
  have hcomputes := hrun m hm
  rw [hv] at hcomputes
  obtain ⟨m', hreaches, hret, hsettled⟩ := hcomputes
  exact ⟨m', hreaches, hret, Machine.long_eq hsettled.value_eq, hsettled.stack_eq,
    hsettled.others_eq⟩

/-- A division by zero that is skipped does not keep a program from returning. -/
theorem run_returns_value_of_skipped_division :
    let p : Program := ⟨⟨"main", .ret (.binary .and (.integer 0)
      (.binary .div (.integer 1) (.integer 0)))⟩⟩
    ∃ image start, p.image? = some image ∧ image.place? (symbol p.function.name) = some start ∧
      ∀ m : Machine, m.place = start → ∃ m', image.Reaches m m' ∧
        image.lines[m'.place]? = some (.instr .ret) ∧ m'.long .rax = 0 ∧
        m'.stack = m.stack ∧ ∀ r, r ∉ scratch → m'.registers r = m.registers r :=
  run_returns_value (v := 0) (by decide) (by decide) (by decide)

/-- If the expression of a program has no value, then a run from the function's label is stopped by
a division and never comes to a return; if it has one, no division stops the run. -/
theorem run_stops_at_division {p : Program} (hname : IsWord p.function.name)
    (hbranches : p.result.branchCount < 2147483648) :
    ∃ image start, p.image? = some image ∧ image.place? (symbol p.function.name) = some start ∧
      ∀ m : Machine, m.place = start →
        (p.result.eval = none →
          (∃ stop divisor, image.Reaches m stop ∧
            image.lines[stop.place]? = some (.instr (.idivl divisor)) ∧
            image.step stop = .divideError) ∧
          ∀ m', image.Reaches m m' → image.lines[m'.place]? ≠ some (.instr .ret)) ∧
        (p.result.eval ≠ none → ∀ m', image.Reaches m m' → image.step m' ≠ .divideError) := by
  obtain ⟨image, start, himage, hstart, hrun⟩ := exists_computes hname hbranches
  refine ⟨image, start, himage, hstart, fun m hm => ⟨fun hnone => ?_, fun hsome m' hm' => ?_⟩⟩
  · have hcomputes := hrun m hm
    rw [hnone] at hcomputes
    obtain ⟨stop, hreaches, hstep⟩ := hcomputes
    obtain ⟨divisor, hline⟩ := Image.exists_idivl_of_step_eq hstep
    refine ⟨⟨stop, divisor, hreaches, hline, hstep⟩, fun m' hm' hret => ?_⟩
    have hstep' : image.step m' = .returned := Image.step_eq_execute hret
    rcases Image.eq_or_next_of_reaches hreaches (by simp [hstep]) hm' with rfl | ⟨next, hnext⟩
    · exact absurd (hstep'.symm.trans hstep) (by simp)
    · exact absurd (hstep'.symm.trans hnext) (by simp)
  · obtain ⟨v, hv⟩ := Option.ne_none_iff_exists'.mp hsome
    have hcomputes := hrun m hm
    rw [hv] at hcomputes
    obtain ⟨stop, hreaches, hret, -⟩ := hcomputes
    have hstep : image.step stop = .returned := Image.step_eq_execute hret
    rcases Image.eq_or_next_of_reaches hreaches (by simp [hstep]) hm' with rfl | ⟨next, hnext⟩
    · simp [hstep]
    · simp [hnext]

/-- A division by zero stops a program whose operator `||` looks at it. -/
theorem run_stops_at_division_in_operand :
    let p : Program := ⟨⟨"main", .ret (.binary .or (.integer 0)
      (.binary .div (.integer 1) (.integer 0)))⟩⟩
    ∃ image start, p.image? = some image ∧ image.place? (symbol p.function.name) = some start ∧
      ∀ m : Machine, m.place = start →
        (∃ stop divisor, image.Reaches m stop ∧
          image.lines[stop.place]? = some (.instr (.idivl divisor)) ∧
          image.step stop = .divideError) ∧
        ∀ m', image.Reaches m m' → image.lines[m'.place]? ≠ some (.instr .ret) := by
  intro p
  obtain ⟨image, start, himage, hstart, hrun⟩ :=
    run_stops_at_division (p := p) (by decide) (by decide)
  exact ⟨image, start, himage, hstart, fun m hm => (hrun m hm).1 (by decide)⟩

end Program

end MiniC
