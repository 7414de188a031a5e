import MiniC.Proofs.Assembly.Machine
import MiniC.Proofs.Text.Decimal
import MiniC.Proofs.Token.Word
import MiniC.Source.File
import Mathlib.Data.List.TakeWhile

/-!
# Reading assembly

A text is read line by line. A line that begins with a tab is an instruction: its mnemonic goes up
to a space, and its operands follow after further spaces. A line that begins with `.global` makes a
symbol visible, and one that ends in a colon marks a label. What is written for a line is read back
as that line, except that a symbol is read as a label, which looks the same.
-/

namespace MiniC.Assembly

/-- The register of the given name. -/
def Reg.ofName? (nameOf : Reg → String) (name : String) : Option Reg :=
  [.a, .c].find? fun r => nameOf r = name

/-- The condition that makes the given mnemonic. -/
def Cond.ofMnemonic? (start mnemonic : String) : Option Cond :=
  [.equal, .notEqual, .less, .lessEqual, .greater, .greaterEqual].find? fun cond =>
    start ++ cond.suffix = mnemonic

namespace Instr

/-- A constant is a dollar sign and a decimal number of 32 bits. -/
def constant? (operand : String) : Option Int32 :=
  match operand.toList with
  | '$' :: digits => do
    let value ← decimal? digits
    if -2147483648 ≤ value ∧ value ≤ 2147483647 then some (Int32.ofInt value) else none
  | _ => none

/-- Two operands stand around a comma and a space. -/
def pair? (operands : String) : Option (String × String) :=
  match operands.toList.dropWhile (· ≠ ',') with
  | ',' :: ' ' :: dst => some (.ofList (operands.toList.takeWhile (· ≠ ',')), .ofList dst)
  | _ => none

/-- Two operands that name the low halves of registers. -/
def longPair? (operands : String) : Option (Reg × Reg) := do
  let (src, dst) ← pair? operands
  return (← Reg.ofName? Reg.long src, ← Reg.ofName? Reg.long dst)

/-- The instruction of a mnemonic and operands. -/
def ofParts? (mnemonic operands : String) : Option (Instr String) :=
  match mnemonic with
  | "movl" => do
    let (src, dst) ← pair? operands
    return .movl (← constant? src) (← Reg.ofName? Reg.long dst)
  | "negl" => (Reg.ofName? Reg.long operands).map .negl
  | "notl" => (Reg.ofName? Reg.long operands).map .notl
  | "cmpl" => do
    let (src, dst) ← pair? operands
    match constant? src with
    | some value => return .cmplConst value (← Reg.ofName? Reg.long dst)
    | none => return .cmpl (← Reg.ofName? Reg.long src) (← Reg.ofName? Reg.long dst)
  | "addl" => (longPair? operands).map fun (src, dst) => .addl src dst
  | "subl" => (longPair? operands).map fun (src, dst) => .subl src dst
  | "imull" => (longPair? operands).map fun (src, dst) => .imull src dst
  | "cdq" => if operands = "" then some .cdq else none
  | "idivl" => (Reg.ofName? Reg.long operands).map .idivl
  | "pushq" => (Reg.ofName? Reg.quad operands).map .pushq
  | "popq" => (Reg.ofName? Reg.quad operands).map .popq
  | "jmp" => if operands = "" then none else some (.jmp operands)
  | "ret" => if operands = "" then some .ret else none
  | _ =>
    match Cond.ofMnemonic? "set" mnemonic with
    | some cond => (Reg.ofName? Reg.byte operands).map (.set cond)
    | none =>
      match Cond.ofMnemonic? "j" mnemonic with
      | some cond => if operands = "" then none else some (.jumpIf cond operands)
      | none => none

end Instr

/-- The line that a text holds. -/
def Line.ofText? : List Char → Option (Line String)
  | '\t' :: text =>
    let operands := (text.dropWhile (· ≠ ' ')).dropWhile (· = ' ')
    (Instr.ofParts? (.ofList (text.takeWhile (· ≠ ' '))) (.ofList operands)).map .instr
  | text =>
    if ".global ".toList.isPrefixOf text then some (.global (.ofList (text.drop 8)))
    else if text.getLast? = some ':' then some (.label (.ofList text.dropLast))
    else none

/-- The image that a text holds, unless it marks a label twice. -/
def Image.ofText? (text : String) : Option Image := do
  let lines ← (linesOf text.toList).mapM Line.ofText?
  if nodup : (lines.filterMap Line.label?).Nodup then some ⟨lines, nodup⟩ else none

/-- Whether a text is not empty and no blank breaks it, so that it can be told from what stands
around it. -/
def Unbroken (name : String) : Prop := name ≠ "" ∧ ∀ c ∈ name.toList, isBlank c = false

theorem Unbroken.exists_cons {name : String} (h : Unbroken name) :
    ∃ c cs, name.toList = c :: cs ∧ isBlank c = false := by
  cases hlist : name.toList with
  | nil => exact absurd (String.toList_eq_nil_iff.mp hlist) h.1
  | cons c cs => exact ⟨c, cs, rfl, h.2 c (hlist ▸ List.mem_cons_self)⟩

theorem Unbroken.not_mem {text : String} (h : Unbroken text) {c : Char} (hc : isBlank c = true) :
    c ∉ text.toList := by
  intro hmem
  rw [h.2 c hmem] at hc
  exact absurd hc (by decide)

theorem unbroken_long (reg : Reg) : Unbroken reg.long := by
  cases reg <;> exact ⟨by decide, by simp [Reg.long]; decide⟩

theorem unbroken_quad (reg : Reg) : Unbroken reg.quad := by
  cases reg <;> exact ⟨by decide, by simp [Reg.quad]; decide⟩

private theorem unbroken_byte (reg : Reg) : Unbroken reg.byte := by
  cases reg <;> exact ⟨by decide, by simp [Reg.byte]; decide⟩

/-- Whether the label that an instruction jumps to, if it does, is unbroken. -/
def Instr.Legible : Instr String → Prop
  | .jumpIf _ target => Unbroken target
  | .jmp target => Unbroken target
  | _ => True

/-- Whether the names in a line are unbroken. -/
def Line.Legible : Line String → Prop
  | .global name => Unbroken name
  | .symbol name => Unbroken name
  | .label l => Unbroken l
  | .instr i => i.Legible

/-- What a line is read back as. -/
def Line.asRead : Line String → Line String
  | .symbol name => .label name
  | line => line

namespace Instr

theorem constant?_constant (value : Int32) : constant? (constant value) = some value := by
  have hdigits : (constant value).toList = '$' :: (toString value.toInt).toList := by
    simp [constant]
  have hbounds : -2147483648 ≤ value.toInt ∧ value.toInt ≤ 2147483647 :=
    ⟨value.le_toInt, by have := value.toInt_lt; omega⟩
  simp only [constant?, hdigits, decimal?_toString]
  simp [hbounds]

theorem pair?_pair {src : String} (dst : String) (h : ',' ∉ src.toList) :
    pair? (pair src dst) = some (src, dst) := by
  have hlist : (pair src dst).toList = src.toList ++ ',' :: ' ' :: dst.toList := by
    simp [pair, String.toList_append]
  have hsrc : ∀ c ∈ src.toList, decide (c ≠ ',') = true := by
    intro c hc
    exact decide_eq_true fun he => h (he ▸ hc)
  rw [pair?, hlist, List.dropWhile_append_of_pos hsrc, List.takeWhile_append_of_pos hsrc]
  simp

theorem comma_not_mem_constant (value : Int32) : ',' ∉ (constant value).toList := by
  intro h
  have hlist : (constant value).toList = '$' :: (toString value.toInt).toList := by
    simp [constant]
  rw [hlist, List.mem_cons] at h
  rcases h with h | h
  · exact absurd h (by decide)
  · rcases eq_minus_or_isDigit_of_mem_toString h with h | h <;> exact absurd h (by decide)

private theorem ofParts?_mnemonic {i : Instr String} (h : i.Legible) :
    ofParts? i.mnemonic (i.operands?.getD "") = some i := by
  cases i with
  | movl value dst =>
    have hpair := pair?_pair dst.long (comma_not_mem_constant value)
    simp only [ofParts?, mnemonic, operands?, Option.getD_some, hpair, Option.bind_eq_bind,
      Option.bind_some, constant?_constant]
    cases dst <;> rfl
  | negl dst => cases dst <;> rfl
  | notl dst => cases dst <;> rfl
  | cmplConst value dst =>
    have hpair := pair?_pair dst.long (comma_not_mem_constant value)
    simp only [ofParts?, mnemonic, operands?, Option.getD_some, hpair, Option.bind_eq_bind,
      Option.bind_some, constant?_constant]
    cases dst <;> rfl
  | cmpl src dst => cases src <;> cases dst <;> rfl
  | addl src dst => cases src <;> cases dst <;> rfl
  | subl src dst => cases src <;> cases dst <;> rfl
  | imull src dst => cases src <;> cases dst <;> rfl
  | cdq => rfl
  | idivl divisor => cases divisor <;> rfl
  | pushq src => cases src <;> rfl
  | popq dst => cases dst <;> rfl
  | set cond dst => cases cond <;> cases dst <;> rfl
  | jumpIf cond target => cases cond <;> exact if_neg h.1
  | jmp target => exact if_neg h.1
  | ret => rfl

/-- A mnemonic holds no blank and leaves room for one before the operands. -/
theorem mnemonic_spec (i : Instr String) :
    (∀ c ∈ i.mnemonic.toList, isBlank c = false) ∧ i.mnemonic.length < 8 := by
  rw [← String.length_toList]
  cases i with
  | set cond dst => cases cond <;> simp [mnemonic, Cond.suffix] <;> decide
  | jumpIf cond target => cases cond <;> simp [mnemonic, Cond.suffix] <;> decide
  | _ => simp [mnemonic]; decide

theorem unbroken_constant (value : Int32) : Unbroken (constant value) := by
  have hlist : (constant value).toList = '$' :: (toString value.toInt).toList := by
    simp [constant]
  constructor
  · intro hempty
    simp [hempty] at hlist
  · intro c hc
    rw [hlist, List.mem_cons] at hc
    rcases hc with rfl | hc
    · decide
    · rcases eq_minus_or_isDigit_of_mem_toString hc with rfl | hdigit
      · decide
      · exact isBlank_eq_false_of_isWordChar (isWordChar_of_isDigit hdigit)

/-- The operands are one or two unbroken texts, the second after a comma and a space. -/
theorem operands_cases {i : Instr String} (h : i.Legible) {operands : String}
    (hoperands : i.operands? = some operands) :
    ∃ src rest, Unbroken src ∧ operands = src ++ rest ∧
      (rest = "" ∨ ∃ dst, Unbroken dst ∧ rest = ", " ++ dst) := by
  have hone : ∀ {src : String}, Unbroken src → some src = some operands →
      ∃ src rest, Unbroken src ∧ operands = src ++ rest ∧
        (rest = "" ∨ ∃ dst, Unbroken dst ∧ rest = ", " ++ dst) := by
    intro src hsrc heq
    exact ⟨src, "", hsrc, by simpa using heq.symm, Or.inl rfl⟩
  have htwo : ∀ {src dst : String}, Unbroken src → Unbroken dst →
      some (pair src dst) = some operands →
      ∃ src rest, Unbroken src ∧ operands = src ++ rest ∧
        (rest = "" ∨ ∃ dst, Unbroken dst ∧ rest = ", " ++ dst) := by
    intro src dst hsrc hdst heq
    refine ⟨src, ", " ++ dst, hsrc, ?_, Or.inr ⟨dst, hdst, rfl⟩⟩
    rw [← Option.some.inj heq, pair, String.append_assoc]
  cases i with
  | movl value dst => exact htwo (unbroken_constant value) (unbroken_long dst) hoperands
  | negl dst => exact hone (unbroken_long dst) hoperands
  | notl dst => exact hone (unbroken_long dst) hoperands
  | cmplConst value dst => exact htwo (unbroken_constant value) (unbroken_long dst) hoperands
  | cmpl src dst => exact htwo (unbroken_long src) (unbroken_long dst) hoperands
  | addl src dst => exact htwo (unbroken_long src) (unbroken_long dst) hoperands
  | subl src dst => exact htwo (unbroken_long src) (unbroken_long dst) hoperands
  | imull src dst => exact htwo (unbroken_long src) (unbroken_long dst) hoperands
  | cdq => exact absurd hoperands (by simp [operands?])
  | idivl divisor => exact hone (unbroken_long divisor) hoperands
  | pushq src => exact hone (unbroken_quad src) hoperands
  | popq dst => exact hone (unbroken_quad dst) hoperands
  | set cond dst => exact hone (unbroken_byte dst) hoperands
  | jumpIf cond target => exact hone h hoperands
  | jmp target => exact hone h hoperands
  | ret => exact absurd hoperands (by simp [operands?])

theorem toList_text_of_eq_none {i : Instr String} (h : i.operands? = none) :
    i.text.toList = '\t' :: i.mnemonic.toList := by
  simp [text, h]

theorem toList_text_of_eq_some {i : Instr String} {operands : String}
    (h : i.operands? = some operands) :
    i.text.toList = '\t' :: (i.mnemonic.toList ++
      (List.replicate (8 - i.mnemonic.length) ' ' ++ operands.toList)) := by
  simp [text, h, fillRight, blanks]

theorem ofText?_text {i : Instr String} (h : i.Legible) :
    Line.ofText? i.text.toList = some (.instr i) := by
  obtain ⟨hmnemonic, hlength⟩ := i.mnemonic_spec
  have hspace : ∀ c ∈ i.mnemonic.toList, decide (c ≠ ' ') = true := by
    intro c hc
    refine decide_eq_true ?_
    rintro rfl
    exact absurd (hmnemonic ' ' hc) (by decide)
  have hparts := ofParts?_mnemonic h
  cases hoperands : i.operands? with
  | none =>
    rw [hoperands] at hparts
    simp only [toList_text_of_eq_none hoperands, Line.ofText?,
      List.takeWhile_eq_self_iff.mpr hspace, List.dropWhile_eq_nil_iff.mpr hspace,
      String.ofList_toList]
    exact congrArg (Option.map Line.instr) hparts
  | some operands =>
    have htext := toList_text_of_eq_some hoperands
    have hgap : ∀ c ∈ List.replicate (8 - i.mnemonic.length) ' ', decide (c = ' ') = true := by
      intro c hc
      exact decide_eq_true (List.eq_of_mem_replicate hc)
    have hfirst : operands.toList.dropWhile (· = ' ') = operands.toList := by
      obtain ⟨src, rest, hsrc, rfl, -⟩ := operands_cases h hoperands
      obtain ⟨c, cs, hlist, hc⟩ := hsrc.exists_cons
      have hne : c ≠ ' ' := by
        rintro rfl
        exact absurd hc (by decide)
      rw [String.toList_append, hlist, List.cons_append,
        List.dropWhile_cons_of_neg (by simpa using hne)]
    obtain ⟨k, hk⟩ : ∃ k, 8 - i.mnemonic.length = k + 1 := ⟨7 - i.mnemonic.length, by omega⟩
    rw [hk] at htext hgap
    have hname : (i.mnemonic.toList ++ (List.replicate (k + 1) ' ' ++ operands.toList)).takeWhile
        (· ≠ ' ') = i.mnemonic.toList := by
      rw [List.takeWhile_append_of_pos hspace, List.replicate_succ, List.cons_append,
        List.takeWhile_cons_of_neg (by decide), List.append_nil]
    have hrest : (i.mnemonic.toList ++ (List.replicate (k + 1) ' ' ++ operands.toList)).dropWhile
        (· ≠ ' ') = List.replicate (k + 1) ' ' ++ operands.toList := by
      rw [List.dropWhile_append_of_pos hspace, List.replicate_succ, List.cons_append,
        List.dropWhile_cons_of_neg (by decide)]
    rw [hoperands] at hparts
    simp only [htext, Line.ofText?, hname, hrest, List.dropWhile_append_of_pos hgap, hfirst,
      String.ofList_toList]
    exact congrArg (Option.map Line.instr) hparts

/-- The only blanks of an instruction are spaces and tabs. -/
theorem eq_of_isBlank_of_mem_text {i : Instr String} (h : i.Legible) {c : Char}
    (hc : c ∈ i.text.toList) (hblank : isBlank c = true) : c = ' ' ∨ c = '\t' := by
  have hmnemonic : c ∉ i.mnemonic.toList := by
    intro hmem
    exact absurd hblank (by simp [i.mnemonic_spec.1 c hmem])
  cases hoperands : i.operands? with
  | none =>
    rw [toList_text_of_eq_none hoperands, List.mem_cons] at hc
    exact Or.inr (hc.resolve_right hmnemonic)
  | some operands =>
    obtain ⟨src, rest, hsrc, rfl, hrest⟩ := operands_cases h hoperands
    simp only [toList_text_of_eq_some hoperands, List.mem_cons, List.mem_append, hmnemonic,
      String.toList_append, hsrc.not_mem hblank, false_or] at hc
    rcases hc with hc | hc | hc
    · exact Or.inr hc
    · exact Or.inl (List.eq_of_mem_replicate hc)
    · rcases hrest with rfl | ⟨dst, hdst, rfl⟩
      · simp at hc
      · have hcomma : ∀ c ∈ ", ".toList, isBlank c = true → c = ' ' := by
          simp
          decide
        rw [String.toList_append, List.mem_append] at hc
        exact Or.inl (hcomma c (hc.resolve_right (hdst.not_mem hblank)) hblank)

end Instr

/-- A name before a colon is read as a label. -/
theorem Line.ofText?_label {name : String} (h : Unbroken name) :
    Line.ofText? (name ++ ":").toList = some (.label name) := by
  obtain ⟨c, cs, hlist, hc⟩ := h.exists_cons
  have htext : (name ++ ":").toList = name.toList ++ [':'] := by simp
  have hspace : ¬ ".global ".toList.isPrefixOf (name ++ ":").toList = true := by
    intro hprefix
    have hmem : ' ' ∈ (name ++ ":").toList :=
      (List.isPrefixOf_iff_prefix.mp hprefix).subset (by simp)
    rw [htext, List.mem_append] at hmem
    rcases hmem with hmem | hmem
    · exact absurd (h.2 ' ' hmem) (by decide)
    · exact absurd hmem (by decide)
  have hlast : (name ++ ":").toList.getLast? = some ':' := by
    rw [htext, List.getLast?_concat]
  have hname : (name ++ ":").toList.dropLast = name.toList := by
    rw [htext, List.dropLast_concat]
  unfold Line.ofText?
  split
  · next rest heq =>
    rw [htext, hlist, List.cons_append, List.cons.injEq] at heq
    exact absurd (heq.1 ▸ hc) (by decide)
  · rw [if_neg hspace, if_pos hlast, hname, String.ofList_toList]

/-- What is written for a line is read back. -/
theorem Line.ofText?_text {line : Line String} (h : line.Legible) :
    Line.ofText? line.text.toList = some line.asRead := by
  cases line with
  | global name => simp [Line.text, Line.ofText?, Line.asRead]
  | symbol name => exact Line.ofText?_label h
  | label l => exact Line.ofText?_label h
  | instr i => exact Instr.ofText?_text h

/-- The only blanks of a line are spaces and tabs. -/
theorem Line.eq_of_isBlank_of_mem_text {line : Line String} (h : line.Legible) {c : Char}
    (hc : c ∈ line.text.toList) (hblank : isBlank c = true) : c = ' ' ∨ c = '\t' := by
  have hcolon : ∀ {name : String}, Unbroken name → c ∉ (name ++ ":").toList := by
    intro name hunbroken hmem
    rw [String.toList_append, List.mem_append] at hmem
    rcases hmem with hmem | hmem
    · exact hunbroken.not_mem hblank hmem
    · obtain rfl := List.mem_singleton.mp hmem
      exact absurd hblank (by decide)
  cases line with
  | global name =>
    have hdirective : ∀ c ∈ ".global ".toList, isBlank c = true → c = ' ' := by
      simp
      decide
    rw [Line.text, String.toList_append, List.mem_append] at hc
    exact Or.inl (hdirective c (hc.resolve_right (Unbroken.not_mem h hblank)) hblank)
  | symbol name => exact absurd hc (hcolon h)
  | label l => exact absurd hc (hcolon h)
  | instr i => exact Instr.eq_of_isBlank_of_mem_text h hc hblank

/-- The text of lines, each with its end. -/
def textOf (lines : List (Line String)) : String :=
  String.join (lines.map fun line => line.text ++ "\n")

theorem textOf_cons (line : Line String) (lines : List (Line String)) :
    textOf (line :: lines) = line.text ++ "\n" ++ textOf lines := by
  simp [textOf, String.join_cons]

/-- A text without ends of lines is the first line of any text that goes on with one. -/
theorem linesOf_append {line : List Char} (rest : List Char)
    (h : ∀ c ∈ line, c ≠ '\n' ∧ c ≠ '\r') :
    linesOf (line ++ '\n' :: rest) = line :: linesOf rest := by
  induction line with
  | nil => simp [linesOf]
  | cons c line ih =>
    obtain ⟨hn, hr⟩ := h c List.mem_cons_self
    have hline := ih fun c hc => h c (List.mem_cons_of_mem _ hc)
    rw [List.cons_append, linesOf, hline]
    · exact fun _ hreturn _ => hr hreturn
    · exact hn

/-- Legible lines are the lines of their text. -/
theorem linesOf_textOf {lines : List (Line String)} (h : ∀ line ∈ lines, line.Legible) :
    linesOf (textOf lines).toList = lines.map fun line => line.text.toList := by
  induction lines with
  | nil => rfl
  | cons line lines ih =>
    rw [List.forall_mem_cons] at h
    have hends : ∀ c ∈ line.text.toList, c ≠ '\n' ∧ c ≠ '\r' := by
      intro c hc
      constructor <;> rintro rfl <;>
        exact absurd (Line.eq_of_isBlank_of_mem_text h.1 hc (by decide)) (by decide)
    have hlist : (textOf (line :: lines)).toList =
        line.text.toList ++ '\n' :: (textOf lines).toList := by
      simp [textOf_cons]
    rw [hlist, linesOf_append _ hends, ih h.2, List.map_cons]

/-- The lines of a text are read back from it. -/
theorem Image.ofText?_textOf {lines : List (Line String)} (h : ∀ line ∈ lines, line.Legible)
    (nodup : ((lines.map Line.asRead).filterMap Line.label?).Nodup) :
    Image.ofText? (textOf lines) = some ⟨lines.map Line.asRead, nodup⟩ := by
  have hread : (linesOf (textOf lines).toList).mapM Line.ofText? =
      some (lines.map Line.asRead) := by
    rw [linesOf_textOf h]
    clear nodup
    induction lines with
    | nil => rfl
    | cons line lines ih =>
      rw [List.forall_mem_cons] at h
      rw [List.map_cons, List.mapM_cons, Line.ofText?_text h.1, ih h.2]
      rfl
  simp only [Image.ofText?, hread, Option.bind_eq_bind, Option.bind_some]
  exact dif_pos nodup

end MiniC.Assembly
