import MiniC.Proofs.Assembly.Labels
import Mathlib.Algebra.BigOperators.Ring.List
import Mathlib.Algebra.Ring.Nat
import Mathlib.Data.Option.Basic

/-!
# Labels in what is written

The bytes that a sink took are read row by row. A row that does not begin with a tab marks what
stands before its colon, and the row of a jump ends with the place it goes to. Every label that is
marked or jumped to, also where a full sink cut the code off, was counted by the generator in this
call, and no label is counted in two calls. What is written completely marks all labels counted for
it, and its jumps go to labels marked in later rows. This supposes that the scope has neither a
colon nor a line feed, which would end a label or its row early.
-/

namespace MiniC

open Assembly

namespace Bytes

@[simp] theorem ofText_append (first rest : String) :
    ofText (first ++ rest) = ofText first ++ ofText rest := by
  simp [ofText]

theorem ofText_eq_flatMap (text : String) :
    ofText text = text.toList.flatMap String.utf8EncodeChar := by
  rw [ofText, String.toUTF8, ← String.ofList_toList (s := text), String.toByteArray_ofList,
    String.toList_ofList, List.utf8Encode]
  simp

/-- A byte below 128 stands for the character of its number only. -/
theorem eq_of_mem_utf8EncodeChar {b : UInt8} (hb : b.toNat < 128) {c : Char}
    (h : b ∈ String.utf8EncodeChar c) : b.toNat = c.toNat := by
  unfold String.utf8EncodeChar at h
  dsimp only at h
  change b.toNat = c.val.toNat
  split at h
  · rw [List.mem_singleton] at h
    rw [h, UInt8.toNat_ofNat']
    omega
  · exfalso
    split at h
    · simp only [List.mem_cons, List.not_mem_nil, or_false] at h
      rcases h with rfl | rfl <;> rw [UInt8.toNat_ofNat'] at hb <;> omega
    · split at h
      · simp only [List.mem_cons, List.not_mem_nil, or_false] at h
        rcases h with rfl | rfl | rfl <;> rw [UInt8.toNat_ofNat'] at hb <;> omega
      · simp only [List.mem_cons, List.not_mem_nil, or_false] at h
        rcases h with rfl | rfl | rfl | rfl <;> rw [UInt8.toNat_ofNat'] at hb <;> omega

theorem not_mem_ofText {b : UInt8} (hb : b.toNat < 128) {text : String}
    (h : Char.ofNat b.toNat ∉ text.toList) : b ∉ ofText text := by
  intro hmem
  rw [ofText_eq_flatMap, List.mem_flatMap] at hmem
  obtain ⟨c, hc, hbyte⟩ := hmem
  rw [eq_of_mem_utf8EncodeChar hb hbyte, Char.ofNat_toNat] at h
  exact h hc

theorem ofText_injective : Function.Injective ofText := by
  intro first second h
  have htext := text?_ofText first
  rw [h, text?_ofText] at htext
  exact (Option.some.inj htext).symm

end Bytes

namespace Assembly

/-- The rows that end with a line feed. -/
def wholeRows (bytes : Bytes) : List Bytes := (bytes.splitOn 10).dropLast

/-- The name that a row marks the place of: what stands before its first colon, unless it begins
with a tab. -/
def markOf? (row : Bytes) : Option Bytes :=
  if row.head? = some 9 ∨ 58 ∉ row then none else some (row.takeWhile (· ≠ 58))

/-- The place that a row jumps to: the operand of a mnemonic that begins with `j`. -/
def targetOf? : Bytes → Option Bytes
  | 9 :: 106 :: row => some ((row.dropWhile (· ≠ 32)).dropWhile (· = 32))
  | _ => none

private theorem wholeRows_flatMap {rows : List Bytes} {part : Bytes}
    (hrows : ∀ row ∈ rows, 10 ∉ row) (hpart : 10 ∉ part) : wholeRows (rows.flatMap (· ++ [10]) ++ part) = rows := by
  have hsplit : (rows.flatMap (· ++ [10]) ++ part).splitOn 10 = rows ++ [part] := by
    induction rows with
    | nil => exact List.splitOn_eq_singleton hpart
    | cons row rows ih =>
      rw [List.forall_mem_cons] at hrows
      rw [List.flatMap_cons, List.append_assoc, List.append_assoc, List.singleton_append,
        List.splitOn_append_cons_self, List.splitOn_eq_singleton hrows.1, ih hrows.2]
      rfl
  rw [wholeRows, hsplit, List.dropLast_concat]

/-- The bytes of a line without its end. -/
def Line.row (line : Line String) : Bytes := .ofText line.text

theorem ofText_spellLabel (scope : String) (number : Nat) :
    Bytes.ofText (spellLabel scope number) =
      46 :: 76 :: Bytes.ofText (scope ++ "." ++ toString number) := by
  have hstart : Bytes.ofText ".L" = [46, 76] := by decide
  rw [spellLabel, String.append_assoc, String.append_assoc, Bytes.ofText_append, hstart,
    ← String.append_assoc]
  rfl

/-- A label holds no colon and no line feed that is not in its scope. -/
theorem not_mem_spellLabel {c : Char} (hc : c = ':' ∨ c = '\n') {scope : String}
    (h : c ∉ scope.toList) (number : Nat) : c ∉ (spellLabel scope number).toList := by
  have hdigits : c ∉ (toString number).toList := by
    intro hmem
    have hdigit := isDigit_of_mem_toString hmem
    rcases hc with rfl | rfl <;> exact absurd hdigit (by decide)
  simp only [spellLabel, String.toList_append, List.mem_append, not_or]
  refine ⟨⟨⟨?_, h⟩, ?_⟩, hdigits⟩ <;> rcases hc with rfl | rfl <;> decide

/-- An instruction holds no line feed that is not in the label it jumps to. -/
theorem Instr.lineFeed_not_mem_text {i : Instr String}
    (h : ∀ target, (Line.instr i).target? = some target → '\n' ∉ target.toList) :
    '\n' ∉ i.text.toList := by
  have hlegible (hi : i.Legible) : '\n' ∉ i.text.toList := by
    intro hmem
    exact absurd (Instr.eq_of_isBlank_of_mem_text hi hmem (by decide)) (by decide)
  have hjump {target : String} (htarget : (Line.instr i).target? = some target)
      (hoperands : i.operands? = some target) : '\n' ∉ i.text.toList := by
    have hmnemonic : '\n' ∉ i.mnemonic.toList := by
      intro hmem
      exact absurd (i.mnemonic_spec.1 _ hmem) (by decide)
    rw [Instr.toList_text_of_eq_some hoperands]
    simp only [List.mem_cons, List.mem_append, List.mem_replicate, not_or]
    exact ⟨by decide, hmnemonic, by simp, h target htarget⟩
  cases i with
  | jumpIf cond target => exact hjump rfl rfl
  | jmp target => exact hjump rfl rfl
  | _ => exact hlegible trivial

section Local

variable {scope : String}

/-- The row of a label marks it and jumps nowhere. -/
theorem read_row_label (h : ':' ∉ scope.toList) (number : Nat) :
    markOf? (Line.label (spellLabel scope number)).row =
        some (.ofText (spellLabel scope number)) ∧
      targetOf? (Line.label (spellLabel scope number)).row = none := by
  have hcolon : Bytes.ofText ":" = [58] := by decide
  have hrow : (Line.label (spellLabel scope number)).row =
      Bytes.ofText (spellLabel scope number) ++ [58] := by
    rw [Line.row, Line.text, Bytes.ofText_append, hcolon]
  have hlabel : 58 ∉ Bytes.ofText (spellLabel scope number) :=
    Bytes.not_mem_ofText (by decide) (not_mem_spellLabel (.inl rfl) h number)
  have hname : ∀ b ∈ Bytes.ofText (spellLabel scope number), decide (b ≠ 58) = true := by
    intro b hb
    exact decide_eq_true fun heq => hlabel (heq ▸ hb)
  constructor
  · rw [markOf?, hrow, if_neg, List.takeWhile_append_of_pos hname]
    · simp
    · simp [ofText_spellLabel]
  · rw [hrow, ofText_spellLabel]
    rfl

theorem exists_row_instr_eq (i : Instr String) :
    ∃ tail, (Line.instr i).row = 9 :: (Bytes.ofText i.mnemonic ++ tail) := by
  have htab : Bytes.ofText "\t" = [9] := by decide
  rw [Line.row, Line.text, Instr.text]
  cases i.operands? with
  | none => exact ⟨[], by simp [htab]⟩
  | some operands => exact ⟨_, by simp [htab, fillRight]; rfl⟩

/-- The row of an instruction marks nothing. -/
theorem markOf?_row_instr (i : Instr String) : markOf? (Line.instr i).row = none := by
  obtain ⟨tail, hrow⟩ := exists_row_instr_eq i
  rw [hrow, markOf?, if_pos (.inl rfl)]

private theorem targetOf?_of_ne {b : UInt8} (h : b ≠ 106) (row : Bytes) :
    targetOf? (9 :: b :: row) = none := by
  unfold targetOf?
  split
  · next heq =>
    cases heq
    exact absurd rfl h
  · rfl

private theorem ofText_blanks (width : Nat) :
    Bytes.ofText (blanks width) = List.replicate width 32 := by
  have hspace : String.utf8EncodeChar ' ' = [32] := by decide
  rw [Bytes.ofText_eq_flatMap, blanks, String.toList_ofList]
  induction width with
  | zero => rfl
  | succ width ih =>
    rw [List.replicate_succ, List.flatMap_cons, ih, hspace, List.replicate_succ,
      List.singleton_append]

/-- The row of an instruction whose mnemonic begins with `j` names its target. -/
theorem targetOf?_row_jump {i : Instr String} (ending : String)
    (hmnemonic : i.mnemonic = "j" ++ ending) {number : Nat}
    (hoperands : i.operands? = some (spellLabel scope number)) :
    targetOf? (Line.instr i).row = some (.ofText (spellLabel scope number)) := by
  have htab : Bytes.ofText "\t" = [9] := by decide
  have hj : Bytes.ofText "j" = [106] := by decide
  obtain ⟨hblank, hlength⟩ := i.mnemonic_spec
  obtain ⟨count, hcount⟩ : ∃ count, 8 - i.mnemonic.length = count + 1 :=
    ⟨7 - i.mnemonic.length, by omega⟩
  have hrow : (Line.instr i).row = 9 :: 106 :: (Bytes.ofText ending ++
      (List.replicate (count + 1) 32 ++ Bytes.ofText (spellLabel scope number))) := by
    rw [hmnemonic] at hcount
    rw [Line.row, Line.text, Instr.text, hoperands]
    simp only [fillRight, hmnemonic, hcount, Bytes.ofText_append, htab, hj, ofText_blanks,
      List.append_assoc]
    rfl
  have hending : ∀ b ∈ Bytes.ofText ending, decide (b ≠ 32) = true := by
    have hspace : ' ' ∉ ending.toList := by
      intro hmem
      refine absurd (hblank ' ' ?_) (by decide)
      rw [hmnemonic, String.toList_append]
      exact List.mem_append_right _ hmem
    intro b hb
    exact decide_eq_true fun heq => Bytes.not_mem_ofText (by decide) hspace (heq ▸ hb)
  have hgap : ∀ b ∈ List.replicate (count + 1) (32 : UInt8), decide (b = 32) = true := by
    intro b hb
    exact decide_eq_true (List.eq_of_mem_replicate hb)
  rw [hrow, targetOf?, List.dropWhile_append_of_pos hending, List.replicate_succ, List.cons_append,
    List.dropWhile_cons_of_neg (by decide), ← List.cons_append, ← List.replicate_succ,
    List.dropWhile_append_of_pos hgap, ofText_spellLabel, List.dropWhile_cons_of_neg (by decide)]

/-- The row of a jump names its target, and the row of another instruction none. -/
theorem targetOf?_row_instr (i : Instr Nat) :
    targetOf? (Line.instr (i.mapLabel (spellLabel scope))).row =
      (Line.instr (i.mapLabel (spellLabel scope))).target?.map Bytes.ofText := by
  have hother {b : UInt8} {rest : Bytes}
      (hmnemonic : Bytes.ofText (i.mapLabel (spellLabel scope)).mnemonic = b :: rest)
      (hb : b ≠ 106) : targetOf? (Line.instr (i.mapLabel (spellLabel scope))).row = none := by
    obtain ⟨tail, hrow⟩ := exists_row_instr_eq (i.mapLabel (spellLabel scope))
    rw [hrow, hmnemonic]
    exact targetOf?_of_ne hb _
  cases i with
  | jumpIf cond number => exact targetOf?_row_jump cond.suffix rfl rfl
  | jmp number => exact targetOf?_row_jump "mp" rfl rfl
  | set cond dst => cases cond <;> exact hother rfl (by decide)
  | _ => exact hother rfl (by decide)

/-- The rows of a local line say what the line marks and where it jumps to. -/
theorem read_row {step : Step Nat} (hstep : step.IsLocal) (hcolon : ':' ∉ scope.toList)
    {line : Line Nat} (hline : step = .write line) :
    markOf? (line.mapLabel (spellLabel scope)).row =
        (line.mapLabel (spellLabel scope)).label?.map Bytes.ofText ∧
      targetOf? (line.mapLabel (spellLabel scope)).row =
        (line.mapLabel (spellLabel scope)).target?.map Bytes.ofText := by
  subst hline
  rcases hstep with ⟨number, hlabel⟩ | ⟨i, hinstr⟩ | hreserve
  · cases hlabel
    exact read_row_label hcolon number
  · cases hinstr
    exact ⟨markOf?_row_instr _, targetOf?_row_instr i⟩
  · cases hreserve

end Local

namespace Generator

theorem lineBytes_eq (g : Generator) (line : Line Nat) :
    g.lineBytes line = (line.mapLabel (spellLabel g.scope)).row ++ [10] := by
  have hfeed : Bytes.ofText "\n" = [10] := by decide
  rw [lineBytes, Bytes.ofText_append, hfeed, Line.row]

/-- A sink took the rows of the lines that the generator came to, and a beginning of the row that
did not fit, if there is one. -/
theorem exists_bytes_of_run_eq {g : Generator} {room : Room} {steps : List (Step Nat)}
    {e : Emission} (h : g.run room steps = .ok e) :
    ∃ part, e.bytes =
        ((spelled g.scope (g.reached room steps)).map Line.row).flatMap (· ++ [10]) ++ part ∧
      (part = [] ∨ ∃ line ∈ spelled g.scope steps, part <+: line.row) ∧
      (e.complete = true → part = [] ∧ g.reached room steps = steps) := by
  replace h := runs_of_run_eq h
  induction h with
  | nil => exact ⟨[], rfl, .inl rfl, fun _ => ⟨rfl, rfl⟩⟩
  | enter h ih =>
    obtain ⟨part, hbytes, hpart, hcomplete⟩ := ih
    exact ⟨part, hbytes, hpart, fun hc => ⟨(hcomplete hc).1, by rw [reached, (hcomplete hc).2]⟩⟩
  | reserve hcount h ih =>
    obtain ⟨part, hbytes, hpart, hcomplete⟩ := ih
    exact ⟨part, hbytes, hpart, fun hc => ⟨(hcomplete hc).1, by rw [reached, (hcomplete hc).2]⟩⟩
  | @write g room line steps e hfits h ih =>
    obtain ⟨part, hbytes, hpart, hcomplete⟩ := ih
    refine ⟨part, ?_, ?_, fun hc => ⟨(hcomplete hc).1, ?_⟩⟩
    · change g.lineBytes line ++ e.bytes = _
      rw [reached, if_pos hfits, spelled, List.map_cons, List.flatMap_cons, hbytes, lineBytes_eq,
        List.append_assoc, List.append_assoc, List.append_assoc]
    · refine hpart.imp_right ?_
      rintro ⟨line', hmem, hprefix⟩
      exact ⟨line', List.mem_cons_of_mem _ hmem, hprefix⟩
    · rw [reached, if_pos hfits, (hcomplete hc).2]
  | @full g room line steps hfits =>
    refine ⟨room.cut (g.lineBytes line), ?_, .inr ⟨_, List.mem_cons_self, ?_⟩,
      fun hc => absurd hc Bool.false_ne_true⟩
    · rw [reached, if_neg hfits]
      rfl
    · cases room with
      | none => exact absurd rfl hfits
      | some limit =>
        rw [Room.fits, lineBytes_eq, List.length_append, List.length_singleton, decide_eq_true_eq,
          Nat.not_le, Nat.lt_succ_iff] at hfits
        rw [Room.cut, lineBytes_eq, List.take_append_of_le_length hfits]
        exact List.take_prefix _ _

end Generator

/-- A line of local steps is one that a step writes. -/
theorem exists_write_of_mem_spelled {steps : List (Step Nat)} (h : ∀ step ∈ steps, step.IsLocal)
    {scope : String} {line : Line String} (hline : line ∈ spelled scope steps) :
    ∃ l, .write l ∈ steps ∧ Step.IsLocal (.write l) ∧ line = l.mapLabel (spellLabel scope) := by
  rw [spelled_of_isLocal scope h, List.mem_map] at hline
  obtain ⟨l, hl, rfl⟩ := hline
  obtain ⟨step, hstep, hwrite⟩ := List.mem_filterMap.mp hl
  obtain rfl : step = .write l := by
    cases step <;> cases hwrite
    rfl
  exact ⟨l, hstep, h _ hstep, rfl⟩

section Rows

variable {scope : String} {steps : List (Step Nat)} (h : ∀ step ∈ steps, step.IsLocal)

include h

theorem lineFeed_not_mem_row (hscope : '\n' ∉ scope.toList) {line : Line String}
    (hline : line ∈ spelled scope steps) : 10 ∉ line.row := by
  obtain ⟨l, -, hlocal, rfl⟩ := exists_write_of_mem_spelled h hline
  refine Bytes.not_mem_ofText (by decide) ?_
  rcases hlocal with ⟨number, hl⟩ | ⟨i, hl⟩ | hl
  · cases hl
    show '\n' ∉ (spellLabel scope number ++ ":").toList
    rw [String.toList_append, List.mem_append, not_or]
    exact ⟨not_mem_spellLabel (.inr rfl) hscope number, by decide⟩
  · cases hl
    refine Instr.lineFeed_not_mem_text fun target htarget => ?_
    cases i with
    | jumpIf cond number =>
      cases htarget
      exact not_mem_spellLabel (.inr rfl) hscope number
    | jmp number =>
      cases htarget
      exact not_mem_spellLabel (.inr rfl) hscope number
    | _ => cases htarget
  · cases hl

/-- The marks of rows are those of the lines. -/
theorem filterMap_markOf?_row (hscope : ':' ∉ scope.toList) :
    ((spelled scope steps).map Line.row).filterMap markOf? =
      ((spelled scope steps).filterMap Line.label?).map Bytes.ofText := by
  rw [List.filterMap_map, List.map_filterMap]
  refine List.filterMap_congr fun line hline => ?_
  obtain ⟨l, -, hlocal, rfl⟩ := exists_write_of_mem_spelled h hline
  exact (read_row hlocal hscope rfl).1

end Rows

theorem isPrefix_spelled {first steps : List (Step Nat)} (h : first <+: steps) (scope : String) :
    spelled scope first <+: spelled scope steps := by
  obtain ⟨rest, rfl⟩ := h
  rw [spelled_append]
  exact List.prefix_append _ _

namespace Piece

/-- What a piece writes behind its header. -/
def body (n : Nat) (piece : Piece) : List (Step Nat) := piece.result.code n [] ++ piece.footer

theorem isLocal_body (n : Nat) (piece : Piece) : ∀ step ∈ piece.body n, step.IsLocal := by
  rw [body, List.forall_mem_append]
  refine ⟨piece.result.isLocal_code n, ?_⟩
  cases piece with
  | expr e => exact List.forall_mem_nil _
  | _ => exact List.forall_mem_singleton.mpr (.inr (.inl ⟨_, rfl⟩))

private theorem covered_body (n : Nat) (piece : Piece) : Covered n n (piece.body n) := by
  refine Covered.append_iff.mpr ⟨piece.result.covered_code n, ?_⟩
  cases piece with
  | expr e => trivial
  | _ => exact ⟨nofun, trivial⟩

theorem reserved_body (n : Nat) (piece : Piece) :
    reserved (piece.body n) = piece.result.labelCount := by
  rw [body, reserved_append, Expr.reserved_code, (piece.footer_inert "").2, Nat.add_zero]

/-- The rows of a header. -/
def headerRows (piece : Piece) : List Bytes :=
  match piece.name? with
  | none => []
  | some name => [.ofText (".global " ++ symbol name), .ofText (symbol name ++ ":")]

/-- What a generator came to of a piece is a beginning of the header, or the header and a beginning
of what follows it. -/
theorem exists_prefix_body {piece : Piece} {n : Nat} {steps : List (Step Nat)}
    (h : steps <+: piece.code n) (scope : String) :
    ∃ rest, rest <+: piece.body n ∧ reserved steps = reserved rest ∧
      ((spelled scope steps).map Line.row).drop piece.headerRows.length =
        (spelled (piece.scopeIn scope) rest).map Line.row := by
  rw [code_eq, ← body] at h
  unfold header at h
  unfold headerRows scopeIn
  cases hname : piece.name? with
  | none =>
    rw [hname] at h
    exact ⟨steps, h, rfl, rfl⟩
  | some name =>
    rw [hname] at h
    rcases steps with _ | ⟨first, _ | ⟨second, _ | ⟨third, rest⟩⟩⟩
    · exact ⟨[], List.nil_prefix, rfl, rfl⟩
    · simp only [List.cons_append, List.cons_prefix_cons] at h
      obtain ⟨rfl, -⟩ := h
      exact ⟨[], List.nil_prefix, rfl, rfl⟩
    · simp only [List.cons_append, List.cons_prefix_cons] at h
      obtain ⟨rfl, rfl, -⟩ := h
      exact ⟨[], List.nil_prefix, rfl, rfl⟩
    · simp only [List.cons_append, List.cons_prefix_cons, List.nil_append] at h
      obtain ⟨rfl, rfl, rfl, hrest⟩ := h
      exact ⟨rest, hrest, rfl, rfl⟩

/-- All rows of a piece are the header and the body. -/
theorem map_row_lines (g : Generator) (piece : Piece) :
    (piece.lines g).map Line.row = piece.headerRows ++
      (spelled (piece.scopeIn g.scope) (piece.body g.nextLabel)).map Line.row := by
  rw [lines, code_eq, ← body, spelled_append, scopeAfter_header, List.map_append]
  congr 1
  unfold header headerRows
  cases piece.name? <;> rfl

theorem lineFeed_not_mem_row (g : Generator) (piece : Piece)
    (h : '\n' ∉ (piece.scopeIn g.scope).toList) {line : Line String}
    (hline : line ∈ piece.lines g) : 10 ∉ line.row := by
  rw [lines, code_eq, ← body, spelled_append, scopeAfter_header, List.mem_append] at hline
  rcases hline with hline | hline
  · unfold header at hline
    unfold scopeIn at h
    cases hname : piece.name? with
    | none =>
      rw [hname] at hline
      cases hline
    | some name =>
      rw [hname, Option.getD_some] at h
      rw [hname] at hline
      have htext : line.text = ".global " ++ name ∨ line.text = name ++ ":" := by
        simp only [spelled, List.mem_cons, List.not_mem_nil, or_false] at hline
        rcases hline with rfl | rfl
        · exact .inl rfl
        · exact .inr rfl
      refine Bytes.not_mem_ofText (by decide) ?_
      rcases htext with htext | htext <;>
        simp only [htext, String.toList_append, List.mem_append, not_or] <;>
        refine ⟨?_, ?_⟩ <;> first | exact h | decide
  · exact Assembly.lineFeed_not_mem_row (piece.isLocal_body _) h hline

/-- The labels that a piece marks are those reserved for it, each once. -/
theorem filterMap_label?_body_perm (piece : Piece) (scope : String) (n : Nat) :
    ((spelled scope (piece.body n)).filterMap Line.label?).Perm
      ((List.range' n piece.result.labelCount).map (spellLabel scope)) := by
  have hfooter : (spelled scope piece.footer).filterMap Line.label? = [] := by
    cases piece <;> rfl
  rw [body, spelled_append, Expr.scopeAfter_code, List.filterMap_append, hfooter, List.append_nil]
  exact piece.result.filterMap_label?_lines_perm scope n

private theorem jumpsForward_body (piece : Piece) (scope : String) (n : Nat) :
    JumpsForward (spelled scope (piece.body n)) := by
  have hfooter : JumpsForward (spelled scope piece.footer) := by
    cases piece with
    | expr e => exact .nil
    | _ => exact JumpsForward.nil.cons rfl
  rw [body, spelled_append, Expr.scopeAfter_code]
  exact (piece.result.jumpsForward_lines scope n).append hfooter

end Piece

/-- The number at the end of a label. -/
def numberOf? (label : Bytes) : Option Nat := label.text?.bind labelNumber?

/-- A call of a generator: the state it began in, what was to be written, and the outcome. -/
structure Call where
  start : Generator
  piece : Piece
  outcome : Emission
  deriving DecidableEq, Repr

/-- The calls of a generator that writes pieces one after the other, each to a sink of its own,
which may be full before the end. -/
def Generator.calls (g : Generator) : List (Piece × Room) → Except Fault (List Call)
  | [] => .ok []
  | (piece, room) :: later => do
    let outcome ← g.emit piece room
    return ⟨g, piece, outcome⟩ :: (← outcome.generator.calls later)

namespace Call

/-- The scope of the labels of a call. -/
def scope (call : Call) : String := call.piece.scopeIn call.start.scope

/-- The labels that were handed out in a call: those that the generator counted. -/
def labels (call : Call) : List Bytes :=
  (List.range' call.start.nextLabel (call.outcome.generator.nextLabel - call.start.nextLabel)).map
    fun number => .ofText (spellLabel call.scope number)

/-- The rows that the sink took behind the header. -/
def rows (call : Call) : List Bytes :=
  (wholeRows call.outcome.bytes).drop call.piece.headerRows.length

/-- Whether a call was made. -/
def Made (call : Call) : Prop := ∃ room, call.start.emit call.piece room = .ok call.outcome

variable {call : Call}

/-- The count of labels grows by those that were reserved. -/
theorem Made.le_nextLabel (h : call.Made) :
    call.start.nextLabel ≤ call.outcome.generator.nextLabel := by
  obtain ⟨room, hemit⟩ := h
  rw [Generator.generator_of_run_eq hemit]
  exact Nat.le_add_right _ _

/-- What a call wrote, whether it was cut off or not: the rows behind the header are those of a
beginning of the code, and the labels counted are those that it reserves. -/
theorem Made.exists_prefix (h : call.Made) (hscope : '\n' ∉ call.scope.toList) :
    ∃ steps, steps <+: call.piece.body call.start.nextLabel ∧
      call.outcome.generator.nextLabel = call.start.nextLabel + reserved steps ∧
      call.rows = (spelled call.scope steps).map Line.row ∧
      (call.outcome.complete = true → steps = call.piece.body call.start.nextLabel ∧
        call.outcome.bytes = (call.piece.headerRows ++ call.rows).flatMap (· ++ [10])) := by
  obtain ⟨room, hemit⟩ := h
  obtain ⟨part, hbytes, hpart, hcomplete⟩ := Generator.exists_bytes_of_run_eq hemit
  have hreached := call.start.reached_prefix room (call.piece.code call.start.nextLabel)
  have hnext := Generator.generator_of_run_eq hemit
  have hfeed : ∀ line ∈ call.piece.lines call.start, 10 ∉ line.row := fun line hline =>
    call.piece.lineFeed_not_mem_row call.start hscope hline
  have hwhole : wholeRows call.outcome.bytes = (spelled call.start.scope
      (call.start.reached room (call.piece.code call.start.nextLabel))).map Line.row := by
    rw [hbytes]
    refine wholeRows_flatMap (List.forall_mem_map.mpr fun line hline => hfeed line ?_) ?_
    · exact (isPrefix_spelled hreached call.start.scope).subset hline
    · rcases hpart with rfl | ⟨line, hline, hbegins⟩
      · exact List.not_mem_nil
      · exact fun hmem => hfeed line hline (hbegins.subset hmem)
  by_cases hc : call.outcome.complete = true
  · obtain ⟨rfl, hall⟩ := hcomplete hc
    have hlines : (spelled call.start.scope (call.piece.code call.start.nextLabel)).map Line.row =
        call.piece.headerRows ++ (spelled call.scope
          (call.piece.body call.start.nextLabel)).map Line.row :=
      call.piece.map_row_lines call.start
    rw [hall, hlines] at hwhole hbytes
    have hrows : call.rows =
        (spelled call.scope (call.piece.body call.start.nextLabel)).map Line.row := by
      rw [rows, hwhole, List.drop_left]
    refine ⟨_, List.prefix_rfl, ?_, hrows, fun _ => ⟨rfl, ?_⟩⟩
    · rw [hnext, hall, call.piece.reserved_code, call.piece.reserved_body]
    · rw [hbytes, hrows, List.append_nil]
  · obtain ⟨steps, hsteps, hreserved, hrows⟩ := Piece.exists_prefix_body hreached call.start.scope
    refine ⟨steps, hsteps, ?_, ?_, fun h => absurd h hc⟩
    · rw [hnext, hreserved]
    · rw [rows, hwhole, hrows, scope]

theorem labels_eq {count : Nat}
    (h : call.outcome.generator.nextLabel = call.start.nextLabel + count) :
    call.labels = ((List.range' call.start.nextLabel count).map (spellLabel call.scope)).map
      Bytes.ofText := by
  rw [labels, h, Nat.add_sub_cancel_left, List.map_map]
  rfl

private theorem map_numberOf?_labels {count : Nat}
    (h : call.outcome.generator.nextLabel = call.start.nextLabel + count) :
    call.labels.map numberOf? = (List.range' call.start.nextLabel count).map some := by
  rw [labels_eq h, List.map_map, List.map_map]
  refine List.map_congr_left fun number _ => ?_
  rw [Function.comp_apply, Function.comp_apply, numberOf?, Bytes.text?_ofText, Option.bind_some,
    labelNumber?_spellLabel]

/-- The symbol of a function is none of the labels in it. -/
theorem symbol_not_mem_labels (call : Call) {name : String} (h : call.piece.name? = some name) :
    .ofText (symbol name) ∉ call.labels := by
  intro hmem
  obtain ⟨number, -, hlabel⟩ := List.mem_map.mp hmem
  have hscope : call.scope = name := by rw [scope, Piece.scopeIn, h, Option.getD_some]
  rw [hscope] at hlabel
  exact spellLabel_ne name number (Bytes.ofText_injective hlabel)

section Read

variable (h : call.Made) (hcolon : ':' ∉ call.scope.toList) (hfeed : '\n' ∉ call.scope.toList)

include h hcolon hfeed

/-- Whatever a call marks or jumps to was handed out in it. -/
theorem Made.mem_labels {row label : Bytes} (hrow : row ∈ call.rows)
    (hlabel : markOf? row = some label ∨ targetOf? row = some label) : label ∈ call.labels := by
  obtain ⟨steps, hsteps, hnext, hrows, -⟩ := h.exists_prefix hfeed
  have hlocal : ∀ step ∈ steps, step.IsLocal := fun step hstep =>
    call.piece.isLocal_body _ step (hsteps.subset hstep)
  have hcovered : Covered call.start.nextLabel call.start.nextLabel steps := by
    obtain ⟨rest, hrest⟩ := hsteps
    have hbody := call.piece.covered_body call.start.nextLabel
    rw [← hrest, Covered.append_iff] at hbody
    exact hbody.1
  rw [hrows, List.mem_map] at hrow
  obtain ⟨line, hline, rfl⟩ := hrow
  obtain ⟨l, hl, hwrite, rfl⟩ := exists_write_of_mem_spelled hlocal hline
  obtain ⟨number, hnumber, rfl⟩ : ∃ number, (l.label? = some number ∨ l.target? = some number) ∧
      .ofText (spellLabel call.scope number) = label := by
    rw [(read_row hwrite hcolon rfl).1, (read_row hwrite hcolon rfl).2, Line.label?_mapLabel,
      Line.target?_mapLabel, Option.map_map, Option.map_map] at hlabel
    simpa only [Option.map_eq_some_iff, ← exists_or, ← or_and_right, Function.comp_apply]
      using hlabel
  obtain ⟨hlow, hhigh⟩ := hcovered.bounds hl hnumber
  rw [labels_eq hnext]
  refine List.mem_map_of_mem (List.mem_map_of_mem ?_)
  rw [List.mem_range'_1]
  exact ⟨hlow, hhigh⟩

/-- No label is marked twice in a call. -/
theorem Made.nodup_marks : (call.rows.filterMap markOf?).Nodup := by
  obtain ⟨steps, hsteps, -, hrows, -⟩ := h.exists_prefix hfeed
  have hlocal : ∀ step ∈ steps, step.IsLocal := fun step hstep =>
    call.piece.isLocal_body _ step (hsteps.subset hstep)
  have hall := (call.piece.filterMap_label?_body_perm call.scope call.start.nextLabel).nodup_iff.mpr
    (List.Nodup.map (spellLabel_injective _) List.nodup_range')
  rw [hrows, filterMap_markOf?_row hlocal hcolon]
  refine List.Nodup.map Bytes.ofText_injective (hall.sublist ?_)
  exact ((isPrefix_spelled hsteps call.scope).filterMap _).sublist

/-- What a complete call wrote. -/
theorem Made.of_complete (hcomplete : call.outcome.complete = true) :
    call.outcome.bytes = (call.piece.headerRows ++ call.rows).flatMap (· ++ [10]) ∧
      call.labels = ((List.range' call.start.nextLabel (2 * call.piece.result.branchCount)).map
        (spellLabel call.scope)).map Bytes.ofText ∧
      (call.rows.filterMap markOf?).Perm call.labels ∧
      ∀ before row after target, call.rows = before ++ row :: after →
        targetOf? row = some target → target ∈ after.filterMap markOf? := by
  obtain ⟨steps, -, hnext, hrows, hall⟩ := h.exists_prefix hfeed
  obtain ⟨rfl, hbytes⟩ := hall hcomplete
  have hlocal := call.piece.isLocal_body call.start.nextLabel
  rw [call.piece.reserved_body, Expr.labelCount_eq_branchCount] at hnext
  have hperm := call.piece.filterMap_label?_body_perm call.scope call.start.nextLabel
  rw [Expr.labelCount_eq_branchCount] at hperm
  refine ⟨hbytes, labels_eq hnext, ?_, ?_⟩
  · rw [hrows, filterMap_markOf?_row hlocal hcolon, labels_eq hnext]
    exact hperm.map _
  · intro before row after target hsplit htarget
    obtain ⟨first, rest, hlines, -, hrest⟩ := List.map_eq_append_iff.mp (hrows.symm.trans hsplit)
    obtain ⟨line, later, rfl, rfl, rfl⟩ := List.map_eq_cons_iff.mp hrest
    have hread {line' : Line String} (hmem : line' ∈ line :: later) :
        markOf? line'.row = line'.label?.map Bytes.ofText ∧
          targetOf? line'.row = line'.target?.map Bytes.ofText := by
      obtain ⟨l, -, hwrite, rfl⟩ := exists_write_of_mem_spelled hlocal
        (hlines ▸ List.mem_append_right first hmem)
      exact read_row hwrite hcolon rfl
    rw [(hread List.mem_cons_self).2, Option.map_eq_some_iff] at htarget
    obtain ⟨label, hlabel, rfl⟩ := htarget
    have hlater : .label label ∈ later :=
      call.piece.jumpsForward_body call.scope _ ⟨first, hlines.symm⟩ label hlabel
    refine List.mem_filterMap.mpr ⟨_, List.mem_map_of_mem hlater, ?_⟩
    rw [(hread (List.mem_cons_of_mem _ hlater)).1]
    rfl

end Read

end Call

namespace Generator

variable {g : Generator} {asked : List (Piece × Room)} {calls : List Call}

/-- Calls end without a fault if the labels of all pieces together do not run out. -/
theorem exists_calls
    (h : g.nextLabel + (asked.map fun call => call.1.result.labelCount).sum ≤ counterMax) :
    ∃ calls, g.calls asked = .ok calls := by
  induction asked generalizing g with
  | nil => exact ⟨[], rfl⟩
  | cons first later ih =>
    obtain ⟨piece, room⟩ := first
    simp only [List.map_cons, List.sum_cons] at h
    have hpiece : g.nextLabel + reserved (piece.code g.nextLabel) ≤ counterMax := by
      rw [piece.reserved_code]
      omega
    obtain ⟨e, he⟩ := exists_run hpiece room
    have hemit : g.emit piece room = .ok e := he
    have hnext : e.generator.nextLabel ≤ g.nextLabel + piece.result.labelCount := by
      rw [generator_of_run_eq he, ← piece.reserved_code g.nextLabel]
      exact Nat.add_le_add_left (g.reserved_reached_le room _) _
    obtain ⟨calls, hcalls⟩ := ih (g := e.generator) (by omega)
    exact ⟨_, by simp only [Generator.calls, hemit, hcalls, bind, Except.bind]; rfl⟩

/-- One call after the other. -/
theorem exists_of_calls_cons_eq {piece : Piece} {room : Room}
    (h : g.calls ((piece, room) :: asked) = .ok calls) :
    ∃ outcome later, g.emit piece room = .ok outcome ∧
      outcome.generator.calls asked = .ok later ∧ calls = ⟨g, piece, outcome⟩ :: later := by
  cases hemit : g.emit piece room with
  | error fault => simp [Generator.calls, hemit, bind, Except.bind] at h
  | ok outcome =>
    cases hlater : outcome.generator.calls asked with
    | error fault => simp [Generator.calls, hemit, hlater, bind, Except.bind] at h
    | ok later =>
      simp only [Generator.calls, hemit, hlater, bind, Except.bind] at h
      cases h
      exact ⟨outcome, later, rfl, hlater, rfl⟩

private theorem made_of_calls_eq (h : g.calls asked = .ok calls) : ∀ call ∈ calls, call.Made := by
  induction asked generalizing g calls with
  | nil =>
    cases h
    exact List.forall_mem_nil _
  | cons first asked ih =>
    obtain ⟨outcome, later, hemit, hlater, rfl⟩ := exists_of_calls_cons_eq h
    exact List.forall_mem_cons.mpr ⟨⟨first.2, hemit⟩, ih hlater⟩

/-- The labels handed out in a sequence of calls are numbered one after the other. -/
theorem exists_numbers_of_calls_eq (h : g.calls asked = .ok calls) :
    ∃ count, (calls.flatMap Call.labels).map numberOf? =
      (List.range' g.nextLabel count).map some := by
  induction asked generalizing g calls with
  | nil =>
    cases h
    exact ⟨0, rfl⟩
  | cons first asked ih =>
    obtain ⟨outcome, later, hemit, hlater, rfl⟩ := exists_of_calls_cons_eq h
    obtain ⟨count, hcount⟩ := ih hlater
    have hmade : Call.Made ⟨g, first.1, outcome⟩ := ⟨first.2, hemit⟩
    obtain ⟨taken, htaken⟩ := Nat.exists_eq_add_of_le hmade.le_nextLabel
    refine ⟨taken + count, ?_⟩
    rw [List.flatMap_cons, List.map_append, hcount, Call.map_numberOf?_labels htaken, htaken,
      ← List.map_append, List.range'_append_1]

/-- No label is handed out twice. -/
theorem nodup_of_calls_eq (h : g.calls asked = .ok calls) : (calls.flatMap Call.labels).Nodup := by
  obtain ⟨count, hnumbers⟩ := exists_numbers_of_calls_eq h
  refine List.Nodup.of_map numberOf? ?_
  rw [hnumbers]
  exact List.Nodup.map (Option.some_injective _) List.nodup_range'

/-- A generator in any state hands out no label twice in any sequence of calls, if the labels do not
run out. What a sink took of a call marks no label twice, and it marks and jumps to no label but
those handed out in this call, if the scope has neither a colon nor a line feed. A complete call
hands out two labels for each operator `&&` or `||`, and consists of the header, if there is one,
and of rows that mark each of these labels, none of which is the symbol of the function, and whose
jumps all go to labels marked in later rows. -/
theorem labels_distinct_and_jumps_forward (g : Generator) (asked : List (Piece × Room)) :
    (g.nextLabel + 2 * (asked.map fun call => call.1.result.branchCount).sum < 4294967296 →
      ∃ calls, g.calls asked = .ok calls) ∧
    ∀ calls, g.calls asked = .ok calls →
      (calls.flatMap Call.labels).Nodup ∧
      ∀ call ∈ calls, ':' ∉ call.scope.toList → '\n' ∉ call.scope.toList →
        (call.rows.filterMap markOf?).Nodup ∧
        (∀ row ∈ call.rows, ∀ label, markOf? row = some label ∨ targetOf? row = some label →
          label ∈ call.labels) ∧
        (call.outcome.complete = true →
          call.outcome.bytes = (call.piece.headerRows ++ call.rows).flatMap (· ++ [10]) ∧
          call.labels = ((List.range' call.start.nextLabel (2 * call.piece.result.branchCount)).map
            (spellLabel call.scope)).map Bytes.ofText ∧
          (call.rows.filterMap markOf?).Perm call.labels ∧
          (∀ name, call.piece.name? = some name → .ofText (symbol name) ∉ call.labels) ∧
          ∀ before row after target, call.rows = before ++ row :: after →
            targetOf? row = some target → target ∈ after.filterMap markOf?) := by
  refine ⟨fun h => ?_, fun calls hcalls => ⟨nodup_of_calls_eq hcalls, fun call hcall hcolon hfeed =>
    ?_⟩⟩
  · refine exists_calls ?_
    have hsum : (asked.map fun call => call.1.result.labelCount).sum =
        2 * (asked.map fun call => call.1.result.branchCount).sum := by
      simp only [Expr.labelCount_eq_branchCount, List.sum_map_mul_left]
    rw [hsum, counterMax]
    omega
  · have hmade := made_of_calls_eq hcalls call hcall
    refine ⟨hmade.nodup_marks hcolon hfeed,
      fun row hrow label => hmade.mem_labels hcolon hfeed hrow, fun hcomplete => ?_⟩
    obtain ⟨hbytes, hlabels, hperm, hjumps⟩ := hmade.of_complete hcolon hfeed hcomplete
    exact ⟨hbytes, hlabels, hperm, fun name => call.symbol_not_mem_labels, hjumps⟩

/-- A call that is cut within its second jump, and then a function whose name ends like one of the
labels that were handed out. -/
theorem labels_distinct_and_jumps_forward_of_cut_call :
    let e : Expr := .binary .and (.integer 1) (.integer 2)
    let f : Piece := .function ⟨"a.1", .ret e⟩
    let cut : Call := ⟨⟨"a", 1⟩, .expr e, ⟨.ofText ("\tmovl    $1, %eax\n\tcmpl    $0, %eax\n" ++
      "\tjne     .La.1\n\tjmp     "), false, ⟨"a", 3⟩⟩⟩
    let whole : Call := ⟨⟨"a", 3⟩, f, ⟨.ofText (".global a.1\na.1:\n\tmovl    $1, %eax\n" ++
      "\tcmpl    $0, %eax\n\tjne     .La.1.3\n\tjmp     .La.1.4\n.La.1.3:\n\tmovl    $2, %eax\n" ++
      "\tcmpl    $0, %eax\n\tmovl    $0, %eax\n\tsetne   %al\n.La.1.4:\n\tret\n"), true,
        ⟨"a.1", 5⟩⟩⟩
    Generator.calls ⟨"a", 1⟩ [(.expr e, some 60), (f, none)] = .ok [cut, whole] ∧
      (cut.labels ++ whole.labels).Nodup ∧ .ofText ".La.1" ∈ cut.labels ∧
      (whole.rows.filterMap markOf?).Perm whole.labels ∧ .ofText "a.1" ∉ whole.labels ∧
      ∀ before row after target, whole.rows = before ++ row :: after →
        targetOf? row = some target → target ∈ after.filterMap markOf? := by
  intro e f cut whole
  have hcalls : Generator.calls ⟨"a", 1⟩ [(.expr e, some 60), (f, none)] = .ok [cut, whole] := by
    decide +kernel
  obtain ⟨hnodup, hcall⟩ := (labels_distinct_and_jumps_forward ⟨"a", 1⟩ _).2 _ hcalls
  obtain ⟨-, hused, -⟩ := hcall cut (by simp) (by decide) (by decide)
  obtain ⟨-, -, hcomplete⟩ := hcall whole (by simp) (by decide) (by decide)
  obtain ⟨-, -, hperm, hsymbol, hjumps⟩ := hcomplete rfl
  refine ⟨hcalls, by simpa using hnodup, ?_, hperm, hsymbol "a.1" rfl, hjumps⟩
  exact hused (.ofText "\tjne     .La.1") (by decide +kernel) _ (.inr (by decide +kernel))

/-- A colon in the name of a function ends its labels early, and a line feed their rows, so that two
labels are marked in the same way. -/
theorem labels_marked_alike :
    let f : Piece := .function ⟨"a:\nb", .ret (.binary .and (.integer 1) (.integer 2))⟩
    ∃ e, ({} : Generator).emit f none = .ok e ∧ e.complete = true ∧
      (wholeRows e.bytes).count (.ofText ".La:") = 2 ∧
      ((wholeRows e.bytes).filterMap markOf?).count (.ofText ".La") = 2 := by
  intro f
  have hread : (({} : Generator).emit f none).map (fun e => (e.complete,
      (wholeRows e.bytes).count (.ofText ".La:"),
      ((wholeRows e.bytes).filterMap markOf?).count (.ofText ".La"))) = .ok (true, 2, 2) := by
    decide +kernel
  cases hemit : ({} : Generator).emit f none with
  | error fault =>
    rw [hemit] at hread
    cases hread
  | ok e =>
    rw [hemit] at hread
    obtain ⟨hcomplete, hrows, hmarks⟩ : e.complete = true ∧
        (wholeRows e.bytes).count (.ofText ".La:") = 2 ∧
        ((wholeRows e.bytes).filterMap markOf?).count (.ofText ".La") = 2 := by
      simpa only [Prod.mk.injEq] using Except.ok.inj hread
    exact ⟨e, rfl, hcomplete, hrows, hmarks⟩

end Generator

end Assembly

end MiniC
