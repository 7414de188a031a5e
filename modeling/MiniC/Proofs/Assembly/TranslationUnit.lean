import MiniC.Proofs.Assembly.Delivery
import MiniC.Proofs.Assembly.Labels
import MiniC.Proofs.Parse.Refusal
import MiniC.Proofs.Token.Class

/-!
# Translation units

The code of a program is a translation unit: a directive and a symbol, a body of local labels and
instructions, and a return, which is the only one. The symbol is the name of the function. Any
identifier can be such a name, and not every identifier is a legal symbol, so an assembler can read
the unit exactly if the name does not begin with a digit and holds no character that is foreign to
symbols.
-/

namespace MiniC

open Assembly

namespace Assembly

/-- Whether a character can stand in a symbol: an ASCII letter or digit, `_`, `.`, `$`, or any
character beyond ASCII. -/
def isSymbolChar (c : Char) : Bool :=
  c.isAlphanum || c == '_' || c == '.' || c == '$' || 128 ≤ c.toNat

/-- Whether a text is a legal symbol. -/
structure IsSymbol (name : String) : Prop where
  ne_empty : name ≠ ""
  head : ∀ c, name.toList.head? = some c → isDecimalDigit c = false
  chars : ∀ c ∈ name.toList, isSymbolChar c = true

/-- Whether a line stands in the body of a unit with the given local labels: it marks one of them,
or it holds an instruction, and a jump goes to one of them. -/
def IsBodyLine (labels : List String) (line : List Char) : Prop :=
  (∃ label ∈ labels, line = (label ++ ":").toList) ∨
    ∃ i, Line.ofText? line = some (.instr i) ∧
      ∀ target, (Line.instr i).target? = some target → target ∈ labels

/-- Whether lines are laid out as the unit of a symbol with the given local labels. -/
structure IsLaidOut (name : String) (labels : List String) (lines : List (List Char)) : Prop where
  frame : ∃ body, lines = (".global " ++ name).toList :: (name ++ ":").toList ::
    (body ++ ["\tret".toList]) ∧ ∀ line ∈ body, IsBodyLine labels line
  one_return : lines.count "\tret".toList = 1
  marked : ∀ label ∈ labels, (∃ rest, label = ".L" ++ rest) ∧ (label ++ ":").toList ∈ lines

/-- The lines of the text that bytes hold. -/
def codeLines? (code : Bytes) : Option (List (List Char)) :=
  (Bytes.text? code).map fun text => linesOf text.toList

/-- Whether bytes hold a translation unit whose symbol and labels are legal. -/
def IsTranslationUnit (code : Bytes) : Prop :=
  ∃ lines name labels, codeLines? code = some lines ∧ IsLaidOut name labels lines ∧
    IsSymbol name ∧ ∀ label ∈ labels, IsSymbol label

/-- Whether a character is a control character or one of the marks that words can hold and symbols
cannot. -/
def isForeignChar (c : Char) : Bool :=
  "\"#%',:?@[\\]^`".toList.contains c || c.toNat < 32 || c.toNat == 127

/-- The characters of words can stand in symbols unless they are foreign. -/
theorem isSymbolChar_of_isWordChar {c : Char} (h : isWordChar c = true) :
    isSymbolChar c = !isForeignChar c := by
  have hascii : ∀ n < 128, isWordChar (Char.ofNat n) = true →
      isSymbolChar (Char.ofNat n) = !isForeignChar (Char.ofNat n) := by
    decide +kernel
  by_cases hc : c.toNat < 128
  · have hchar := hascii c.toNat hc
    rw [Char.ofNat_toNat] at hchar
    exact hchar h
  · have hsymbol : isSymbolChar c = true := by
      simp only [isSymbolChar, Bool.or_eq_true, decide_eq_true_eq]
      exact Or.inr (by omega)
    have hmarks : "\"#%',:?@[\\]^`".toList.all (fun d => d.toNat < 128) = true := by decide
    have hmark : "\"#%',:?@[\\]^`".toList.contains c = false := by
      rw [← Bool.not_eq_true, List.contains_iff_mem]
      intro hmem
      exact hc (of_decide_eq_true (List.all_eq_true.mp hmarks c hmem))
    have hforeign : isForeignChar c = false := by
      simp only [isForeignChar, hmark, Bool.or_eq_false_iff, decide_eq_false_iff_not,
        beq_eq_false_iff_ne, true_and]
      omega
    rw [hsymbol, hforeign]
    rfl

/-- A word is a legal symbol unless it begins with a digit or holds a foreign character. -/
theorem isSymbol_iff_of_isWord {name : String} (h : IsWord name) :
    IsSymbol name ↔ (∀ c, name.toList.head? = some c → isDecimalDigit c = false) ∧
      ∀ c ∈ name.toList, isForeignChar c = false := by
  have hchar : ∀ c ∈ name.toList, isSymbolChar c = true ↔ isForeignChar c = false := by
    intro c hc
    rw [isSymbolChar_of_isWordChar (h.2 c hc), Bool.not_eq_true']
  constructor
  · intro hsymbol
    exact ⟨hsymbol.head, fun c hc => (hchar c hc).mp (hsymbol.chars c hc)⟩
  · rintro ⟨hhead, hforeign⟩
    exact ⟨h.1, hhead, fun c hc => (hchar c hc).mpr (hforeign c hc)⟩

/-- The labels of a scope are legal if the characters of its name are. -/
theorem isSymbol_spellLabel {scope : String} (h : ∀ c ∈ scope.toList, isSymbolChar c = true)
    (number : Nat) : IsSymbol (spellLabel scope number) := by
  have hlist : (spellLabel scope number).toList =
      '.' :: 'L' :: (scope.toList ++ '.' :: Nat.toDigits 10 number) := by
    simp [spellLabel]
  refine ⟨?_, ?_, ?_⟩
  · intro hempty
    simp [hempty] at hlist
  · intro c hc
    rw [hlist] at hc
    cases hc
    decide
  · intro c hc
    simp only [hlist, List.mem_cons, List.mem_append] at hc
    rcases hc with rfl | rfl | hc | rfl | hc
    · decide
    · decide
    · exact h c hc
    · decide
    · have hdigit : c.isDigit = true := Nat.isDigit_of_mem_toDigits (by decide) (by decide) hc
      simp [isSymbolChar, Char.isAlphanum, hdigit]

/-- A line of local steps marks a label of the scope or holds an instruction. -/
theorem cases_of_mem_spelled {scope : String} {steps : List (Step Nat)}
    (h : ∀ step ∈ steps, step.IsLocal) {line : Line String} (hline : line ∈ spelled scope steps) :
    (∃ n, line = .label (spellLabel scope n)) ∨ ∃ i, line = .instr i := by
  induction steps with
  | nil => simp [spelled] at hline
  | cons step steps ih =>
    rw [List.forall_mem_cons] at h
    obtain ⟨n, rfl⟩ | ⟨i, rfl⟩ | rfl := h.1
    · rcases List.mem_cons.mp hline with rfl | hline
      · exact Or.inl ⟨n, rfl⟩
      · exact ih h.2 hline
    · rcases List.mem_cons.mp hline with rfl | hline
      · exact Or.inr ⟨_, rfl⟩
      · exact ih h.2 hline
    · exact ih h.2 hline

end Assembly

theorem UnaryOp.ret_not_mem_finish (op : UnaryOp) (scope : String) :
    .instr .ret ∉ spelled scope op.finish := by
  cases op <;> simp [UnaryOp.finish, compareZero, setTo, spelled, Line.mapLabel, Instr.mapLabel]

theorem BinaryOp.ret_not_mem_finish (op : BinaryOp) (scope : String) :
    .instr .ret ∉ spelled scope op.finish := by
  cases op <;> simp [BinaryOp.finish, relate, compareZero, setTo, spelled, Line.mapLabel,
    Instr.mapLabel]

private theorem BinaryOp.ret_not_mem_skip (op : BinaryOp) (scope : String) (n : Nat) :
    .instr .ret ∉ spelled scope (op.skip n) := by
  cases op <;> simp [BinaryOp.skip, compareZero, spelled, Line.mapLabel, Instr.mapLabel]

/-- The code of an expression does not return. -/
theorem Expr.ret_not_mem_lines (e : Expr) (scope : String) (n : Nat) :
    .instr .ret ∉ e.lines scope n := by
  induction e using code_induction generalizing n with
  | integer value => simp [lines, code, spelled, Line.mapLabel, Instr.mapLabel]
  | unary op operand ih => simp [lines_unary, ih, op.ret_not_mem_finish]
  | strict op left right h ihf ihs =>
    simp [lines_of_not_isLogical h, ihf, ihs, op.ret_not_mem_finish]
  | logical op left right h ihl ihr =>
    simp [lines_of_isLogical h, ihl, ihr, op.ret_not_mem_finish, op.ret_not_mem_skip]

namespace Program

/-- The local labels of a program. -/
def labels (p : Program) : List String :=
  (p.result.lines p.function.name 0).filterMap Line.label?

variable {p : Program}

theorem exists_of_mem_labels {label : String} (h : label ∈ p.labels) :
    .label label ∈ p.result.lines p.function.name 0 ∧
      ∃ n, label = spellLabel p.function.name n := by
  obtain ⟨line, hline, hlabel⟩ := List.mem_filterMap.mp h
  obtain ⟨n, rfl⟩ | ⟨i, rfl⟩ := cases_of_mem_spelled (p.result.isLocal_code 0) hline
  · cases hlabel
    exact ⟨hline, n, rfl⟩
  · cases hlabel

private theorem legible_of_mem_listing (hname : IsWord p.function.name) :
    ∀ line ∈ p.listing, line.Legible := by
  have hunbroken : Unbroken p.function.name :=
    ⟨hname.1, fun c hc => isBlank_eq_false_of_isWordChar (hname.2 c hc)⟩
  simp only [listing, List.forall_mem_cons, List.forall_mem_append]
  exact ⟨hunbroken, hunbroken, legible_of_mem_spelled hname (p.result.isLocal_code 0), trivial,
    List.forall_mem_nil _⟩

/-- The code of an expression stands in the body of a unit. -/
theorem isBodyLine_of_mem_lines (hname : IsWord p.function.name) {line : Line String}
    (hline : line ∈ p.result.lines p.function.name 0) : IsBodyLine p.labels line.text.toList := by
  have hlegible := legible_of_mem_spelled hname (p.result.isLocal_code 0) line hline
  obtain ⟨n, rfl⟩ | ⟨i, rfl⟩ := cases_of_mem_spelled (p.result.isLocal_code 0) hline
  · exact Or.inl ⟨_, List.mem_filterMap.mpr ⟨_, hline, rfl⟩, rfl⟩
  · refine Or.inr ⟨i, Line.ofText?_text hlegible, fun target htarget => ?_⟩
    obtain ⟨before, after, hsplit⟩ := List.append_of_mem hline
    have hmarked : .label target ∈ after :=
      p.result.jumpsForward_lines _ 0 ⟨before, hsplit.symm⟩ target htarget
    refine List.mem_filterMap.mpr ⟨.label target, ?_, rfl⟩
    rw [hsplit]
    exact List.mem_append_right _ (List.mem_cons_of_mem _ hmarked)

/-- No line but the last returns, since a line is read back as what was written. -/
theorem ret_not_mem_body (hname : IsWord p.function.name) :
    "\tret".toList ∉ (p.result.lines p.function.name 0).map fun line => line.text.toList := by
  intro hmem
  obtain ⟨line, hline, htext⟩ := List.mem_map.mp hmem
  have hlegible := legible_of_mem_spelled hname (p.result.isLocal_code 0) line hline
  have hread := Line.ofText?_text hlegible
  have hret : Line.ofText? "\tret".toList = some (.instr .ret) := by rfl
  rw [htext, hret] at hread
  obtain ⟨n, rfl⟩ | ⟨i, rfl⟩ := cases_of_mem_spelled (p.result.isLocal_code 0) hline
  · cases hread
  · cases hread
    exact p.result.ret_not_mem_lines _ 0 hline

/-- A program is laid out as the unit of its function. -/
theorem isLaidOut_listing (hname : IsWord p.function.name) :
    IsLaidOut p.function.name p.labels (p.listing.map fun line => line.text.toList) := by
  have hlines : (p.listing.map fun line => line.text.toList) =
      (".global " ++ p.function.name).toList :: (p.function.name ++ ":").toList ::
        ((p.result.lines p.function.name 0).map (fun line => line.text.toList) ++
          ["\tret".toList]) := by
    rw [listing, List.map_cons, List.map_cons, List.map_append]
    rfl
  rw [hlines]
  refine ⟨⟨_, rfl, ?_⟩, ?_, fun label hlabel => ?_⟩
  · intro text htext
    obtain ⟨line, hline, rfl⟩ := List.mem_map.mp htext
    exact isBodyLine_of_mem_lines hname hline
  · have hglobal : (".global " ++ p.function.name).toList ≠ "\tret".toList := by simp
    have hsymbol : (p.function.name ++ ":").toList ≠ "\tret".toList := by
      obtain ⟨c, cs, hlist, hc, -⟩ := hname.exists_cons
      intro heq
      have hhead := congrArg List.head? heq
      rw [String.toList_append, hlist] at hhead
      obtain rfl : c = '\t' := by simpa using hhead
      exact absurd hc (by decide)
    rw [List.count_cons_of_ne hglobal, List.count_cons_of_ne hsymbol, List.count_append,
      List.count_eq_zero.mpr (ret_not_mem_body hname)]
    rfl
  · obtain ⟨hmem, n, rfl⟩ := exists_of_mem_labels hlabel
    refine ⟨⟨p.function.name ++ "." ++ toString n, by simp [spellLabel, String.append_assoc]⟩, ?_⟩
    refine List.mem_cons_of_mem _ (List.mem_cons_of_mem _ (List.mem_append_left _ ?_))
    exact List.mem_map.mpr ⟨_, hmem, rfl⟩

theorem codeLines?_listing (hname : IsWord p.function.name) :
    codeLines? (.ofText (textOf p.listing)) =
      some (p.listing.map fun line => line.text.toList) := by
  rw [codeLines?, Bytes.text?_ofText, Option.map_some,
    linesOf_textOf (legible_of_mem_listing hname)]

/-- The code of a program is a legal unit exactly if the name of its function is a legal symbol. -/
theorem isTranslationUnit_iff_isSymbol (hname : IsWord p.function.name) :
    IsTranslationUnit (.ofText (textOf p.listing)) ↔ IsSymbol p.function.name := by
  constructor
  · rintro ⟨lines, name, labels, hlines, hlaid, hsymbol, -⟩
    obtain rfl := Option.some.inj ((codeLines?_listing hname).symm.trans hlines)
    obtain ⟨body, hbody, -⟩ := hlaid.frame
    have hglobal : (".global " ++ p.function.name).toList = (".global " ++ name).toList :=
      (List.cons.inj hbody).1
    have heq : p.function.name = name := String.toList_inj.mp (by simpa using hglobal)
    exact heq ▸ hsymbol
  · intro hsymbol
    refine ⟨_, _, _, codeLines?_listing hname, isLaidOut_listing hname, hsymbol, ?_⟩
    intro label hlabel
    obtain ⟨-, n, rfl⟩ := exists_of_mem_labels hlabel
    exact isSymbol_spellLabel hsymbol.chars n

end Program

namespace Parse

variable {σ α β : Type}

/-- A parse that accepts has accepted its first part. -/
theorem exists_of_run_bind_eq_ok {x : Parse σ α} {f : α → Parse σ β} {reader last : Reader σ}
    {b : β} (h : StateT.run (ExceptT.run (x >>= f)) reader = .ok (.ok b, last)) :
    ∃ a between, StateT.run (ExceptT.run x) reader = .ok (.ok a, between) ∧
      StateT.run (ExceptT.run (f a)) between = .ok (.ok b, last) := by
  rw [ExceptT.run_bind, StateT.run_bind] at h
  cases hrun : StateT.run (ExceptT.run x) reader with
  | error fault =>
    rw [hrun] at h
    cases h
  | ok found =>
    obtain ⟨r, between⟩ := found
    rw [hrun] at h
    cases r with
    | error e => cases h
    | ok a => exact ⟨a, between, rfl, h⟩

/-- Taking a token is one call of the source. -/
theorem next_of_run_take_eq [TokenSource σ] {reader last : Reader σ}
    {r : Except (Located SyntaxError) (Option Token)}
    (h : StateT.run (ExceptT.run take) reader = .ok (r, last)) :
    TokenSource.next reader.source = .ok last.source := by
  cases hnext : TokenSource.next reader.source with
  | error fault => simp [take, read, Reader.next, hnext] at h
  | ok s =>
    simp [take, read, Reader.next, hnext] at h
    obtain ⟨-, rfl⟩ := h
    rfl

end Parse

/-- A lexer that has not looked ahead hands out what it scans. -/
theorem Lexer.exists_scan_of_next_eq {l l' : Lexer} (h : l.next = .ok l') :
    l'.lookahead = none ∧
      (l.lookahead = none → ∃ cursor, l.cursor.scan = .ok (l'.current, cursor)) := by
  cases hahead : l.lookahead with
  | some ahead =>
    simp only [next, hahead, pure, Except.pure, bind, Except.bind] at h
    cases h
    exact ⟨rfl, by simp⟩
  | none =>
    cases hscan : l.cursor.scan with
    | error fault => simp [next, hahead, hscan, bind, Except.bind] at h
    | ok found =>
      simp only [next, hahead, hscan, pure, Except.pure, bind, Except.bind] at h
      cases h
      exact ⟨rfl, fun _ => ⟨found.2, rfl⟩⟩

namespace Parse

/-- A name that was scanned is an identifier. -/
theorem isIdentifier_of_run_identifier_eq {reader last : Reader Lexer} {name : String}
    (hahead : reader.source.lookahead = none)
    (h : StateT.run (ExceptT.run identifier) reader = .ok (.ok name, last)) :
    IsIdentifier name := by
  obtain ⟨found, between, htake, hrest⟩ := exists_of_run_bind_eq_ok h
  have hnext : reader.source.next = .ok between.source := next_of_run_take_eq htake
  obtain ⟨cursor, hscan⟩ := (Lexer.exists_scan_of_next_eq hnext).2 hahead
  have hfound : found = between.source.current.map Located.val :=
    Except.ok.inj (eq_of_run_take_eq htake)
  obtain rfl : found = some (.identifier name) := by
    split at hrest
    · cases hrest
      rfl
    · cases hrest
  obtain ⟨p, -, ⟨-, hnone, -⟩ | ⟨token, rest, p', hfirst, -, htoken, -⟩⟩ := Cursor.scan_cases hscan
  · rw [hnone] at hfound
    cases hfound
  · rw [htoken] at hfound
    cases hfound
    exact Token.isSpelled_of_first?_eq hfirst

/-- The name of a function that was scanned is an identifier. -/
theorem isIdentifier_of_run_function_eq {reader last : Reader Lexer} {f : FunctionDef}
    (h : StateT.run (ExceptT.run function) reader = .ok (.ok f, last)) : IsIdentifier f.name := by
  obtain ⟨_, afterInt, hint, h⟩ := exists_of_run_bind_eq_ok h
  obtain ⟨name, afterName, hname, h⟩ := exists_of_run_bind_eq_ok h
  obtain ⟨_, afterOpen, -, h⟩ := exists_of_run_bind_eq_ok h
  obtain ⟨_, afterClose, -, h⟩ := exists_of_run_bind_eq_ok h
  obtain ⟨_, afterCurly, -, h⟩ := exists_of_run_bind_eq_ok h
  obtain ⟨body, afterBody, -, h⟩ := exists_of_run_bind_eq_ok h
  obtain ⟨_, afterEnd, -, h⟩ := exists_of_run_bind_eq_ok h
  obtain ⟨_, afterNote, -, h⟩ := exists_of_run_bind_eq_ok h
  cases h
  refine isIdentifier_of_run_identifier_eq ?_ hname
  obtain ⟨found, taken, htake, hfound⟩ := exists_of_run_bind_eq_ok hint
  have hnext : reader.source.next = .ok taken.source := next_of_run_take_eq htake
  split at hfound
  · cases hfound
    exact (Lexer.exists_scan_of_next_eq hnext).1
  · cases hfound

/-- The name of a program that was parsed from a text is an identifier. -/
theorem isIdentifier_of_parseText_eq {text : String} {p : Program} {log : Array Log.Record}
    (h : parseText text = .ok (.ok p, log)) : IsIdentifier p.function.name := by
  cases hrun : (Parse.program : Parse Lexer Program).run (Lexer.ofText text) with
  | error fault => simp [parseText, hrun, bind, Except.bind] at h
  | ok found =>
    obtain ⟨result, reader⟩ := found
    simp only [parseText, hrun, bind, Except.bind] at h
    cases h
    obtain ⟨f, afterFunction, hfunction, hrest⟩ := exists_of_run_bind_eq_ok hrun
    obtain ⟨found, afterEnd, -, hfound⟩ := exists_of_run_bind_eq_ok hrest
    split at hfound
    · cases hfound
      exact isIdentifier_of_run_function_eq hfunction
    · cases hfound

end Parse

/-- What is written for a text that is accepted is the listing of its program. -/
theorem exists_listing_of_translate_eq {text : String} {room : Room} {code : Bytes}
    {log : Array Log.Record} (h : translate text room = .ok (.done code, log)) :
    ∃ p log', parseText text = .ok (.ok p, log') ∧ code = .ofText (textOf p.listing) := by
  cases hparse : parseText text with
  | error fault => simp [translate, hparse, bind, Except.bind] at h
  | ok found =>
    obtain ⟨result, log'⟩ := found
    simp only [translate, hparse, bind, Except.bind] at h
    cases result with
    | error error => cases h
    | ok p =>
      cases hemit : emitProgram p room with
      | error fault => simp [hemit] at h
      | ok e =>
        simp only [hemit] at h
        cases hcomplete : e.complete with
        | false =>
          rw [hcomplete] at h
          cases h
        | true =>
          rw [hcomplete] at h
          cases h
          have hlabels := Generator.le_counterMax_of_run_eq hemit hcomplete (Nat.zero_le _)
          rw [Piece.reserved_code] at hlabels
          refine ⟨p, log', rfl, ?_⟩
          rw [Generator.bytes_of_emit_eq hlabels hemit hcomplete, Piece.bytes,
            Program.lines_program]

/-- A text that is accepted gives a unit that is laid out for the name of its function, which may be
any identifier. The unit's symbol and labels are legal exactly if that name does not begin with a
digit and holds no foreign character. -/
theorem translate_lays_out_unit {text : String} {room : Room} {code : Bytes}
    {log : Array Log.Record} (h : translate text room = .ok (.done code, log)) :
    ∃ p log' lines labels, parseText text = .ok (.ok p, log') ∧ IsIdentifier p.function.name ∧
      codeLines? code = some lines ∧ IsLaidOut p.function.name labels lines ∧
      (IsTranslationUnit code ↔
        (∀ c, p.function.name.toList.head? = some c → isDecimalDigit c = false) ∧
          ∀ c ∈ p.function.name.toList, isForeignChar c = false) := by
  obtain ⟨p, log', hparse, rfl⟩ := exists_listing_of_translate_eq h
  have hname := Parse.isIdentifier_of_parseText_eq hparse
  refine ⟨p, log', _, _, hparse, hname, Program.codeLines?_listing hname.1,
    Program.isLaidOut_listing hname.1, ?_⟩
  rw [Program.isTranslationUnit_iff_isSymbol hname.1, isSymbol_iff_of_isWord hname.1]

/-- A name with a letter beyond ASCII, a dollar sign and a dot. -/
theorem translate_lays_out_unit_of_dotted_name :
    ∃ code log, translate "int é$.x()\x7breturn 1&&2;\x7d" none = .ok (.done code, log) ∧
      IsTranslationUnit code := by
  let p : Program := ⟨⟨"é$.x", .ret (.binary .and (.integer 1) (.integer 2))⟩⟩
  have hlength : "int é$.x()\x7breturn 1&&2;\x7d".length < 4294967295 := by decide
  have hresult : (parseText "int é$.x()\x7breturn 1&&2;\x7d").map Prod.fst = .ok (.ok p) := by
    decide +kernel
  obtain ⟨result, log, hparse⟩ := exists_parseText hlength
  rw [hparse] at hresult
  cases hresult
  have htranslate := translate_none_of_parseText_eq hlength hparse
  obtain ⟨p', log', lines, labels, hparse', -, -, -, hunit⟩ := translate_lays_out_unit htranslate
  cases hparse.symm.trans hparse'
  have hhead : "é$.x".toList.head? = some 'é' := by decide
  have hchars : "é$.x".toList.all (fun c => !isForeignChar c) = true := by decide
  refine ⟨_, _, htranslate, hunit.mpr ⟨fun c hc => ?_, fun c hc => ?_⟩⟩
  · cases hhead.symm.trans hc
    decide
  · exact (Bool.not_eq_true' _).mp (List.all_eq_true.mp hchars c hc)

/-- A name that begins with a digit is accepted, though no symbol may. -/
theorem not_isTranslationUnit_of_leading_digit :
    ∃ code log, translate "int 1a() \x7b return 0; \x7d" none = .ok (.done code, log) ∧
      ¬ IsTranslationUnit code := by
  let p : Program := ⟨⟨"1a", .ret (.integer 0)⟩⟩
  have hlength : "int 1a() \x7b return 0; \x7d".length < 4294967295 := by decide
  have hresult : (parseText "int 1a() \x7b return 0; \x7d").map Prod.fst = .ok (.ok p) := by
    decide +kernel
  obtain ⟨result, log, hparse⟩ := exists_parseText hlength
  rw [hparse] at hresult
  cases hresult
  refine ⟨_, _, translate_none_of_parseText_eq hlength hparse, ?_⟩
  rw [Piece.bytes, Program.lines_program, Program.isTranslationUnit_iff_isSymbol (by decide)]
  intro hsymbol
  exact absurd (hsymbol.head '1' (by decide)) (by decide)

end MiniC
