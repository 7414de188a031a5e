import MiniC.Proofs.Command.Output
import MiniC.Proofs.Diagnostic

/-!
# Failures before anything is written

Compiling reads and parses its file before it looks at the output. A file that is missing, a text
that cannot be read, a syntax error and an executable for the standard output each end the run with
exit code one, and the first of them is told. Nothing but the standard error output is touched. Only
the first rows are shown of the report of a syntax error in a column past the widest run of blanks,
and then a fault ends the run.
-/

namespace MiniC

/-- A text of blanks is refused at its end. -/
theorem exists_parseText_of_blank {text : String} (h : text.length < 4294967295)
    (hblank : ∀ c ∈ text.toList, isBlank c = true) :
    ∃ log, parseText text = .ok
      (.error ⟨.unexpected (.token (.keyword .int)) none, .behind text.toList⟩, log) := by
  obtain ⟨ts, stop, htokens, hholds⟩ := Lexer.exists_holds_ofText h
  have hnil : Reads text.toList [] := .nil (List.dropWhile_eq_nil_iff.mpr hblank)
  have hts : ts = [] := List.map_eq_nil_iff.mp ((Cursor.reads_of_tokens_eq htokens).unique hnil)
  subst hts
  rw [← stop_eq_of_tokenize_eq htokens]
  have hcourse : Course.program stop []
      (.error ⟨.unexpected (.token (.keyword .int)) none, stop⟩) [] :=
    Or.inr ⟨_, Or.inr ⟨_, ⟨rfl, rfl⟩, rfl⟩, rfl⟩
  exact exists_parseText_of_course hholds hcourse

namespace Command

/-- The first thing that is wrong with compiling a file before anything is written, with the records
that are made until it shows, what is told of it and the fault that ends the run, if there is one.
Each case excludes those before it. -/
inductive FailsEarly (w : Workspace) (path output : String) (assembly : Bool) :
    List Log.Record → String → Option Fault → Prop
  /-- There is no regular file. -/
  | missing (hread : w.disk.read? path = none) :
    FailsEarly w path output assembly []
      (Failure.errorText ("No such file at '" ++ path ++ "'") []) none
  /-- The file holds no text. -/
  | unreadable {content : Bytes} (hread : w.disk.read? path = some content)
    (htext : content.text? = none) :
    FailsEarly w path output assembly [⟨.info, .command, "Reading " ++ path⟩]
      (Failure.errorText ("Failed to read " ++ path) ["stream did not contain valid UTF-8"]) none
  /-- The text does not parse, which is told by the report of the error. -/
  | syntaxError {content : Bytes} {text report : String} {error : Located SyntaxError}
    {log : Array Log.Record} (hread : w.disk.read? path = some content)
    (htext : content.text? = some text) (hparse : parseText text = .ok (.error error, log))
    (hreport : Diagnostic.report "Syntax error" ⟨path, text⟩ [error.map SyntaxError.message] =
      .ok report) :
    FailsEarly w path output assembly (⟨.info, .command, "Reading " ++ path⟩ :: log.toList) report
      none
  /-- The text does not parse, but the error is too far to the right to show a caret below it. -/
  | cutReport {content : Bytes} {text : String} {error : Located SyntaxError}
    {log : Array Log.Record} (hread : w.disk.read? path = some content)
    (htext : content.text? = some text) (hparse : parseText text = .ok (.error error, log))
    (hcolumn : 65536 < error.position.column) :
    FailsEarly w path output assembly (⟨.info, .command, "Reading " ++ path⟩ :: log.toList)
      (Diagnostic.aboveCaret "Syntax error" ⟨path, text⟩ (error.map SyntaxError.message) "")
      (some .paddingTooWide)
  /-- The text parses, but an executable would be written to the standard output. -/
  | executable {content : Bytes} {text : String} {program : Program} {log : Array Log.Record}
    (hread : w.disk.read? path = some content) (htext : content.text? = some text)
    (hparse : parseText text = .ok (.ok program, log)) (houtput : output = "-")
    (hassembly : assembly = false) :
    FailsEarly w path output assembly (⟨.info, .command, "Reading " ++ path⟩ :: log.toList)
      (Failure.errorText "Refusing to write executable to stdout" []) none

namespace FailsEarly

variable {w : Workspace} {path output : String} {assembly : Bool} {records : List Log.Record}
  {told : String} {fault : Option Fault}

/-- What is wrong first ends the run after its records are shown. -/
theorem run_eq (h : FailsEarly w path output assembly records told fault)
    {logName : Option String} {arguments : List String} {verbosity : Nat} {strip : Bool}
    (hrequest : Request.ofArguments arguments =
      .run verbosity (.compile output assembly strip) path) :
    w.run logName arguments = (if fault.isSome then 101 else 1,
      { w.told (shown (chosenFilter logName verbosity) records ++ .ofText told) with
        fault := fault.or w.fault }) := by
  rw [run_of_request w hrequest]
  cases h with
  | missing hread =>
    rw [perform, outcome_bind, outcome_readSource, hread]
    rfl
  | unreadable hread htext =>
    rw [perform, outcome_bind, outcome_readSource, hread]
    dsimp only
    rw [htext, ← Workspace.told_told]
    rfl
  | @syntaxError content text _ error log hread htext hparse hreport =>
    have hshown : syntaxReport ⟨path, text⟩ error = (.ok (), told) :=
      Showing.outcome_of_text_eq hreport
    rw [outcome_perform_compile _ w hread htext hparse, Except.mapError, shownReport,
      Failure.ofSyntaxError, hshown]
    rfl
  | @cutReport content text error log hread htext hparse hcolumn =>
    have hshown : syntaxReport ⟨path, text⟩ error = (.error .paddingTooWide, _) :=
      Diagnostic.outcome_showReport_of_lt "Syntax error" ⟨path, text⟩ hcolumn
    rw [outcome_perform_compile _ w hread htext hparse, Except.mapError, shownReport,
      Failure.ofSyntaxError, hshown]
    rfl
  | executable hread htext hparse houtput hassembly =>
    subst houtput hassembly
    rw [outcome_perform_compile _ w hread htext hparse]
    dsimp only [Except.mapError, shownReport]
    rw [List.append_nil, outcome_compile_executable, ← Workspace.told_told]
    rfl

/-- A syntax error is not told as other failures are. -/
theorem not_prefix_told (h : FailsEarly w path output assembly records told fault)
    {content : Bytes} {text : String} {error : Located SyntaxError} {log : Array Log.Record}
    (hread : w.disk.read? path = some content) (htext : content.text? = some text)
    (hparse : parseText text = .ok (.error error, log)) :
    ¬ "Error:".toList <+: told.toList := by
  have hkind (rest : String) :
      ¬ "Error:".toList <+: ("Syntax error" ++ ": " ++ rest).toList := by
    have hprefix : "Syntax error".toList <+: ("Syntax error" ++ ": " ++ rest).toList := by
      rw [String.toList_append, String.toList_append, List.append_assoc]
      exact List.prefix_append _ _
    intro herror
    exact absurd (List.prefix_of_prefix_length_le herror hprefix (by decide)) (by decide)
  cases h with
  | missing hmissing => cases hread.symm.trans hmissing
  | unreadable hread' htext' =>
    cases hread.symm.trans hread'
    cases htext.symm.trans htext'
  | @syntaxError content text _ error log hread htext hparse hreport =>
    obtain ⟨result, rest, hrest⟩ := Diagnostic.exists_outcome_showReport_eq "Syntax error"
      ⟨path, text⟩ (error.map SyntaxError.message)
    cases (Showing.outcome_of_text_eq hreport).symm.trans hrest
    exact hkind rest
  | cutReport hread htext hparse hcolumn =>
    rw [Diagnostic.aboveCaret, String.append_assoc, String.append_assoc]
    exact hkind _
  | executable hread' htext' hparse' =>
    cases hread.symm.trans hread'
    cases htext.symm.trans htext'
    cases hparse.symm.trans hparse'

end FailsEarly

/-- A failure before anything is written ends compiling and is told, the first one if there are
several, and nothing but the standard error output is touched. A syntax error is told by its report.
The exit code is one, unless the syntax error is too far to the right: then a fault ends the run
after the rows of the report above the caret. This supposes that the text can be counted. -/
theorem failing_compile_touches_nothing {w : Workspace} (logName : Option String)
    {arguments : List String} {verbosity : Nat} {path output : String} {assembly strip : Bool}
    (hrequest : Request.ofArguments arguments =
      .run verbosity (.compile output assembly strip) path)
    (hlength : ∀ content text, w.disk.read? path = some content → content.text? = some text →
      text.length < 4294967295)
    (hfails : w.disk.read? path = none ∨
      (∃ content, w.disk.read? path = some content ∧ content.text? = none) ∨
      (∃ content text error log, w.disk.read? path = some content ∧ content.text? = some text ∧
        parseText text = .ok (.error error, log)) ∨
      output = "-" ∧ assembly = false) :
    ∃ records told fault, FailsEarly w path output assembly records told fault ∧
      w.run logName arguments = (if fault.isSome then 101 else 1, { w with
        stderr := w.stderr ++ (Bytes.ofText (logText (chosenFilter logName verbosity) records) ++
          Bytes.ofText told)
        fault := fault.or w.fault }) ∧
      ∀ content text error log, w.disk.read? path = some content → content.text? = some text →
        parseText text = .ok (.error error, log) → ¬ "Error:".toList <+: told.toList := by
  obtain ⟨records, told, fault, hearly⟩ :
      ∃ records told fault, FailsEarly w path output assembly records told fault := by
    cases hread : w.disk.read? path with
    | none => exact ⟨_, _, _, .missing hread⟩
    | some content =>
      cases htext : content.text? with
      | none => exact ⟨_, _, _, .unreadable hread htext⟩
      | some text =>
        obtain ⟨result, log, hparse⟩ := exists_parseText (hlength content text hread htext)
        cases result with
        | error error =>
          by_cases hcolumn : error.position.column ≤ 65536
          · exact ⟨_, _, _, .syntaxError hread htext hparse (Showing.text_of_outcome_eq
              (Diagnostic.outcome_showReport_of_le "Syntax error" ⟨path, text⟩ hcolumn))⟩
          · exact ⟨_, _, _, .cutReport hread htext hparse (Nat.lt_of_not_le hcolumn)⟩
        | ok program =>
          obtain ⟨houtput, hassembly⟩ : output = "-" ∧ assembly = false := by
            simpa [hread, htext, hparse] using hfails
          exact ⟨_, _, _, .executable hread htext hparse houtput hassembly⟩
  refine ⟨records, told, fault, hearly, hearly.run_eq hrequest, ?_⟩
  intro content text error log hread htext hparse
  exact hearly.not_prefix_told hread htext hparse

/-- A syntax error in too wide a column is not reported to its end, and the exit code is not the one
of other failures. -/
theorem failing_compile_exits_otherwise :
    let w : Workspace := { disk := { nodes := [(["a.c"], .file (.ofText (blanks 65536)))] } }
    Request.ofArguments ["compile", "a.c", "-o", "-"] = .run 0 (.compile "-" false false) "a.c" ∧
      (w.run none ["compile", "a.c", "-o", "-"]).1 = 101 := by
  intro w
  have hrequest : Request.ofArguments ["compile", "a.c", "-o", "-"] =
      .run 0 (.compile "-" false false) "a.c" := by decide +kernel
  have hread (content : Bytes) :
      ({ nodes := [(["a.c"], .file content)] } : Disk).read? "a.c" = some content := rfl
  have hlist : (blanks 65536).toList = List.replicate 65536 ' ' := String.toList_ofList
  have hlength : (blanks 65536).length < 4294967295 := by
    rw [← String.length_toList, hlist, List.length_replicate]
    decide
  have hblank : ∀ c ∈ (blanks 65536).toList, isBlank c = true := by
    intro c hc
    rw [hlist] at hc
    rw [List.eq_of_mem_replicate hc]
    decide
  obtain ⟨log, hparse⟩ := exists_parseText_of_blank hlength hblank
  have hcolumn (n : Nat) : (Position.behind (List.replicate n ' ')).column = 1 + n := by
    simp [Position.behind]
  have hearly : FailsEarly w "a.c" "-" false _ _ (some .paddingTooWide) :=
    .cutReport (hread _) (Bytes.text?_ofText _) hparse (by
      rw [hlist, hcolumn]
      decide)
  rw [hearly.run_eq hrequest]
  exact ⟨hrequest, rfl⟩

/-- With two failures at once the syntax error is told, and the standard output is not looked at. -/
theorem failing_compile_touches_nothing_of_two_failures :
    let w : Workspace := { disk := { nodes := [(["a.c"], .file (.ofText "int x"))] } }
    let report := "Syntax error: Expected `(`, found end of input\n --> a.c:1:6\n  |\n" ++
      "1 | int x\n  |      ^\n\nBuild failed with 1 error\n"
    w.run (some "off") ["compile", "a.c", "-o", "-"] =
      (1, { w with stderr := .ofText report }) := by
  intro w report
  let error : Located SyntaxError := ⟨.unexpected (.token (.punctuator .openParen)) none, ⟨1, 6⟩⟩
  have hrequest : Request.ofArguments ["compile", "a.c", "-o", "-"] =
      .run 0 (.compile "-" false false) "a.c" := by decide +kernel
  have hread : w.disk.read? "a.c" = some (.ofText "int x") := rfl
  have hresult : (parseText "int x").map Prod.fst = .ok (.error error) := by decide +kernel
  have hreport : Diagnostic.report "Syntax error" ⟨"a.c", "int x"⟩
      [error.map SyntaxError.message] = .ok report := by decide +kernel
  have hshown (records : List Log.Record) : logText (chosenFilter (some "off") 0) records = "" := by
    have hfilter : chosenFilter (some "off") 0 = none := by decide +kernel
    have hnone : records.filter (Log.Filter.passes none) = [] :=
      List.filter_eq_nil_iff.mpr fun _ _ => Bool.false_ne_true
    rw [hfilter, logText, hnone]
    rfl
  have hlength : ∀ content text, w.disk.read? "a.c" = some content → content.text? = some text →
      text.length < 4294967295 := by
    intro content text hcontent htext
    cases hread.symm.trans hcontent
    cases (Bytes.text?_ofText _).symm.trans htext
    decide
  obtain ⟨records, told, fault, hearly, hrun, -⟩ := failing_compile_touches_nothing (some "off")
    hrequest hlength (.inr (.inr (.inr ⟨rfl, rfl⟩)))
  rw [hrun, hshown]
  cases hearly with
  | missing hmissing => cases hread.symm.trans hmissing
  | unreadable hcontent htext =>
    cases hread.symm.trans hcontent
    cases (Bytes.text?_ofText _).symm.trans htext
  | syntaxError hcontent htext hparse hreport' =>
    cases hread.symm.trans hcontent
    cases (Bytes.text?_ofText _).symm.trans htext
    rw [hparse] at hresult
    cases Except.ok.inj hresult
    cases hreport.symm.trans hreport'
    rfl
  | cutReport hcontent htext hparse hcolumn =>
    cases hread.symm.trans hcontent
    cases (Bytes.text?_ofText _).symm.trans htext
    rw [hparse] at hresult
    cases Except.ok.inj hresult
    exact absurd hcolumn (by decide)
  | executable hcontent htext hparse =>
    cases hread.symm.trans hcontent
    cases (Bytes.text?_ofText _).symm.trans htext
    rw [hparse] at hresult
    cases Except.ok.inj hresult

end Command

end MiniC
