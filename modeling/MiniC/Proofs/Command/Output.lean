import MiniC.Proofs.Assembly.Compilation
import MiniC.Proofs.Assembly.Delivery
import MiniC.Proofs.Command.Outcome
import Mathlib.Data.List.TakeDrop

/-!
# Outputs of compiling

Compiling hands the same bytes to the standard output, to a file or to the C compiler: the whole
translation of the text. Nothing else in the workspace changes but what is told on the standard
error output, and the exit code is zero exactly if all of the bytes were taken and a C compiler that
was asked for ended with success.
-/

namespace MiniC

open Assembly

theorem Assembly.Room.cut_eq_self_iff (room : Room) (bytes : Bytes) :
    room.cut bytes = bytes ↔ room.fits bytes.length = true := by
  cases room with
  | none => simp [Room.cut, Room.fits]
  | some limit => simp [Room.cut, Room.fits, List.take_eq_self_iff]

/-- What is not taken fails for want of space. -/
theorem Workspace.mapError_answer {ε : Type} (w : Workspace) (sink : Sink) (content : Bytes)
    (f : SystemError → ε) :
    (w.answer sink content).mapError f =
      if w.takes sink content then .ok () else .error (f .noSpace) := by
  unfold answer
  split <;> rfl

namespace Command

section Modes

variable (filter : Log.Filter) (w : Workspace) {program : Program} {e : Emission}
  (hemit : emitProgram program none = .ok e)

include hemit

private theorem outcome_printAssembly :
    outcome (printAssembly program) filter w =
      (if w.takes (.device .output) e.bytes then .ok ()
        else .error (.error "Failed to emit to stdout" [SystemError.noSpace.message]),
      (w.told (shown filter (Piece.program program).log)).received (.device .output) e.bytes) := by
  rw [printAssembly, outcome_bind, outcome_assemble filter w hemit]
  dsimp only
  rw [outcome_require]
  exact Prod.ext (Workspace.mapError_answer w (.device .output) e.bytes _) rfl

private theorem outcome_writeAssembly {path : String} {sink : Sink}
    (h : w.disk.sink? path = some sink) :
    outcome (writeAssembly program path) filter w =
      (if w.takes sink e.bytes then .ok ()
        else .error (.error ("Failed to emit to file: " ++ path) [SystemError.noSpace.message]),
      (w.told (shown filter (Piece.program program).log)).received sink e.bytes) := by
  rw [writeAssembly, outcome_bind, outcome_require_of_ok filter w (Workspace.run_createFile h)]
  dsimp only
  rw [outcome_bind, outcome_assemble _ _ hemit]
  dsimp only
  rw [outcome_require, Workspace.run_writeFile h, Workspace.mapError_answer]

omit hemit in
private theorem outcome_writeAssembly_of_create_eq {path : String} {cause : SystemError}
    (h : w.disk.create path = .error cause) :
    outcome (writeAssembly program path) filter w =
      (.error (.error ("Failed to open for writing: " ++ path) [cause.message]), w) := by
  have hrun : (Host.createFile path : StateM Workspace (Except SystemError Unit)).run w =
      (.error cause, w) := by
    change (Workspace.update (·.create path)).run w = _
    rw [Workspace.run_update, h]
  rw [writeAssembly, outcome_bind, outcome_require, hrun]
  rfl

private theorem outcome_makeExecutable {job : Linker.Job}
    (h : w.refuse? (w.linkCommand job) = none) :
    outcome (makeExecutable program job) filter w =
      (if w.ending.isSuccess then .ok ()
        else .error (.error ("Failed to generate executable: " ++ job.output)
          (Linker.Error.failed w.ending).messages),
      (w.told (shown filter (w.linkNotice job :: (Piece.program program).log))).linked job
        e.bytes) := by
  have hpure (w' : Workspace) :
      (pure (.ok ()) : StateM Workspace (Except Linker.Error Unit)).run w' = (.ok (), w') := rfl
  rw [makeExecutable, outcome_bind, outcome_ask, Workspace.run_start, h]
  dsimp only
  rw [outcome_bind, outcome_note]
  dsimp only
  rw [outcome_bind, outcome_require_of_ok filter _ (hpure _)]
  dsimp only
  rw [outcome_bind, outcome_assemble _ _ hemit]
  dsimp only
  rw [outcome_require, Workspace.told_told, ← shown_append]
  refine Prod.ext ?_ rfl
  change Except.mapError _
    (if w.ending.isSuccess then .ok () else .error (Linker.Error.failed w.ending)) = _
  split <;> rfl

omit hemit in
private theorem outcome_makeExecutable_of_refuse?_eq {job : Linker.Job} {cause : SystemError}
    (h : w.refuse? (w.linkCommand job) = some cause) :
    outcome (makeExecutable program job) filter w =
      (.error (.error "Failed to link" (Linker.Error.notStarted cause).messages),
        w.told (shown filter [w.linkNotice job])) := by
  rw [makeExecutable, outcome_bind, outcome_ask, Workspace.run_start, h]
  rfl

end Modes

/-- Compiling tells of a success after it, and leaves a failure as it is. -/
theorem exists_outcome_tell {filter : Log.Filter} {w w' : Workspace}
    {x : RunM (StateM Workspace) Unit} {result : Except Failure Unit}
    (h : outcome x filter w = (result, w')) (text : String) :
    ∃ more, outcome (x >>= fun _ => tell text) filter w = (result, w'.told more) := by
  rw [outcome_bind, h]
  cases result with
  | error failure => exact ⟨[], by simp [Workspace.told]⟩
  | ok _ => exact ⟨_, rfl⟩

/-- Where compiling delivers the code is decided by the output and the kind of code. -/
theorem compile_eq (program : Program) (output : String) (assembly strip : Bool) :
    (compile program output assembly strip : RunM (StateM Workspace) Unit) =
      (if assembly then
        if output = "-" then printAssembly program else writeAssembly program output
      else if output = "-" then failWith "Refusing to write executable to stdout" []
      else makeExecutable program ⟨output, strip⟩) >>= fun _ => tell ("Wrote " ++ output) := by
  unfold compile
  split
  next => rfl
  next path hpath => rw [if_pos rfl, if_neg hpath]
  next => rfl
  next path hpath => rw [if_neg Bool.false_ne_true, if_neg hpath]

end Command

/-- The code was printed on the standard output, as far as there is room. -/
structure Workspace.Printed (w w' : Workspace) (code : Bytes) (exit : Nat) : Prop where
  stdout_eq : w'.stdout = w.stdout ++ w.room.cut code
  exit_eq_zero_iff : exit = 0 ↔ w'.stdout = w.stdout ++ code
  disk_eq : w'.disk = w.disk
  started_eq : w'.started = w.started
  input_eq : w'.input = w.input

/-- The code was stored under a path, if that can be opened and takes it. A path to a device stands
for what the device does; otherwise no file but that of the path is changed. -/
structure Workspace.Stored (w w' : Workspace) (path : String) (code : Bytes) (exit : Nat) :
    Prop where
  exit_eq_zero_iff : exit = 0 ↔ ∃ sink, w.disk.sink? path = some sink ∧ w.takes sink code = true
  read?_eq : ∀ names, w.disk.sink? path = some (.file names) → w'.disk.read? path = some code
  node?_eq : ∀ names, w.disk.sink? path ≠ some (.file names) →
    w'.disk.node? names = w.disk.node? names
  home_eq : w'.disk.home = w.disk.home
  stdout_eq : w'.stdout =
    if w.disk.sink? path = some (.device .output) then w.stdout ++ w.room.cut code else w.stdout
  isInfix_stderr : w.disk.sink? path = some (.device .error) → code <:+: w'.stderr
  started_eq : w'.started = w.started
  input_eq : w'.input = w.input

/-- The code was handed to the C compiler, if that can be started. -/
structure Workspace.Linked (w w' : Workspace) (command : List String) (code : Bytes) (exit : Nat) :
    Prop where
  exit_eq_zero_iff : exit = 0 ↔ w.refuse? command = none ∧ w.ending = .exited 0
  started_eq : w'.started = if w.refuse? command = none then some command else w.started
  input_eq : w'.input = if w.refuse? command = none then code else w.input
  disk_eq : w'.disk = w.disk
  stdout_eq : w'.stdout = w.stdout

namespace Workspace

variable {w : Workspace} {code : Bytes} {exit : Nat}

/-- Writing never moves the working folder or starts a program. -/
theorem received_keeps (w : Workspace) (sink : Sink) (content : Bytes) :
    (w.received sink content).disk.home = w.disk.home ∧
      (w.received sink content).started = w.started ∧
      (w.received sink content).input = w.input := by
  cases sink with
  | file names => exact ⟨rfl, rfl, rfl⟩
  | device device => cases device <;> exact ⟨rfl, rfl, rfl⟩

theorem Printed.of_received (hexit : exit = 0 ↔ w.takes (.device .output) code = true)
    (before after : Bytes) :
    Printed w (((w.told before).received (.device .output) code).told after) code exit where
  stdout_eq := rfl
  exit_eq_zero_iff := by
    rw [hexit]
    change _ ↔ w.stdout ++ w.room.cut code = w.stdout ++ code
    rw [List.append_cancel_left_eq, Room.cut_eq_self_iff]
    rfl
  disk_eq := rfl
  started_eq := rfl
  input_eq := rfl

theorem Stored.of_received {path : String} {sink : Sink} (hsink : w.disk.sink? path = some sink)
    (hexit : exit = 0 ↔ w.takes sink code = true) (before after : Bytes) :
    Stored w (((w.told before).received sink code).told after) path code exit where
  exit_eq_zero_iff := by simp [hexit, hsink]
  read?_eq names hnames := by
    cases hsink.symm.trans hnames
    exact Disk.read?_store hnames code
  node?_eq names hnames := by
    cases sink with
    | file target =>
      apply Disk.node?_store_of_ne
      rintro rfl
      exact hnames hsink
    | device device => cases device <;> rfl
  home_eq := (received_keeps (w.told before) sink code).1
  stdout_eq := by
    rw [hsink]
    cases sink with
    | file target => rfl
    | device device => cases device <;> rfl
  isInfix_stderr herror := by
    cases hsink.symm.trans herror
    exact ⟨w.stderr ++ before, after, rfl⟩
  started_eq := (received_keeps (w.told before) sink code).2.1
  input_eq := (received_keeps (w.told before) sink code).2.2

theorem Stored.of_sink?_eq_none {path : String} (hsink : w.disk.sink? path = none)
    (hexit : exit ≠ 0) (more : Bytes) : Stored w (w.told more) path code exit where
  exit_eq_zero_iff := by simp [hexit, hsink]
  read?_eq names hnames := by cases hsink.symm.trans hnames
  node?_eq names hnames := rfl
  home_eq := rfl
  stdout_eq := by
    rw [hsink]
    rfl
  isInfix_stderr herror := by cases hsink.symm.trans herror
  started_eq := rfl
  input_eq := rfl

theorem Linked.of_refused {command : List String} {cause : SystemError}
    (hrefuse : w.refuse? command = some cause) (hexit : exit ≠ 0) (more : Bytes) :
    Linked w (w.told more) command code exit where
  exit_eq_zero_iff := by simp [hexit, hrefuse]
  started_eq := by
    rw [hrefuse]
    rfl
  input_eq := by
    rw [hrefuse]
    rfl
  disk_eq := rfl
  stdout_eq := rfl

theorem Linked.of_linked {job : Linker.Job} (hrefuse : w.refuse? (w.linkCommand job) = none)
    (hexit : exit = 0 ↔ w.ending.isSuccess = true) (before after : Bytes) :
    Linked w (((w.told before).linked job code).told after) (w.linkCommand job) code exit where
  exit_eq_zero_iff := by
    rw [hexit]
    cases w.ending <;> simp [ProgramEnd.isSuccess, hrefuse]
  started_eq := by
    rw [hrefuse]
    rfl
  input_eq := by
    rw [hrefuse]
    rfl
  disk_eq := rfl
  stdout_eq := rfl

end Workspace

namespace Command

/-- An executable is not written to the standard output. -/
theorem outcome_compile_executable (filter : Log.Filter) (w : Workspace) (program : Program)
    (strip : Bool) :
    outcome (compile program "-" false strip) filter w =
      (.error (.error "Refusing to write executable to stdout" []), w) := rfl

section Run

variable {w : Workspace} {logName : Option String} {arguments : List String} {verbosity : Nat}
  {path text output : String} {assembly strip : Bool} {content : Bytes} {program : Program}
  {log : Array Log.Record} {e : Emission}

/-- A run that compiles a program exits with one exactly if the delivery of its code failed. -/
theorem exists_run_of_outcome
    (hrequest : Request.ofArguments arguments =
      .run verbosity (.compile output assembly strip) path)
    (hread : w.disk.read? path = some content) (htext : content.text? = some text)
    (hparse : parseText text = .ok (.ok program, log))
    {deliver : RunM (StateM Workspace) Unit} {w' : Workspace}
    (hcompile : compile program output assembly strip =
      deliver >>= fun _ => tell ("Wrote " ++ output))
    (taken : Bool) {context : String} {causes : List String}
    (hdeliver : outcome deliver (chosenFilter logName verbosity)
        (w.told (shown (chosenFilter logName verbosity) (frontEndRecords path log))) =
      (if taken then .ok () else .error (.error context causes), w')) :
    ∃ exit more, w.run logName arguments = (exit, w'.told more) ∧ (exit = 0 ∨ exit = 1) ∧
      (exit = 0 ↔ taken = true) := by
  obtain ⟨told, htell⟩ := exists_outcome_tell hdeliver ("Wrote " ++ output)
  rw [← hcompile] at htell
  rw [run_of_request w hrequest, outcome_perform_compile _ w hread htext hparse]
  dsimp only [Except.mapError, shownReport]
  rw [List.append_nil, htell]
  cases taken with
  | true => exact ⟨0, told, rfl, by simp, by simp⟩
  | false => exact ⟨1, _, congrArg _ (w'.told_told told _), by simp, by simp⟩

variable (hread : w.disk.read? path = some content) (htext : content.text? = some text)
  (hparse : parseText text = .ok (.ok program, log)) (hemit : emitProgram program none = .ok e)

include hread htext hparse hemit

private theorem exists_run_printed
    (hrequest : Request.ofArguments arguments = .run verbosity (.compile "-" true strip) path) :
    ∃ exit w', w.run logName arguments = (exit, w') ∧ (exit = 0 ∨ exit = 1) ∧
      w.Printed w' e.bytes exit := by
  obtain ⟨exit, more, hrun, hone, hexit⟩ := exists_run_of_outcome hrequest hread htext hparse
    (compile_eq program "-" true strip) (w.takes (.device .output) e.bytes)
    (outcome_printAssembly _ _ hemit)
  refine ⟨exit, _, hrun, hone, ?_⟩
  rw [Workspace.told_told]
  exact .of_received hexit _ _

private theorem exists_run_stored
    (hrequest : Request.ofArguments arguments = .run verbosity (.compile output true strip) path)
    (houtput : output ≠ "-") :
    ∃ exit w', w.run logName arguments = (exit, w') ∧ (exit = 0 ∨ exit = 1) ∧
      w.Stored w' output e.bytes exit := by
  have hcompile := compile_eq program output true strip
  rw [if_pos rfl, if_neg houtput] at hcompile
  cases hsink : w.disk.sink? output with
  | none =>
    obtain ⟨cause, hcreate⟩ := Disk.exists_create_error_of_sink?_none hsink
    obtain ⟨exit, more, hrun, hone, hexit⟩ := exists_run_of_outcome hrequest hread htext hparse
      hcompile false (outcome_writeAssembly_of_create_eq _ _ hcreate)
    refine ⟨exit, _, hrun, hone, ?_⟩
    rw [Workspace.told_told]
    exact .of_sink?_eq_none hsink (by simp [hexit]) _
  | some sink =>
    obtain ⟨exit, more, hrun, hone, hexit⟩ := exists_run_of_outcome hrequest hread htext hparse
      hcompile (w.takes sink e.bytes) (outcome_writeAssembly _ _ hemit hsink)
    refine ⟨exit, _, hrun, hone, ?_⟩
    rw [Workspace.told_told]
    exact .of_received hsink hexit _ _

private theorem exists_run_linked
    (hrequest : Request.ofArguments arguments = .run verbosity (.compile output false strip) path)
    (houtput : output ≠ "-") :
    ∃ exit w', w.run logName arguments = (exit, w') ∧ (exit = 0 ∨ exit = 1) ∧
      w.Linked w' (w.linkCommand ⟨output, strip⟩) e.bytes exit := by
  have hcompile := compile_eq program output false strip
  rw [if_neg Bool.false_ne_true, if_neg houtput] at hcompile
  cases hrefuse : w.refuse? (w.linkCommand ⟨output, strip⟩) with
  | some cause =>
    obtain ⟨exit, more, hrun, hone, hexit⟩ := exists_run_of_outcome hrequest hread htext hparse
      hcompile false (outcome_makeExecutable_of_refuse?_eq _ _ hrefuse)
    refine ⟨exit, _, hrun, hone, ?_⟩
    rw [Workspace.told_told, Workspace.told_told]
    exact .of_refused hrefuse (by simp [hexit]) _
  | none =>
    obtain ⟨exit, more, hrun, hone, hexit⟩ := exists_run_of_outcome hrequest hread htext hparse
      hcompile w.ending.isSuccess (outcome_makeExecutable _ _ hemit hrefuse)
    refine ⟨exit, _, hrun, hone, ?_⟩
    rw [Workspace.told_told]
    exact .of_linked hrefuse hexit _ _

end Run

end Command

open Command in
/-- Compiling a text that is short enough and parses delivers its whole translation. The three ways
to ask for it hand the same bytes to the standard output, to the file of a path and to the C
compiler. The exit code is zero exactly if all of them were taken, and the C compiler ended with
success if it was asked for. -/
theorem compile_delivers_translation {w : Workspace} {logName : Option String}
    {arguments : List String} {verbosity : Nat} {path text output : String} {assembly strip : Bool}
    {content : Bytes} {program : Program} {log : Array Log.Record}
    (hrequest : Request.ofArguments arguments =
      .run verbosity (.compile output assembly strip) path)
    (hread : w.disk.read? path = some content) (htext : content.text? = some text)
    (hlength : text.length < 4294967295) (hparse : parseText text = .ok (.ok program, log)) :
    ∃ code log' exit w', translate text none = .ok (.done code, log') ∧
      w.run logName arguments = (exit, w') ∧ (exit = 0 ∨ exit = 1) ∧
      (assembly = true → output = "-" → w.Printed w' code exit) ∧
      (assembly = true → output ≠ "-" → w.Stored w' output code exit) ∧
      (assembly = false → output ≠ "-" →
        w.Linked w' ([w.compiler.getD "gcc", "-o", output, "-xassembler", "-"] ++
          if strip then ["-s"] else []) code exit) := by
  obtain ⟨g, hemit⟩ := exists_emitProgram_of_parseText_eq hlength hparse
  have htranslate := translate_none_of_parseText_eq hlength hparse
  cases assembly with
  | true =>
    by_cases houtput : output = "-"
    · subst houtput
      obtain ⟨exit, w', hrun, hone, hprinted⟩ := exists_run_printed hread htext hparse hemit
        hrequest
      exact ⟨_, _, exit, w', htranslate, hrun, hone, fun _ _ => hprinted,
        fun _ h => absurd rfl h, nofun⟩
    · obtain ⟨exit, w', hrun, hone, hstored⟩ := exists_run_stored hread htext hparse hemit hrequest
        houtput
      exact ⟨_, _, exit, w', htranslate, hrun, hone, fun _ h => absurd h houtput,
        fun _ _ => hstored, nofun⟩
  | false =>
    by_cases houtput : output = "-"
    · subst houtput
      obtain ⟨exit, more, hrun, hone, -⟩ := exists_run_of_outcome hrequest hread htext hparse
        (compile_eq program "-" false strip) false rfl
      exact ⟨_, _, exit, _, htranslate, hrun, hone, nofun, nofun, fun _ h => absurd rfl h⟩
    · obtain ⟨exit, w', hrun, hone, hlinked⟩ := exists_run_linked hread htext hparse hemit hrequest
        houtput
      exact ⟨_, _, exit, w', htranslate, hrun, hone, nofun, nofun, fun _ _ => hlinked⟩

/-- The output may be the file that is compiled, also if that is longer than the code. -/
theorem compile_delivers_translation_over_source :
    let text := "int main()\n\x7b\n        return\n                2\n        ;\n\x7d\n"
    let code := Bytes.ofText ".global main\nmain:\n\tmovl    $2, %eax\n\tret\n"
    let w : Workspace := { disk := { nodes := [(["a.c"], .file (.ofText text))] } }
    code.length < (Bytes.ofText text).length ∧
      ∃ w', w.run none ["compile", "a.c", "-S", "-o", "a.c"] = (0, w') ∧
        w'.disk.read? "a.c" = some code ∧ w'.stdout = [] := by
  intro text code w
  let p : Program := ⟨⟨"main", .ret (.integer 2)⟩⟩
  have hrequest : Command.Request.ofArguments ["compile", "a.c", "-S", "-o", "a.c"] =
      .run 0 (.compile "a.c" true false) "a.c" := by decide +kernel
  have hread : w.disk.read? "a.c" = some (.ofText text) := by decide +kernel
  have hsink : w.disk.sink? "a.c" = some (.file ["a.c"]) := by decide +kernel
  have hcode : (Piece.program p).bytes {} = code := by decide +kernel
  have hlength : text.length < 4294967295 := by decide
  have hresult : (parseText text).map Prod.fst = .ok (.ok p) := by decide +kernel
  obtain ⟨result, log, hparse⟩ := exists_parseText hlength
  rw [hparse] at hresult
  cases Except.ok.inj hresult
  refine ⟨by decide +kernel, ?_⟩
  obtain ⟨code', log', exit, w', htranslate, hrun, -, -, hstored, -⟩ :=
    compile_delivers_translation hrequest hread (Bytes.text?_ofText text) hlength hparse
  rw [translate_none_of_parseText_eq hlength hparse, hcode] at htranslate
  cases htranslate
  have hstored := hstored rfl (by decide)
  have hexit : exit = 0 := hstored.exit_eq_zero_iff.mpr ⟨_, hsink, rfl⟩
  refine ⟨w', hexit ▸ hrun, hstored.read?_eq _ hsink, ?_⟩
  rw [hstored.stdout_eq, hsink]
  rfl

end MiniC
