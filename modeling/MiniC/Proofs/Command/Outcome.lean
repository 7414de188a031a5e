import MiniC.Command.Workspace
import MiniC.Proofs.Command.Disk

/-!
# Outcomes of requests

In a workspace a computation gives a result or a failure, and the workspace it leaves. What is
written to a path goes to the file or device that the path led to before it was opened, and the C
compiler is started unless its call is refused. Records and failures only add to the standard error
output. The exit code is zero exactly if there is a result, and a code of its own after a fault.
-/

namespace MiniC

namespace Workspace

/-- A workspace in which more was written to the standard error output. -/
def told (w : Workspace) (content : Bytes) : Workspace := { w with stderr := w.stderr ++ content }

section Told

variable (w : Workspace) (content : Bytes)

@[simp] theorem disk_told : (w.told content).disk = w.disk := rfl

@[simp] theorem told_nil : w.told [] = w := by
  simp [told]

@[simp] theorem told_told (more : Bytes) :
    (w.told content).told more = w.told (content ++ more) := by
  simp [told]

end Told

/-- Whether all of something is taken where it is written to. -/
def takes (w : Workspace) (sink : Sink) (content : Bytes) : Bool :=
  match sink with
  | .device .full => content.isEmpty
  | .device .output => w.room.fits content.length
  | _ => true

/-- A workspace after something was opened for writing. -/
def opened (w : Workspace) : Sink → Workspace
  | .file names => { w with disk := w.disk.store names (.file []) }
  | .device _ => w

/-- A workspace after something was written, as far as it was taken. -/
def received (w : Workspace) (sink : Sink) (content : Bytes) : Workspace :=
  match sink with
  | .file names => { w with disk := w.disk.store names (.file content) }
  | .device .output =>
    { w with
      stdout := w.stdout ++ w.room.cut content
      room := w.room.minus content.length }
  | .device .error => w.told content
  | .device _ => w

/-- The answer to something that was written. -/
def answer (w : Workspace) (sink : Sink) (content : Bytes) : Except SystemError Unit :=
  if w.takes sink content then .ok () else .error .noSpace

/-- The call of the C compiler for a job. -/
def linkCommand (w : Workspace) (job : Linker.Job) : List String :=
  job.command (w.compiler.getD Linker.defaultCompiler)

/-- The record of the call of the C compiler for a job. -/
def linkNotice (w : Workspace) (job : Linker.Job) : Log.Record :=
  job.notice (w.compiler.getD Linker.defaultCompiler)

/-- A workspace after the C compiler was handed some code. -/
def linked (w : Workspace) (job : Linker.Job) (code : Bytes) : Workspace :=
  { w with started := some (w.linkCommand job), input := code }

variable {w : Workspace} {path : String} {sink : Sink}

theorem run_update (change : Disk → Except SystemError Disk) (w : Workspace) :
    (update change).run w =
      match change w.disk with
      | .ok disk => (.ok (), { w with disk })
      | .error e => (.error e, w) := by
  cases h : change w.disk <;>
    simp only [update, StateT.run_bind, StateT.run_get, pure_bind, h] <;> rfl

/-- Opening a path for writing never touches a device. -/
theorem run_createFile (h : w.disk.sink? path = some sink) :
    (Host.createFile path : StateM Workspace (Except SystemError Unit)).run w =
      (.ok (), w.opened sink) := by
  change (update (·.create path)).run w = _
  rw [run_update]
  cases sink with
  | file names =>
    rw [Disk.create_of_sink?_file h]
    rfl
  | device device =>
    rw [(Disk.find_and_create_of_sink?_device h).2]
    rfl

/-- What is written to an open path goes where the path led before it was opened. -/
theorem run_writeFile (h : w.disk.sink? path = some sink) (log content : Bytes) :
    (Host.writeFile path content : StateM Workspace (Except SystemError Unit)).run
        ((w.opened sink).told log) =
      (w.answer sink content, (w.told log).received sink content) := by
  change (writeFile path content).run _ = _
  rw [writeFile, StateT.run_bind, StateT.run_get, pure_bind, disk_told]
  cases sink with
  | file names =>
    dsimp only [opened]
    rw [Disk.find_store h]
    dsimp only
    rw [run_update]
    dsimp only [disk_told]
    rw [Disk.write_store_nil h]
    rfl
  | device device =>
    have hfind := (Disk.find_and_create_of_sink?_device h).1
    dsimp only [opened]
    rw [hfind]
    cases device with
    | output => rfl
    | error => rfl
    | null =>
      dsimp only
      rw [run_update, Disk.write, disk_told, hfind]
      rfl
    | full =>
      dsimp only
      rw [run_update, Disk.write, disk_told, hfind]
      cases content <;> rfl

/-- The C compiler is started unless its call is refused. -/
theorem run_start (w : Workspace) (job : Linker.Job) :
    (Linker.start job : StateM Workspace (Log.Record × Except Linker.Error Unit)).run w =
      match w.refuse? (w.linkCommand job) with
      | some cause => ((w.linkNotice job, .error (.notStarted cause)), w)
      | none => ((w.linkNotice job, .ok ()), { w with started := some (w.linkCommand job) }) := by
  have hstart :
      (Host.start (w.linkCommand job) : StateM Workspace (Except SystemError Unit)).run w =
        match w.refuse? (w.linkCommand job) with
        | some cause => (.error cause, w)
        | none => (.ok (), { w with started := some (w.linkCommand job) }) := by
    cases h : w.refuse? (w.linkCommand job) <;>
      simp only [Host.start, StateT.run_bind, StateT.run_get, pure_bind, h] <;> rfl
  rw [Linker.start, StateT.run_bind]
  change (StateT.run (Host.start (w.linkCommand job) >>= _) w : Id _) = _
  rw [StateT.run_bind, hstart]
  cases w.refuse? (w.linkCommand job) <;> rfl

end Workspace

namespace Command

/-- What is shown of records. -/
def shown (filter : Log.Filter) (records : List Log.Record) : Bytes :=
  .ofText (logText filter records)

theorem shown_append (filter : Log.Filter) (first second : List Log.Record) :
    shown filter (first ++ second) = shown filter first ++ shown filter second := by
  simp [shown, logText, Bytes.ofText]

/-- The filter of a request that the environment may override. -/
def chosenFilter (logName : Option String) (verbosity : Nat) : Log.Filter :=
  (logName.bind Log.Filter.ofName?).getD (.ofVerbosity verbosity)

/-- How the report of a refused text ends, and what is shown of it. -/
def syntaxReport (file : SourceFile) (error : Located SyntaxError) : Except Fault Unit × String :=
  (Diagnostic.showReport "Syntax error" file [error.map SyntaxError.message]).outcome

/-- The failure that a refused text makes. -/
def Failure.ofSyntaxError (file : SourceFile) (error : Located SyntaxError) : Failure :=
  match (syntaxReport file error).1 with
  | .ok () => .reported
  | .error f => .fault f

/-- What is shown of the report of a text, if the text is refused. -/
def shownReport (file : SourceFile) : Except (Located SyntaxError) Program → Bytes
  | .ok _ => []
  | .error error => .ofText (syntaxReport file error).2

/-- What a computation gives in a workspace, and the workspace it leaves. -/
def outcome {α : Type} (x : RunM (StateM Workspace) α) (filter : Log.Filter) (w : Workspace) :
    Except Failure α × Workspace :=
  ((x.run filter).run).run w

section Steps

variable {α β : Type} (filter : Log.Filter) (w : Workspace)

@[simp] theorem outcome_pure (a : α) : outcome (pure a) filter w = (.ok a, w) := rfl

@[simp] theorem outcome_ask (question : StateM Workspace α) :
    outcome (ask question) filter w = (.ok (question.run w).1, (question.run w).2) := rfl

@[simp] theorem outcome_note (records : List Log.Record) :
    outcome (note records) filter w = (.ok (), w.told (shown filter records)) := rfl

@[simp] theorem outcome_bind (x : RunM (StateM Workspace) α) (f : α → RunM (StateM Workspace) β) :
    outcome (x >>= f) filter w =
      match outcome x filter w with
      | (.ok a, w') => outcome (f a) filter w'
      | (.error failure, w') => (.error failure, w') := by
  change StateT.run ((x filter).run >>= ExceptT.bindCont fun a => f a filter) w = _
  rw [StateT.run_bind]
  change (match outcome x filter w with
    | (r, w') => StateT.run (ExceptT.bindCont (fun a => f a filter) r) w') = _
  rcases outcome x filter w with ⟨_ | a, w'⟩ <;> rfl

/-- An operation that is required makes its error a failure. -/
theorem outcome_require {ε : Type} (context : String) (causes : ε → List String)
    (operation : StateM Workspace (Except ε Unit)) :
    outcome (require context causes operation) filter w =
      ((operation.run w).1.mapError fun e => .error context (causes e), (operation.run w).2) := by
  rw [require, outcome_bind, outcome_ask]
  dsimp only
  cases (operation.run w).1 <;> rfl

theorem outcome_require_of_ok {ε : Type} {context : String} {causes : ε → List String}
    {operation : StateM Workspace (Except ε Unit)} {w' : Workspace}
    (h : operation.run w = (.ok (), w')) :
    outcome (require context causes operation) filter w = (.ok (), w') := by
  rw [outcome_require, h]
  rfl

/-- A source file is read before anything else happens. -/
theorem outcome_readSource (path : String) :
    outcome (readSource path) filter w =
      match w.disk.read? path with
      | none => (.error (.error ("No such file at '" ++ path ++ "'") []), w)
      | some content =>
        (match content.text? with
          | none => .error (.error ("Failed to read " ++ path)
              ["stream did not contain valid UTF-8"])
          | some text => .ok ⟨path, text⟩,
        w.told (shown filter [⟨.info, .command, "Reading " ++ path⟩])) := by
  have hread : (Host.readFile path : StateM Workspace (Option Bytes)).run w =
    (w.disk.read? path, w) := rfl
  rw [readSource, outcome_bind, outcome_ask, hread]
  cases w.disk.read? path with
  | none => rfl
  | some content =>
    dsimp only
    rw [outcome_bind, tell, outcome_note]
    dsimp only
    cases content.text? <;> rfl

/-- Parsing shows its records, and then a refused text is reported. -/
theorem outcome_parseFile (file : SourceFile) {result : Except (Located SyntaxError) Program}
    {log : Array Log.Record} (h : parseText file.text = .ok (result, log)) :
    outcome (parseFile file) filter w =
      (result.mapError (Failure.ofSyntaxError file),
        w.told (shown filter log.toList ++ shownReport file result)) := by
  have hprint (w : Workspace) (content : Bytes) :
      (Host.printError content : StateM Workspace Unit).run w = ((), w.told content) := rfl
  rw [parseFile, h, orFault, outcome_bind, outcome_pure]
  dsimp only
  rw [outcome_bind, outcome_note, ← Workspace.told_told]
  cases result with
  | ok program =>
    dsimp only [shownReport]
    rw [Workspace.told_nil]
    rfl
  | error error =>
    dsimp only [shownReport, Except.mapError, Failure.ofSyntaxError, syntaxReport]
    rw [outcome_bind, outcome_ask, hprint]
    dsimp only
    rw [outcome_bind]
    rcases (Diagnostic.showReport "Syntax error" file [error.map SyntaxError.message]).outcome
      with ⟨f | ⟨⟩, text⟩ <;> rfl

/-- Code that can be written is shown to be written, and nothing else happens. -/
theorem outcome_assemble {program : Program} {e : Assembly.Emission}
    (h : Assembly.emitProgram program none = .ok e) :
    outcome (assemble program) filter w =
      (.ok e.bytes, w.told (shown filter (Assembly.Piece.program program).log)) := by
  rw [assemble, h, outcome_bind, outcome_note]
  rfl

/-- The records that are made until a text is parsed. -/
def frontEndRecords (path : String) (log : Array Log.Record) : List Log.Record :=
  ⟨.info, .command, "Reading " ++ path⟩ :: log.toList

/-- Only a text that is parsed is compiled. -/
theorem outcome_perform_compile {path text output : String} {assembly strip : Bool}
    {content : Bytes} {result : Except (Located SyntaxError) Program} {log : Array Log.Record}
    (hread : w.disk.read? path = some content) (htext : content.text? = some text)
    (hparse : parseText text = .ok (result, log)) :
    outcome (perform (.compile output assembly strip) path) filter w =
      match (result.mapError (Failure.ofSyntaxError ⟨path, text⟩),
        w.told (shown filter (frontEndRecords path log) ++ shownReport ⟨path, text⟩ result)) with
      | (.ok program, w') => outcome (compile program output assembly strip) filter w'
      | (.error failure, w') => (.error failure, w') := by
  rw [perform, outcome_bind, outcome_readSource, hread]
  dsimp only
  rw [htext]
  dsimp only
  rw [outcome_bind, outcome_parseFile filter _ ⟨path, text⟩ hparse, Workspace.told_told,
    ← List.append_assoc, ← shown_append]
  cases result <;> rfl

/-- The exit code tells how a request ended. -/
theorem run_of_request {logName : Option String} {arguments : List String} {verbosity : Nat}
    {task : Task} {path : String}
    (h : Request.ofArguments arguments = .run verbosity task path) :
    w.run logName arguments =
      match outcome (perform task path) (chosenFilter logName verbosity) w with
      | (.ok (), w') => (0, w')
      | (.error .reported, w') => (1, w')
      | (.error (.error context causes), w') =>
        (1, w'.told (.ofText (Failure.errorText context causes)))
      | (.error (.fault f), w') => (Failure.faultCode, { w' with fault := some f }) := by
  rw [Workspace.run, Command.run, h, Request.carryOut, StateT.run_bind]
  unfold outcome chosenFilter
  generalize StateT.run _ w = r
  rcases r with ⟨failure | _, w'⟩
  · cases failure <;> rfl
  · rfl

end Steps

end Command

end MiniC
