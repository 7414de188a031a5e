import MiniC.Command.Disk
import MiniC.Command.Run

/-!
# Workspaces

A workspace is a host that is a plain value: a disk, what was printed, and programs that end as was
agreed. What the command line program does there is a function of its arguments and the workspace.
-/

namespace MiniC

/-- A host that is a plain value. -/
structure Workspace where
  /-- The files. -/
  disk : Disk
  /-- What was written to the standard output. -/
  stdout : Bytes := []
  /-- How many more bytes the standard output takes, if there is a limit. -/
  room : Assembly.Room := none
  /-- What was written to the standard error output. -/
  stderr : Bytes := []
  /-- The name of the C compiler in the environment. -/
  compiler : Option String := none
  /-- The names under which a program can be started. -/
  programs : List String := []
  /-- How every program ends. -/
  ending : ProgramEnd := .exited 0
  /-- The program started last with its arguments. -/
  started : Option (List String) := none
  /-- The input that it was handed. -/
  input : Bytes := []
  /-- The fault that ended a run. What the system says of it is not kept with the standard error
  output. -/
  fault : Option Fault := none
  deriving DecidableEq, Repr

namespace Workspace

/-- Runs a change of the disk, which stays as it was if the change is refused. -/
def update (change : Disk → Except SystemError Disk) :
    StateM Workspace (Except SystemError Unit) := do
  let w ← get
  match change w.disk with
  | .ok disk => set { w with disk }; return .ok ()
  | .error e => return .error e

/-- Writes to the standard output, as far as there is room. -/
def printOutput (content : Bytes) : StateM Workspace (Except SystemError Unit) := do
  let w ← get
  set { w with
    stdout := w.stdout ++ w.room.cut content
    room := w.room.minus content.length }
  return if w.room.fits content.length then .ok () else .error .noSpace

/-- Writes to the standard error output. -/
def printError (content : Bytes) : StateM Workspace Unit :=
  modify fun w => { w with stderr := w.stderr ++ content }

/-- Writes to a file that was opened for writing, or to one of the program's own outputs. -/
def writeFile (path : String) (content : Bytes) :
    StateM Workspace (Except SystemError Unit) := do
  match (← get).disk.find path with
  | .ok (.device .output) => printOutput content
  | .ok (.device .error) => printError content; return .ok ()
  | _ => update (·.write path content)

/-- Why a command cannot be started. A program's name without a slash is looked up among the
programs, and one with a slash on the disk; the folder names `.` and `..` are found and are no
programs. -/
def refuse? (w : Workspace) (command : List String) : Option SystemError :=
  let name := command.headD ""
  if command.any fun text => '\x00' ∈ text.toList then some .zeroByte
  else if '/' ∈ name.toList then some (w.disk.refuseProgram name)
  else if Disk.nameMax < name.utf8ByteSize then some .nameTooLong
  else if name = "." ∨ name = ".." then some .noPermission
  else if name ∈ w.programs then none
  else some .notFound

instance : Host (StateM Workspace) where
  readFile path := return (← get).disk.read? path
  createFile path := update (·.create path)
  writeFile := writeFile
  printOutput := printOutput
  printError := printError
  compilerName := return (← get).compiler
  start command := do
    let w ← get
    match w.refuse? command with
    | some e => return .error e
    | none =>
      set { w with started := some command }
      return .ok ()
  finish input := do
    modify fun w => { w with input }
    return (← get).ending
  halt fault := modify fun w => { w with fault := some fault }

/-- Runs the command line program with its arguments, which gives its exit code. -/
def run (w : Workspace) (logName : Option String) (arguments : List String) : Nat × Workspace :=
  (Command.run logName arguments : StateM Workspace Nat).run w

/-- Links assembly, and tells the record that this makes. -/
def link (w : Workspace) (job : Linker.Job) (code : Bytes) :
    (Log.Record × Except Linker.Error Unit) × Workspace :=
  (Linker.link job code : StateM Workspace (Log.Record × Except Linker.Error Unit)).run w

end Workspace

end MiniC
