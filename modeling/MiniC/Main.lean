import MiniC.Command.Run

/-!
# The command line program

The program runs on the system it was started on. It starts no other program, so a C compiler is
never found and only assembly can be made.
-/

namespace MiniC

/-- The cause that the system gives for refusing an operation. -/
def SystemError.ofIOError : IO.Error → SystemError
  | .noFileOrDirectory .. => .notFound
  | .permissionDenied .. => .noPermission
  | .inappropriateType .. => .isFolder
  | .resourceExhausted .. => .noSpace
  | e => .other (toString e)

/-- Carries out an operation of the system, or tells why it is refused. -/
def attempt (operation : IO Unit) : IO (Except SystemError Unit) := do
  try
    operation
    return .ok ()
  catch e => return .error (.ofIOError e)

instance : Host IO where
  readFile path := do
    try
      return some (← IO.FS.readBinFile path).data.toList
    catch _ => return none
  createFile path := attempt (IO.FS.writeBinFile path .empty)
  writeFile path content := attempt (IO.FS.writeBinFile path ⟨content.toArray⟩)
  printOutput content := attempt do (← IO.getStdout).write ⟨content.toArray⟩
  printError content := do (← IO.getStderr).write ⟨content.toArray⟩
  compilerName := IO.getEnv "CC"
  start _ := return .error .notFound
  finish _ := return .exited 1
  halt fault := IO.eprintln fault.message

end MiniC

/-- Runs the program with its arguments, and gives its exit code. -/
def main (arguments : List String) : IO UInt32 := do
  let exit : Nat ← MiniC.Command.run (← IO.getEnv "RUST_LOG") arguments
  return exit.toUInt32
