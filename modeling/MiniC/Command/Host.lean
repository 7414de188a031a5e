import MiniC.Fault
import MiniC.Text.Bytes

/-!
# Hosts

A host is where the command line program runs: it keeps files, shows what is printed, and starts the
C compiler that assembles and links.
-/

namespace MiniC

/-- Why the system refuses an operation. -/
inductive SystemError where
  | notFound
  | noPermission
  | notFolder
  | isFolder
  | noSpace
  | nameTooLong
  | zeroByte
  | other (text : String)
  deriving DecidableEq, Repr

/-- The text of a system error. -/
def SystemError.message : SystemError → String
  | .notFound => "No such file or directory (os error 2)"
  | .noPermission => "Permission denied (os error 13)"
  | .notFolder => "Not a directory (os error 20)"
  | .isFolder => "Is a directory (os error 21)"
  | .noSpace => "No space left on device (os error 28)"
  | .nameTooLong => "File name too long (os error 36)"
  | .zeroByte => "nul byte found in provided data"
  | .other text => text

/-- How a program ended. -/
inductive ProgramEnd where
  /-- It exited with a code. -/
  | exited (code : Nat)
  /-- It was ended by a signal. -/
  | signaled (signal : Nat)
  deriving DecidableEq, Repr

namespace ProgramEnd

/-- Only exit code zero means success. -/
def isSuccess : ProgramEnd → Bool
  | .exited code => code = 0
  | .signaled _ => false

/-- The wait status: an exit code stands in the second byte, a signal in the first. -/
def waitStatus : ProgramEnd → Nat
  | .exited code => code * 256
  | .signaled signal => signal

end ProgramEnd

/-- What the command line program asks of the system it runs on. -/
class Host (m : Type → Type) where
  /-- The content of a regular file. -/
  readFile : String → m (Option Bytes)
  /-- Opens a file for writing, which empties it. -/
  createFile : String → m (Except SystemError Unit)
  /-- Writes to a file that was opened for writing. -/
  writeFile : String → Bytes → m (Except SystemError Unit)
  /-- Writes to the standard output, which may refuse to take everything. -/
  printOutput : Bytes → m (Except SystemError Unit)
  /-- Writes to the standard error output. -/
  printError : Bytes → m Unit
  /-- The name of the C compiler, if the environment gives one. -/
  compilerName : m (Option String)
  /-- Starts a program by its name and arguments. -/
  start : List String → m (Except SystemError Unit)
  /-- Hands the started program its input and waits for its end. -/
  finish : Bytes → m ProgramEnd
  /-- Tells in the system's own words that a fault ends the run. -/
  halt : Fault → m Unit

end MiniC
