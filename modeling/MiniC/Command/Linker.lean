import MiniC.Command.Host
import MiniC.Log
import MiniC.Text.Quoted

/-!
# Linking

The C compiler assembles and links. It is called by the name that the environment gives, or `gcc`,
and reads the assembly from its standard input.
-/

namespace MiniC.Linker

/-- What to link. -/
structure Job where
  /-- The path of the executable. -/
  output : String
  /-- Whether to leave symbols out of the executable. -/
  strip : Bool := false
  deriving DecidableEq, Repr

/-- The compiler's name if the environment gives none. -/
def defaultCompiler : String := "gcc"

/-- The compiler's name and arguments. -/
def Job.command (job : Job) (compiler : String) : List String :=
  [compiler, "-o", job.output, "-xassembler", "-"] ++ if job.strip then ["-s"] else []

/-- The record made before the compiler is started. -/
def Job.notice (job : Job) (compiler : String) : Log.Record :=
  ⟨.info, .linker, "Linking " ++ job.output ++ " with " ++ quoted compiler⟩

/-- Why there is no executable. -/
inductive Error where
  /-- The compiler was not started. -/
  | notStarted (cause : SystemError)
  /-- The compiler ended without success. -/
  | failed (status : ProgramEnd)
  deriving DecidableEq, Repr

/-- The text of an error. -/
def Error.message : Error → String
  | .notStarted _ => "I/O error"
  | .failed status =>
    "Linker exited with status code ExitStatus(unix_wait_status(" ++ toString status.waitStatus ++
      "))"

/-- The text of an error, and then of what caused it. -/
def Error.messages : Error → List String
  | .notStarted cause => [(Error.notStarted cause).message, cause.message]
  | .failed status => [(Error.failed status).message]

variable {m : Type → Type} [Monad m] [Host m]

/-- Starts the compiler, and tells the record made before that. -/
def start (job : Job) : m (Log.Record × Except Error Unit) := do
  let compiler := (← Host.compilerName).getD defaultCompiler
  let started ← Host.start (job.command compiler)
  return (job.notice compiler, started.mapError .notStarted)

/-- Hands the assembly to the started compiler and waits for its end. -/
def finish (code : Bytes) : m (Except Error Unit) := do
  let status ← Host.finish code
  return if status.isSuccess then .ok () else .error (.failed status)

/-- Links assembly, and tells the record that this makes. -/
def link (job : Job) (code : Bytes) : m (Log.Record × Except Error Unit) := do
  match ← start job with
  | (record, .ok ()) => return (record, ← finish code)
  | (record, .error e) => return (record, .error e)

end MiniC.Linker
