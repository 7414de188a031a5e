import MiniC.Command.Arguments
import MiniC.Command.Linker
import MiniC.Diagnostic
import MiniC.Translate

/-!
# Running a request

A file is read and parsed before anything is written. Compiling then writes assembly to the standard
output or to a file, or hands it to the C compiler. Records are shown as they are made. What goes
wrong is told on the standard error output too, and makes the exit code one. A fault ends the run
where it is, with an exit code of its own.
-/

namespace MiniC.Command

/-- Why a request is not carried out. -/
inductive Failure where
  /-- The text is refused, which was reported. -/
  | reported
  /-- Something failed for some causes, the nearest first. -/
  | error (context : String) (causes : List String)
  /-- A fault ended the run. -/
  | fault (f : Fault)
  deriving DecidableEq, Repr

namespace Failure

/-- Causes as they are told: a single one as it is, several by number. -/
def causeLines : List String → List String
  | [cause] => ["    " ++ cause ++ "\n"]
  | causes => causes.zipIdx.map fun x => "    " ++ toString x.2 ++ ": " ++ x.1 ++ "\n"

/-- What is told of something that failed for some causes. -/
def errorText (context : String) : List String → String
  | [] => "Error: " ++ context ++ "\n"
  | causes => "Error: " ++ context ++ "\n\nCaused by:\n" ++ String.join (causeLines causes)

/-- The exit code of a run that a fault ended. -/
def faultCode : Nat := 101

end Failure

/-- A computation on a host that shows the records a filter lets through and may fail. -/
abbrev RunM (m : Type → Type) := ReaderT Log.Filter (ExceptT Failure m)

/-- The lines of the records that a filter lets through. -/
def logText (filter : Log.Filter) (records : List Log.Record) : String :=
  String.join ((records.filter filter.passes).map Log.Record.line)

variable {m : Type → Type} [Monad m] [Host m]

/-- Asks the host. -/
def ask {α : Type} (question : m α) : RunM m α := fun _ => ExceptT.lift question

/-- Shows records on the standard error output. -/
def note (records : List Log.Record) : RunM m Unit := do
  ask (Host.printError (.ofText (logText (← read) records)))

/-- Shows a record of the command line program itself. -/
def tell (text : String) : RunM m Unit := note [⟨.info, .command, text⟩]

/-- Fails for some causes. -/
def failWith {α : Type} (context : String) (causes : List String) : RunM m α :=
  throw (.error context causes)

/-- Carries out an operation, and fails for the causes of its error. -/
def require {ε : Type} (context : String) (causes : ε → List String)
    (operation : m (Except ε Unit)) : RunM m Unit := do
  match ← ask operation with
  | .ok () => return ()
  | .error e => failWith context (causes e)

/-- A value that may be lacking for a fault. -/
def orFault {α : Type} : Except Fault α → RunM m α
  | .ok a => return a
  | .error f => throw (.fault f)

/-- Reads a source file, which has to be a regular file of UTF-8 text. -/
def readSource (path : String) : RunM m SourceFile := do
  match ← ask (Host.readFile path) with
  | none => failWith ("No such file at '" ++ path ++ "'") []
  | some content => do
    tell ("Reading " ++ path)
    match content.text? with
    | none => failWith ("Failed to read " ++ path) ["stream did not contain valid UTF-8"]
    | some text => return ⟨path, text⟩

/-- Parses a source file, and reports the error if it is refused. -/
def parseFile (file : SourceFile) : RunM m Program := do
  let (result, log) ← orFault (parseText file.text)
  note log.toList
  match result with
  | .ok program => return program
  | .error error => do
    let (shown, report) :=
      (Diagnostic.showReport "Syntax error" file [error.map SyntaxError.message]).outcome
    ask (Host.printError (.ofText report))
    orFault shown
    throw .reported

/-- The assembly of a program. -/
def assemble (program : Program) : RunM m Bytes := do
  note (Assembly.Piece.program program).log
  return (← orFault (Assembly.emitProgram program none)).bytes

/-- Writes the assembly of a program to the standard output. -/
def printAssembly (program : Program) : RunM m Unit := do
  let code ← assemble program
  require "Failed to emit to stdout" (fun e => [e.message]) (Host.printOutput code)

/-- Writes the assembly of a program to a file. -/
def writeAssembly (program : Program) (path : String) : RunM m Unit := do
  require ("Failed to open for writing: " ++ path) (fun e => [e.message]) (Host.createFile path)
  let code ← assemble program
  require ("Failed to emit to file: " ++ path) (fun e => [e.message]) (Host.writeFile path code)

/-- Makes an executable of a program. -/
def makeExecutable (program : Program) (job : Linker.Job) : RunM m Unit := do
  let (record, started) ← ask (Linker.start job)
  note [record]
  require "Failed to link" Linker.Error.messages (pure started)
  let code ← assemble program
  require ("Failed to generate executable: " ++ job.output) Linker.Error.messages
    (Linker.finish code)

/-- Compiles a program. A hyphen as output means the standard output, which takes assembly only. -/
def compile (program : Program) (output : String) (assembly strip : Bool) : RunM m Unit := do
  match assembly, output with
  | true, "-" => printAssembly program
  | true, path => writeAssembly program path
  | false, "-" => failWith "Refusing to write executable to stdout" []
  | false, path => makeExecutable program { output := path, strip }
  tell ("Wrote " ++ output)

/-- Shows a text on the standard output, which is a fault if it is refused. -/
def print (text : String) : RunM m Unit := do
  match ← ask (Host.printOutput (.ofText text)) with
  | .ok () => return ()
  | .error e => throw (.fault (.outputRefused e.message))

/-- A token's line in a list of tokens: its place and its description around a tab. -/
def tokenLine (t : Located Token) : String := t.position.text ++ "\t" ++ t.val.description ++ "\n"

/-- Does something with a file. -/
def perform (task : Task) (path : String) : RunM m Unit := do
  let file ← readSource path
  match task with
  | .compile output assembly strip => compile (← parseFile file) output assembly strip
  | .tree => print (← parseFile file).print
  | .tokens => do
    let (tokens, _) ← orFault (tokenize file.text)
    tokens.forM fun t => do
      note [Lexer.notice t]
      print (tokenLine t)

/-- What is shown for the program's version. -/
def versionText : String := "clanger 0.1.0\n"

/-- What is shown for the program's use. -/
def usageText : String :=
  "Usage: clanger [-v]... (compile FILE [-o OUT] [-S] [-s] | ast FILE | tokens FILE)\n"

/-- Tells a failure that was not told yet, which gives the exit code. -/
def Failure.conclude : Failure → m Nat
  | .reported => return 1
  | .error context causes => do
    Host.printError (.ofText (errorText context causes))
    return 1
  | .fault f => do
    Host.halt f
    return faultCode

/-- Carries a request out, which gives the exit code. The environment may name a log filter, which
comes before the number of requests for more detail. -/
def Request.carryOut (logName : Option String) : Request → m Nat
  | .help => do
    let _ ← Host.printOutput (.ofText usageText)
    return 0
  | .version => do
    let _ ← Host.printOutput (.ofText versionText)
    return 0
  | .invalid => do
    Host.printError (.ofText usageText)
    return 2
  | .run verbosity task path => do
    let filter := (logName.bind Log.Filter.ofName?).getD (.ofVerbosity verbosity)
    match ← ((perform task path).run filter).run with
    | .ok () => return 0
    | .error failure => failure.conclude

/-- Runs the program with its arguments, which gives its exit code. -/
def run (logName : Option String) (arguments : List String) : m Nat :=
  (Request.ofArguments arguments).carryOut logName

end MiniC.Command
