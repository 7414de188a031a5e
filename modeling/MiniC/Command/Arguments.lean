/-!
# Arguments

Arguments are read from left to right as switches, settings and words. A word does not begin with a
hyphen, is a lone hyphen, or stands after a double hyphen. Switches of one letter may be joined
behind one hyphen; the value of a setting is joined to it, with or without an equals sign, or is the
next word. The first request for help or the version, and the first argument that has no meaning
where it stands, decide at once; what is missing or given twice shows at the end.
-/

namespace MiniC.Command

/-- What a switch or a setting is about. -/
inductive Key where
  | help
  | version
  | verbose
  | assembly
  | strip
  | output
  deriving DecidableEq, Repr

/-- Whether a key comes with a value. -/
def Key.takesValue : Key → Bool
  | .output => true
  | _ => false

/-- The keys that have a meaning at some place, by letter and by name. -/
structure Vocabulary where
  /-- The keys of single letters. -/
  letters : List (Char × Key)
  /-- The keys of names. -/
  names : List (String × Key)

/-- The keys before a subcommand. -/
def Vocabulary.main : Vocabulary where
  letters := [('v', .verbose), ('h', .help), ('V', .version)]
  names := [("verbose", .verbose), ("help", .help), ("version", .version)]

/-- The keys of a subcommand that only inspects a file. -/
def Vocabulary.inspect : Vocabulary where
  letters := [('h', .help)]
  names := [("help", .help)]

/-- The keys of compiling. -/
def Vocabulary.compile : Vocabulary where
  letters := [('o', .output), ('S', .assembly), ('s', .strip), ('h', .help)]
  names := [("out", .output), ("help", .help)]

/-- A piece of an argument list. -/
inductive Item where
  /-- A key without a value. -/
  | switch (key : Key)
  /-- A key with its value, if that is not missing. -/
  | setting (key : Key) (value : Option String)
  /-- A plain word. -/
  | word (text : String)
  /-- The double hyphen. -/
  | terminator
  /-- An argument without a meaning, which ends the reading. -/
  | unknown
  deriving DecidableEq, Repr

/-- How an argument looks. -/
inductive Shape where
  /-- The double hyphen, after which there are only words. -/
  | terminator
  /-- A name behind two hyphens, and what stands behind an equals sign. -/
  | long (name : String) (value : Option String)
  /-- Letters behind one hyphen. -/
  | cluster (letters : List Char)
  /-- Anything else. -/
  | word
  deriving DecidableEq, Repr

/-- The part of a text before the first equals sign, and the part behind it. -/
def splitAtEquals (text : List Char) : String × Option String :=
  let name := String.ofList (text.takeWhile (· ≠ '='))
  match text.dropWhile (· ≠ '=') with
  | [] => (name, none)
  | _ :: value => (name, some (String.ofList value))

/-- The look of an argument. -/
def Shape.of (argument : String) : Shape :=
  match argument.toList with
  | ['-', '-'] => .terminator
  | '-' :: '-' :: text =>
    let (name, value) := splitAtEquals text
    .long name value
  | '-' :: c :: letters => .cluster (c :: letters)
  | _ => .word

/-- The items of joined letters. A setting takes the rest of them as its value, less an equals sign
in front. -/
def clusterItems (vocabulary : Vocabulary) : List Char → List Item
  | [] => []
  | c :: letters =>
    match vocabulary.letters.lookup c with
    | none => [.unknown]
    | some key =>
      if key.takesValue then
        [.setting key (match letters with
          | [] => none
          | '=' :: value => some (String.ofList value)
          | value => some (String.ofList value))]
      else
        .switch key :: clusterItems vocabulary letters

/-- The items of a name behind two hyphens. -/
def longItems (vocabulary : Vocabulary) (name : String) (value : Option String) : List Item :=
  match vocabulary.names.lookup name with
  | none => [.unknown]
  | some key =>
    if key.takesValue then [.setting key value]
    else if value.isSome then [.unknown]
    else [.switch key]

/-- The items of arguments. -/
def items (vocabulary : Vocabulary) : List String → List Item
  | [] => []
  | argument :: rest =>
    match Shape.of argument with
    | .terminator => .terminator :: rest.map .word
    | .word => .word argument :: items vocabulary rest
    | .long name value => longItems vocabulary name value ++ items vocabulary rest
    | .cluster letters => clusterItems vocabulary letters ++ items vocabulary rest

/-- Gives a setting without a value the word behind it. -/
def settle : List Item → List Item
  | [] => []
  | .setting key none :: .word text :: rest => .setting key (some text) :: settle rest
  | item :: rest => item :: settle rest

/-- What to do with a file. -/
inductive Task where
  /-- Compile it to assembly or to an executable. -/
  | compile (output : String) (assembly strip : Bool)
  /-- Print its tree. -/
  | tree
  /-- List its tokens. -/
  | tokens
  deriving DecidableEq, Repr

/-- What arguments ask for. -/
inductive Request where
  /-- Do something with a file, under a number of requests for more detail. -/
  | run (verbosity : Nat) (task : Task) (file : String)
  /-- Show how the program is used. -/
  | help
  /-- Show the program's version. -/
  | version
  /-- Nothing that has a meaning. -/
  | invalid
  deriving DecidableEq, Repr

/-- What a subcommand has been told so far. -/
structure Draft where
  /-- The file. -/
  file : Option String := none
  /-- The settings and switches, the last first. -/
  given : List (Key × Option String) := []
  deriving DecidableEq, Repr

namespace Draft

/-- Whether a switch was given. -/
def has (d : Draft) (key : Key) : Bool := d.given.any (·.1 = key)

/-- The value of a setting that was given. -/
def value? (d : Draft) (key : Key) : Option String := (d.given.lookup key).join

/-- Whether no key was given twice and no value is missing. -/
def isSettled (d : Draft) : Bool :=
  (d.given.map Prod.fst).Nodup && d.given.all fun x => !x.1.takesValue || x.2.isSome

/-- The executable's path if none is given. -/
def defaultOutput : String := "out"

/-- The request at the end of a subcommand's arguments. -/
def finish (verbosity : Nat) (task : Draft → Task) (d : Draft) : Request :=
  match d.file with
  | some file => if d.isSettled then .run verbosity (task d) file else .invalid
  | none => .invalid

/-- Reads the items of a subcommand, which takes one word. -/
def read (verbosity : Nat) (task : Draft → Task) (d : Draft) : List Item → Request
  | [] => d.finish verbosity task
  | .switch .help :: _ => .help
  | .switch .version :: _ => .version
  | .switch key :: rest => read verbosity task { d with given := (key, none) :: d.given } rest
  | .setting key value :: rest =>
    read verbosity task { d with given := (key, value) :: d.given } rest
  | .word text :: rest =>
    if d.file.isSome then .invalid else read verbosity task { d with file := some text } rest
  | .terminator :: rest => read verbosity task d rest
  | .unknown :: _ => .invalid

/-- Compiling as a draft tells it. -/
def compileTask (d : Draft) : Task :=
  .compile ((d.value? .output).getD defaultOutput) (d.has .assembly) (d.has .strip)

end Draft

namespace Request

/-- The names that help can be asked for. -/
def subcommands : List String := ["compile", "ast", "tokens", "help"]

/-- The request of a subcommand with its arguments. -/
def ofSubcommand (verbosity : Nat) (name : String) (arguments : List String) : Request :=
  let read (vocabulary : Vocabulary) (task : Draft → Task) : Request :=
    Draft.read verbosity task {} (settle (items vocabulary arguments))
  match name with
  | "compile" => read .compile Draft.compileTask
  | "ast" => read .inspect fun _ => .tree
  | "tokens" => read .inspect fun _ => .tokens
  | "help" =>
    match arguments with
    | [] => .help
    | [topic] => if topic ∈ subcommands then .help else .invalid
    | _ => .invalid
  | _ => .invalid

/-- Reads the items before a subcommand: the number of requests for more detail, or the request that
is decided before the subcommand. -/
def readMain (verbosity : Nat) : List Item → Except Request Nat
  | [] => .ok verbosity
  | .switch .verbose :: rest => readMain (verbosity + 1) rest
  | .switch .help :: _ => .error .help
  | .switch .version :: _ => .error .version
  | _ => .error .invalid

/-- The request of a program's arguments. -/
def ofArguments (arguments : List String) : Request :=
  match readMain 0 (items .main (arguments.takeWhile (Shape.of · ≠ .word))) with
  | .error request => request
  | .ok verbosity =>
    match arguments.dropWhile (Shape.of · ≠ .word) with
    | [] => .invalid
    | name :: rest => ofSubcommand verbosity name rest

end Request

end MiniC.Command
