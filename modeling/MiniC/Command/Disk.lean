import MiniC.Command.Host

/-!
# Disks

A disk holds files, folders and devices below one root, and a working folder. A path is walked name
by name from the root or from the working folder, and every name but the last has to be a folder's.
The folder above the root is the root itself.
-/

namespace MiniC

/-- A device that can be written to. -/
inductive Device where
  /-- The device on which there is never space left. -/
  | full
  /-- The device that forgets what is written to it. -/
  | null
  /-- The standard output of the program that writes. -/
  | output
  /-- The standard error output of the program that writes. -/
  | error
  deriving DecidableEq, Repr

/-- What is stored under a name. -/
inductive Node where
  | file (content : Bytes)
  | folder
  | device (d : Device)
  deriving DecidableEq, Repr

/-- Where a path leads, by the names from the root on. -/
inductive Place where
  /-- To a folder. -/
  | folder (names : List String)
  /-- To a regular file. -/
  | file (names : List String) (content : Bytes)
  /-- To a device. -/
  | device (d : Device)
  /-- To a name that is free in a folder. -/
  | free (names : List String)
  deriving DecidableEq, Repr

/-- Files, folders and devices by the names from the root on. -/
structure Disk where
  /-- What is stored, the root apart. -/
  nodes : List (List String × Node) := []
  /-- The working folder. -/
  home : List String := []
  deriving DecidableEq, Repr

namespace Disk

/-- What the names lead to. -/
def node? (d : Disk) (names : List String) : Option Node :=
  if names.isEmpty then some .folder else d.nodes.lookup names

/-- A disk with something stored under the names. -/
def store (d : Disk) (names : List String) (node : Node) : Disk :=
  { d with nodes := (names, node) :: d.nodes.filter (·.1 ≠ names) }

/-- The most bytes that a name can have. -/
def nameMax : Nat := 255

/-- The most bytes that a path can have. -/
def pathMax : Nat := 4095

/-- Walks from the folder `here`. -/
def walk (d : Disk) (here : List String) : List String → Except SystemError Place
  | [] => .ok (.folder here)
  | name :: names =>
    if name = "." then walk d here names
    else if name = ".." then walk d here.dropLast names
    else if nameMax < name.utf8ByteSize then .error .nameTooLong
    else
      match d.node? (here ++ [name]), names with
      | some .folder, names => walk d (here ++ [name]) names
      | some (.file content), [] => .ok (.file (here ++ [name]) content)
      | some (.device device), [] => .ok (.device device)
      | none, [] => .ok (.free (here ++ [name]))
      | some _, _ => .error .notFolder
      | none, _ => .error .notFound

/-- The parts of a text between slashes. -/
def splitSlashes : List Char → List (List Char)
  | [] => [[]]
  | c :: text =>
    if c = '/' then [] :: splitSlashes text
    else
      match splitSlashes text with
      | [] => [[c]]
      | part :: parts => (c :: part) :: parts

/-- The names of a path, without the empty ones between slashes. -/
def namesOf (path : String) : List String :=
  ((splitSlashes path.toList).filter (· ≠ [])).map String.ofList

/-- Whether a path begins at the root. -/
def isAbsolute (path : String) : Bool := path.toList.head? = some '/'

/-- Whether a path ends in a slash, which only a folder's may. -/
def endsInSlash (path : String) : Bool := path.toList.getLast? = some '/'

/-- Where a path leads. -/
def find (d : Disk) (path : String) : Except SystemError Place :=
  if path = "" then .error .notFound
  else if pathMax < path.utf8ByteSize then .error .nameTooLong
  else d.walk (if isAbsolute path then [] else d.home) (namesOf path)

/-- The content of a regular file. -/
def read? (d : Disk) (path : String) : Option Bytes :=
  match d.find path with
  | .ok (.file _ content) => if endsInSlash path then none else some content
  | _ => none

/-- Opens a file for writing, which makes it or empties it. -/
def create (d : Disk) (path : String) : Except SystemError Disk := do
  let place ← d.find path
  if endsInSlash path then throw .isFolder
  match place with
  | .folder _ => throw .isFolder
  | .file names _ => return d.store names (.file [])
  | .device _ => return d
  | .free names => return d.store names (.file [])

/-- Writes to a file that was opened for writing, over the beginning of what it holds. A disk keeps
nothing of what is written to devices. -/
def write (d : Disk) (path : String) (content : Bytes) : Except SystemError Disk := do
  match ← d.find path with
  | .folder _ => throw .isFolder
  | .file names old => return d.store names (.file (content ++ old.drop content.length))
  | .device .full => if content.isEmpty then return d else throw .noSpace
  | .device _ => return d
  | .free names => return d.store names (.file content)

/-- Why a path cannot be executed: nothing on a disk is a program. -/
def refuseProgram (d : Disk) (path : String) : SystemError :=
  match d.find path with
  | .error e => e
  | .ok (.free _) => .notFound
  | .ok (.folder _) => .noPermission
  | .ok _ => if endsInSlash path then .notFolder else .noPermission

/-- A disk with the folder of the names and the folders on its way. -/
def addFolder (d : Disk) (names : List String) : Disk :=
  (List.range names.length).foldl (fun d i => d.store (names.take (i + 1)) .folder) d

/-- A disk with the file of the names and the folders on its way. -/
def addFile (d : Disk) (names : List String) (content : Bytes) : Disk :=
  (d.addFolder names.dropLast).store names (.file content)

/-- The folders that every system has below its root. -/
def systemFolders : List String :=
  ["bin", "dev", "etc", "home", "lib", "opt", "proc", "root", "run", "sbin", "sys", "tmp", "usr",
    "var"]

/-- The devices that every system has. -/
def systemDevices : List (List String × Device) :=
  [(["dev", "full"], .full), (["dev", "null"], .null), (["dev", "zero"], .null),
    (["dev", "random"], .null), (["dev", "urandom"], .null), (["dev", "stdout"], .output),
    (["dev", "stderr"], .error), (["dev", "fd", "1"], .output), (["dev", "fd", "2"], .error),
    (["proc", "self", "fd", "1"], .output), (["proc", "self", "fd", "2"], .error)]

/-- A disk with the device of the names and the folders on its way. -/
def addDevice (d : Disk) (names : List String) (device : Device) : Disk :=
  (d.addFolder names.dropLast).store names (.device device)

/-- A system whose working folder is the one of the names and is empty. -/
def system (home : List String) : Disk :=
  let folders : Disk := systemFolders.foldl (fun d name => addFolder d [name]) {}
  let devices : Disk := systemDevices.foldl (fun d x => addDevice d x.1 x.2) folders
  { devices.addFolder home with home }

/-- The files below the working folder, by their names from there on. -/
def homeFiles (d : Disk) : List (List String × Bytes) :=
  d.nodes.filterMap fun x =>
    match x.2 with
    | .file content =>
      if d.home.isPrefixOf x.1 then some (x.1.drop d.home.length, content) else none
    | _ => none

end Disk

end MiniC
