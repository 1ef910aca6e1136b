import Framescript.Command.Console

/-!
A console in memory: a tree of files with a directory to work in, and what was written to the two
outputs. A directory is there if something is in it.
-/
namespace Framescript

/-- Where something stands: the names on the way to it from the root. -/
abbrev Place := List String

/-- Files by their place. -/
structure Disk where
  files : List (Place × Bytes) := []
  deriving DecidableEq, Repr

/-- Files that keep nothing of what is written to them. -/
inductive Device where
  /-- Takes all bytes, and has none to read. -/
  | null
  /-- Has no room for a byte, and no end of bytes to read. -/
  | full
  deriving DecidableEq, Repr

/-- What stands at a place. -/
inductive Node where
  | file (bytes : Bytes)
  | device (device : Device)
  | directory
  deriving DecidableEq, Repr

namespace Disk

/-- Where a path starts that does not start at the root. -/
def home : Place := ["tmp", "work"]

/-- What every disk has: devices, and directories that may be empty. The input of a command is empty
too. -/
def fixtures : List (Place × Node) :=
  [(["dev", "null"], .device .null), (["dev", "stdin"], .device .null), (["dev", "full"], .device .full),
   (["etc"], .directory), (["usr"], .directory), (["var"], .directory), (home, .directory)]

/-- The most bytes of a name. -/
def nameLimit : Nat := 255

/-- The most bytes of a path. -/
def pathLimit : Nat := 4095

/-- A disk with files in the directory to work in. -/
def ofFiles (files : List (String × Bytes)) : Disk :=
  { files := files.map fun (path, bytes) => (home ++ path.splitOn "/", bytes) }

/-- The files in the directory to work in. -/
def homeFiles (d : Disk) : List (String × Bytes) :=
  (d.files.filter (home.isPrefixOf ·.1)).map fun (place, bytes) => ("/".intercalate (place.drop home.length), bytes)

/-- What stands at a place, if anything. -/
def node? (d : Disk) (place : Place) : Option Node :=
  match fixtures.lookup place with
  | some node => some node
  | none =>
    match d.files.lookup place with
    | some bytes => some (.file bytes)
    | none =>
      if fixtures.any (place.isPrefixOf ·.1) ∨ d.files.any (place.isPrefixOf ·.1) then some .directory else none

/-- The place that names lead to. All but the last have to be directories. Nothing is above the
root. -/
def follow (d : Disk) (place : Place) : List String → Except FileError Place
  | [] => .ok place
  | name :: names =>
    match d.node? place with
    | none => .error .notFound
    | some .directory =>
      if name = "" ∨ name = "." then d.follow place names
      else if name = ".." then d.follow place.dropLast names
      else if nameLimit < name.utf8ByteSize then .error .nameTooLong
      else d.follow (place ++ [name]) names
    | some _ => .error .notDirectory

/-- The place that a path starts at, unless it is empty or too long. -/
def start (path : String) : Except FileError Place :=
  if path.isEmpty then .error .notFound
  else if pathLimit < path.utf8ByteSize then .error .nameTooLong
  else if path.toList.head? = some '/' then .ok []
  else .ok home

/-- The place of a path. -/
def place (d : Disk) (path : String) : Except FileError Place :=
  match start path with
  | .error e => .error e
  | .ok place => d.follow place (path.splitOn "/")

/-- What stands at a path. -/
def find (d : Disk) (path : String) : Except FileError Node :=
  match d.place path with
  | .error e => .error e
  | .ok place => (d.node? place).elim (.error .notFound) .ok

/-- The bytes of the file at a path. -/
def read (d : Disk) (path : String) : Except FileError Bytes :=
  match d.find path with
  | .error e => .error e
  | .ok .directory => .error .isDirectory
  | .ok (.device .null) => .ok []
  | .ok (.device .full) => .error .noMemory
  | .ok (.file bytes) => .ok bytes

/-- The disk with other bytes for the file at a place, which is new or replaced. -/
def put (d : Disk) (place : Place) (bytes : Bytes) : Disk :=
  { files := (place, bytes) :: d.files.filter (·.1 ≠ place) }

/-- The names on the way to the last one of a path. -/
def namesBefore (names : List String) : List String :=
  ((names.reverse.dropWhile (· = "")).drop 1).reverse

/-- The disk with a file at a path. A path that ends in a slash is that of a directory, also if there
is none. -/
def write (d : Disk) (path : String) (bytes : Bytes) : Except FileError Disk :=
  match start path with
  | .error e => .error e
  | .ok place =>
    let names := path.splitOn "/"
    match d.follow place (namesBefore names ++ ["."]) with
    | .error e => .error e
    | .ok _ =>
      if names.getLast? = some "" then .error .isDirectory
      else
        match d.follow place names with
        | .error e => .error e
        | .ok place =>
          match d.node? place with
          | some .directory => .error .isDirectory
          | some (.device .null) => .ok d
          | some (.device .full) => if bytes.isEmpty then .ok d else .error .noSpace
          | some (.file _) | none => .ok (d.put place bytes)

end Disk

/-- A disk with what was written to the two outputs. -/
structure Terminal where
  disk : Disk := {}
  out : String := ""
  err : String := ""

instance : Console (StateM Terminal) where
  readFile path := do return (← get).disk.read path
  writeFile path bytes := do
    match (← get).disk.write path bytes with
    | .error e => return .error e
    | .ok disk =>
      modify fun t => { t with disk }
      return .ok ()
  fileExists path := do return (← get).disk.find path matches .ok _
  out text := modify fun t => { t with out := t.out ++ text }
  err text := modify fun t => { t with err := t.err ++ text }

end Framescript
