/-
# `Command.Host` — what the command runs on

The command reads files and an input stream and writes at most one file.  It does so through a
`Host`, so that the same command runs on the files of a machine and on a `World`, which is a value:
directories with files in them, and what the input stream holds.

* `Host` — reading and writing, each of which may be refused;
* `World.locate` — where a path leads;
* `World`, and its instance of `Host` for the state monad;
* `World.changes` — the files that differ from those of an earlier world.

A path is walked from left to right.  Every part of it but the last must lead to a directory, and so
must the last one when a slash follows it.
-/
import Std.Data.ExtTreeMap

namespace Stencil.Command

/-- Why reading or writing was refused. -/
inductive HostError where
  | notFound
  | notDirectory
  | isDirectory
  | nameTooLong
  | other (text : String)
  deriving DecidableEq, Repr

def HostError.message : HostError → String
  | notFound => "No such file or directory (os error 2)"
  | notDirectory => "Not a directory (os error 20)"
  | isDirectory => "Is a directory (os error 21)"
  | nameTooLong => "File name too long (os error 36)"
  | other text => text

/-- Where files and the input stream are. -/
class Host (m : Type → Type) where
  readFile (path : String) : m (Except HostError ByteArray)
  readInput : m (Except HostError ByteArray)
  writeFile (path : String) (content : ByteArray) : m (Except HostError Unit)

/-! ## Paths -/

namespace Path

def limit : Nat := 4096

/-- The number of bytes that a name may have. -/
def nameLimit : Nat := 255

/-- What stands between the slashes of a path. -/
def pieces (path : List Char) : List (List Char) :=
  path.foldr (fun c pieces => if c = '/' then [] :: pieces else pieces.modifyHead (c :: ·)) [[]]

/-- The parts of a path.  Repeated slashes are one. -/
def parts (path : String) : List String :=
  ((pieces path.toList).filter fun piece => !piece.isEmpty).map String.ofList

end Path

/-- The way down to a file or a directory: its name and those of the directories around it, the
nearest first. -/
abbrev Trail := List String

/-- Where a path leads. -/
inductive Place where
  /-- To a directory. -/
  | directory
  /-- To a name in a directory, which a slash may follow. -/
  | entry (within : Trail) (name : String) (slashed : Bool)
  deriving DecidableEq, Repr

/-! ## A world of files -/

/-- What a name in a directory stands for. -/
inductive Entry where
  | file (content : ByteArray)
  | directory

/-- Files and directories, the directory in which paths begin, and what the input stream holds. -/
structure World where
  entries : Std.ExtTreeMap Trail Entry
  home : Trail
  input : ByteArray

namespace World

/-- A world with some files in one directory, the last one of a name holding. -/
def ofFiles (files : List (String × ByteArray)) (input : ByteArray) : World where
  entries := files.foldl (fun held (name, content) => held.insert [name, "work"] (.file content))
    (Std.ExtTreeMap.empty.insert ["work"] .directory)
  home := ["work"]
  input := input

/-- What a name in a directory stands for, if there is anything of that name. -/
def find (w : World) (within : Trail) (name : String) : Except HostError (Option Entry) :=
  if Path.nameLimit < name.utf8ByteSize then .error .nameTooLong
  else .ok w.entries[name :: within]?

/-- The directory that a part of a path leads to.  A part `.` stays where it is, and a part `..`
goes up. -/
def enter (w : World) (within : Trail) (part : String) : Except HostError Trail :=
  if part = "." then .ok within
  else if part = ".." then .ok within.tail
  else
    match w.find within part with
    | .error e => .error e
    | .ok none => .error .notFound
    | .ok (some (.file _)) => .error .notDirectory
    | .ok (some .directory) => .ok (part :: within)

/-- Where the parts of a path lead from a directory. -/
def follow (w : World) (slashed : Bool) (within : Trail) : List String → Except HostError Place
  | [] => .ok .directory
  | [name] => .ok (if name = "." ∨ name = ".." then .directory else .entry within name slashed)
  | part :: next :: rest => do w.follow slashed (← w.enter within part) (next :: rest)

/-- Where a path leads.  A slash at the front starts from the top. -/
def locate (w : World) (path : String) : Except HostError Place :=
  if path = "" then .error .notFound
  else if Path.limit ≤ path.utf8ByteSize then .error .nameTooLong
  else
    w.follow (path.toList.getLast? = some '/')
      (if path.toList.head? = some '/' then [] else w.home) (Path.parts path)

/-- What a path holds. -/
def read (w : World) (path : String) : Except HostError ByteArray := do
  match ← w.locate path with
  | .directory => .error .isDirectory
  | .entry within name slashed =>
    match ← w.find within name with
    | none => .error .notFound
    | some .directory => .error .isDirectory
    | some (.file content) => if slashed then .error .notDirectory else .ok content

/-- The world after a file was written, in place of one of that name if there is one.  A name before
a slash is refused as a directory's, whether or not there is anything of that name. -/
def write (w : World) (path : String) (content : ByteArray) : Except HostError World := do
  match ← w.locate path with
  | .directory => .error .isDirectory
  | .entry _ _ true => .error .isDirectory
  | .entry within name false =>
    match ← w.find within name with
    | some .directory => .error .isDirectory
    | _ => .ok { w with entries := w.entries.insert (name :: within) (.file content) }

instance : Host (StateM World) where
  readFile path := return (← get).read path
  readInput := return .ok (← get).input
  writeFile path content := do
    match (← get).write path content with
    | .ok after =>
      set after
      return .ok ()
    | .error e => return .error e

def holds (w : World) (trail : Trail) : Option ByteArray :=
  match w.entries[trail]? with
  | some (.file content) => some content
  | _ => none

/-- The files in the home directory that are new or hold something else than before, by name. -/
def changes (before after : World) : List (String × ByteArray) :=
  after.entries.toList.filterMap fun (trail, entry) =>
    match trail, entry with
    | name :: within, .file content =>
      if within == after.home && before.holds trail != some content then some (name, content)
      else none
    | _, _ => none

end World

end Stencil.Command
