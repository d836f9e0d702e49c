import Interlock.Bytes
import Interlock.Disk.Pathname

/-!
A disk: files, directories and sockets under a root, and the calls that programs make on them. Every
call takes the disk and gives back what it found, or why it was refused, and the disk it leaves; a
refused call leaves the disk as it was. A file may be locked by one owner at a time, and the lock
goes with the file when it is removed or replaced.
-/
namespace Interlock

namespace Disk

/-- Why a call is refused. -/
inductive Refusal where
  | notFound | notADirectory | isADirectory | alreadyExists | noDevice | invalidPath | nameTooLong
  | addressInUse | addressTooLong | notUtf8
  deriving DecidableEq, Repr

/-- The wording of a refusal. -/
def Refusal.message : Refusal → String
  | .notFound => "No such file or directory (os error 2)"
  | .notADirectory => "Not a directory (os error 20)"
  | .isADirectory => "Is a directory (os error 21)"
  | .alreadyExists => "File exists (os error 17)"
  | .noDevice => "No such device or address (os error 6)"
  | .invalidPath => "file name contained an unexpected NUL byte"
  | .nameTooLong => "File name too long (os error 36)"
  | .addressInUse => "Address already in use (os error 98)"
  | .addressTooLong => "path must be shorter than SUN_LEN"
  | .notUtf8 => "stream did not contain valid UTF-8"

/-- What stands at a place. -/
inductive Node where
  | file (content : Bytes) (locked : Bool := false)
  | directory
  | socket
  deriving DecidableEq

/-- The content of what was opened. -/
def Node.content : Node → Except Refusal Bytes
  | .file content _ => .ok content
  | _ => .error .isADirectory

/-- A place: the names on the way from the root. -/
abbrev Place := List String

end Disk

/-- A disk with the directory that relative paths start from. The root is always there. -/
structure Disk where
  nodes : List (Disk.Place × Disk.Node) := []
  workingDirectory : Disk.Place := []

namespace Disk

/-- What stands at a place. -/
def node? (d : Disk) (place : Place) : Option Node :=
  if place.isEmpty then some .directory else d.nodes.lookup place

/-- The disk with something else at a place. -/
def set (d : Disk) (place : Place) (n : Node) : Disk :=
  { d with nodes := (place, n) :: d.nodes.filter (·.1 != place) }

/-- The disk with nothing at a place. -/
def unset (d : Disk) (place : Place) : Disk := { d with nodes := d.nodes.filter (·.1 != place) }

/-- Follow names from a directory. All but the last have to lead to directories; two dots lead one
step back. -/
def follow (d : Disk) (start : Place) : List String → Except Refusal Place
  | [] => .ok start
  | name :: rest =>
    match d.node? start with
    | none => .error .notFound
    | some .directory =>
      if 255 < name.utf8ByteSize then .error .nameTooLong
      else d.follow (if name = ".." then start.dropLast else start ++ [name]) rest
    | some _ => .error .notADirectory

/-- The longest path of a call, in bytes. -/
def pathLimit : Nat := 4095

/-- The place a path leads to. Something need not stand there, but the way has to exist. -/
def resolve (d : Disk) (p : Pathname) : Except Refusal Place :=
  if p.text.isEmpty then .error .notFound
  else if p.text.toList.contains '\x00' then .error .invalidPath
  else if pathLimit < p.text.utf8ByteSize then .error .nameTooLong
  else d.follow (if p.isAbsolute then [] else d.workingDirectory) p.parts

/-- What stands where a path leads. A path written as that of a directory leads to no file. -/
def find (d : Disk) (p : Pathname) : Except Refusal (Option Node) := do
  match d.node? (← d.resolve p) with
  | some .directory => return some .directory
  | some n => if p.isDirectoryOnly then throw .notADirectory else return some n
  | none => return none

/-- What a path leads to. -/
def lookup? (d : Disk) (p : Pathname) : Option Node :=
  match d.find p with
  | .ok n => n
  | .error _ => none

/-- Whether a path leads to something. -/
def pathExists (d : Disk) (p : Pathname) : Bool := (d.lookup? p).isSome

/-- Open something to read it: files and directories can be opened, sockets cannot. -/
def open? (d : Disk) (p : Pathname) : Except Refusal Node := do
  match ← d.find p with
  | none => throw .notFound
  | some .socket => throw .noDevice
  | some n => return n

/-- The content of the file a path leads to. -/
def read (d : Disk) (p : Pathname) : Except Refusal Bytes := do (← d.open? p).content

/-- The text of the file a path leads to. -/
def readText (d : Disk) (p : Pathname) : Except Refusal String := do
  match (← d.read p).toText? with
  | some text => return text
  | none => throw .notUtf8

/-- Put something at a place where nothing stands, in a directory that is there. -/
def place (d : Disk) (place : Place) (n : Node) : Except Refusal Disk :=
  match d.node? place.dropLast with
  | some .directory => .ok (d.set place n)
  | some _ => .error .notADirectory
  | none => .error .notFound

/-- Open a file to write it, and make it if it is not there. -/
def openToWrite (d : Disk) (p : Pathname) : Except Refusal Disk := do
  match ← d.find p with
  | none =>
    if p.isDirectoryOnly then throw .isADirectory
    else d.place (← d.resolve p) (.file [])
  | some (.file ..) => return d
  | some .directory => throw .isADirectory
  | some .socket => throw .noDevice

/-- Change the content of the file a path leads to, and make it if it is not there. -/
def modify (d : Disk) (p : Pathname) (f : Bytes → Bytes) : Except Refusal Disk := do
  let d ← d.openToWrite p
  let place ← d.resolve p
  match d.node? place with
  | some (.file content locked) => return d.set place (.file (f content) locked)
  | _ => throw .notFound

/-- Make a file empty, and make it if it is not there. -/
def create (d : Disk) (p : Pathname) : Except Refusal Disk := d.modify p fun _ => []

/-- Write behind the end of a file. -/
def append (d : Disk) (p : Pathname) (bytes : Bytes) : Except Refusal Disk :=
  d.modify p (· ++ bytes)

/-- Put a file in the place of another. -/
def rename (d : Disk) (p q : Pathname) : Except Refusal Disk := do
  let source ← d.resolve p
  let target ← d.resolve q
  match ← d.find p, ← d.find q with
  | none, _ => throw .notFound
  | some _, some .directory => throw .isADirectory
  | some n, _ =>
    if q.isDirectoryOnly then throw .notADirectory
    else return (d.unset source).set target n

/-- Remove a file or a socket. -/
def remove (d : Disk) (p : Pathname) : Except Refusal Disk := do
  match ← d.find p with
  | none => throw .notFound
  | some .directory => throw .isADirectory
  | some _ => return d.unset (← d.resolve p)

/-- Make a directory. -/
def makeDirectory (d : Disk) (p : Pathname) : Except Refusal Disk := do
  let place ← d.resolve p
  match d.node? place with
  | some _ => throw .alreadyExists
  | none => d.place place .directory

/-- Whether a path leads to a directory. -/
def isDirectory (d : Disk) (p : Pathname) : Bool := d.lookup? p == some .directory

/-- Make a directory and those on the way to it, at most a number of them. -/
def makeDirectoriesUpTo : Nat → Disk → Pathname → Except Refusal Disk
  | 0, d, _ => .ok d
  | fuel + 1, d, p =>
    if p.text.isEmpty then .ok d
    else
      match d.makeDirectory p with
      | .ok d => .ok d
      | .error .notFound =>
        match p.parent? with
        | none => .error .notFound
        | some parent =>
          match makeDirectoriesUpTo fuel d parent with
          | .error e => .error e
          | .ok d =>
            match d.makeDirectory p with
            | .ok d => .ok d
            | .error e => if d.isDirectory p then .ok d else .error e
      | .error e => if d.isDirectory p then .ok d else .error e

/-- Make a directory and those on the way to it. -/
def makeDirectories (d : Disk) (p : Pathname) : Except Refusal Disk :=
  makeDirectoriesUpTo (p.parts.length + 1) d p

/-- The names in a directory, in order. -/
def list (d : Disk) (p : Pathname) : List String :=
  match d.resolve p with
  | .error _ => []
  | .ok place =>
    let names := d.nodes.filterMap fun (q, _) =>
      if q.dropLast = place then q.getLast? else none
    names.mergeSort fun a b => (compare a b).isLE

/-- The paths of everything that is no directory, in order. -/
def files (d : Disk) : List Pathname :=
  let texts := d.nodes.filterMap fun (place, n) =>
    match n with
    | .directory => none
    | _ => some ("/" ++ "/".intercalate place)
  (texts.mergeSort fun a b => (compare a b).isLE).map Pathname.mk

/-- Lock a file, if nobody else has it locked. -/
def tryLock (d : Disk) (p : Pathname) : Option Disk :=
  match d.resolve p with
  | .error _ => none
  | .ok place =>
    match d.node? place with
    | some (.file content false) => some (d.set place (.file content true))
    | _ => none

/-- Give up the lock of a file. -/
def unlock (d : Disk) (p : Pathname) : Disk :=
  match d.resolve p with
  | .error _ => d
  | .ok place =>
    match d.node? place with
    | some (.file content _) => d.set place (.file content false)
    | _ => d

/-- The longest path a socket may have, in bytes. -/
def socketPathLimit : Nat := 107

/-- Bind a socket at a path where nothing stands. -/
def bind (d : Disk) (p : Pathname) : Except Refusal Disk := do
  if socketPathLimit < p.text.utf8ByteSize then throw .addressTooLong
  let place ← d.resolve p
  match d.node? place with
  | some _ => throw .addressInUse
  | none => if p.isDirectoryOnly then throw .notFound else d.place place .socket

end Disk

end Interlock
