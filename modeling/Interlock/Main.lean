import Interlock.Daemon.Command
import Std.Time.DateTime.Timestamp

/-!
The command itself. It works on an image of the few files that belong to a daemon and writes back
what changed. Clients speak through the standard streams: every frame that comes in is a connection
of its own, and its answer goes out as a frame.
-/
namespace Interlock.Main

open Daemon (Invocation Paths Services Session)
open Disk (Pathname)

/-- The variables the command looks at. -/
def variableNames : List String :=
  [Daemon.configVariable, Daemon.filterVariable, "XDG_RUNTIME_DIR", "XDG_STATE_HOME", "HOME"]

/-- The files in an image with their contents. -/
def contents (d : Disk) : List (Pathname × Bytes) :=
  d.files.filterMap fun p => ((d.read p).toOption).map fun bytes => (p, bytes)

/-- The files that belong to a daemon. -/
def filesOf (c : Daemon.Config) (paths : Paths) : List Pathname :=
  [paths.log, paths.lock] ++
    match c.store with
    | .memory => []
    | .file p => [p, p.withExtension "lock"]

/-- Read a file into an image; one that cannot be read is left out. -/
def readInto (d : Disk) (p : Pathname) : IO Disk := do
  try
    let bytes ← IO.FS.readBinFile p.text
    let d := ((d.makeDirectories (p.parent?.getD ⟨""⟩)).toOption).getD d
    return ((d.modify p fun _ => bytes.data.toList).toOption).getD d
  catch _ => return d

/-- Write what changed between two images. -/
def writeBack (before after : Disk) : IO Unit := do
  for (p, bytes) in contents after do
    if (before.read p).toOption != some bytes then
      match p.parent? with
      | some parent => IO.FS.createDirAll parent.text
      | none => pure ()
      IO.FS.writeBinFile p.text bytes.toByteArray
  for (p, _) in contents before do
    unless after.pathExists p do IO.FS.removeFile p.text

/-- The time of the system clock. -/
def now : IO Time.Instant := do
  let nanos := (← Std.Time.Timestamp.now).toNanosecondsSinceUnixEpoch.val
  return ⟨nanos / 1000000000, (nanos % 1000000000).toNat⟩

/-- The image a command starts from. -/
def image (i : Invocation) : IO Disk := do
  let directory := Pathname.mk (← IO.currentDir).toString
  let d : Disk := ((({} : Disk).makeDirectories directory).toOption).getD {}
  let d := { d with workingDirectory := directory.parts }
  match Daemon.Config.locate i.arguments.head? (i.environment Daemon.configVariable) with
  | .error _ => return d
  | .ok path =>
    let d ← readInto d path
    let found := do
      let c ← Daemon.Config.load d path
      return filesOf c (← Paths.resolve c i.environment)
    match found with
    | .error _ => return d
    | .ok files => files.foldlM readInto d

/-- Read as many bytes as asked for, or all that come. -/
partial def readBytes (input : IO.FS.Stream) (size : Nat) : IO Bytes := do
  if size = 0 then return []
  let bytes ← input.read size.toUSize
  if bytes.isEmpty then return []
  return bytes.data.toList ++ (← readBytes input (size - bytes.size))

/-- Serve frame after frame until a client asks to stop or nobody is left. -/
partial def serve (n : Session) (s : Services) : IO Unit := do
  let input ← IO.getStdin
  let output ← IO.getStdout
  let head ← readBytes input 4
  let body ← readBytes input (min (Daemon.Frame.lengthOf head) Daemon.bodyLimit)
  let (served, n, after) := n.connect .ended (head ++ body) { s with clock := ← now }
  writeBack s.disk after.disk
  output.write served.sent.toByteArray
  output.flush
  if n.running.stopRequested then writeBack after.disk (n.stop .requested after).disk
  else if head.length < 4 then writeBack after.disk (n.stop .terminated after).disk
  else serve n after

/-- Run the command. -/
def run (arguments : List String) : IO UInt32 := do
  let values ← variableNames.mapM fun name => return (name, ← IO.getEnv name)
  let i : Invocation := ⟨arguments, fun name => (values.lookup name).join, 1⟩
  let disk ← image i
  let (r, s) := i.launch { disk := disk, clock := ← now }
  writeBack disk s.disk
  match r with
  | .error f =>
    IO.eprintln f.report
    return 1
  | .ok n =>
    IO.println Daemon.readyLine
    serve n s
    return 0

end Interlock.Main

def main (arguments : List String) : IO UInt32 := Interlock.Main.run arguments
