import Interlock.Daemon.Frame
import Interlock.Daemon.Reaction
import Interlock.Daemon.Services
import Interlock.Schedule.Loops

/-!
A daemon from its start to its end. It starts by taking the lock that keeps a second one away; only
then does it build its services and loops, and last of all it binds its socket. A start that fails
removes what it made, unless the lock was refused, because then everything belongs to another. Once
it runs it serves one connection after the other, one request each, and between two of them its
loops go on. When it stops, its loops end first, and then socket and lock file are removed.
-/
namespace Interlock.Daemon

open Disk (Pathname Refusal)
open Schedule (Crew)

/-- Why a daemon does not start. -/
inductive StartError where
  | lockFailed
  | bindFailed (path : Pathname) (e : Refusal)
  | store (e : Store.StoreError)
  | io (e : Refusal)
  deriving DecidableEq, Repr

/-- The wording of a start error. -/
def StartError.message : StartError → String
  | .lockFailed => "Failed to acquire lock: daemon already running?"
  | .bindFailed path e => "Failed to bind socket at " ++ path.text ++ ": " ++ e.message
  | .store e => "Store error: " ++ e.message
  | .io e => "IO error: " ++ e.message

/-- The name of the kind of a start error. -/
def StartError.name : StartError → String
  | .lockFailed => "LockFailed"
  | .bindFailed .. => "BindFailed"
  | .store _ => "Store"
  | .io _ => "Io"

/-- A piece of a start: it may fail, and leaves the disk as far as it came. -/
abbrev Startup := ExceptT StartError (StateM Disk)

namespace Startup

/-- A call on the disk, with the error a refusal counts as. -/
def disk (call : Disk → Except Refusal Disk) (error : Refusal → StartError := .io) :
    Startup Unit := do
  match call (← get) with
  | .ok d => set d
  | .error e => throw (error e)

/-- Make the directory a path stands in. -/
def makeParent (p : Pathname) : Startup Unit :=
  match p.parent? with
  | some parent => disk (·.makeDirectories parent)
  | none => pure ()

/-- Take the lock. The file is made or emptied before anybody knows who holds the lock. -/
def takeLock (lock : Pathname) : Startup Unit := do
  disk (·.create lock)
  match (← get).tryLock lock with
  | some d => set d
  | none => throw .lockFailed

/-- A process number as the lock file holds it. -/
def numberLine (number : Nat) : Bytes := .ofText (toString number ++ "\n")

/-- Open the store. -/
def prepareStore : StoreConfig → Startup Unit
  | .memory => pure ()
  | .file path => do
    match (Store.FileStore.mk path).openOn (← get) with
    | .ok d => set d
    | .error e => throw (.store e)

/-- Bind the socket, in the place of one that was left behind. -/
def bind (socket : Pathname) : Startup Unit := do
  if (← get).pathExists socket then disk (·.remove socket)
  disk (·.bind socket) (.bindFailed socket)

/-- Everything a start does on the disk, in order. -/
def all (c : Config) (paths : Paths) (number : Nat) : Startup Unit := do
  makeParent paths.socket
  takeLock paths.lock
  disk (·.append paths.lock (numberLine number))
  prepareStore c.store
  bind paths.socket

end Startup

/-- The disk without what stands at a path, if that can be removed. -/
def removeLeftover (p : Pathname) (d : Disk) : Disk :=
  match d.remove p with
  | .ok d => d
  | .error _ => d

/-- The disk without the files of a daemon. -/
def removeFiles (paths : Paths) (d : Disk) : Disk :=
  removeLeftover paths.lock (removeLeftover paths.socket d)

/-- Start on a disk: the error, if it fails, and the disk that is left. Who is refused the lock
leaves the files to their owner. -/
def startOn (c : Config) (paths : Paths) (number : Nat) (d : Disk) :
    Except StartError Unit × Disk :=
  match (ExceptT.run (Startup.all c paths number)).run d with
  | (.ok (), d) => (.ok (), d)
  | (.error .lockFailed, d) => (.error .lockFailed, d)
  | (.error e, d) => (.error e, removeFiles paths d)

/-- A daemon that runs. The time is in nanoseconds. -/
structure Running where
  paths : Paths
  crew : Crew Services.site
  now : Nat := 0
  stopRequested : Bool := false

/-- Why a connection failed. -/
inductive ConnectionError where
  | timeout
  | wire (e : WireError)
  deriving DecidableEq, Repr

/-- The wording of a connection error. -/
def ConnectionError.message : ConnectionError → String
  | .timeout => "Request timeout"
  | .wire e => "Protocol error: " ++ e.message

/-- What comes of a connection: whether it failed, what the client was sent, and whether some of
what the client sent was never read. -/
structure Served where
  result : Except ConnectionError Unit
  sent : Bytes
  unread : Bool

/-- What the client reads. A connection that is closed before all was read is reset. -/
def Served.response (s : Served) : Except WireError Response :=
  match (Frame.receive .ended s.sent).1 with
  | .ok body => Response.ofBody body
  | .error .closed => .error (if s.unread then .reset else .closed)
  | .error e => .error e

/-- What a request that could not be read means for its connection: a client that says nothing at
all is no failure. -/
def ofUnread : WireError → Except ConnectionError Unit
  | .closed => .ok ()
  | .timeout => .error .timeout
  | e => .error (.wire e)

namespace Running

/-- Start a daemon: the error, if it fails, and the services that are left. -/
def start (c : Config) (paths : Paths) (number : Nat) (s : Services) :
    Except StartError Running × Services :=
  match startOn c paths number s.disk with
  | (.error e, d) => (.error e, { s with disk := d })
  | (.ok (), d) =>
    let s := c.build { s with disk := d }
    let crew : Crew Services.site := .start c.coordinatorOf c.workers 0
    let (crew, s) := crew.settle 0 s
    (.ok { paths := paths, crew := crew }, s)

/-- Answer a request. -/
def answer (r : Running) (request : Request) (s : Services) : Response × Running × Services :=
  let (reaction, now, s) := Services.site.runAlone [] (request.plan r.crew.coordinator) r.now s
  let crew :=
    match reaction.evaluate with
    | some space => if r.crew.accepts then r.crew.send [.evaluate space] else r.crew
    | none => r.crew
  (reaction.response,
    { r with crew := crew, now := now, stopRequested := r.stopRequested || reaction.stop }, s)

/-- Serve a connection on which bytes arrive. An answer that is too large is not sent. -/
def serve (r : Running) (ending : Frame.Ending) (stream : Bytes) (s : Services) :
    Served × Running × Services :=
  let (body, rest) := Frame.receive ending stream
  match body.bind Request.ofBody with
  | .error e => (⟨ofUnread e, [], !rest.isEmpty⟩, r, s)
  | .ok request =>
    let (response, r, s) := r.answer request s
    match Frame.ofBody response.body with
    | .error e => (⟨.error (.wire e), [], !rest.isEmpty⟩, r, s)
    | .ok frame => (⟨.ok (), frame, !rest.isEmpty⟩, r, s)

/-- Let the loops do all that needs no waiting. -/
def settle (r : Running) (s : Services) : Running × Services :=
  let (crew, s) := r.crew.settle r.now s
  ({ r with crew := crew }, s)

/-- Stop: let the loops end, then remove the files. -/
def stop (r : Running) (s : Services) : Services :=
  let (_, _, s) := r.crew.close.runUntil Schedule.manySteps r.now r.now s
  { s with disk := (removeFiles r.paths s.disk).unlock r.paths.lock }

end Running

end Interlock.Daemon
