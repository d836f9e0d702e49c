import Interlock.Daemon.Journal
import Interlock.Daemon.Running

/-!
The command that runs a daemon: it finds, loads and checks the configuration, opens its log, starts
the daemon and serves until it is asked to stop, by a signal or by a client. What happens on the way
is written to the log; a failure ends the command. Specification, section 10.4: Configuration.
-/
namespace Interlock.Daemon

open Disk (Pathname)

/-- How the command is called, and the number of its process. -/
structure Invocation where
  arguments : List String
  environment : String → Option String
  number : Nat

/-- The variable that says which events are logged. -/
def filterVariable : String := "RUST_LOG"

/-- What the command prints when it is ready. -/
def readyLine : String := "READY"

/-- Why the command fails. -/
inductive Failure where
  | config (e : ConfigError)
  | start (e : StartError)
  deriving DecidableEq, Repr

/-- The name of a failure. -/
def Failure.name : Failure → String
  | .config e => e.name
  | .start e => e.name

/-- What the command prints when it fails. -/
def Failure.report (f : Failure) : String := "Error: " ++ f.name

/-- A command that serves. -/
structure Session where
  journal : Journal
  running : Running

/-- Why a session ends. -/
inductive StopCause where
  | terminated | interrupted | requested
  deriving DecidableEq, Repr

/-- What is logged about the cause. -/
def StopCause.message : StopCause → String
  | .terminated => "Received SIGTERM, shutting down..."
  | .interrupted => "Received SIGINT, shutting down..."
  | .requested => "Shutdown requested via IPC, shutting down..."

/-- A command that may fail and leaves its services as far as it came. -/
abbrev Run := ExceptT Failure (StateM Services)

namespace Run

/-- A result that does not depend on the services. -/
def ofConfig {α : Type} : Except ConfigError α → Run α
  | .ok a => pure a
  | .error e => throw (.config e)

/-- A call on the disk. -/
def disk (call : Disk → Except Disk.Refusal Disk) : Run Unit := do
  let s ← get
  match call s.disk with
  | .ok d => set { s with disk := d }
  | .error e => throw (.start (.io e))

/-- Log an event. -/
def report (j : Journal) (level : Trace.Level) (message : String) : Run Unit :=
  modify fun s => { s with disk := j.report s.clock level message s.disk }

/-- Make the directory of the log and write the line that marks a start. -/
def openLog (log : Pathname) (number : Nat) : Run Unit := do
  match log.parent? with
  | some parent => disk (·.makeDirectories parent)
  | none => pure ()
  disk (appendLine log (.marker number))

/-- The text about a daemon that did not start. -/
def startFailure (e : StartError) : String := "Failed to start daemon: " ++ e.message

/-- Write that the daemon did not start, as a plain line if the log can still be opened, and as an
event. -/
def reportFailure (j : Journal) (e : StartError) : Run Unit := do
  modify fun s =>
    { s with
      disk :=
        (appendLine j.path (.plain ("ERROR " ++ startFailure e)) s.disk).toOption.getD s.disk }
  report j .error (startFailure e)

/-- Start the daemon, and say so if that fails. -/
def startDaemon (c : Config) (paths : Paths) (number : Nat) (j : Journal) : Run Running := do
  let (r, s) := Running.start c paths number (← get)
  set s
  match r with
  | .ok running => return running
  | .error e =>
    reportFailure j e
    throw (.start e)

/-- Everything from the call of the command until it is ready. -/
def launch (i : Invocation) : Run Session := do
  let path ← ofConfig (Config.locate i.arguments.head? (i.environment configVariable))
  let config ← ofConfig (Config.load (← get).disk path)
  let paths ← ofConfig (Paths.resolve config i.environment)
  openLog paths.log i.number
  let journal : Journal := ⟨paths.log, Journal.filterOf (i.environment filterVariable)⟩
  report journal .info ("Starting " ++ commandName ++ " with config " ++ path.text)
  let running ← startDaemon config paths i.number journal
  report journal .info ("Daemon ready, listening on " ++ paths.socket.text)
  return ⟨journal, running⟩

end Run

/-- Run the command until it is ready or has failed. -/
def Invocation.launch (i : Invocation) (s : Services) : Except Failure Session × Services :=
  (ExceptT.run (Run.launch i)).run s

namespace Session

/-- Log an event. -/
def report (j : Journal) (level : Trace.Level) (message : String) (s : Services) : Services :=
  { s with disk := j.report s.clock level message s.disk }

/-- Serve a connection and let the loops go on. A connection that fails is logged and dropped. -/
def connect (n : Session) (ending : Frame.Ending) (stream : Bytes) (s : Services) :
    Served × Session × Services :=
  let (served, r, s) := n.running.serve ending stream s
  let s :=
    match served.result with
    | .ok _ => s
    | .error e => report n.journal .error ("Error handling connection: " ++ e.message) s
  let (r, s) := r.settle s
  (served, { n with running := r }, s)

/-- End the session. -/
def stop (n : Session) (cause : StopCause) (s : Services) : Services :=
  let s := report n.journal .info cause.message s
  let s := n.running.stop s
  report n.journal .info "Daemon stopped" s

end Session

end Interlock.Daemon
