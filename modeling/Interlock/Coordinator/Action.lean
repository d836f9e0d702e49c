import Interlock.Fleet.Command
import Interlock.Program
import Interlock.Registry
import Interlock.Store.Report

/-!
The actions of a coordinator: calls of the record store, commands to the vendor, publications and
fresh priorities. An action may come with a time limit; when it passes the coordinator goes on
without an answer, and whether the action took effect is not said. Specification, section 5:
Concurrency & Resource Model.
-/
namespace Interlock.Coordinator

/-- The answer to an action with a time limit. -/
inductive Timed (α : Type) where
  | inTime (a : α)
  | late
  deriving DecidableEq, Repr

/-- A fresh priority and the time it was handed out. -/
structure Stamp where
  priority : Priority
  time : Time.Instant
  deriving DecidableEq, Repr, Inhabited

/-- A single step of a coordinator. -/
inductive Action where
  | store (limit : Option Time.Duration) (c : Store.Call)
  | vendor (limit : Option Time.Duration) (c : Fleet.Command)
  | publish (limit : Option Time.Duration) (p : Publication)
  /-- A fresh priority from the minter with the given number. -/
  | stamp (minter : Nat)
  deriving DecidableEq, Repr

namespace Action

/-- What an action gives when it ends in time. -/
@[reducible]
def Value : Action → Type
  | .store _ c => c.Answer
  | .vendor _ c => c.Answer
  | .publish .. => Publication.Answer
  | .stamp _ => Stamp

/-- What an action answers. A fresh priority never keeps anyone waiting. -/
@[reducible]
def Answer : Action → Type
  | .store _ c => Timed c.Answer
  | .vendor _ c => Timed c.Answer
  | .publish .. => Timed Publication.Answer
  | .stamp _ => Stamp

/-- The time limit of an action. -/
def limit? : Action → Option Time.Duration
  | .store l _ | .vendor l _ | .publish l _ => l
  | .stamp _ => none

/-- The answer made of a value, or of none when the limit has passed. -/
def answer : (a : Action) → Option a.Value → a.Answer
  | .store .., some v => .inTime v
  | .vendor .., some v => .inTime v
  | .publish .., some v => .inTime v
  | .store .., none => .late
  | .vendor .., none => .late
  | .publish .., none => .late
  | .stamp _, some v => v
  | .stamp _, none => (default : Stamp)

end Action

/-- Programs of coordinators. -/
abbrev actions : Interface := ⟨Action, Action.Answer⟩

/-- A program of a coordinator. -/
abbrev Plan (α : Type) : Type := Program actions α

/-- How long a store call may take; without a limit it takes as long as it likes. -/
structure Limits where
  store : Option Time.Duration := none
  command : Option Time.Duration := none
  deriving DecidableEq, Repr

/-- The limit as an error shows it. -/
def shownLimit (limit : Option Time.Duration) : Time.Duration := limit.getD .zero

/-- Call the store and report it. A call that is late counts as failed. -/
def callStore (l : Limits) (c : Store.Call) : Plan c.Answer := do
  Program.sayAll c.opening
  match ← Program.ask (I := actions) (.store l.store c) with
  | .inTime answer =>
    Program.sayAll (c.closing answer)
    return answer
  | .late =>
    Program.sayAll c.dropped
    return .error (.transaction (.timeout (shownLimit l.store)))

/-- Command the vendor and report it. A command that is late counts as failed. -/
def command (l : Limits) (c : Fleet.Command) : Plan c.Answer := do
  Program.sayAll c.opening
  match ← Program.ask (I := actions) (.vendor l.command c) with
  | .inTime answer =>
    Program.sayAll (c.closing answer)
    return answer
  | .late =>
    Program.sayAll c.dropped
    return .error (.timeout c.kind (shownLimit l.command))

/-- Publish a property as well as possible: failures are reported and forgotten. -/
def publish (l : Limits) (p : Publication) : Plan Unit := do
  Program.sayAll p.opening
  let worker : Trace.Fields := [("worker", .text p.worker.text)]
  match ← Program.ask (I := actions) (.publish l.command p) with
  | .inTime answer =>
    Program.sayAll (p.closing answer)
    match answer with
    | .ok _ => return ()
    | .error e =>
      Program.report .warn "registry publish failed" (worker ++ [("error", .text e.message)])
  | .late =>
    Program.sayAll Publication.dropped
    Program.report .warn "registry publish timed out" worker

end Interlock.Coordinator
