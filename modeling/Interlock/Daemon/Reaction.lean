import Interlock.Coordinator.Signal
import Interlock.Daemon.Message

/-!
What the daemon does for a request: it runs one operation of the coordinator and answers what became
of it. A worker that has just been enrolled does not wait for the next tick: its space is evaluated
at once. A failed operation is an answer too. Specification, section 6: External Interfaces.
-/
namespace Interlock.Daemon

open Coordinator (OperationError Plan)

/-- What comes of a request: the answer, the space to evaluate at once, and whether the daemon is to
stop. -/
structure Reaction where
  response : Response
  evaluate : Option SpaceId := none
  stop : Bool := false
  deriving DecidableEq, Repr

namespace Reaction

/-- The answer made of a value, or of an error. -/
def ofResult {α : Type} (f : α → Response) : Except OperationError α → Reaction
  | .ok a => ⟨f a, none, false⟩
  | .error e => ⟨.error e.message, none, false⟩

/-- The answer made of the outcomes of an operation, which are reported. -/
def ofOutcomes (r : Except OperationError (List Outcome)) : Plan Reaction := do
  match r with
  | .ok os => Coordinator.reportOutcomes os
  | .error _ => pure ()
  return ofResult .outcomes r

end Reaction

/-- Do what a request asks for. -/
def Request.plan (c : Coordinator) : Request → Plan Reaction
  | .ping => return ⟨.pong, none, false⟩
  | .enroll w s => do
    match ← c.enroll w s with
    | .ok o =>
      Coordinator.reportOutcomes [o]
      return ⟨.outcome o, some s, false⟩
    | .error e => return ⟨.error e.message, none, false⟩
  | .release w s => do Reaction.ofOutcomes (← c.release w s)
  | .abandon w => do Reaction.ofOutcomes (← c.abandon w)
  | .listHolders => do
    return Reaction.ofResult (fun hs => .holders (hs.map fun (s, w) => ⟨s, w⟩)) (← c.lockHolders)
  | .listQueue s => do return Reaction.ofResult .queue (← c.queue s)
  | .shutdown => return ⟨.shuttingDown, none, true⟩

end Interlock.Daemon
