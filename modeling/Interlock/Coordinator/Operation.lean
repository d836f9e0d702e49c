import Interlock.Coordinator.Operations

/-!
The operations of a coordinator as data: what may be asked of it, and what it answers.
Specification, section 6: External Interfaces.
-/
namespace Interlock.Coordinator

/-- Something that is asked of a coordinator. -/
inductive Operation where
  | enroll (w : WorkerId) (s : SpaceId)
  | evaluate (s : SpaceId)
  | release (w : WorkerId) (s : SpaceId)
  | abandon (w : WorkerId)
  | lockHolders
  | queue (s : SpaceId)
  deriving DecidableEq, Repr

namespace Operation

/-- What an operation answers. -/
@[reducible]
def Answer : Operation → Type
  | .enroll .. => Except OperationError Outcome
  | .evaluate _ => Outcome
  | .release .. | .abandon _ => Except OperationError (List Outcome)
  | .lockHolders => Except OperationError (List (SpaceId × WorkerId))
  | .queue _ => Except OperationError (List Record)

/-- The program of an operation. -/
def plan (c : Coordinator) : (o : Operation) → Plan o.Answer
  | .enroll w s => c.enroll w s
  | .evaluate s => c.evaluate s
  | .release w s => c.release w s
  | .abandon w => c.abandon w
  | .lockHolders => c.lockHolders
  | .queue s => c.queue s

end Operation

end Interlock.Coordinator
