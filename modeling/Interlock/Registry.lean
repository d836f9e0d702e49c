import Interlock.Robot
import Interlock.Trace

/-!
Registries that show properties of workers to others, and how publishing one fails and is reported.
Specification, section 6: External Interfaces.
-/
namespace Interlock

/-- Why a property could not be published. -/
inductive RegistryError where
  | status (worker : WorkerId) (property : String) (status : Nat)
  | request (reason : String)
  deriving DecidableEq, Repr

/-- The wording of a registry error. -/
def RegistryError.message : RegistryError → String
  | .status w property n =>
    "registry rejected " ++ property ++ " for " ++ w.text ++ " with status " ++ toString n
  | .request reason => "registry request failed: " ++ reason

/-- A property to publish for a worker. -/
structure Publication where
  worker : WorkerId
  property : WorkerProperty
  deriving DecidableEq, Repr

namespace Publication

/-- What publishing gives back. -/
abbrev Answer : Type := Except RegistryError Unit

/-- What is said before a property is published. -/
def opening (p : Publication) : List Trace.Note :=
  [.enter ⟨"registry.publish",
    [("worker", .text p.worker.text), ("property", .text p.property.name)]⟩]

/-- What is said when publishing ends without an answer. -/
def dropped : List Trace.Note := [.leave]

/-- What is said after an answer. -/
def closing (p : Publication) (a : Answer) : List Trace.Note :=
  match a with
  | .ok _ => [.event ⟨.debug, "published", [("value", .text p.property.shown)]⟩, .leave]
  | .error e => [.event ⟨.warn, "publish failed", [("error", .text e.message)]⟩, .leave]

end Publication

end Interlock
