import Interlock.Json.Printer
import Interlock.Outcome

/-!
What clients ask of the daemon and what it answers. Both are JSON objects that name their kind in
the member `type`; either is also read from an array that starts with that name. Specification,
section 6: External Interfaces.
-/
namespace Interlock.Daemon

open Json (Decoder Value)

/-- What a client asks. -/
inductive Request where
  | ping
  | enroll (worker : WorkerId) (space : SpaceId)
  | release (worker : WorkerId) (space : SpaceId)
  | abandon (worker : WorkerId)
  | listHolders
  | listQueue (space : SpaceId)
  | shutdown
  deriving DecidableEq, Repr

/-- The holder of a space. -/
structure Holder where
  space : SpaceId
  worker : WorkerId
  deriving DecidableEq, Repr

/-- What the daemon answers. -/
inductive Response where
  | pong
  | outcome (o : Outcome)
  | outcomes (os : List Outcome)
  | holders (hs : List Holder)
  | queue (rs : List Record)
  | shuttingDown
  | error (message : String)
  deriving DecidableEq, Repr

/-- An object that names its kind first. -/
def kindObject (kind : String) (members : List (String × Value)) : Value :=
  .object (("type", .text kind) :: members)

namespace Request

def toJson : Request → Value
  | .ping => kindObject "Ping" []
  | .enroll w s =>
    kindObject "Enroll" [("worker_id", .text w.text), ("shared_space_id", .text s.text)]
  | .release w s =>
    kindObject "Release" [("worker_id", .text w.text), ("shared_space_id", .text s.text)]
  | .abandon w => kindObject "Abandon" [("worker_id", .text w.text)]
  | .listHolders => kindObject "ListHolders" []
  | .listQueue s => kindObject "ListQueue" [("shared_space_id", .text s.text)]
  | .shutdown => kindObject "Shutdown" []

/-- The worker and the space of a request that names both. -/
def workerAndSpace (p : Json.Payload) : Except Json.Mismatch (WorkerId × SpaceId) := do
  let ms ← p.fields [⟨"worker_id", false⟩, ⟨"shared_space_id", false⟩]
  let w ← ms.required "worker_id" WorkerId.decode
  let s ← ms.required "shared_space_id" SpaceId.decode
  return (w, s)

def decode : Decoder Request := fun v => do
  let (kind, payload) ← v.tagged "type"
  match kind with
  | "Ping" =>
    payload.nothing
    return .ping
  | "Enroll" =>
    let (w, s) ← workerAndSpace payload
    return .enroll w s
  | "Release" =>
    let (w, s) ← workerAndSpace payload
    return .release w s
  | "Abandon" =>
    let ms ← payload.fields [⟨"worker_id", false⟩]
    return .abandon (← ms.required "worker_id" WorkerId.decode)
  | "ListHolders" =>
    payload.nothing
    return .listHolders
  | "ListQueue" =>
    let ms ← payload.fields [⟨"shared_space_id", false⟩]
    return .listQueue (← ms.required "shared_space_id" SpaceId.decode)
  | "Shutdown" =>
    payload.nothing
    return .shutdown
  | other => throw (.unknownVariant other)

end Request

namespace Holder

def toJson (h : Holder) : Value :=
  .object [("shared_space_id", .text h.space.text), ("worker_id", .text h.worker.text)]

def decode : Decoder Holder := fun v => do
  let ms ← v.members [⟨"shared_space_id", false⟩, ⟨"worker_id", false⟩]
  let s ← ms.required "shared_space_id" SpaceId.decode
  let w ← ms.required "worker_id" WorkerId.decode
  return ⟨s, w⟩

end Holder

namespace Response

def toJson : Response → Value
  | .pong => kindObject "Pong" []
  | .outcome o => kindObject "Outcome" [("outcome", o.toJson)]
  | .outcomes os => kindObject "Outcomes" [("outcomes", .array (os.map Outcome.toJson))]
  | .holders hs => kindObject "Holders" [("holders", .array (hs.map Holder.toJson))]
  | .queue rs => kindObject "Queue" [("records", .array (rs.map Record.toJson))]
  | .shuttingDown => kindObject "ShuttingDown" []
  | .error message => kindObject "Error" [("message", .text message)]

/-- The only field of a response. -/
def only {α : Type} (p : Json.Payload) (name : String) (d : Decoder α) :
    Except Json.Mismatch α := do
  let ms ← p.fields [⟨name, false⟩]
  ms.required name d

def decode : Decoder Response := fun v => do
  let (kind, payload) ← v.tagged "type"
  match kind with
  | "Pong" =>
    payload.nothing
    return .pong
  | "Outcome" => return .outcome (← only payload "outcome" Outcome.decodeInner)
  | "Outcomes" => return .outcomes (← only payload "outcomes" (Decoder.list Outcome.decodeInner))
  | "Holders" => return .holders (← only payload "holders" (Decoder.list Holder.decode))
  | "Queue" => return .queue (← only payload "records" (Decoder.list Record.decode))
  | "ShuttingDown" =>
    payload.nothing
    return .shuttingDown
  | "Error" => return .error (← only payload "message" Decoder.text)
  | other => throw (.unknownVariant other)

end Response

end Interlock.Daemon
