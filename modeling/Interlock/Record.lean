import Interlock.SortKey
import Interlock.Json.Decode
import Interlock.Text.Quoted
import Interlock.Time.Rfc3339

/-!
Queue records: a worker that waits for a space, or that holds it. A record is checked before it is
stored: both identifiers have to be there, and the key of a waiter has to name its own priority and
worker. Specification, section 3: Data Model.
-/
namespace Interlock

/-- The fields of a record that may be missing. -/
inductive RecordField where
  | sharedSpaceId | workerId | priority | sortKey | enqueuedAt
  deriving DecidableEq, Repr

/-- The name of a field in the written form. -/
def RecordField.name : RecordField → String
  | .sharedSpaceId => "sharedSpaceId"
  | .workerId => "workerId"
  | .priority => "priority"
  | .sortKey => "sortKey"
  | .enqueuedAt => "enqueuedAt"

/-- Why a record is no good. -/
inductive RecordError where
  | missingField (field : RecordField)
  | malformedSortKey (text : String)
  | sortKeyMismatch (sortKey : String) (priority : Priority) (worker : WorkerId)
  deriving DecidableEq, Repr

/-- The wording of a record error. -/
def RecordError.message : RecordError → String
  | .missingField f => "record is missing required field `" ++ f.name ++ "`"
  | .malformedSortKey s => "malformed sort key: " ++ Text.quoted s
  | .sortKeyMismatch k p w =>
    "waiting record sort key " ++ k ++ " does not match priority " ++ p.display ++ " and worker " ++
      w.text

/-- A waiting or holder entry in the queue of a space. When it was enrolled plays no part in the
order. -/
structure Record where
  space : SpaceId
  sortKey : SortKey
  worker : WorkerId
  priority : Priority
  enqueuedAt : Time.Instant
  deriving DecidableEq, Repr, Inhabited

namespace Record

/-- The record of a worker that waits, under the key its priority gives it. -/
def waiting (s : SpaceId) (w : WorkerId) (p : Priority) (t : Time.Instant) : Record :=
  ⟨s, .waiting p w, w, p, t⟩

/-- The holder record that takes the place of a waiting record. -/
def toHolder (r : Record) : Record := { r with sortKey := .holder }

/-- The key the record is stored under. -/
def key (r : Record) : RecordKey := ⟨r.space, r.sortKey⟩

def isHolder (r : Record) : Bool := r.sortKey.isHolder

/-- Whether the key of a waiter names the priority and the worker of the record itself. -/
def keyMatches (r : Record) : Bool :=
  match r.sortKey with
  | .holder => true
  | .waiting p w => p == r.priority && w == r.worker

/-- The check every record passes before it is stored. -/
def validate (r : Record) : Except RecordError Unit :=
  if r.space.isBlank then .error (.missingField .sharedSpaceId)
  else if r.worker.isBlank then .error (.missingField .workerId)
  else if r.keyMatches then .ok ()
  else .error (.sortKeyMismatch r.sortKey.display r.priority r.worker)

/-- The record as a JSON object. -/
def toJson (r : Record) : Json.Value :=
  .object
    [("sharedSpaceId", .text r.space.text), ("sortKey", .text r.sortKey.display),
      ("workerId", .text r.worker.text), ("priority", .nat r.priority.toNat),
      ("enqueuedAt", .text r.enqueuedAt.display)]

end Record

/-! Reading the values a record is made of. -/

def SpaceId.decode : Json.Decoder SpaceId := fun v => (Json.Decoder.text v).map SpaceId.mk

def WorkerId.decode : Json.Decoder WorkerId := fun v => (Json.Decoder.text v).map WorkerId.mk

def Priority.decode : Json.Decoder Priority := fun v => (Json.Decoder.word v).map Priority.ofNat

/-- A sort key in its written form. -/
def SortKey.decode : Json.Decoder SortKey := fun v => do
  let s ← Json.Decoder.text v
  match SortKey.ofText? s with
  | some k => return k
  | none => throw (.invalid (RecordError.malformedSortKey s).message)

/-- An instant in its written form. -/
def Time.Instant.decode : Json.Decoder Time.Instant := fun v => do
  let s ← Json.Decoder.text v
  match Time.Instant.ofText s with
  | .ok t => return t
  | .error e => throw (.invalid e.message)

/-- A record with all its fields; it is not validated. -/
def Record.decode : Json.Decoder Record := fun v => do
  let ms ← v.members [⟨"sharedSpaceId", false⟩, ⟨"sortKey", false⟩, ⟨"workerId", false⟩,
    ⟨"priority", false⟩, ⟨"enqueuedAt", false⟩]
  let space ← ms.required "sharedSpaceId" SpaceId.decode
  let sortKey ← ms.required "sortKey" SortKey.decode
  let worker ← ms.required "workerId" WorkerId.decode
  let priority ← ms.required "priority" Priority.decode
  let enqueuedAt ← ms.required "enqueuedAt" Time.Instant.decode
  return ⟨space, sortKey, worker, priority, enqueuedAt⟩

end Interlock
