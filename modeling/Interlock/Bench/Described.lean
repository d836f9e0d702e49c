import Interlock.Bench.Script
import Interlock.Bench.Shown
import Interlock.Outcome
import Interlock.Store.Document
import Interlock.Trace.Written

/-!
What is said about a single value when it is looked at alone: how it is written, and what the
questions about it are answered with.
-/
namespace Interlock.Bench.Described

open Json (Value)
open Shown (failure recordFailure result storeErrorKind)

/-- Log entries. -/
def entries (es : List Trace.Entry) : Value := .array (es.map Trace.Entry.toJson)

/-- A record and its holder record, each with what its check says. -/
def record (r : Record) : Value :=
  let check (r : Record) : Value := result recordFailure (fun _ => .text "ok") r.validate
  .object [("json", r.toJson), ("text", .text r.toJson.render), ("key", .text r.key.display),
    ("is_holder", .bool r.isHolder), ("validate", check r),
    ("holder_key", .text r.toHolder.key.display), ("holder_validate", check r.toHolder)]

/-- A sort key, read or not. -/
def sortKey (k : Except RecordError SortKey) : Value :=
  result recordFailure (fun k =>
    Shown.ok (.object ([("holder", .bool k.isHolder), ("display", .text k.display)] ++
      match k with
      | .holder => []
      | .waiting p w => [("priority", .nat p.toNat), ("worker", .text w.text)]))) k

/-- An outcome, and the event that reports it. -/
def outcome (o : Outcome) : Value :=
  .object [("text", .text o.toJson.render), ("command_type", .text o.kind.name),
    ("space", .text o.space.text), ("worker", .optional (o.worker?.map WorkerId.text)),
    ("is_failure", .bool o.isFailure), ("name", .text o.name), ("log", entries [⟨o.event, none⟩])]

/-- A record document, and the table in it. -/
def document (d : Store.Document) : Value :=
  let version :=
    [("version", .nat d.version), ("current", .bool (d.version == Store.Document.currentVersion))]
  match d.toTable with
  | .ok t =>
    let written := (Store.Document.ofTable t).toJson
    .object (("ok", .object [("records", Script.ofTable t), ("text", .text written.render),
      ("pretty", .text written.renderPretty)]) :: version)
  | .error e =>
    .object ([("error", .text (storeErrorKind e)), ("message", .text e.message)] ++ version)

/-- A record as stored, and the record that it becomes. -/
def storedRecord (r : Store.StoredRecord) : Value :=
  let stored := ("stored", Value.text r.toJson.render)
  match r.toRecord with
  | .ok r =>
    .object [stored, ("record", r.toJson),
      ("back", .text (Store.StoredRecord.ofRecord r).toJson.render)]
  | .error e =>
    .object [("error", .text (Shown.recordErrorKind e)), ("message", .text e.message), stored]

end Interlock.Bench.Described
