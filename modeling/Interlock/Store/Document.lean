import Interlock.Json.Printer
import Interlock.Json.Typed
import Interlock.Store.Table

/-!
The record document: a table as one JSON text with a version. Every field of a stored record may be
missing in the text, and a document becomes a table only if none is and every record validates.
Specification, section 3: Data Model.
-/
namespace Interlock.Store

/-- A record as stored, each field there or not. -/
structure StoredRecord where
  space : Option String
  sortKey : Option String
  worker : Option String
  priority : Option Nat
  enqueuedAt : Option Time.Instant
  deriving DecidableEq, Repr

namespace StoredRecord

/-- A record with all fields there. -/
def ofRecord (r : Record) : StoredRecord :=
  ⟨some r.space.text, some r.sortKey.display, some r.worker.text, some r.priority.toNat,
    some r.enqueuedAt⟩

/-- A field that has to be there. -/
def need {α : Type} (f : RecordField) : Option α → Except RecordError α
  | some a => .ok a
  | none => .error (.missingField f)

/-- The record, if every field is there, the sort key can be read and the record validates. Space,
worker and priority are asked for before the sort key, and the time after it. -/
def toRecord (s : StoredRecord) : Except RecordError Record := do
  let space ← need .sharedSpaceId s.space
  let worker ← need .workerId s.worker
  let priority ← need .priority s.priority
  let text ← need .sortKey s.sortKey
  let sortKey ←
    match SortKey.ofText? text with
    | some k => .ok k
    | none => .error (.malformedSortKey text)
  let enqueuedAt ← need .enqueuedAt s.enqueuedAt
  let r : Record := ⟨⟨space⟩, sortKey, ⟨worker⟩, .ofNat priority, enqueuedAt⟩
  r.validate
  return r

/-- A member for a field that is there. -/
def member {α : Type} (f : RecordField) (write : α → Json.Value) :
    Option α → List (String × Json.Value)
  | some a => [(f.name, write a)]
  | none => []

def toJson (s : StoredRecord) : Json.Value :=
  .object
    (member .sharedSpaceId .text s.space ++ member .sortKey .text s.sortKey ++
      member .workerId .text s.worker ++ member .priority .nat s.priority ++
      member .enqueuedAt (fun t => .text t.display) s.enqueuedAt)

/-- A record none of whose fields is there. -/
def blank : StoredRecord := ⟨none, none, none, none, none⟩

/-- The field that is read by an optional reader into a stored record. -/
def slot {α : Type} (f : RecordField) (r : Json.Reader α)
    (put : StoredRecord → Option α → StoredRecord) : Json.Slot StoredRecord :=
  ⟨f.name, true, fun s cs => (r.optional cs).map fun (a, rest) => (put s a, rest)⟩

/-- An instant in its written form. -/
def instant : Json.Reader Time.Instant :=
  .parsed fun s => (Time.Instant.ofText s).mapError Time.InstantFault.message

/-- How a stored record is read. -/
def layout : Json.Layout StoredRecord :=
  ⟨"struct StoredRecord",
    [slot .sharedSpaceId .text fun s a => { s with space := a },
      slot .sortKey .text fun s a => { s with sortKey := a },
      slot .workerId .text fun s a => { s with worker := a },
      slot .priority .word fun s a => { s with priority := a },
      slot .enqueuedAt instant fun s a => { s with enqueuedAt := a }]⟩

/-- Read the text of a stored record. -/
def read (s : String) : Except Json.Fault StoredRecord :=
  (layout.read blank : Json.Reader _).whole s

end StoredRecord

/-- A whole table as it is written. -/
structure Document where
  version : Nat
  records : List StoredRecord
  deriving DecidableEq, Repr

namespace Document

/-- The version that is written, and the only one that is read. -/
def currentVersion : Nat := 1

/-- The document of no records. -/
def empty : Document := ⟨currentVersion, []⟩

def ofTable (t : Table) : Document := ⟨currentVersion, t.records.map .ofRecord⟩

/-- The table of a document. Every record is read before the first is stored. -/
def toTable (d : Document) : Except StoreError Table :=
  match d.records.mapM StoredRecord.toRecord with
  | .ok rs => Table.ofRecords rs
  | .error e => .error (.invalidRecord e)

def toJson (d : Document) : Json.Value :=
  .object [("version", .nat d.version), ("records", .array (d.records.map StoredRecord.toJson))]

/-- How a document is read. -/
def layout : Json.Layout Document :=
  ⟨"struct TableDocument",
    [⟨"version", false, fun d cs =>
        (Json.Reader.word32 cs).map fun (n, rest) => ({ d with version := n }, rest)⟩,
      ⟨"records", true, fun d cs =>
        (Json.Reader.list (StoredRecord.layout.read .blank) cs).map fun (rs, rest) =>
          ({ d with records := rs }, rest)⟩]⟩

/-- The text of a document as a file holds it: spread over lines, with a line end at the end. -/
def render (d : Document) : String := d.toJson.renderPretty ++ "\n"

/-- Read the text of a document. -/
def read (s : String) : Except Json.Fault Document := (layout.read empty : Json.Reader _).whole s

/-- The table of a document found under a path, if it is of the version that is read. -/
def tableUnder (path : String) (d : Document) : Except StoreError Table :=
  if d.version = currentVersion then d.toTable
  else
    .error (.backend ("unsupported record document version " ++ toString d.version ++ " in " ++ path))

/-- Read the table in the text of a document found under a path. -/
def tableOfText (path text : String) : Except StoreError Table :=
  match read text with
  | .error f => .error (.backend ("json: " ++ f.message text))
  | .ok d => d.tableUnder path

end Document

end Interlock.Store
