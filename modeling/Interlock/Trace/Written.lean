import Interlock.Json.Basic
import Interlock.Trace

/-!
Log entries as JSON.
-/
namespace Interlock.Trace

def FieldValue.toJson : FieldValue → Json.Value
  | .text s => .text s
  | .number n => .nat n
  | .flag b => .bool b

/-- Fields as the members of an object. -/
def fieldsToJson (fs : Fields) : Json.Value := .object (fs.map fun (name, v) => (name, v.toJson))

def Span.toJson (s : Span) : Json.Value :=
  .object [("name", .text s.name), ("fields", fieldsToJson s.fields)]

/-- An entry with its level, its message, its fields and the span it stands in. -/
def Entry.toJson (e : Entry) : Json.Value :=
  .object
    [("level", .text e.event.level.name), ("message", .text e.event.message),
      ("fields", fieldsToJson e.event.fields),
      ("span",
        match e.span with
        | some s => s.toJson
        | none => .null)]

end Interlock.Trace
