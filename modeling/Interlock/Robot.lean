import Interlock.Record

/-!
What a vendor reports about a robot: the state it is in, with its battery, and where it is, with the
shared space it stands in or queues at. Also the property of a worker that a registry shows.
Specification, section 4.4: Command/Result Vocabulary.
-/
namespace Interlock

/-- The state of a robot; any state without a name here is unknown. -/
inductive RobotState where
  | idle | busy | charging | error | offline | unknown
  deriving DecidableEq, Repr

namespace RobotState

def name : RobotState → String
  | .idle => "idle"
  | .busy => "busy"
  | .charging => "charging"
  | .error => "error"
  | .offline => "offline"
  | .unknown => "unknown"

/-- The state with a name; other names are no error. -/
def ofName (s : String) : RobotState :=
  match s with
  | "idle" => .idle
  | "busy" => .busy
  | "charging" => .charging
  | "error" => .error
  | "offline" => .offline
  | _ => .unknown

/-- The name of the variant, as debugging output shows it. -/
def shown : RobotState → String
  | .idle => "Idle"
  | .busy => "Busy"
  | .charging => "Charging"
  | .error => "Error"
  | .offline => "Offline"
  | .unknown => "Unknown"

def decode : Json.Decoder RobotState := fun v => (Json.Decoder.name v).map ofName

end RobotState

/-- The state of a worker and when it was reported. -/
structure RobotStatus where
  worker : WorkerId
  state : RobotState
  batteryPercent : Option Float32
  reportedAt : Time.Instant

/-- Where a worker is and when that was reported. -/
structure RobotLocation where
  worker : WorkerId
  map : String
  x : Float
  y : Float
  space : Option SpaceId
  reportedAt : Time.Instant

/-- A status in its written form. -/
def RobotStatus.decode : Json.Decoder RobotStatus := fun v => do
  let ms ← v.members [⟨"worker_id", false⟩, ⟨"state", false⟩, ⟨"battery_percent", true⟩,
    ⟨"reported_at", false⟩]
  let worker ← ms.required "worker_id" WorkerId.decode
  let state ← ms.required "state" RobotState.decode
  let battery ← ms.optional "battery_percent" Json.Decoder.float32
  let reportedAt ← ms.required "reported_at" Time.Instant.decode
  return ⟨worker, state, battery, reportedAt⟩

/-- A location in its written form. -/
def RobotLocation.decode : Json.Decoder RobotLocation := fun v => do
  let ms ← v.members [⟨"worker_id", false⟩, ⟨"map_id", false⟩, ⟨"x", false⟩, ⟨"y", false⟩,
    ⟨"shared_space_id", true⟩, ⟨"reported_at", false⟩]
  let worker ← ms.required "worker_id" WorkerId.decode
  let map ← ms.required "map_id" Json.Decoder.text
  let x ← ms.required "x" Json.Decoder.float
  let y ← ms.required "y" Json.Decoder.float
  let space ← ms.optional "shared_space_id" SpaceId.decode
  let reportedAt ← ms.required "reported_at" Time.Instant.decode
  return ⟨worker, map, x, y, space, reportedAt⟩

/-- A property of a worker that a registry shows. -/
inductive WorkerProperty where
  /-- The space the worker holds, if any. -/
  | sharedSpaceLock (space : Option SpaceId)
  deriving DecidableEq, Repr

namespace WorkerProperty

def name : WorkerProperty → String
  | .sharedSpaceLock _ => "sharedSpaceLock"

/-- The value of the property in its written form. -/
def value : WorkerProperty → Json.Value
  | .sharedSpaceLock s => .optional (s.map SpaceId.text)

/-- The property as debugging output shows it. -/
def shown : WorkerProperty → String
  | .sharedSpaceLock none => "SharedSpaceLock(None)"
  | .sharedSpaceLock (some s) =>
    "SharedSpaceLock(Some(SharedSpaceId(" ++ Text.quoted s.text ++ ")))"

def toJson (p : WorkerProperty) : Json.Value :=
  .object [("name", .text p.name), ("value", p.value)]

/-- A property in its written form: its name and its value, which may be missing in an object. -/
def decode : Json.Decoder WorkerProperty := fun v => do
  let ms ← v.members [⟨"name", false⟩, ⟨"value", false⟩]
  let name ← ms.required "name" Json.Decoder.name
  let value ← ms.optional "value" SpaceId.decode
  match name with
  | "sharedSpaceLock" => return .sharedSpaceLock value
  | other => throw (.unknownVariant other)

end WorkerProperty

end Interlock
