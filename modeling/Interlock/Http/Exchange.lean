import Interlock.Fleet.Command
import Interlock.Registry
import Interlock.Json.Parser
import Interlock.Json.Printer

/-!
Vendor commands and registry publications as HTTP requests, and what the replies mean. A request is
one exchange with the peer named in its address; the peer replies, stays silent until the time limit
passes, or cannot be reached. Specification, section 6: External Interfaces.
-/
namespace Interlock.Http

/-- A request as it goes out. -/
structure Request where
  method : String
  url : String
  authorization : Option String
  body : String
  deriving DecidableEq, Repr

/-- What comes back. -/
inductive Reply where
  | answered (status : Nat) (body : String)
  | silent
  | unreachable (reason : String)
  deriving DecidableEq, Repr

/-- A base address and a path with exactly one slash between them. -/
def join (base path : String) : String :=
  String.ofList (base.toList.reverse.dropWhile (· == '/')).reverse ++ "/" ++
    String.ofList (path.toList.dropWhile (· == '/'))

/-- Drop characters up to and including the first `://`. -/
def dropScheme : List Char → Option (List Char)
  | ':' :: '/' :: '/' :: rest => some rest
  | _ :: rest => dropScheme rest
  | [] => none

/-- The authority of an address, and what follows it up to a fragment, which is never sent. -/
def splitUrl (url : String) : Option (String × String) := do
  let rest ← dropScheme url.toList
  let isEnd := fun (c : Char) => c == '/' || c == '?' || c == '#'
  some (String.ofList (rest.takeWhile (!isEnd ·)),
    String.ofList ((rest.dropWhile (!isEnd ·)).takeWhile (· != '#')))

/-- Characters that stand in a path as they are. -/
def isPathChar (c : Char) : Bool :=
  let n := c.toNat
  n == 0x21 || n == 0x22 || (0x24 ≤ n && n ≤ 0x3b) || n == 0x3d || (0x40 ≤ n && n ≤ 0x5f) ||
    0x61 ≤ n

/-- Characters that stand in a query as they are. -/
def isQueryChar (c : Char) : Bool :=
  let n := c.toNat
  n == 0x21 || (0x24 ≤ n && n ≤ 0x3b) || n == 0x3d || 0x3f ≤ n

/-- Whether a path, with a query behind the first question mark, can be asked for. -/
def isTarget (s : String) : Bool :=
  let isInPath := fun (c : Char) => c != '?'
  (s.toList.takeWhile isInPath).all isPathChar &&
    ((s.toList.dropWhile isInPath).drop 1).all isQueryChar

/-- Characters that may stand in the value of a header: all but controls. -/
def isHeaderChar (c : Char) : Bool := c == '\t' || (0x20 ≤ c.toNat && c.toNat != 0x7f)

/-- The greatest length of an address in bytes. -/
def urlLimit : Nat := 65534

namespace Request

/-- The peer the request goes to. -/
def authority? (r : Request) : Option String := (splitUrl r.url).map (·.1)

/-- What is asked of the peer: all of the address that follows it. -/
def path (r : Request) : String := ((splitUrl r.url).map (·.2)).getD r.url

/-- Whether the address and the header can be written as they are. -/
def isSendable (r : Request) : Bool :=
  isTarget r.path && r.url.utf8ByteSize ≤ urlLimit &&
    (r.authorization.getD "").toList.all isHeaderChar

end Request

/-- How to reach the vendor of a fleet. -/
structure Vendor where
  baseUrl : String
  token : Option String
  timeout : Time.Duration
  deriving DecidableEq, Repr

/-- The request of a vendor command. -/
def Vendor.request (v : Vendor) (c : Fleet.Command) : Request :=
  let (method, path) :=
    match c with
    | .block s => ("POST", "shared-spaces/" ++ s.text ++ "/block")
    | .unblock s => ("POST", "shared-spaces/" ++ s.text ++ "/unblock")
    | .status w => ("GET", "robots/" ++ w.text ++ "/status")
    | .location w => ("GET", "robots/" ++ w.text ++ "/location")
  ⟨method, join v.baseUrl path, v.token.map ("Bearer " ++ ·), ""⟩

/-- Read the body of a reply. -/
def readBody {α : Type} (kind : CommandKind) (d : Json.Decoder α) (body : String) :
    Except Fleet.FleetError α :=
  match Json.read body with
  | .error f => .error (.invalidResponse kind (f.message body))
  | .ok v =>
    match d v with
    | .ok a => .ok a
    | .error e => .error (.invalidResponse kind e.message)

/-- The status of a worker in a vendor's words; a missing time is the time of reading. -/
def statusBody (w : WorkerId) (now : Time.Instant) : Json.Decoder RobotStatus := fun v => do
  let ms ← v.members [⟨"state", false⟩, ⟨"batteryPercent", true⟩, ⟨"reportedAt", true⟩]
  let state ← ms.required "state" RobotState.decode
  let battery ← ms.optional "batteryPercent" Json.Decoder.float32
  let reportedAt ← ms.optional "reportedAt" Time.Instant.decode
  return ⟨w, state, battery, reportedAt.getD now⟩

/-- The location of a worker in a vendor's words; a missing time is the time of reading. -/
def locationBody (w : WorkerId) (now : Time.Instant) : Json.Decoder RobotLocation := fun v => do
  let ms ← v.members [⟨"mapId", false⟩, ⟨"x", false⟩, ⟨"y", false⟩, ⟨"sharedSpaceId", true⟩,
    ⟨"reportedAt", true⟩]
  let map ← ms.required "mapId" Json.Decoder.text
  let x ← ms.required "x" Json.Decoder.float
  let y ← ms.required "y" Json.Decoder.float
  let space ← ms.optional "sharedSpaceId" SpaceId.decode
  let reportedAt ← ms.optional "reportedAt" Time.Instant.decode
  return ⟨w, map, x, y, space, reportedAt.getD now⟩

/-- What a reply means for a vendor command: from status 400 on it is a refusal. -/
def Vendor.answer (v : Vendor) (now : Time.Instant) (c : Fleet.Command) (reply : Reply) :
    c.Answer :=
  match reply with
  | .silent => .error (.timeout c.kind v.timeout)
  | .unreachable reason => .error (.commandFailed c.kind reason)
  | .answered status body =>
    if 400 ≤ status then .error (.status c.kind status)
    else
      match c with
      | .block _ | .unblock _ => .ok ()
      | .status w => readBody .getRobotStatus (statusBody w now) body
      | .location w => readBody .getRobotLocation (locationBody w now) body

/-- The request that publishes a property at a registry. -/
def publishRequest (url : String) (p : Publication) : Request :=
  ⟨"PUT", join url ("workers/" ++ p.worker.text ++ "/properties/" ++ p.property.name), none,
    (Json.Value.object [("value", p.property.value)]).render⟩

/-- What a reply means for a publication. -/
def publishAnswer (p : Publication) (reply : Reply) : Publication.Answer :=
  match reply with
  | .silent => .error (.request "timed out")
  | .unreachable reason => .error (.request reason)
  | .answered status _ =>
    if 400 ≤ status then .error (.status p.worker p.property.name status) else .ok ()

end Interlock.Http
