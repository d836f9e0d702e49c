import Interlock.Coordinator.Operation
import Interlock.Daemon.Running
import Interlock.Json.Lenient
import Interlock.Text.Quoted

/-!
How values are shown beside a script: results of calls that may fail, robots with their numbers bit
by bit, configurations, and bytes in hexadecimal digits. A result is an object with the member `ok`,
or one with the kind of an error and perhaps its wording.
-/
namespace Interlock.Bench.Shown

open Json (Value)
open Json.Value (texts ofOption)

/-- A result that is there. -/
def ok (v : Value) : Value := .object [("ok", v)]

/-- An error without its wording. -/
def failed (kind : String) : Value := .object [("error", .text kind)]

/-- An error with its wording. -/
def failure (kind message : String) : Value :=
  .object [("error", .text kind), ("message", .text message)]

/-- A result, where errors and values have forms of their own. -/
def result {ε α : Type} (bad : ε → Value) (good : α → Value) : Except ε α → Value
  | .ok a => good a
  | .error e => bad e

/-! Errors. -/

def recordErrorKind : RecordError → String
  | .missingField _ => "MissingField"
  | .malformedSortKey _ => "MalformedSortKey"
  | .sortKeyMismatch .. => "SortKeyMismatch"

def transactionErrorKind : Store.TransactionError → String
  | .waiterMissing _ => "WaiterMissing"
  | .holderExists .. => "HolderExists"
  | .workerHoldsOther .. => "WorkerHoldsOther"
  | .rejected _ => "Rejected"
  | .timeout _ => "Timeout"
  | .backend _ => "Backend"

def storeErrorKind : Store.StoreError → String
  | .invalidRecord e => "InvalidRecord." ++ recordErrorKind e
  | .transaction e => "Transaction." ++ transactionErrorKind e

def recordFailure (e : RecordError) : Value := failure (recordErrorKind e) e.message

def storeFailure (e : Store.StoreError) : Value := failure (storeErrorKind e) e.message

def operationFailure (e : Coordinator.OperationError) : Value :=
  let kind :=
    match e with
    | .invalidRecord _ => "InvalidRecord"
    | .store _ => "Store"
  failure kind e.message

/-- The kind of command that failed. -/
def commandKind (e : Fleet.FleetError) : Value :=
  ofOption (fun k => .text (CommandKind.name k)) e.kind?

/-- A fleet error. What other programs say about a failure is left out. -/
def fleetFailure (e : Fleet.FleetError) : Value :=
  let message : Value := .text e.message
  let (name, message) :=
    match e with
    | .status .. => ("Status", message)
    | .commandFailed _ reason =>
      ("CommandFailed", if reason.startsWith "injected" then message else .null)
    | .timeout .. => ("Timeout", message)
    | .invalidResponse .. => ("InvalidResponse", .null)
    | .unknownSpace _ => ("UnknownSharedSpace", message)
    | .unknownWorker _ => ("UnknownWorker", message)
  .object [("error", .text name), ("message", message), ("command", commandKind e)]

/-- A registry error, likewise. -/
def registryFailure (e : RegistryError) : Value :=
  match e with
  | .status .. => failure "Status" e.message
  | .request reason =>
    .object [("error", .text "Request"),
      ("message", if reason == "timed out" then .text reason else .null)]

/-- A configuration error, likewise. -/
def configFailure (e : Daemon.ConfigError) : Value :=
  match e with
  | .read .. | .parse .. | .overrun => failed e.name
  | _ => failure e.name e.message

/-- A start error, likewise. -/
def startFailure (e : Daemon.StartError) : Value :=
  match e with
  | .store e => storeFailure e
  | .lockFailed => failure e.name e.message
  | _ => failed e.name

/-- An error of the system below, by its kind. -/
def systemFailure (kind : String) : Value :=
  .object [("error", .text "Io"), ("kind", .text kind)]

def wireFailure (e : Daemon.WireError) : Value :=
  match e with
  | .cutShort => systemFailure "UnexpectedEof"
  | .brokenPipe => systemFailure "BrokenPipe"
  | .reset => systemFailure "ConnectionReset"
  | .malformed _ => failed "Json"
  | .tooLarge _ => failure "MessageTooLarge" e.message
  | .timeout => failure "Timeout" e.message
  | .closed => failure "ConnectionClosed" e.message

def connectionFailure (e : Daemon.ConnectionError) : Value :=
  match e with
  | .timeout => failure "Timeout" e.message
  | .wire e => wireFailure e

/-! Results. -/

def storeResult {α : Type} (f : α → Value) : Except Store.StoreError α → Value :=
  result storeFailure fun a => ok (f a)

def operationAnswer (o : Coordinator.Operation) (a : o.Answer) : Value :=
  let shown {α : Type} (f : α → Value) : Except Coordinator.OperationError α → Value :=
    result operationFailure f
  let outcomes (os : List Outcome) : Value := .array (os.map Outcome.toJson)
  match o, a with
  | .enroll .., a => shown Outcome.toJson a
  | .evaluate _, a => Outcome.toJson a
  | .release .., a | .abandon _, a => shown outcomes a
  | .lockHolders, a =>
    shown (fun hs => .array (hs.map fun ((s, w) : SpaceId × WorkerId) => texts [s.text, w.text])) a
  | .queue _, a => shown (fun rs => .array (rs.map Record.toJson)) a

/-! Robots. -/

/-- A number in hexadecimal digits, at least as many as given. -/
def hex (width n : Nat) : Value :=
  let ds := Text.hexNumber n
  .text (String.ofList (List.replicate (width - ds.length) '0' ++ ds))

/-- The bits of a double. -/
def double (f : Float) : Value := hex 16 f.toBits.toNat

def status (s : RobotStatus) : Value :=
  .object [("worker_id", .text s.worker.text), ("state", .text s.state.name),
    ("battery_percent", ofOption (fun f => hex 8 (Float32.toBits f).toNat) s.batteryPercent),
    ("reported_at", .text s.reportedAt.display)]

def location (l : RobotLocation) : Value :=
  .object [("worker_id", .text l.worker.text), ("map_id", .text l.map), ("x", double l.x),
    ("y", double l.y), ("shared_space_id", .optional (l.space.map SpaceId.text)),
    ("reported_at", .text l.reportedAt.display)]

def commandResult (c : Fleet.Command) (a : c.Answer) : Value :=
  match c, a with
  | _, .error e => fleetFailure e
  | .block _, .ok _ | .unblock _, .ok _ => ok .null
  | .status _, .ok s => ok (status s)
  | .location _, .ok l => ok (location l)

/-! Configurations. -/

def settings (c : Coordinator.Settings) : Value :=
  let pair (d : Time.Duration) : Value := .array [.nat d.seconds, .nat d.nanos]
  .object [("evaluation_period", pair c.evaluationPeriod),
    ("command_timeout", pair c.commandTimeout), ("storage_timeout", pair c.storageTimeout),
    ("text", .text c.toJson.render)]

def fleet (f : Daemon.FleetConfig) : Value :=
  .object [("name", .text f.name), ("kind", .text f.kind.name), ("base_url", .optional f.baseUrl),
    ("token", .optional f.token), ("shared_spaces", texts (f.spaces.map SpaceId.text)),
    ("workers", texts (f.workers.map WorkerId.text))]

def store : Daemon.StoreConfig → Value
  | .memory => texts ["memory"]
  | .file p => texts ["file", p.text]

def registry : Daemon.RegistryConfig → Value
  | .noop => texts ["noop"]
  | .http url => texts ["http", url]

def config (c : Daemon.Config) : Value :=
  let path (p : Option Disk.Pathname) : Value := .optional (p.map Disk.Pathname.text)
  .object [("shared_spaces", texts (c.spaces.map SpaceId.text)), ("socket_path", path c.socketPath),
    ("coordinator", settings c.coordinator), ("store", store c.store),
    ("log_path", path c.logPath), ("registry", registry c.registry),
    ("fleets", .array (c.fleets.map fleet)), ("workers", texts (c.workers.map WorkerId.text))]

def paths (p : Daemon.Paths) : Value :=
  .object [("socket", .text p.socket.text), ("lock", .text p.lock.text), ("log", .text p.log.text)]

/-! Bytes. -/

/-- The number of a hexadecimal digit in lower case. -/
def digit (c : Char) : Nat := if c.isDigit then c.toNat - 0x30 else c.toNat - 0x57

/-- The bytes that pairs of hexadecimal digits stand for. -/
def bytesOfHex : List Char → Bytes
  | a :: b :: rest => .ofNat (digit a * 16 + digit b) :: bytesOfHex rest
  | _ => []

/-- The bytes of one part of a stream: a kind and what belongs to it. -/
def part (v : Value) : Bytes :=
  let t := (v.item 1).asText
  match (v.item 0).asText with
  | "hex" => bytesOfHex t.toList
  | "u32" => Daemon.Frame.lengthBytes (v.item 1).asNat
  | "repeat" => (List.replicate (v.item 2).asNat (Bytes.ofText t)).flatten
  | "frame" =>
    let body := Bytes.ofText t
    Daemon.Frame.lengthBytes body.length ++ body
  | _ => .ofText t

/-- The bytes of a stream, part by part. -/
def parts (v : Value) : Bytes := v.items.flatMap part

/-- The bytes that a client sends: one message, or parts. -/
def sent (v : Value) : Bytes :=
  if (v.item 0).asText == "send" then part (.array [.text "frame", v.item 1])
  else parts (v.item 1)

/-- Bytes in hexadecimal digits. -/
def hexBytes (b : Bytes) : Value := .text (String.join (b.map fun x => (hex 2 x.toNat).asText))

/-- Bytes, or of many of them the number, the first and the last. -/
def bytes (b : Bytes) : Value :=
  if b.length ≤ 400 then .object [("hex", hexBytes b)]
  else
    .object [("len", .nat b.length), ("head", hexBytes (b.take 32)),
      ("tail", hexBytes (b.drop (b.length - 8)))]

/-! Requests to peers. -/

def request (r : Http.Request) : Value :=
  .object [("method", .text r.method), ("path", .text r.path),
    ("authorization", .optional (r.authorization.map Text.trim)), ("body", .text r.body)]

/-- A status and a body. -/
def canned (v : Value) : Http.Canned := ((v.item 0).asNat, (v.item 1).asText)

/-- A peer: a text for one that stalls, a list of answers in turn, or answers by method and path. -/
def peer (v : Value) : Http.Peer :=
  match v with
  | .object ms => .byPath (ms.map fun (name, v) => (name, canned v))
  | .array vs => .inTurn (vs.map canned)
  | _ => .stalls

/-- A network with more peers, by authority. -/
def addPeers (n : Http.Network) (v : Value) : Http.Network :=
  match v with
  | .object ms => ms.foldl (fun n (authority, v) => n.insert authority (peer v)) n
  | _ => n

end Interlock.Bench.Shown
