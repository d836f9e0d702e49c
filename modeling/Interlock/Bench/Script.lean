import Interlock.Bench.World
import Interlock.Coordinator.Operation
import Interlock.Coordinator.Signal
import Interlock.Fleet.Set
import Interlock.Json.Lenient

/-!
Scripts for the bench. A step is an array: its name and then its arguments. What the bench recorded
is written the same way, so that a recorded run can be read next to its script.
-/
namespace Interlock.Bench.Script

open Json (Value)

/-! Reading steps. -/

def space (v : Value) : SpaceId := ⟨v.asText⟩

def worker (v : Value) : WorkerId := ⟨v.asText⟩

/-- A space, or none. -/
def space? (v : Value) : Option SpaceId := v.asText?.map SpaceId.mk

/-- A time; without one it is the time the bench starts at. -/
def instant (v : Value) : Time.Instant := (Time.Instant.ofText? v.asText).getD startTime

/-- A duration in seconds and nanoseconds, unless it is out of range. -/
def duration? (seconds nanos : Value) : Option Time.Duration :=
  Time.Duration.ofParts? seconds.asNat nanos.asNat

/-- Milliseconds, in nanoseconds. -/
def millis (v : Value) : Nat := v.asNat * 1000000

/-- A record in short: space `s`, worker `w`, priority `p` and perhaps the time `t`. It waits under
its own key, unless `k` is the text of a holder or an object with the priority and worker of another
key. -/
def record (v : Value) : Record :=
  let r := Record.waiting (space (v.member "s")) (worker (v.member "w"))
    (.ofNat (v.member "p").asNat) (instant (v.member "t"))
  match v.member "k" with
  | .null => r
  | .text _ => r.toHolder
  | k => { r with sortKey := .waiting (.ofNat (k.member "p").asNat) (worker (k.member "w")) }

/-- A transaction error: the name of its cause and what belongs to it. A time out of range makes it
none. -/
def transactionError? (v : Value) : Option Store.TransactionError :=
  match (v.item 0).asText with
  | "WaiterMissing" => some (.waiterMissing (v.item 1).asText)
  | "HolderExists" => some (.holderExists (space (v.item 1)) (worker (v.item 2)))
  | "WorkerHoldsOther" => some (.workerHoldsOther (worker (v.item 1)) (space (v.item 2)))
  | "Rejected" => some (.rejected (v.item 1).asText)
  | "Timeout" => (duration? (v.item 1) (v.item 2)).map .timeout
  | _ => some (.backend (v.item 1).asText)

/-- A record error, likewise. -/
def recordError (v : Value) : RecordError :=
  match (v.item 0).asText with
  | "MissingField" => .missingField .priority
  | "MalformedSortKey" => .malformedSortKey (v.item 1).asText
  | _ => .sortKeyMismatch (v.item 1).asText (.ofNat (v.item 2).asNat) (worker (v.item 3))

/-- A fleet error, likewise. -/
def fleetError? (v : Value) : Option Fleet.FleetError :=
  let kind := (CommandKind.ofName? (v.item 1).asText).getD .requestLock
  match (v.item 0).asText with
  | "Status" => some (.status kind (v.item 2).asNat)
  | "CommandFailed" => some (.commandFailed kind (v.item 2).asText)
  | "Timeout" => (duration? (v.item 2) (v.item 3)).map (.timeout kind)
  | "InvalidResponse" => some (.invalidResponse kind (v.item 2).asText)
  | "UnknownSharedSpace" => some (.unknownSpace (space (v.item 1)))
  | _ => some (.unknownWorker (worker (v.item 1)))

/-- A registry error, likewise. -/
def registryError (v : Value) : RegistryError :=
  match (v.item 0).asText with
  | "Status" =>
    .status (worker (v.item 1)) (WorkerProperty.sharedSpaceLock none).name (v.item 2).asNat
  | _ => .request (v.item 1).asText

/-- A member of a set of fleets; without lists it takes all spaces and workers. -/
def member (v : Value) : Fleet.Member :=
  ⟨(v.member "name").asText, (v.member "spaces").items.map space,
    (v.member "workers").items.map worker⟩

/-- A store call. To grant a waiting record is to swap its holder record in. -/
def storeCall? (v : Value) : Option Store.Call :=
  match (v.item 0).asText with
  | "add" | "put" => some (.add (record (v.item 1)))
  | "add_if_absent" => some (.addIfAbsent (record (v.item 1)))
  | "delete" | "del" => some (.delete (record (v.item 1)))
  | "find" => some (.find (space (v.item 1)) (worker (v.item 2)))
  | "list" => some (.list (space (v.item 1)))
  | "next" => some (.nextWaiter (space (v.item 1)))
  | "holder" => some (.lockHolder (space (v.item 1)))
  | "holders" => some .lockHolders
  | "swap" => some (.swap (record (v.item 1)) (record (v.item 2)))
  | "grant" => some (.swap (record (v.item 1)).toHolder (record (v.item 1)))
  | _ => none

/-- A vendor command. -/
def command? (v : Value) : Option Fleet.Command :=
  match (v.item 0).asText with
  | "block" => some (.block (space (v.item 1)))
  | "unblock" => some (.unblock (space (v.item 1)))
  | "status" => some (.status (worker (v.item 1)))
  | "location" => some (.location (worker (v.item 1)))
  | _ => none

/-- An operation of a coordinator. -/
def operation? (v : Value) : Option Coordinator.Operation :=
  match (v.item 0).asText with
  | "enroll" => some (.enroll (worker (v.item 1)) (space (v.item 2)))
  | "evaluate" => some (.evaluate (space (v.item 1)))
  | "release" => some (.release (worker (v.item 1)) (space (v.item 2)))
  | "abandon" => some (.abandon (worker (v.item 1)))
  | "lock_holders" => some .lockHolders
  | "queue" => some (.queue (space (v.item 1)))
  | _ => none

/-- A signal. -/
def signal (v : Value) : Coordinator.Signal :=
  match (v.item 0).asText with
  | "approaching" => .approaching (worker (v.item 1)) (space (v.item 2))
  | "exited" => .exited (worker (v.item 1)) (space (v.item 2))
  | "abandoned" => .abandoned (worker (v.item 1))
  | _ => .evaluate (space (v.item 1))

/-- A change to the bench that waits for no command. -/
def change? (v : Value) : Option Disturbance :=
  let a := v.item 1
  match (v.item 0).asText with
  | "clock_set" => some (.clockSet (instant a))
  | "clock_advance_ms" => some (.clockAdvance (.ofMillis a.asNat))
  | "store_unavailable" => some (.storeUnavailable a.asBool)
  | "store_delay_ms" => some (.storeDelay (millis a))
  | "fail_swap" => some (((transactionError? a).map .failSwap).getD .impossible)
  | "fail_blocks" => some (.failBlocks a.asNat)
  | "fail_unblock" => some (.failUnblock a.asBool)
  | "fleet_delay_ms" => some (.fleetDelay (millis a))
  | "registry_fail" => some (.registryFails a.asBool)
  | "set_location" => some (.setLocation (worker a) (space? (v.item 2)))
  | "lose" => some (.lose (worker a))
  | "regain" => some (.regain (worker a))
  | _ => none

mutual

/-- A disturbance of the bench: a change, a list of disturbances that waits for a command, or a
store call from outside. -/
def disturbance? : Value → Option Disturbance
  | .array [.text "on_block", .array ds] => some (.onBlock (disturbances ds))
  | .array [.text "on_unblock", .array ds] => some (.onUnblock (disturbances ds))
  | v => (change? v).or ((storeCall? v).map .store)

def disturbances : List Value → List Disturbance
  | [] => []
  | v :: rest =>
    match disturbance? v with
    | some d => d :: disturbances rest
    | none => disturbances rest

end

/-! Writing what was recorded. -/

/-- A written step: a name and its arguments. -/
def step (name : String) (arguments : List String) : Value := .texts (name :: arguments)

/-- A store call, its records by their keys. -/
def ofStoreCall : Store.Call → Value
  | .add r => step "add" [r.key.display]
  | .addIfAbsent r => step "add_if_absent" [r.key.display]
  | .delete r => step "delete" [r.key.display]
  | .find s w => step "find" [s.text, w.text]
  | .list s => step "list" [s.text]
  | .nextWaiter s => step "next" [s.text]
  | .lockHolder s => step "holder" [s.text]
  | .lockHolders => step "holders" []
  | .swap new old => step "swap" [new.key.display, old.key.display]

def ofCommand : Fleet.Command → Value
  | .block s => step "block" [s.text]
  | .unblock s => step "unblock" [s.text]
  | .status w => step "status" [w.text]
  | .location w => step "location" [w.text]

def ofSignal : Coordinator.Signal → Value
  | .approaching w s => step "approaching" [w.text, s.text]
  | .exited w s => step "exited" [w.text, s.text]
  | .abandoned w => step "abandoned" [w.text]
  | .evaluate s => step "evaluate" [s.text]

/-- A publication: the worker and the property. -/
def ofPublication (p : Publication) : Value := .array [.text p.worker.text, p.property.toJson]

/-- A table in short: the key and the worker of every record. -/
def ofTable (t : Store.Table) : Value :=
  .texts (t.records.map fun r => r.key.display ++ "=" ++ r.worker.text)

def ofRecords (rs : List Record) : Value := .array (rs.map Record.toJson)

/-- The value of a store call. -/
def ofStoreValue : (c : Store.Call) → c.Value → Value
  | .add _, _ | .delete _, _ | .swap .., _ => .null
  | .addIfAbsent _, b => .bool b
  | .find .., rs | .list _, rs | .lockHolders, rs => ofRecords rs
  | .nextWaiter _, r | .lockHolder _, r => .ofOption Record.toJson r

end Interlock.Bench.Script
