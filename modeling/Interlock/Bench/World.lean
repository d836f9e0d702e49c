import Interlock.Schedule.Task

/-!
A bench for coordinators: a store, a vendor and a registry in memory that record every call, take
time and fail on demand, with a clock that is set by hand. What is asked of the bench before a
vendor command may also be put off until that command arrives.
-/
namespace Interlock.Bench

open Coordinator Store Fleet Schedule

/-- The instant every bench starts at, 2026-01-01T00:00:00Z. -/
def startTime : Time.Instant := ⟨1767225600, 0⟩

/-- A store that records its calls. The delay is in nanoseconds. -/
structure BenchStore where
  table : Table := .empty
  calls : List Call := []
  swapFailures : List TransactionError := []
  unavailable : Bool := false
  delay : Nat := 0

/-- A vendor that records its commands. -/
structure BenchFleet where
  calls : List Command := []
  blockFailures : Nat := 0
  unblockFails : Bool := false
  delay : Nat := 0
  locations : List (WorkerId × Option SpaceId) := []
  lost : List WorkerId := []

/-- A registry that records what is published. -/
structure BenchRegistry where
  published : List Publication := []
  fails : Bool := false

/-- A change to the bench, or a store call made from outside. -/
inductive Disturbance where
  | clockSet (t : Time.Instant)
  | clockAdvance (d : Time.Duration)
  | storeUnavailable (b : Bool)
  | storeDelay (nanos : Nat)
  | failSwap (e : TransactionError)
  | failBlocks (n : Nat)
  | failUnblock (b : Bool)
  | fleetDelay (nanos : Nat)
  | registryFails (b : Bool)
  | setLocation (w : WorkerId) (s : Option SpaceId)
  | lose (w : WorkerId)
  | regain (w : WorkerId)
  | onBlock (ds : List Disturbance)
  | onUnblock (ds : List Disturbance)
  | store (c : Call)
  /-- A change that names a length of time out of range. -/
  | impossible
  deriving Inhabited

/-- The bench. The lists of disturbances wait for a block or an unblock, one list for each. Once a
time has left its range, whatever the bench shows means nothing. -/
structure World where
  store : BenchStore := {}
  fleet : BenchFleet := {}
  registry : BenchRegistry := {}
  clock : Time.Instant := startTime
  minters : List Minter := []
  onBlock : List (List Disturbance) := []
  onUnblock : List (List Disturbance) := []
  log : List Trace.Entry := []
  overrun : Bool := false

/-- What the bench is asked to do. -/
inductive BenchCall where
  | store (c : Call)
  | fleet (c : Command)
  | publish (p : Publication)
  | stamp (minter : Nat)
  | change (d : Disturbance)

/-- Programs of bench calls. -/
def calls : Interface where
  Call := BenchCall
  Answer
    | .store c => c.Answer
    | .fleet c => c.Answer
    | .publish _ => Publication.Answer
    | .stamp _ => Stamp
    | .change _ => Unit

namespace BenchStore

/-- A call is recorded before anything else happens. -/
def record (b : BenchStore) (c : Call) : BenchStore := { b with calls := b.calls ++ [c] }

/-- Carry out a call that found the store available or not. A swap uses up a failure that was asked
for, if there is one. -/
def finish (b : BenchStore) (unavailable : Bool) (c : Call) : c.Answer × BenchStore :=
  if unavailable then (c.fail (.backend "store unavailable"), b)
  else
    match c, b.swapFailures with
    | .swap .., e :: rest => (.error (.transaction e), { b with swapFailures := rest })
    | c, _ =>
      let (answer, table) := c.apply b.table
      (answer, { b with table := table })

end BenchStore

namespace BenchFleet

def record (b : BenchFleet) (c : Command) : BenchFleet := { b with calls := b.calls ++ [c] }

/-- Whether the whereabouts of a worker are lost, so that nobody is asked. -/
def isLost (b : BenchFleet) : Command → Bool
  | .location w => b.lost.contains w
  | _ => false

/-- Carry out a command. Every robot is idle with a full battery; a robot is somewhere only if it
was put there. -/
def finish (b : BenchFleet) (lost : Bool) : (c : Command) → c.Answer × BenchFleet
  | .block _ =>
    if 0 < b.blockFailures then
      (.error (.commandFailed .requestLock "injected block failure"),
        { b with blockFailures := b.blockFailures - 1 })
    else (.ok (), b)
  | .unblock _ =>
    if b.unblockFails then
      (.error (.commandFailed .requestRelease "injected unblock failure"), b)
    else (.ok (), b)
  | .status w => (.ok (RobotStatus.mk w .idle (some 100) startTime), b)
  | .location w =>
    if lost then (.error (.unknownWorker w), b)
    else
      match b.locations.lookup w with
      | none => (.error (.unknownWorker w), b)
      | some s => (.ok (RobotLocation.mk w "fake" 0 0 s startTime), b)

/-- Put a worker somewhere, instead of where it was. -/
def setLocation (b : BenchFleet) (w : WorkerId) (s : Option SpaceId) : BenchFleet :=
  { b with locations := (w, s) :: b.locations.filter (·.1 != w) }

end BenchFleet

namespace World

/-- Apply a change. A clock that would leave its bounds overruns. -/
def change (b : World) : Disturbance → World
  | .clockSet t => { b with clock := t }
  | .clockAdvance d =>
    match b.clock.add? d with
    | some t => { b with clock := t }
    | none => { b with overrun := true }
  | .storeUnavailable v => { b with store := { b.store with unavailable := v } }
  | .storeDelay n => { b with store := { b.store with delay := n } }
  | .failSwap e =>
    { b with store := { b.store with swapFailures := b.store.swapFailures ++ [e] } }
  | .failBlocks n => { b with fleet := { b.fleet with blockFailures := n } }
  | .failUnblock v => { b with fleet := { b.fleet with unblockFails := v } }
  | .fleetDelay n => { b with fleet := { b.fleet with delay := n } }
  | .registryFails v => { b with registry := { b.registry with fails := v } }
  | .setLocation w s => { b with fleet := b.fleet.setLocation w s }
  | .lose w => { b with fleet := { b.fleet with lost := w :: b.fleet.lost } }
  | .regain w => { b with fleet := { b.fleet with lost := b.fleet.lost.filter (· != w) } }
  | .onBlock ds => { b with onBlock := b.onBlock ++ [ds] }
  | .onUnblock ds => { b with onUnblock := b.onUnblock ++ [ds] }
  | .store _ => b
  | .impossible => { b with overrun := true }

/-- Hand out a priority from a minter and read the clock. -/
def stamp (b : World) (minter : Nat) : Stamp × World :=
  let (p, m) := (b.minters.getD minter {}).mint b.clock.micros
  (⟨p, b.clock⟩, { b with minters := b.minters.set minter m })

/-- Begin a call: record it and say when it ends, and whether what it needs is missing now. -/
def start (b : World) (c : BenchCall) (now : Nat) : (Nat × Bool) × World :=
  match c with
  | .store c =>
    ((now + b.store.delay, b.store.unavailable), { b with store := b.store.record c })
  | .fleet c =>
    if b.fleet.isLost c then ((now, true), b)
    else ((now + b.fleet.delay, false), { b with fleet := b.fleet.record c })
  | .publish p =>
    ((now, false),
      { b with registry := { b.registry with published := b.registry.published ++ [p] } })
  | .stamp _ | .change _ => ((now, false), b)

/-- End a call. -/
def finish (b : World) (c : calls.Call) (missing : Bool) : calls.Answer c × World :=
  match c with
  | .store c =>
    let (answer, store) := b.store.finish missing c
    (answer, { b with store := store })
  | .fleet c =>
    let (answer, fleet) := b.fleet.finish missing c
    (answer, { b with fleet := fleet })
  | .publish _ =>
    (if b.registry.fails then .error (.request "injected failure") else .ok (), b)
  | .stamp minter => b.stamp minter
  | .change d => ((), b.change d)

/-- Disturb the bench, one thing after the other. -/
def disturb : List Disturbance → Program calls Unit
  | [] => .done ()
  | .store c :: rest => .call (.store c) fun _ => disturb rest
  | d :: rest => .call (.change d) fun _ => disturb rest

/-- The disturbances that wait for a command, and the bench without them. -/
def takeHook (b : World) : Command → List Disturbance × World
  | .block _ =>
    match b.onBlock with
    | ds :: rest => (ds, { b with onBlock := rest })
    | [] => ([], b)
  | .unblock _ =>
    match b.onUnblock with
    | ds :: rest => (ds, { b with onUnblock := rest })
    | [] => ([], b)
  | _ => ([], b)

/-- The bench calls of an action. -/
def expand (a : Action) (b : World) : Program calls a.Value × World :=
  match a with
  | .store _ c => (Program.ask (I := calls) (.store c), b)
  | .vendor _ c =>
    let (ds, b) := b.takeHook c
    ((disturb ds).bind fun _ => Program.ask (I := calls) (.fleet c), b)
  | .publish _ p => (Program.ask (I := calls) (.publish p), b)
  | .stamp minter => (Program.ask (I := calls) (.stamp minter), b)

/-- Keep an event. -/
def hear (e : Trace.Entry) (b : World) : World := { b with log := b.log ++ [e] }

end World

/-- The bench as a place to run coordinators. -/
def site : Site World where
  base := calls
  Ticket := Bool
  expand := World.expand
  start := fun c now b => b.start c now
  finish := fun c missing b => b.finish c missing
  hear := World.hear

end Interlock.Bench
