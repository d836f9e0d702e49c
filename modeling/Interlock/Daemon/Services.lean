import Interlock.Daemon.Config
import Interlock.Fleet.Set
import Interlock.Fleet.Simulated
import Interlock.Http.Network
import Interlock.Schedule.Task
import Interlock.Store.File

/-!
The services a daemon builds from its configuration, as a place where coordinators are run: a store
in memory or in a document file, a set of fleets reached by HTTP or simulated, a registry, a clock
and a minter. A store call on a file is a transaction of single disk steps; taking the lock is the
only one that may have to wait, and all other calls are answered without any time passing.
Specification, section 10.4: Configuration.
-/
namespace Interlock.Daemon

open Coordinator (Action Stamp)
open Store (Backend FileStep FileStore)

/-- How the robots of a fleet are reached. -/
inductive Client where
  | vendor (v : Http.Vendor)
  | simulated (f : Fleet.Simulated)

namespace Client

/-- The written name of a kind of client. -/
def kind : Client → String
  | .vendor _ => FleetKind.http.name
  | .simulated _ => FleetKind.simulated.name

/-- Carry out a command on a network at the time given. -/
def perform (c : Client) (now : Time.Instant) (n : Http.Network) (command : Fleet.Command) :
    command.Answer × Client × Http.Network :=
  match c with
  | .vendor v =>
    let (reply, n) := n.exchange (v.request command)
    (v.answer now command reply, c, n)
  | .simulated f =>
    let (answer, f) := f.perform now command
    (answer, .simulated f, n)

end Client

/-- Publish a property at a registry. -/
def RegistryConfig.publish (r : RegistryConfig) (n : Http.Network) (p : Publication) :
    Publication.Answer × Http.Network :=
  match r with
  | .noop => (.ok (), n)
  | .http url =>
    let (reply, n) := n.exchange (Http.publishRequest url p)
    (Http.publishAnswer p reply, n)

/-- The services with the disk and the network they work on. -/
structure Services where
  disk : Disk := {}
  network : Http.Network := {}
  clock : Time.Instant
  store : Backend := .memory .empty
  /-- When, in nanoseconds, others have released the lock of the document. -/
  lockFreeAt : Nat := 0
  fleets : Fleet.FleetSet := []
  clients : List Client := []
  registry : RegistryConfig := .noop
  minter : Minter := {}
  log : List Trace.Entry := []

/-- What the services are asked for. -/
inductive ServiceCall where
  | store (c : Store.Call)
  | fileStep (f : FileStore) (s : FileStep)
  | member (c : Fleet.MemberCall)
  | publish (p : Publication)
  | stamp

/-- Programs of service calls. -/
def serviceCalls : Interface where
  Call := ServiceCall
  Answer
    | .store c => c.Answer
    | .fileStep _ s => s.Answer
    | .member c => c.command.Answer
    | .publish _ => Publication.Answer
    | .stamp => Stamp

namespace Services

/-- The service calls of a store call. -/
def storeCalls (b : Backend) (c : Store.Call) : Program serviceCalls c.Answer :=
  match b with
  | .memory _ => Program.ask (I := serviceCalls) (.store c)
  | .file f => (f.transact c).handle fun s => Program.ask (I := serviceCalls) (.fileStep f s)

/-- The service calls of an action. -/
def expand (a : Action) (s : Services) : Program serviceCalls a.Value :=
  match a with
  | .store _ c => storeCalls s.store c
  | .vendor _ c =>
    (s.fleets.perform c).handle fun (m : Fleet.MemberCall) =>
      Program.ask (I := serviceCalls) (.member m)
  | .publish _ p => Program.ask (I := serviceCalls) (.publish p)
  | .stamp _ => Program.ask (I := serviceCalls) .stamp

/-- When a call that begins now ends. -/
def due (s : Services) (c : ServiceCall) (now : Nat) : Nat :=
  match c with
  | .fileStep _ .takeLock => max now s.lockFreeAt
  | _ => now

/-- Carry out a store call as a whole. -/
def callStore (s : Services) (c : Store.Call) : c.Answer × Services :=
  match s.store with
  | .memory t =>
    let (answer, t) := c.apply t
    (answer, { s with store := .memory t })
  | .file f =>
    let (answer, disk) := f.call c s.disk
    (answer, { s with disk := disk })

/-- Command a member of the fleets. -/
def callMember (s : Services) (c : Fleet.MemberCall) : c.command.Answer × Services :=
  let client := s.clients.getD c.member (.simulated {})
  let (answer, client, network) := client.perform s.clock s.network c.command
  (answer, { s with clients := s.clients.set c.member client, network := network })

/-- Hand out a priority and read the clock. -/
def stamp (s : Services) : Stamp × Services :=
  let (p, m) := s.minter.mint s.clock.micros
  (⟨p, s.clock⟩, { s with minter := m })

/-- Carry out a call. -/
def answer (s : Services) (c : serviceCalls.Call) : serviceCalls.Answer c × Services :=
  match c with
  | .store c => s.callStore c
  | .fileStep f step =>
    let (answer, disk) := f.perform step s.disk
    (answer, { s with disk := disk })
  | .member c => s.callMember c
  | .publish p =>
    let (answer, network) := s.registry.publish s.network p
    (answer, { s with network := network })
  | .stamp => s.stamp

/-- Keep an event. -/
def hear (e : Trace.Entry) (s : Services) : Services := { s with log := s.log ++ [e] }

/-- The services as a place to run coordinators. -/
def site : Schedule.Site Services where
  base := serviceCalls
  Ticket := Unit
  expand := fun a s => (expand a s, s)
  start := fun c now s => ((s.due c now, ()), s)
  finish := fun c _ s => s.answer c
  hear := hear

end Services

namespace Config

/-- The member of the fleets that a configured fleet is. -/
def member (f : FleetConfig) : Fleet.Member := ⟨f.name, f.spaces, f.workers⟩

/-- The client of a configured fleet; a simulated one has the robots the configuration names. -/
def client (limit : Time.Duration) (f : FleetConfig) : Client :=
  match f.kind with
  | .http => .vendor ⟨f.baseUrl.getD "", f.token, limit⟩
  | .simulated => .simulated (f.workers.foldl Fleet.Simulated.addRobot {})

/-- The backend of a configured store. -/
def backend : StoreConfig → Backend
  | .memory => .memory .empty
  | .file path => .file ⟨path⟩

/-- The coordinator a configuration asks for. -/
def coordinatorOf (c : Config) : Coordinator := ⟨0, c.spaces, c.coordinator⟩

/-- Put what a configuration asks for in the place of the services so far. -/
def build (c : Config) (s : Services) : Services :=
  { s with
    store := backend c.store
    fleets := c.fleets.map member
    clients := c.fleets.map (client c.coordinator.commandTimeout)
    registry := c.registry
    minter := {} }

end Config

end Interlock.Daemon
