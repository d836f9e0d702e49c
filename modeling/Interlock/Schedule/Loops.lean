import Interlock.Coordinator.Signal
import Interlock.Schedule.Task

/-!
The loops that keep a coordinator going: one for each space, which evaluates it on every tick and
when it is woken; a dispatcher, which does what signals ask for in their order; and a watcher, which
polls its workers on ticks of its own. A wake-up that comes while a loop is busy is kept as one
permit, however often it comes, and used when the loop is free again. Specification, section 5:
Concurrency & Resource Model.
-/
namespace Interlock.Schedule

open Coordinator

variable {σ : Type}

/-- How late a tick may be noticed and still count as in time, in nanoseconds. -/
def tickTolerance : Nat := 5000000

/-- The tick after one that is noticed now, where a late tick delays all that follow. -/
def delayedTick (period tick now : Nat) : Nat :=
  if tick + tickTolerance < now then now + period else tick + period

/-- The tick after one that is noticed now, where ticks that were missed are skipped. -/
def skippedTick (period tick now : Nat) : Nat :=
  if tick + tickTolerance < now then now + period - (now - tick) % period else tick + period

/-- Where the loop of a space is. A loop without a period fails as soon as it starts. -/
inductive LoopPhase (site : Site σ) where
  | parked
  | evaluating (t : site.Suspended Unit)
  | stopped
  | failed

/-- The loop of a space. -/
structure SpaceLoop (site : Site σ) where
  space : SpaceId
  nextTick : Nat
  permit : Bool := false
  phase : LoopPhase site := .parked

namespace SpaceLoop

variable {site : Site σ}

/-- A loop that is new at a time has its first tick at once. -/
def new (s : SpaceId) (period now : Nat) : SpaceLoop site :=
  ⟨s, now, false, if period = 0 then .failed else .parked⟩

/-- Wake the loop now, or as soon as it is free. -/
def wake (l : SpaceLoop site) : SpaceLoop site := { l with permit := true }

/-- Whether the loop is free and has a reason to evaluate. -/
def isReady (l : SpaceLoop site) (now : Nat) : Bool :=
  match l.phase with
  | .parked => l.permit || decide (l.nextTick ≤ now)
  | _ => false

/-- Use up the reason for an evaluation: the permit if there is one, else the tick. -/
def consume (l : SpaceLoop site) (period now : Nat) : SpaceLoop site :=
  if l.permit then { l with permit := false }
  else { l with nextTick := delayedTick period l.nextTick now }

/-- After an evaluation the loop is free again, or stops. -/
def release (l : SpaceLoop site) (closing : Bool) : SpaceLoop site :=
  { l with phase := if closing then .stopped else .parked }

/-- Stop the loop, unless it is evaluating. -/
def close (l : SpaceLoop site) : SpaceLoop site :=
  match l.phase with
  | .parked => { l with phase := .stopped }
  | _ => l

def isStopped (l : SpaceLoop site) : Bool :=
  match l.phase with
  | .stopped | .failed => true
  | _ => false

/-- When the loop has something to do next. -/
def nextWake (l : SpaceLoop site) : Option Nat :=
  match l.phase with
  | .parked => some l.nextTick
  | .evaluating t => some t.wake
  | _ => none

/-- What the loop does on every turn. -/
def turn (c : Coordinator) (s : SpaceId) : Plan Unit := do
  let outcome ← c.evaluate s
  reportOutcomes [outcome]

/-- Go on from the progress of a turn. -/
def settle (l : SpaceLoop site) (closing : Bool) : site.Progress Unit × σ → SpaceLoop site × σ
  | (.ended _, s) => (l.release closing, s)
  | (.suspended t, s) => ({ l with phase := .evaluating t }, s)

/-- The next piece of work of the loop, if one is due. -/
def step? (l : SpaceLoop site) (c : Coordinator) (period : Nat) (closing : Bool) (now : Nat)
    (s : σ) : Option (SpaceLoop site × σ) :=
  match l.phase with
  | .parked =>
    if l.isReady now then
      some ((l.consume period now).settle closing (site.advance now [] (turn c l.space) s))
    else none
  | .evaluating t =>
    if t.wake ≤ now then some (l.settle closing (site.resume now t s)) else none
  | _ => none

end SpaceLoop

/-- Where the dispatcher is. -/
inductive DispatcherPhase (site : Site σ) where
  | idle
  | handling (t : site.Suspended (Option SpaceId))
  | stopped

/-- The dispatcher with the signals it has not handled yet. -/
structure Dispatcher (site : Site σ) where
  inbox : List Signal := []
  phase : DispatcherPhase site := .idle

/-- Where the loop of a watcher is. -/
inductive WatchPhase (site : Site σ) where
  | waiting
  | polling (t : site.Suspended (List Signal × Watcher))
  | stopped
  | failed

/-- The loop of a watcher. -/
structure WatchLoop (site : Site σ) where
  watcher : Watcher
  nextTick : Nat
  phase : WatchPhase site := .waiting

namespace WatchLoop

variable {site : Site σ}

/-- A watcher that is new at a time polls at once. -/
def new (m : Watcher) (period now : Nat) : WatchLoop site :=
  ⟨m, now, if period = 0 then .failed else .waiting⟩

/-- Stop the watcher, unless it is polling. -/
def close (l : WatchLoop site) : WatchLoop site :=
  match l.phase with
  | .waiting => { l with phase := .stopped }
  | _ => l

def isStopped (l : WatchLoop site) : Bool :=
  match l.phase with
  | .stopped | .failed => true
  | _ => false

def nextWake (l : WatchLoop site) : Option Nat :=
  match l.phase with
  | .waiting => some l.nextTick
  | .polling t => some t.wake
  | _ => none

end WatchLoop

/-- A coordinator with its loops. The period is in nanoseconds. -/
structure Crew (site : Site σ) where
  coordinator : Coordinator
  period : Nat
  loops : List (SpaceLoop site)
  dispatcher : Dispatcher site := {}
  watch : Option (WatchLoop site) := none
  closing : Bool := false

namespace Crew

variable {site : Site σ}

/-- The loops of a coordinator at their start: one for each of its spaces, and a watcher if there is
anybody to watch. -/
def start (c : Coordinator) (workers : List WorkerId) (now : Nat) : Crew site :=
  let period := c.settings.evaluationPeriod.toNanos
  { coordinator := c
    period := period
    loops := (Coordinator.distinctSpaces c.spaces).map fun s => .new s period now
    watch := if workers.isEmpty then none else some (.new ⟨workers, []⟩ period now) }

/-- Whether the dispatcher still takes signals. -/
def accepts (crew : Crew site) : Bool :=
  match crew.dispatcher.phase with
  | .stopped => false
  | _ => true

/-- Hand signals to the dispatcher. -/
def send (crew : Crew site) (signals : List Signal) : Crew site :=
  { crew with dispatcher := { crew.dispatcher with inbox := crew.dispatcher.inbox ++ signals } }

/-- Wake the loop of a space, if it has one. -/
def wake (crew : Crew site) (s : SpaceId) : Crew site :=
  { crew with loops := crew.loops.map fun l => if l.space == s then l.wake else l }

/-- Whether everything has come to an end. -/
def isStopped (crew : Crew site) : Bool :=
  !crew.accepts && crew.loops.all SpaceLoop.isStopped &&
    (crew.watch.map WatchLoop.isStopped).getD true

/-- Begin to stop: what is idle stops at once, and what is busy when it is done. -/
def close (crew : Crew site) : Crew site :=
  { crew with
    closing := true
    loops := crew.loops.map SpaceLoop.close
    watch := crew.watch.map WatchLoop.close
    dispatcher :=
      match crew.dispatcher.phase with
      | .idle => { crew.dispatcher with phase := .stopped }
      | _ => crew.dispatcher }

/-- Go on from the progress of a signal. -/
def settleSignal (crew : Crew site) : site.Progress (Option SpaceId) × σ → Crew site × σ
  | (.ended woken, s) =>
    let phase := if crew.closing then .stopped else .idle
    let crew := { crew with dispatcher := { crew.dispatcher with phase := phase } }
    match woken with
    | some space => (crew.wake space, s)
    | none => (crew, s)
  | (.suspended t, s) =>
    ({ crew with dispatcher := { crew.dispatcher with phase := .handling t } }, s)

/-- The next piece of work of the dispatcher, if one is due. -/
def stepDispatcher? (crew : Crew site) (now : Nat) (s : σ) : Option (Crew site × σ) :=
  match crew.dispatcher.phase, crew.dispatcher.inbox with
  | .handling t, _ => if t.wake ≤ now then some (crew.settleSignal (site.resume now t s)) else none
  | .idle, signal :: rest =>
    let crew := { crew with dispatcher := { crew.dispatcher with inbox := rest } }
    some (crew.settleSignal (site.advance now [] (crew.coordinator.dispatch signal) s))
  | _, _ => none

/-- Go on from the progress of a poll. A watcher that nobody listens to stops. -/
def settlePoll (crew : Crew site) (l : WatchLoop site) :
    site.Progress (List Signal × Watcher) × σ → Crew site × σ
  | (.ended (signals, m), s) =>
    let deaf := !signals.isEmpty && !crew.accepts
    let phase := if crew.closing || deaf then .stopped else .waiting
    let crew := { crew with watch := some { l with watcher := m, phase := phase } }
    (if deaf then crew else crew.send signals, s)
  | (.suspended t, s) => ({ crew with watch := some { l with phase := .polling t } }, s)

/-- The next piece of work of the watcher, if one is due. -/
def stepWatch? (crew : Crew site) (now : Nat) (s : σ) : Option (Crew site × σ) := do
  let l ← crew.watch
  match l.phase with
  | .waiting =>
    if l.nextTick ≤ now then
      let l := { l with nextTick := skippedTick crew.period l.nextTick now }
      some (crew.settlePoll l (site.advance now [] l.watcher.poll s))
    else none
  | .polling t => if t.wake ≤ now then some (crew.settlePoll l (site.resume now t s)) else none
  | _ => none

/-- The next piece of work of the first loop that has one. -/
def stepLoops? (crew : Crew site) (now : Nat) (s : σ) :
    List (SpaceLoop site) → Option (List (SpaceLoop site) × σ)
  | [] => none
  | l :: rest =>
    match l.step? crew.coordinator crew.period crew.closing now s with
    | some (l, s) => some (l :: rest, s)
    | none => (crew.stepLoops? now s rest).map fun (rest, s) => (l :: rest, s)

/-- The next piece of work that is due, signals before evaluations before polls. -/
def step? (crew : Crew site) (now : Nat) (s : σ) : Option (Crew site × σ) :=
  match crew.stepDispatcher? now s with
  | some r => some r
  | none =>
    match crew.stepLoops? now s crew.loops with
    | some (loops, s) => some ({ crew with loops := loops }, s)
    | none => crew.stepWatch? now s

/-- The next time something is due. -/
def nextWake (crew : Crew site) : Option Nat :=
  let dispatcher :=
    match crew.dispatcher.phase with
    | .handling t => some t.wake
    | _ => none
  let loops := crew.loops.foldl (fun t l => Site.earlier t l.nextWake) dispatcher
  Site.earlier loops (crew.watch.bind WatchLoop.nextWake)

/-- Let the loops run up to a time, or until all has come to an end, for a bounded number of
steps. -/
def runUntil : Nat → Nat → Nat → Crew site → σ → Crew site × Nat × σ
  | 0, _, now, crew, s => (crew, now, s)
  | fuel + 1, target, now, crew, s =>
    match crew.step? now s with
    | some (crew, s) => runUntil fuel target now crew s
    | none =>
      if crew.isStopped && crew.closing then (crew, now, s)
      else
        match crew.nextWake with
        | some t =>
          if t ≤ target then runUntil fuel target (max now t) crew s else (crew, target, s)
        | none => (crew, target, s)

/-- Let the loops do all that needs no waiting. -/
def settle (crew : Crew site) (now : Nat) (s : σ) : Crew site × σ :=
  let (crew, _, s) := crew.runUntil manySteps now now s
  (crew, s)

/-- Whether a runner has ended. -/
def hasEnded {α : Type} : Site.Runner site α → Bool
  | .ended _ => true
  | _ => false

/-- Run other programs of the site to their end while the loops go on beside them. -/
def runBeside {α : Type} : Nat → Nat → List (Site.Runner site α) → Crew site → σ →
    List (Site.Runner site α) × Crew site × Nat × σ
  | 0, now, rs, crew, s => (rs, crew, now, s)
  | fuel + 1, now, rs, crew, s =>
    if rs.all hasEnded then (rs, crew, now, s)
    else
      let due :=
        match Site.nextWake rs with
        | some t => decide (t ≤ now)
        | none => false
      if due then
        let (rs, s) := Site.stepFirst now rs s
        runBeside fuel now rs crew s
      else
        match crew.step? now s with
        | some (crew, s) => runBeside fuel now rs crew s
        | none =>
          match Site.earlier (Site.nextWake rs) crew.nextWake with
          | some t => runBeside fuel (max now t) rs crew s
          | none => (rs, crew, now, s)

end Crew

end Interlock.Schedule
