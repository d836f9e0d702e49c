import Interlock.Coordinator.Operations

/-!
Signals about workers and spaces, where they come from and what is done about them. A watcher reads
where its workers are and signals every change once; a dispatcher enrolls and releases workers as
the signals say, and names the space whose loop should look again. Specification, section 6:
External Interfaces.
-/
namespace Interlock.Coordinator

/-- Something that happened to a worker or a space. -/
inductive Signal where
  /-- The worker comes near the space and needs it. -/
  | approaching (w : WorkerId) (s : SpaceId)
  /-- The worker left the space. -/
  | exited (w : WorkerId) (s : SpaceId)
  /-- The worker is gone for good. -/
  | abandoned (w : WorkerId)
  /-- The space should be evaluated at once. -/
  | evaluate (s : SpaceId)
  deriving DecidableEq, Repr

/-- The signals of a worker that was in one space, or none, and now is in another, or none. -/
def Signal.ofChange (w : WorkerId) (before now : Option SpaceId) : List Signal :=
  match before, now with
  | none, none => []
  | none, some s => [.approaching w s]
  | some s, none => [.exited w s]
  | some s, some t => if s = t then [] else [.exited w s, .approaching w t]

/-- A watcher: whom it asks about, and where each was at the last reading that succeeded. -/
structure Watcher where
  workers : List WorkerId
  last : List (WorkerId × Option SpaceId) := []
  deriving DecidableEq, Repr

namespace Watcher

/-- The space a worker was last read in. -/
def lastSpace (m : Watcher) (w : WorkerId) : Option SpaceId := (m.last.lookup w).join

/-- Take in a reading: the signals it gives rise to and what is known afterwards. A location that
could not be read changes nothing. -/
def take (m : Watcher) (w : WorkerId) : Except Fleet.FleetError (Option SpaceId) →
    List Signal × Watcher
  | .error _ => ([], m)
  | .ok now =>
    (Signal.ofChange w (m.lastSpace w) now,
      { m with last := (w, now) :: m.last.filter (·.1 != w) })

/-- Ask about some of the workers, one after the other. -/
def pollEach (m : Watcher) (signals : List Signal) : List WorkerId → Plan (List Signal × Watcher)
  | [] => return (signals, m)
  | w :: rest => do
    match ← Coordinator.robotLocation w with
    | .ok location =>
      let (new, m) := m.take w (.ok (RobotLocation.space location))
      pollEach m (signals ++ new) rest
    | .error e =>
      Program.report .debug "location unavailable"
        [("worker", .text w.text), ("error", .text e.message)]
      let (new, m) := m.take w (.error e)
      pollEach m (signals ++ new) rest

/-- Ask about every worker once. -/
def poll (m : Watcher) : Plan (List Signal × Watcher) := m.pollEach [] m.workers

end Watcher

/-- Report outcomes, each as its own event. -/
def reportOutcomes (os : List Outcome) : Plan Unit :=
  Program.sayAll (os.map fun o => .event o.event)

/-- Do what a signal asks for. The answer is the space whose loop is to look again: after an
enrollment, after a release that failed, and when that was the signal. -/
def dispatch (c : Coordinator) : Signal → Plan (Option SpaceId)
  | .approaching w s => do
    match ← c.enroll w s with
    | .ok outcome =>
      reportOutcomes [outcome]
      return some s
    | .error e =>
      Program.report .warn "enroll failed"
        [("worker", .text w.text), ("space", .text s.text), ("error", .text e.message)]
      return none
  | .exited w s => do
    match ← c.release w s with
    | .ok outcomes =>
      reportOutcomes outcomes
      return none
    | .error e =>
      Program.report .warn "release failed"
        [("worker", .text w.text), ("space", .text s.text), ("error", .text e.message)]
      return some s
  | .abandoned w => do
    match ← c.abandon w with
    | .ok outcomes =>
      reportOutcomes outcomes
      return none
    | .error e =>
      Program.report .warn "abandon failed" [("worker", .text w.text), ("error", .text e.message)]
      return none
  | .evaluate s => return some s

end Interlock.Coordinator
