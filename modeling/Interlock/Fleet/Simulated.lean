import Interlock.Fleet.Command

/-!
A fleet without robots: it remembers which spaces are blocked and where each robot was put. Blocking
twice is blocking once. A robot is busy inside a space and idle elsewhere. Specification, section
10.4: Configuration.
-/
namespace Interlock.Fleet

/-- A simulated robot. -/
structure SimulatedRobot where
  x : Float
  y : Float
  space : Option SpaceId

/-- The robots, each once, and the blocked spaces. -/
structure Simulated where
  robots : List (WorkerId × SimulatedRobot) := []
  blocked : List SpaceId := []

namespace Simulated

/-- The map every simulated robot is on. -/
def mapName : String := "simulated"

def robot? (f : Simulated) (w : WorkerId) : Option SimulatedRobot := f.robots.lookup w

/-- Add a robot at the origin, outside every space, unless it is there already. -/
def addRobot (f : Simulated) (w : WorkerId) : Simulated :=
  match f.robot? w with
  | some _ => f
  | none => { f with robots := f.robots ++ [(w, ⟨0, 0, none⟩)] }

/-- Put a robot somewhere. -/
def moveRobot (f : Simulated) (w : WorkerId) (r : SimulatedRobot) : Except FleetError Simulated :=
  match f.robot? w with
  | none => .error (.unknownWorker w)
  | some _ =>
    .ok { f with robots := f.robots.map fun (v, old) => if v == w then (v, r) else (v, old) }

def isBlocked (f : Simulated) (s : SpaceId) : Bool := f.blocked.contains s

/-- The robots in the order of their identifiers. -/
def workers (f : Simulated) : List WorkerId :=
  (f.robots.map (·.1)).mergeSort fun a b => (compare a b).isLE

/-- Carry out a command at the time given. -/
def perform (f : Simulated) (now : Time.Instant) : (c : Command) → c.Answer × Simulated
  | .block s => (.ok (), if f.isBlocked s then f else { f with blocked := s :: f.blocked })
  | .unblock s => (.ok (), { f with blocked := f.blocked.filter (· != s) })
  | .status w =>
    match f.robot? w with
    | none => (.error (.unknownWorker w), f)
    | some r =>
      (.ok (RobotStatus.mk w (if r.space.isSome then .busy else .idle) none now), f)
  | .location w =>
    match f.robot? w with
    | none => (.error (.unknownWorker w), f)
    | some r => (.ok (RobotLocation.mk w mapName r.x r.y r.space now), f)

end Simulated

end Interlock.Fleet
