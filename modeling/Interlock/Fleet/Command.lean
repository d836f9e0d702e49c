import Interlock.Outcome
import Interlock.Robot

/-!
Commands to a vendor fleet and how they fail. A blocked space may be entered by its lock holder
only; blocking and unblocking change the vendor, the other two commands ask about a robot.
Specification, section 6: External Interfaces.
-/
namespace Interlock.Fleet

/-- Why a vendor command failed. -/
inductive FleetError where
  | status (kind : CommandKind) (status : Nat)
  | commandFailed (kind : CommandKind) (reason : String)
  | timeout (kind : CommandKind) (limit : Time.Duration)
  | invalidResponse (kind : CommandKind) (reason : String)
  | unknownSpace (space : SpaceId)
  | unknownWorker (worker : WorkerId)
  deriving DecidableEq, Repr

namespace FleetError

/-- The wording of a fleet error. -/
def message : FleetError → String
  | .status k n => k.name ++ " rejected by vendor with status " ++ toString n
  | .commandFailed k reason => k.name ++ " failed: " ++ reason
  | .timeout k limit => k.name ++ " timed out after " ++ limit.display
  | .invalidResponse k reason => "invalid vendor response to " ++ k.name ++ ": " ++ reason
  | .unknownSpace s => "no fleet serves shared space " ++ s.text
  | .unknownWorker w => "no fleet serves worker " ++ w.text

/-- The kind of command that failed, when one was sent. -/
def kind? : FleetError → Option CommandKind
  | .status k _ | .commandFailed k _ | .timeout k _ | .invalidResponse k _ => some k
  | .unknownSpace _ | .unknownWorker _ => none

end FleetError

/-- A command to a vendor. -/
inductive Command where
  | block (s : SpaceId)
  | unblock (s : SpaceId)
  | status (w : WorkerId)
  | location (w : WorkerId)
  deriving DecidableEq, Repr

namespace Command

/-- What a command gives back when it succeeds. -/
@[reducible]
def Value : Command → Type
  | .block _ | .unblock _ => Unit
  | .status _ => RobotStatus
  | .location _ => RobotLocation

/-- What a command gives back. -/
abbrev Answer (c : Command) : Type := Except FleetError c.Value

/-- The kind a command is of. -/
def kind : Command → CommandKind
  | .block _ => .requestLock
  | .unblock _ => .requestRelease
  | .status _ => .getRobotStatus
  | .location _ => .getRobotLocation

/-! How commands are reported: changes in a span of their own, questions in that of the asker. -/

open Trace

/-- What is said before a command. -/
def opening : Command → List Note
  | .block s => [.enter ⟨"fleet.block", [("space", .text s.text)]⟩, .event ⟨.info, "blocking", []⟩]
  | .unblock s => [.enter ⟨"fleet.unblock", [("space", .text s.text)]⟩]
  | _ => []

/-- What is said when a command ends without an answer: its span is left. -/
def dropped : Command → List Note
  | .block _ | .unblock _ => [.leave]
  | _ => []

/-- The event of an answer. -/
def event : (c : Command) → c.Answer → Event
  | .block _, .ok _ => ⟨.info, "shared space blocked", []⟩
  | .block _, .error e => ⟨.error, "block failed", [("error", .text e.message)]⟩
  | .unblock _, .ok _ => ⟨.info, "shared space unblocked", []⟩
  | .unblock _, .error e => ⟨.warn, "unblock failed", [("error", .text e.message)]⟩
  | .status w, .ok r =>
    ⟨.debug, "robot status",
      [("worker", .text w.text), ("state", .text (RobotState.shown (RobotStatus.state r)))]⟩
  | .status w, .error e =>
    ⟨.warn, "robot status failed", [("worker", .text w.text), ("error", .text e.message)]⟩
  | .location w, .ok l =>
    ⟨.trace, "robot location",
      [("worker", .text w.text),
        ("space", .text (Text.quotedOption ((RobotLocation.space l).map SpaceId.text)))]⟩
  | .location w, .error _ =>
    ⟨.trace, "robot location",
      [("worker", .text w.text), ("space", .text (Text.quotedOption none))]⟩

/-- What is said after an answer. -/
def closing (c : Command) (a : c.Answer) : List Note := .event (c.event a) :: c.dropped

end Command

end Interlock.Fleet
