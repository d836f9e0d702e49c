import Interlock.Record
import Interlock.Trace

/-!
Kinds of vendor commands and outcomes of coordinator operations. An outcome names its space, most
name a worker, and each belongs to the kind of command that it answers. Specification, section 4.4:
Command/Result Vocabulary.
-/
namespace Interlock

/-- What is asked of a vendor, or reported to it as a failure. -/
inductive CommandKind where
  | getRobotStatus | getRobotLocation | listenSharedSpace | requestLock | requestRelease
  | failedToGrantAccess | failedToBlock
  deriving DecidableEq, Repr

namespace CommandKind

/-- All kinds, in their fixed order. -/
def all : List CommandKind :=
  [.getRobotStatus, .getRobotLocation, .listenSharedSpace, .requestLock, .requestRelease,
    .failedToGrantAccess, .failedToBlock]

/-- The written name. -/
def name : CommandKind → String
  | .getRobotStatus => "GET_ROBOT_STATUS"
  | .getRobotLocation => "GET_ROBOT_LOCATION"
  | .listenSharedSpace => "LISTEN_SHARED_SPACE"
  | .requestLock => "REQUEST_LOCK"
  | .requestRelease => "REQUEST_RELEASE"
  | .failedToGrantAccess => "FAILED_TO_GRANT_ACCESS_TO_SHARED_SPACE"
  | .failedToBlock => "FAILED_TO_BLOCK_SHARED_SPACE"

/-- Whether the kind reports a failure. -/
def isFailure : CommandKind → Bool
  | .failedToGrantAccess | .failedToBlock => true
  | _ => false

/-- The kind of a written name. -/
def ofName? (s : String) : Option CommandKind := all.find? (·.name == s)

def decode : Json.Decoder CommandKind := fun v => do
  let s ← Json.Decoder.name v
  match ofName? s with
  | some k => return k
  | none => throw (.unknownVariant s)

end CommandKind

/-- What became of a coordinator operation. -/
inductive Outcome where
  | enrolled (space : SpaceId) (worker : WorkerId) (priority : Priority)
  | alreadyEnrolled (space : SpaceId) (worker : WorkerId)
  | granted (space : SpaceId) (worker : WorkerId)
  | released (space : SpaceId) (worker : WorkerId) (unblocked : Bool)
  | withdrawn (space : SpaceId) (worker : WorkerId)
  | notEnrolled (space : SpaceId) (worker : WorkerId)
  | idle (space : SpaceId)
  | occupied (space : SpaceId) (holder : WorkerId)
  | deferred (space : SpaceId) (worker : WorkerId) (held : SpaceId)
  | failedToBlock (space : SpaceId) (worker : WorkerId) (reason : String)
  | failedToGrant (space : SpaceId) (worker : WorkerId) (reason : String)
  | unavailable (space : SpaceId) (reason : String)
  deriving DecidableEq, Repr

namespace Outcome

/-- The kind of command the outcome belongs to. -/
def kind : Outcome → CommandKind
  | .enrolled .. | .alreadyEnrolled .. | .granted .. | .idle .. | .occupied .. | .deferred .. =>
    .requestLock
  | .released .. | .withdrawn .. | .notEnrolled .. => .requestRelease
  | .failedToBlock .. => .failedToBlock
  | .failedToGrant .. | .unavailable .. => .failedToGrantAccess

/-- The space the outcome is about. -/
def space : Outcome → SpaceId
  | .enrolled s _ _ | .alreadyEnrolled s _ | .granted s _ | .released s _ _ | .withdrawn s _
  | .notEnrolled s _ | .idle s | .occupied s _ | .deferred s _ _ | .failedToBlock s _ _
  | .failedToGrant s _ _ | .unavailable s _ => s

/-- The worker the outcome is about; for an occupied space its holder. -/
def worker? : Outcome → Option WorkerId
  | .enrolled _ w _ | .alreadyEnrolled _ w | .granted _ w | .released _ w _ | .withdrawn _ w
  | .notEnrolled _ w | .occupied _ w | .deferred _ w _ | .failedToBlock _ w _
  | .failedToGrant _ w _ => some w
  | .idle _ | .unavailable .. => none

def isFailure (o : Outcome) : Bool := o.kind.isFailure

/-- The short name used in logs. -/
def name : Outcome → String
  | .enrolled .. => "enrolled"
  | .alreadyEnrolled .. => "already_enrolled"
  | .granted .. => "granted"
  | .released .. => "released"
  | .withdrawn .. => "withdrawn"
  | .notEnrolled .. => "not_enrolled"
  | .idle .. => "idle"
  | .occupied .. => "occupied"
  | .deferred .. => "deferred"
  | .failedToBlock .. => "failed_to_block"
  | .failedToGrant .. => "failed_to_grant"
  | .unavailable .. => "unavailable"

/-- The event that reports the outcome, at a level that matches its significance. -/
def event (o : Outcome) : Trace.Event :=
  let worker := (o.worker?.map WorkerId.text).getD "-"
  let who : Trace.Fields := [("space", .text o.space.text), ("worker", .text worker)]
  match o with
  | .idle .. | .occupied .. => ⟨.trace, "evaluated", who ++ [("outcome", .text o.name)]⟩
  | .failedToBlock _ _ reason | .failedToGrant _ _ reason | .unavailable _ reason =>
    ⟨.warn, "evaluation failed, retrying next tick",
      who ++ [("command", .text o.kind.name), ("reason", .text reason)]⟩
  | _ => ⟨.info, "outcome", who ++ [("outcome", .text o.name)]⟩

/-! The written form: an object whose member `outcome` names the variant. -/

/-- The tag of the written form. -/
def tag : Outcome → String
  | .enrolled .. => "ENROLLED"
  | .alreadyEnrolled .. => "ALREADY_ENROLLED"
  | .granted .. => "GRANTED"
  | .released .. => "RELEASED"
  | .withdrawn .. => "WITHDRAWN"
  | .notEnrolled .. => "NOT_ENROLLED"
  | .idle .. => "IDLE"
  | .occupied .. => "OCCUPIED"
  | .deferred .. => "DEFERRED"
  | .failedToBlock .. => "FAILED_TO_BLOCK_SHARED_SPACE"
  | .failedToGrant .. => "FAILED_TO_GRANT_ACCESS_TO_SHARED_SPACE"
  | .unavailable .. => "UNAVAILABLE"

/-- The members behind the tag and the space. -/
def details : Outcome → List (String × Json.Value)
  | .enrolled _ w p => [("worker_id", .text w.text), ("priority", .nat p.toNat)]
  | .alreadyEnrolled _ w | .granted _ w | .withdrawn _ w | .notEnrolled _ w =>
    [("worker_id", .text w.text)]
  | .released _ w u => [("worker_id", .text w.text), ("unblocked", .bool u)]
  | .idle _ => []
  | .occupied _ h => [("holder", .text h.text)]
  | .deferred _ w h => [("worker_id", .text w.text), ("held_space_id", .text h.text)]
  | .failedToBlock _ w r | .failedToGrant _ w r =>
    [("worker_id", .text w.text), ("reason", .text r)]
  | .unavailable _ r => [("reason", .text r)]

def toJson (o : Outcome) : Json.Value :=
  .object (("outcome", .text o.tag) :: ("shared_space_id", .text o.space.text) :: o.details)

/-- The tags in their fixed order. -/
def tags : List String :=
  ["ENROLLED", "ALREADY_ENROLLED", "GRANTED", "RELEASED", "WITHDRAWN", "NOT_ENROLLED", "IDLE",
    "OCCUPIED", "DEFERRED", "FAILED_TO_BLOCK_SHARED_SPACE",
    "FAILED_TO_GRANT_ACCESS_TO_SHARED_SPACE", "UNAVAILABLE"]

theorem tag_mem_tags (o : Outcome) : o.tag ∈ tags := by
  cases o <;> simp [tag, tags]

/-- An outcome in its written form, where it is said how its tag is written. -/
def decodeAs (name : Json.Decoder String) : Json.Decoder Outcome := fun v => do
  let (tag, payload) ← v.tagged "outcome" name
  let fields := fun (names : List String) =>
    payload.fields (("shared_space_id" :: names).map fun n => ⟨n, false⟩)
  let space := fun (ms : Json.Members) => ms.required "shared_space_id" SpaceId.decode
  let worker := fun (ms : Json.Members) => ms.required "worker_id" WorkerId.decode
  let reason := fun (ms : Json.Members) => ms.required "reason" Json.Decoder.text
  match tag with
  | "ENROLLED" =>
    let ms ← fields ["worker_id", "priority"]
    return .enrolled (← space ms) (← worker ms) (← ms.required "priority" Priority.decode)
  | "ALREADY_ENROLLED" =>
    let ms ← fields ["worker_id"]
    return .alreadyEnrolled (← space ms) (← worker ms)
  | "GRANTED" =>
    let ms ← fields ["worker_id"]
    return .granted (← space ms) (← worker ms)
  | "RELEASED" =>
    let ms ← fields ["worker_id", "unblocked"]
    return .released (← space ms) (← worker ms) (← ms.required "unblocked" Json.Decoder.bool)
  | "WITHDRAWN" =>
    let ms ← fields ["worker_id"]
    return .withdrawn (← space ms) (← worker ms)
  | "NOT_ENROLLED" =>
    let ms ← fields ["worker_id"]
    return .notEnrolled (← space ms) (← worker ms)
  | "IDLE" =>
    let ms ← fields []
    return .idle (← space ms)
  | "OCCUPIED" =>
    let ms ← fields ["holder"]
    return .occupied (← space ms) (← ms.required "holder" WorkerId.decode)
  | "DEFERRED" =>
    let ms ← fields ["worker_id", "held_space_id"]
    return .deferred (← space ms) (← worker ms) (← ms.required "held_space_id" SpaceId.decode)
  | "FAILED_TO_BLOCK_SHARED_SPACE" =>
    let ms ← fields ["worker_id", "reason"]
    return .failedToBlock (← space ms) (← worker ms) (← reason ms)
  | "FAILED_TO_GRANT_ACCESS_TO_SHARED_SPACE" =>
    let ms ← fields ["worker_id", "reason"]
    return .failedToGrant (← space ms) (← worker ms) (← reason ms)
  | "UNAVAILABLE" =>
    let ms ← fields ["reason"]
    return .unavailable (← space ms) (← reason ms)
  | other => throw (.unknownVariant other)

/-- An outcome that stands by itself. -/
def decode : Json.Decoder Outcome := decodeAs Json.Decoder.text

/-- An outcome inside a tagged record: its tag may also be the number of its place among all. -/
def decodeInner : Json.Decoder Outcome := decodeAs (Json.Decoder.nameOrPlace tags)

end Outcome

end Interlock
