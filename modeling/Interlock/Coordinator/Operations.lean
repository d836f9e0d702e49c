import Interlock.Coordinator.Queue
import Interlock.Coordinator.Settings

/-!
The operations of a coordinator. Workers enroll for a space and wait; an evaluation of the space
blocks it at the vendor and then swaps the first waiter in as its holder; a release takes the block
back, removes the worker and evaluates the space again. Only the swap decides who holds a space, so
coordinators that share a store may work on the same space at once. Specification, section 4.3:
Shared Space Coordinator.
-/
namespace Interlock

open Store Fleet

namespace Coordinator

/-- Why an operation failed. -/
inductive OperationError where
  | invalidRecord (e : RecordError)
  | store (e : StoreError)
  deriving DecidableEq, Repr

namespace OperationError

/-- The wording of an operation error. -/
def message : OperationError → String
  | .invalidRecord e => "invalid request: " ++ e.message
  | .store e => "store error: " ++ e.message

/-- A record the store refused makes the request invalid. -/
def ofStore : StoreError → OperationError
  | .invalidRecord e => .invalidRecord e
  | e => .store e

end OperationError

end Coordinator

/-- A coordinator: which minter it draws priorities from, the spaces it was configured with and its
times. -/
structure Coordinator where
  minter : Nat := 0
  spaces : List SpaceId := []
  settings : Coordinator.Settings := {}
  deriving DecidableEq, Repr, Inhabited

namespace Coordinator

/-- The time limits of a coordinator. -/
def limits (c : Coordinator) : Limits :=
  ⟨some c.settings.storageTimeout, some c.settings.commandTimeout⟩

/-- Both identifiers of a request have to be there; the space is looked at first. -/
def checkIds (w : WorkerId) (s : SpaceId) : Except RecordError Unit :=
  if s.isBlank then .error (.missingField .sharedSpaceId)
  else if w.isBlank then .error (.missingField .workerId)
  else .ok ()

/-- Enroll a worker for a space. -/
def enroll (c : Coordinator) (w : WorkerId) (s : SpaceId) :
    Plan (Except OperationError Outcome) :=
  match checkIds w s with
  | .error e => .done (.error (.invalidRecord e))
  | .ok () => do
    match ← Queue.enroll c.limits c.minter w s with
    | .error e => return .error (.ofStore e)
    | .ok enrollment =>
      let outcome : Outcome :=
        match enrollment with
        | .enrolled r => .enrolled s w r.priority
        | .alreadyEnrolled => .alreadyEnrolled s w
      Program.report .info "enroll"
        [("space", .text s.text), ("worker", .text w.text), ("outcome", .text outcome.name)]
      return .ok outcome

/-- Take our block back after a swap that failed. If another holder is there the block is theirs
now; if nobody can say, the swap may have happened and the block stays. -/
def takeBackBlock (c : Coordinator) (s : SpaceId) (waiting : Record) : Plan Unit := do
  let worker : Trace.Fields := [("worker", .text waiting.worker.text)]
  match ← Queue.lockHolder c.limits s with
  | .ok (some holder) =>
    Program.report .info "swap lost to another holder, keeping block"
      (worker ++ [("holder", .text holder.worker.text)])
  | .error e =>
    Program.report .warn "holder unknown after failed swap, keeping block"
      (worker ++ [("error", .text e.message)])
  | .ok none =>
    match ← command c.limits (.unblock s) with
    | .ok _ => return ()
    | .error e =>
      Program.report .warn "compensating unblock failed" (worker ++ [("error", .text e.message)])

/-- Block the space for a waiter and swap it in. -/
def grant (c : Coordinator) (s : SpaceId) (waiting : Record) : Plan Outcome := do
  match ← command c.limits (.block s) with
  | .error e => return .failedToBlock s waiting.worker e.message
  | .ok _ =>
    match ← Queue.promote c.limits waiting with
    | .ok _ =>
      Program.report .info "granted"
        [("worker", .text waiting.worker.text), ("priority", .text waiting.priority.display)]
      publish c.limits ⟨waiting.worker, .sharedSpaceLock (some s)⟩
      return .granted s waiting.worker
    | .error e =>
      c.takeBackBlock s waiting
      return .failedToGrant s waiting.worker e.message

/-- One step of a space, as long as the store can be read: nothing if it is held or nobody waits,
nothing if the first waiter holds another space, else an attempt to grant it. -/
def attempt (c : Coordinator) (s : SpaceId) : Plan (Except StoreError Outcome) := do
  match ← Queue.lockHolder c.limits s with
  | .error e => return .error e
  | .ok (some holder) => return .ok (.occupied s holder.worker)
  | .ok none =>
    match ← Queue.nextWaiter c.limits s with
    | .error e => return .error e
    | .ok none => return .ok (.idle s)
    | .ok (some waiting) =>
      match ← Queue.heldBy c.limits waiting.worker with
      | .error e => return .error e
      | .ok held =>
        match held.find? (· != s) with
        | some other =>
          Program.report .debug "next waiter holds another space"
            [("worker", .text waiting.worker.text), ("held", .text other.text)]
          return .ok (.deferred s waiting.worker other)
        | none => return .ok (← c.grant s waiting)

/-- One step of a space. It never fails: a store that cannot be read is an outcome too. -/
def evaluate (c : Coordinator) (s : SpaceId) : Plan Outcome :=
  Program.inSpan ⟨"evaluate", [("space", .text s.text)]⟩ do
    match ← c.attempt s with
    | .ok outcome => return outcome
    | .error e =>
      Program.report .warn "store unavailable" [("error", .text e.message)]
      return .unavailable s e.message

/-- Withdraw a worker that waits. -/
def withdraw (c : Coordinator) (w : WorkerId) (s : SpaceId) :
    Plan (Except OperationError (List Outcome)) := do
  match ← Queue.remove c.limits w s with
  | .error e => return .error (.ofStore e)
  | .ok _ =>
    Program.report .info "withdrawn" [("space", .text s.text), ("worker", .text w.text)]
    return .ok [.withdrawn s w]

/-- Remove a worker that held a space, now that the space is unblocked or could not be: tell the
registry, and evaluate the space for the next one. -/
def removeHolder (c : Coordinator) (w : WorkerId) (s : SpaceId) (unblocked : Bool) :
    Plan (Except OperationError (List Outcome)) := do
  match ← Queue.remove c.limits w s with
  | .error e => return .error (.ofStore e)
  | .ok removal =>
    match removal with
    | .holder _ =>
      Program.report .info "released"
        [("space", .text s.text), ("worker", .text w.text), ("unblocked", .flag unblocked)]
    | _ => pure ()
    publish c.limits ⟨w, .sharedSpaceLock none⟩
    let next ← c.evaluate s
    return .ok [.released s w unblocked, next]

/-- Release a worker that holds: unblock as well as possible, then remove it. -/
def releaseHolder (c : Coordinator) (w : WorkerId) (s : SpaceId) :
    Plan (Except OperationError (List Outcome)) := do
  match ← command c.limits (.unblock s) with
  | .ok _ => c.removeHolder w s true
  | .error e =>
    Program.report .warn "unblock failed, releasing anyway"
      [("space", .text s.text), ("worker", .text w.text), ("error", .text e.message)]
    c.removeHolder w s false

/-- Release a worker from a space, whether it waits or holds. -/
def release (c : Coordinator) (w : WorkerId) (s : SpaceId) :
    Plan (Except OperationError (List Outcome)) :=
  match checkIds w s with
  | .error e => .done (.error (.invalidRecord e))
  | .ok () => do
    match ← Queue.recordsOf c.limits w s with
    | .error e => return .error (.ofStore e)
    | .ok [] => return .ok [.notEnrolled s w]
    | .ok rs => if rs.any Record.isHolder then c.releaseHolder w s else c.withdraw w s

/-- Spaces in order, each once. -/
def distinctSpaces (ss : List SpaceId) : List SpaceId :=
  let sorted := ss.mergeSort fun a b => (compare a b).isLE
  sorted.eraseReps

/-- Whether an outcome says more than that the worker was not there. -/
def isNews : Outcome → Bool
  | .notEnrolled .. => false
  | _ => true

/-- Release a worker from spaces one after the other; the first failure stops it. -/
def releaseAll (c : Coordinator) (w : WorkerId) (sofar : List Outcome) :
    List SpaceId → Plan (Except OperationError (List Outcome))
  | [] => return .ok sofar
  | s :: rest => do
    match ← c.release w s with
    | .error e => return .error e
    | .ok outcomes => releaseAll c w (sofar ++ outcomes.filter isNews) rest

/-- Release a worker from every space it holds and from every configured one. -/
def abandon (c : Coordinator) (w : WorkerId) : Plan (Except OperationError (List Outcome)) :=
  if w.isBlank then .done (.error (.invalidRecord (.missingField .workerId)))
  else do
    match ← Queue.heldBy c.limits w with
    | .error e => return .error (.ofStore e)
    | .ok held =>
      match ← c.releaseAll w [] (distinctSpaces (held ++ c.spaces)) with
      | .error e => return .error e
      | .ok outcomes =>
        Program.report .info "abandoned"
          [("worker", .text w.text), ("count", .number outcomes.length)]
        return .ok outcomes

/-- The holder of every held space. -/
def lockHolders (c : Coordinator) : Plan (Except OperationError (List (SpaceId × WorkerId))) := do
  match ← Queue.lockHolders c.limits with
  | .error e => return .error (.ofStore e)
  | .ok rs => return .ok (rs.map fun r => (r.space, r.worker))

/-- The holder of a space and then its waiters. -/
def queue (c : Coordinator) (s : SpaceId) : Plan (Except OperationError (List Record)) := do
  match ← Queue.records c.limits s with
  | .error e => return .error (.ofStore e)
  | .ok rs => return .ok rs

/-- Ask the vendor about a worker, without a time limit. -/
def robotStatus (w : WorkerId) : Plan (Command.status w).Answer := command {} (.status w)

/-- Ask the vendor where a worker is, without a time limit. -/
def robotLocation (w : WorkerId) : Plan (Command.location w).Answer := command {} (.location w)

end Coordinator

end Interlock
