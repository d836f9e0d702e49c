import Interlock.Coordinator.Action

/-!
The queue of a space as programs over store calls: enrolling with a fresh priority, looking at the
queue, turning the first waiter into the holder, and removing a worker with all its records.
Specification, section 4.2: Priority Queue.
-/
namespace Interlock.Coordinator.Queue

open Store

/-- What became of an enrollment. -/
inductive Enrollment where
  | enrolled (r : Record)
  | alreadyEnrolled
  deriving DecidableEq, Repr

/-- What was removed. The holder record is named if there was one, else the last waiting record. -/
inductive Removal where
  | holder (r : Record)
  | waiting (r : Record)
  | notEnrolled
  deriving DecidableEq, Repr

/-- The report after one more record has been deleted. -/
def Removal.add (sofar : Removal) (r : Record) : Removal :=
  match sofar with
  | .holder _ => sofar
  | _ => if r.isHolder then .holder r else .waiting r

/-- Enroll a worker with a fresh priority, unless it has a record in the space. -/
def enroll (l : Limits) (minter : Nat) (w : WorkerId) (s : SpaceId) :
    Plan (Except StoreError Enrollment) := do
  let stamp ← Program.ask (I := actions) (.stamp minter)
  let r := Record.waiting s w stamp.priority stamp.time
  match r.validate with
  | .error e => return .error (.invalidRecord e)
  | .ok () =>
    match ← callStore l (.addIfAbsent r) with
    | .error e => return .error e
    | .ok added => return .ok (if added then .enrolled r else .alreadyEnrolled)

/-- The first waiter of a space. -/
def nextWaiter (l : Limits) (s : SpaceId) : Plan (Except StoreError (Option Record)) :=
  callStore l (.nextWaiter s)

/-- The holder of a space. -/
def lockHolder (l : Limits) (s : SpaceId) : Plan (Except StoreError (Option Record)) :=
  callStore l (.lockHolder s)

/-- The holders of all spaces. -/
def lockHolders (l : Limits) : Plan (Except StoreError (List Record)) := callStore l .lockHolders

/-- The spaces a worker holds, in the order of the table. -/
def heldBy (l : Limits) (w : WorkerId) : Plan (Except StoreError (List SpaceId)) := do
  match ← lockHolders l with
  | .error e => return .error e
  | .ok rs => return .ok ((rs.filter fun r => r.worker == w).map Record.space)

/-- The holder of a space and then its waiters. -/
def records (l : Limits) (s : SpaceId) : Plan (Except StoreError (List Record)) :=
  callStore l (.list s)

/-- The records of a worker in a space. -/
def recordsOf (l : Limits) (w : WorkerId) (s : SpaceId) :
    Plan (Except StoreError (List Record)) :=
  callStore l (.find s w)

/-- Turn a waiting record into the holder record of its space. -/
def promote (l : Limits) (waiting : Record) : Plan (Except StoreError Record) := do
  match ← callStore l (.swap waiting.toHolder waiting) with
  | .error e => return .error e
  | .ok _ => return .ok waiting.toHolder

/-- Delete records one after the other; the first failure stops it. -/
def deleteAll (l : Limits) (sofar : Removal) : List Record → Plan (Except StoreError Removal)
  | [] => return .ok sofar
  | r :: rest => do
    match ← callStore l (.delete r) with
    | .error e => return .error e
    | .ok _ => deleteAll l (sofar.add r) rest

/-- Delete all records of a worker in a space. -/
def remove (l : Limits) (w : WorkerId) (s : SpaceId) : Plan (Except StoreError Removal) := do
  match ← recordsOf l w s with
  | .error e => return .error e
  | .ok rs => deleteAll l .notEnrolled rs

end Interlock.Coordinator.Queue
