import Interlock.Proofs.Sequential.Scene
import Mathlib.Logic.Function.Basic

/-!
Locks with queues in front of them, as one would draw them: the holder of each held space, in the
order of the spaces, and for each space a list of waiters. Who enrolls joins at the tail, a grant
takes the head, and no priority or key decides anything; an entry only carries its priority along
to be shown. The vendor is asked in the same order as by a coordinator.
-/
namespace Interlock.Sequential

open Coordinator Store Fleet

/-- A worker in a queue, with the priority and the time it was given. -/
structure Entry where
  worker : WorkerId
  priority : Priority
  since : Time.Instant
  deriving DecidableEq, Repr

namespace Entry

def waits (e : Entry) (s : SpaceId) : Record := .waiting s e.worker e.priority e.since

def holds (e : Entry) (s : SpaceId) : Record := (e.waits s).toHolder

variable (e : Entry) (s : SpaceId)

@[simp] theorem waits_space : (e.waits s).space = s := rfl

@[simp] theorem waits_worker : (e.waits s).worker = e.worker := rfl

@[simp] theorem waits_isHolder : (e.waits s).isHolder = false := rfl

@[simp] theorem holds_space : (e.holds s).space = s := rfl

@[simp] theorem holds_isHolder : (e.holds s).isHolder = true := rfl

theorem waits_inj {e f : Entry} {r s : SpaceId} : e.waits r = f.waits s ↔ r = s ∧ e = f := by
  obtain ⟨w, p, t⟩ := e
  obtain ⟨v, q, u⟩ := f
  simp only [waits, Record.waiting, Record.mk.injEq, mk.injEq, SortKey.waiting.injEq]
  constructor
  · rintro ⟨space, -, worker, priority, time⟩
    exact ⟨space, worker, priority, time⟩
  · rintro ⟨space, worker, priority, time⟩
    exact ⟨space, ⟨priority, worker⟩, worker, priority, time⟩

end Entry

structure Fifo where
  locks : List (SpaceId × Entry) := []
  waiting : SpaceId → List Entry := fun _ => []

/-- Put a lock in its place in the order of the spaces. -/
def insertLock (s : SpaceId) (e : Entry) : List (SpaceId × Entry) → List (SpaceId × Entry)
  | [] => [(s, e)]
  | l :: ls => if compare s l.1 = .lt then (s, e) :: l :: ls else l :: insertLock s e ls

/-- Put a space in its place, unless it is there. -/
def insertSpace (s : SpaceId) : List SpaceId → List SpaceId
  | [] => [s]
  | r :: rs =>
    match compare s r with
    | .lt => s :: r :: rs
    | .eq => r :: rs
    | .gt => r :: insertSpace s rs

def ascending (ss : List SpaceId) : List SpaceId := ss.foldr insertSpace []

namespace Fifo

def holder? (m : Fifo) (s : SpaceId) : Option Entry :=
  (m.locks.find? fun l => l.1 == s).map Prod.snd

def lockOf? (m : Fifo) (w : WorkerId) : Option SpaceId :=
  (m.locks.find? fun l => l.2.worker == w).map Prod.fst

def holdsIt (m : Fifo) (w : WorkerId) (s : SpaceId) : Bool :=
  (m.holder? s).any fun e => e.worker == w

def waitsFor (m : Fifo) (w : WorkerId) (s : SpaceId) : Bool :=
  (m.waiting s).any fun e => e.worker == w

def join (m : Fifo) (s : SpaceId) (e : Entry) : Fifo :=
  { m with waiting := Function.update m.waiting s (m.waiting s ++ [e]) }

/-- The head of a queue becomes the holder. -/
def grant (m : Fifo) (s : SpaceId) : Fifo :=
  match m.waiting s with
  | [] => m
  | e :: rest =>
    { locks := insertLock s e m.locks, waiting := Function.update m.waiting s rest }

def leave (m : Fifo) (w : WorkerId) (s : SpaceId) : Fifo where
  locks := m.locks.filter fun l => !(l.1 == s && l.2.worker == w)
  waiting := Function.update m.waiting s ((m.waiting s).filter fun e => e.worker != w)

def row (m : Fifo) (s : SpaceId) : List Record :=
  ((m.holder? s).map fun e => e.holds s).toList ++ (m.waiting s).map fun e => e.waits s

section Operations

variable {ε : Type} (S : Surroundings ε) (c : Coordinator)

def command (k : Command) (x : Scene Fifo ε) : k.Answer × Scene Fifo ε :=
  let (a, y) := x.outside (S.vendor k)
  (vendorAnswer c.limits k a, y)

def publish (p : Publication) (x : Scene Fifo ε) : Scene Fifo ε := (x.outside (S.registry p)).2

/-- The head of a queue becomes the holder, unless the swap has no effect. -/
def promote (s : SpaceId) (e : Entry) (x : Scene Fifo ε) :
    Except StoreError Record × Scene Fifo ε :=
  match x.outside S.swap with
  | (.carriedOut, x) => (.ok (e.holds s), { x with state := x.state.grant s })
  | (.late, x) => (.error (.transaction (.timeout (shownLimit c.limits.store))), x)
  | (.turnedDown err, x) => (.error err, x)

/-- The head of a queue asks for the space, which is free: block it, and make it the holder. -/
def tryGrant (s : SpaceId) (e : Entry) (x : Scene Fifo ε) : Outcome × Scene Fifo ε :=
  match command S c (.block s) x with
  | (.error err, x) => (.failedToBlock s e.worker err.message, x)
  | (.ok _, x) =>
    match promote S c s e x with
    | (.ok _, x) => (.granted s e.worker, publish S ⟨e.worker, .sharedSpaceLock (some s)⟩ x)
    | (.error err, x) =>
      (.failedToGrant s e.worker err.message, (command S c (.unblock s) x).2)

/-- One step of a space. -/
def evaluate (s : SpaceId) (x : Scene Fifo ε) : Outcome × Scene Fifo ε :=
  match x.state.holder? s with
  | some h => (.occupied s h.worker, x)
  | none =>
    match x.state.waiting s with
    | [] => (.idle s, x)
    | e :: _ =>
      match x.state.lockOf? e.worker with
      | some other => (.deferred s e.worker other, x)
      | none => tryGrant S c s e x

/-- A worker joins a queue, unless it holds the space or is in the queue. -/
def enroll (w : WorkerId) (s : SpaceId) (x : Scene Fifo ε) :
    Except OperationError Outcome × Scene Fifo ε :=
  match checkIds w s with
  | .error err => (.error (.invalidRecord err), x)
  | .ok () =>
    let (stamp, y) := S.stamp x
    if x.state.holdsIt w s || x.state.waitsFor w s then (.ok (.alreadyEnrolled s w), y)
    else
      (.ok (.enrolled s w stamp.priority),
        { y with state := y.state.join s ⟨w, stamp.priority, stamp.time⟩ })

/-- A worker leaves a space; if it was the holder, the space is unblocked and then evaluated. -/
def letGo (w : WorkerId) (s : SpaceId) (x : Scene Fifo ε) : List Outcome × Scene Fifo ε :=
  if x.state.holdsIt w s then
    let (unblocked, x) := command S c (.unblock s) x
    let x := publish S ⟨w, .sharedSpaceLock none⟩ { x with state := x.state.leave w s }
    let (next, x) := evaluate S c s x
    ([.released s w unblocked.isOk, next], x)
  else if x.state.waitsFor w s then
    ([.withdrawn s w], { x with state := x.state.leave w s })
  else ([.notEnrolled s w], x)

/-- Release a worker from a space. -/
def release (w : WorkerId) (s : SpaceId) (x : Scene Fifo ε) :
    Except OperationError (List Outcome) × Scene Fifo ε :=
  match checkIds w s with
  | .error err => (.error (.invalidRecord err), x)
  | .ok () =>
    let (outcomes, x) := letGo S c w s x
    (.ok outcomes, x)

/-- A worker leaves several spaces, one after the other; spaces it is not in are not mentioned. -/
def letGoAll (w : WorkerId) : List SpaceId → Scene Fifo ε → List Outcome × Scene Fifo ε
  | [], x => ([], x)
  | s :: rest, x =>
    let (outcomes, y) := letGo S c w s x
    let (later, z) := letGoAll w rest y
    (outcomes.filter isNews ++ later, z)

/-- A worker leaves the space it holds and all configured ones, in ascending order. -/
def abandon (w : WorkerId) (x : Scene Fifo ε) :
    Except OperationError (List Outcome) × Scene Fifo ε :=
  if w.isBlank then (.error (.invalidRecord (.missingField .workerId)), x)
  else
    let (outcomes, y) := letGoAll S c w (ascending ((x.state.lockOf? w).toList ++ c.spaces)) x
    (.ok outcomes, y)

/-- What an operation answers and leaves. -/
def perform : (o : Operation) → Scene Fifo ε → o.Answer × Scene Fifo ε
  | .enroll w s, x => enroll S w s x
  | .evaluate s, x => evaluate S c s x
  | .release w s, x => release S c w s x
  | .abandon w, x => abandon S c w x
  | .lockHolders, x => (.ok (x.state.locks.map fun l => (l.1, l.2.worker)), x)
  | .queue s, x => (.ok (x.state.row s), x)

end Operations

end Fifo

end Interlock.Sequential
