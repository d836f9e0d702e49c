import Interlock.Coordinator.Operation
import Interlock.Proofs.Program.Quiet

/-!
One coordinator at a store in memory, its operations one after the other. The readings of the
clock, what the vendor and the registry answer, and whether the store turns down a swap come from
outside; each may depend on everything that was asked for before.
-/
namespace Interlock

def Coordinator.Operation.enrolls : Operation → Bool
  | .enroll .. => true
  | _ => false

/-- A request needs a space and a worker with names. -/
theorem Coordinator.checkIds_eq_ok_iff {w : WorkerId} {s : SpaceId} :
    checkIds w s = .ok () ↔ s.isBlank = false ∧ w.isBlank = false := by
  unfold checkIds
  cases s.isBlank <;> cases w.isBlank <;> simp

namespace Sequential

open Coordinator Store Fleet

/-- What becomes of a swap. A swap that is late or turned down has no effect. -/
inductive SwapFate where
  | carriedOut
  | late
  | turnedDown (e : StoreError)
  deriving DecidableEq, Repr

/-- The world outside, which answers from a state of its own. -/
structure Surroundings (ε : Type) where
  clock : ε → (Int64 × Time.Instant) × ε
  vendor : (c : Command) → ε → Timed c.Answer × ε
  registry : Publication → ε → Timed Publication.Answer × ε
  swap : ε → SwapFate × ε

/-- The state of a coordinator's world: the queues in some form, the minter, and the outside. -/
structure Scene (σ ε : Type) where
  state : σ
  minter : Minter := {}
  beyond : ε

variable {σ ε : Type}

def Scene.outside {α : Type} (f : ε → α × ε) (x : Scene σ ε) : α × Scene σ ε :=
  ((f x.beyond).1, { x with beyond := (f x.beyond).2 })

namespace Surroundings

variable (S : Surroundings ε)

def call (c : Store.Call) (x : Scene Table ε) : Timed c.Answer × Scene Table ε :=
  (.inTime (c.apply x.state).1, { x with state := (c.apply x.state).2 })

def stamp (x : Scene σ ε) : Stamp × Scene σ ε :=
  let ((reading, time), b) := S.clock x.beyond
  let (p, minter) := x.minter.mint reading.toInt
  (⟨p, time⟩, { x with minter := minter, beyond := b })

/-- How every action of the coordinator is answered. -/
def answer : (a : Action) → Scene Table ε → a.Answer × Scene Table ε
  | .store _ (.swap new old), x =>
    match S.swap x.beyond with
    | (.carriedOut, b) => call (.swap new old) { x with beyond := b }
    | (.late, b) => (.late, { x with beyond := b })
    | (.turnedDown e, b) => (.inTime (.error e), { x with beyond := b })
  | .store _ c, x => call c x
  | .vendor _ c, x => x.outside (S.vendor c)
  | .publish _ p, x => x.outside (S.registry p)
  | .stamp _, x => S.stamp x

def perform (c : Coordinator) (o : Operation) (x : Scene Table ε) : o.Answer × Scene Table ε :=
  (o.plan c).runQuiet S.answer x

end Surroundings

/-- Operations one after the other, with all their answers. -/
def trail (perform : (o : Operation) → Scene σ ε → o.Answer × Scene σ ε) :
    List Operation → Scene σ ε → List ((o : Operation) × o.Answer) × Scene σ ε
  | [], x => ([], x)
  | o :: os, x =>
    let (a, y) := perform o x
    let (as, z) := trail perform os y
    (⟨o, a⟩ :: as, z)

end Sequential

end Interlock
