import Interlock.Coordinator.Operation
import Interlock.Proofs.Program.Conduct
import Mathlib.Logic.Function.Basic

/-!
Coordinators that share one store, one vendor and one registry, a single call at a time. Any number
of operations is under way; whichever of them goes on makes its next call, and the call takes
effect at once. A call may also be refused without any effect, and its caller may stop waiting for
it: then the call is adrift and takes effect at any later time, or never. What happened is kept as
a history, the latest event first, with the table each event found. Specification, section 5:
Concurrency & Resource Model.
-/
namespace Interlock.Concurrent

open Coordinator Store Fleet

/-- Whether the store carries out an enrollment as a single call. -/
inductive Enrolling where
  | atOnce | inTwoCalls
  deriving DecidableEq, Repr

/-- An enrollment in two calls: look for records of the worker, and add one if there is none. -/
def lookThenAdd (limit : Option Time.Duration) (r : Record) :
    Plan (Timed (Except StoreError Bool)) :=
  match r.validate with
  | .error e => return .inTime (.error (.invalidRecord e))
  | .ok () => do
    match ← Program.ask (I := actions) (.store limit (.find r.space r.worker)) with
    | .late => return .late
    | .inTime (.error e) => return .inTime (.error e)
    | .inTime (.ok (_ :: _)) => return .inTime (.ok false)
    | .inTime (.ok []) =>
      match ← Program.ask (I := actions) (.store limit (.add r)) with
      | .late => return .late
      | .inTime (.error e) => return .inTime (.error e)
      | .inTime (.ok ()) => return .inTime (.ok true)

/-- Carry out enrollments in two calls and every other action as it is. -/
def splitEnrollment : (a : Action) → Plan a.Answer
  | .store limit (.addIfAbsent r) => lookThenAdd limit r
  | a => Program.ask (I := actions) a

/-- The program of an operation at a store. Only enrolling depends on the store. -/
def planAt (e : Enrolling) (c : Coordinator) : (o : Operation) → Plan o.Answer
  | .enroll w s =>
    match e with
    | .atOnce => c.enroll w s
    | .inTwoCalls => (c.enroll w s).handle splitEnrollment
  | o => o.plan c

structure Task where
  operation : Operation
  rest : Plan operation.Answer

/-- What became of a call. -/
inductive Fate where
  | done
  /-- It failed and had no effect. -/
  | refused
  /-- It failed for its caller and may still take effect. -/
  | adrift
  deriving DecidableEq, Repr

/-- Something that happened. -/
inductive Event where
  | begun (task : Nat) (o : Operation)
  | call (task : Nat) (o : Operation) (a : Action) (r : a.Answer) (fate : Fate) (found : Table)
  /-- A call that was adrift took effect. -/
  | landed (o : Operation) (c : Store.Call) (found : Table)

/-- The operations under way and what they share. Numbers of tasks are never used again. -/
structure System where
  table : Table := .empty
  minters : Nat → Minter := fun _ => {}
  tasks : Nat → Option Task := fun _ => none
  adrift : List (Operation × Store.Call) := []
  history : List Event := []

/-- What an action that is done answers and leaves. The clock is read twice for a fresh priority,
once for the priority and once for the time, and may show anything. -/
inductive Effect (t : Table) (minters : Nat → Minter) :
    (a : Action) → a.Answer → Table → (Nat → Minter) → Prop
  | store (limit : Option Time.Duration) (c : Store.Call) :
    Effect t minters (.store limit c) (.inTime (c.apply t).1) (c.apply t).2 minters
  | vendor (limit : Option Time.Duration) (c : Command) (v : c.Value) :
    Effect t minters (.vendor limit c) (.inTime (.ok v)) t minters
  | publish (limit : Option Time.Duration) (p : Publication) :
    Effect t minters (.publish limit p) (.inTime (.ok ())) t minters
  | stamp (m : Nat) (reading : Int64) (time : Time.Instant) :
    Effect t minters (.stamp m) ⟨((minters m).mint reading.toInt).1, time⟩ t
      (Function.update minters m ((minters m).mint reading.toInt).2)

/-- A store call that is done answers what its meaning on the table says. -/
theorem Effect.answer_eq {t t' : Table} {minters minters' : Nat → Minter}
    {limit : Option Time.Duration} {c : Store.Call} {r : Timed c.Answer}
    (effect : Effect t minters (.store limit c) r t' minters') : r = .inTime (c.apply t).1 := by
  cases effect
  rfl

/-- The answers to an action that fails. -/
inductive Fails : (a : Action) → a.Answer → Prop
  | lateStore (limit : Option Time.Duration) (c : Store.Call) : Fails (.store limit c) .late
  | store (limit : Option Time.Duration) (c : Store.Call) (e : StoreError) :
    Fails (.store limit c) (.inTime (c.fail e))
  | lateVendor (limit : Option Time.Duration) (c : Command) : Fails (.vendor limit c) .late
  | vendor (limit : Option Time.Duration) (c : Command) (e : FleetError) :
    Fails (.vendor limit c) (.inTime (.error e))
  | latePublish (limit : Option Time.Duration) (p : Publication) : Fails (.publish limit p) .late
  | publish (limit : Option Time.Duration) (p : Publication) (e : RegistryError) :
    Fails (.publish limit p) (.inTime (.error e))

def storeCall? : Action → Option Store.Call
  | .store _ c => some c
  | _ => none

namespace System

/-- The system after a task was answered: its program goes on. -/
def answered (x : System) (i : Nat) {o : Operation} {a : Action} (next : a.Answer → Plan o.Answer)
    (r : a.Answer) (fate : Fate) : System :=
  { x with
    tasks := Function.update x.tasks i (some ⟨o, next r⟩)
    history := .call i o a r fate x.table :: x.history }

/-- One step of the system. -/
inductive Step : System → Event → System → Prop
  | begun {x : System} {i : Nat} (free : x.tasks i = none) (e : Enrolling) (c : Coordinator)
      (o : Operation) :
    Step x (.begun i o)
      { x with
        tasks := Function.update x.tasks i (some ⟨o, planAt e c o⟩)
        history := .begun i o :: x.history }
  | done {x : System} {i : Nat} {o : Operation} {rest : Plan o.Answer} {a : Action}
      {next : a.Answer → Plan o.Answer} {r : a.Answer} {t : Table} {minters : Nat → Minter}
      (task : x.tasks i = some ⟨o, rest⟩) (calls : rest.heed = .call a next)
      (effect : Effect x.table x.minters a r t minters) :
    Step x (.call i o a r .done x.table)
      { x.answered i next r .done with table := t, minters := minters }
  | refused {x : System} {i : Nat} {o : Operation} {rest : Plan o.Answer} {a : Action}
      {next : a.Answer → Plan o.Answer} {r : a.Answer}
      (task : x.tasks i = some ⟨o, rest⟩) (calls : rest.heed = .call a next) (fails : Fails a r) :
    Step x (.call i o a r .refused x.table) (x.answered i next r .refused)
  | adrift {x : System} {i : Nat} {o : Operation} {rest : Plan o.Answer} {a : Action}
      {next : a.Answer → Plan o.Answer} {r : a.Answer}
      (task : x.tasks i = some ⟨o, rest⟩) (calls : rest.heed = .call a next) (fails : Fails a r) :
    Step x (.call i o a r .adrift x.table)
      { x.answered i next r .adrift with
        adrift := (storeCall? a).toList.map (o, ·) ++ x.adrift }
  | landed {x : System} {o : Operation} {c : Store.Call}
      {before after : List (Operation × Store.Call)} (waits : x.adrift = before ++ (o, c) :: after) :
    Step x (.landed o c x.table)
      { x with
        table := (c.apply x.table).2
        adrift := before ++ after
        history := .landed o c x.table :: x.history }

/-- Steps one after the other, each with an event of the given kind. -/
inductive Run (fits : Event → Prop) (x : System) : System → Prop
  | here : Run fits x x
  | step {y z : System} {e : Event} (run : Run fits x y) (step : Step y e z) (fit : fits e) :
    Run fits x z

def opening (t : Table) (minters : Nat → Minter) : System := { table := t, minters := minters }

/-- The task has come to its end with this answer. -/
def Returned (x : System) (i : Nat) (o : Operation) (v : o.Answer) : Prop :=
  ∃ rest, x.tasks i = some ⟨o, rest⟩ ∧ rest.heed = .done v

end System

namespace Event

def effect? : Event → Option (Operation × Store.Call × Table)
  | .call _ o (.store _ c) _ .done t => some (o, c, t)
  | .landed o c t => some (o, c, t)
  | _ => none

def task? : Event → Option Nat
  | .begun i _ | .call i .. => some i
  | .landed .. => none

def operation : Event → Operation
  | .begun _ o | .call _ o .. | .landed o .. => o

def command? : Event → Option Command
  | .call _ _ (.vendor _ c) _ .done _ => some c
  | _ => none

def logged? (i : Nat) : Event → Option ((a : Action) × a.Answer)
  | .call j _ a r _ _ => if j = i then some ⟨a, r⟩ else none
  | _ => none

/-- Whether it may fail in a calm history: a swap that the store turns down, or a publication. -/
def mayFail : Action → Bool
  | .store _ (.swap ..) | .publish .. => true
  | _ => false

/-- Nothing failed, unless it was a swap that the store turned down or a publication. -/
def calm : Event → Bool
  | .begun .. => true
  | .call _ _ _ _ .done _ => true
  | .call _ _ (.store _ (.swap ..)) _ .refused _ => true
  | .call _ _ (.publish ..) _ _ _ => true
  | _ => false

end Event

def logOf (i : Nat) (history : List Event) : Log actions := history.filterMap (Event.logged? i)

end Interlock.Concurrent
