import Interlock.Proofs.Concurrent.System

/-!
Runs that can be computed. A move names the operation that begins or the task that goes on; the
call of that task is done, the vendor and the registry agree to everything and the clock stands at
zero. What a list of moves leads to is reached by a run.
-/
namespace Interlock.Concurrent

open Coordinator Store Fleet

inductive Move where
  | begin (i : Nat) (e : Enrolling) (c : Coordinator) (o : Operation)
  | go (i : Nat)

/-- Carry out an action that changes a space. -/
def carryOut (t : Table) (minters : Nat → Minter) :
    (a : Action) → Option (a.Answer × Table × (Nat → Minter))
  | .store _ c => some (.inTime (c.apply t).1, (c.apply t).2, minters)
  | .vendor _ (.block _) | .vendor _ (.unblock _) => some (.inTime (.ok ()), t, minters)
  | .vendor .. => none
  | .publish .. => some (.inTime (.ok ()), t, minters)
  | .stamp m =>
    some (⟨((minters m).mint 0).1, default⟩, t, Function.update minters m ((minters m).mint 0).2)

theorem effect_of_carryOut {t t' : Table} {minters minters' : Nat → Minter} {a : Action}
    {r : a.Answer} (carried : carryOut t minters a = some (r, t', minters')) :
    Effect t minters a r t' minters' := by
  cases a with
  | store limit c => cases carried; exact .store limit c
  | vendor limit c =>
    cases c with
    | block s => cases carried; exact .vendor limit (.block s) ()
    | unblock s => cases carried; exact .vendor limit (.unblock s) ()
    | status w => cases carried
    | location w => cases carried
  | publish limit p => cases carried; exact .publish limit p
  | stamp m => cases carried; exact .stamp m 0 default

namespace System

/-- Make a move, if it is possible. -/
def take (x : System) : Move → Option System
  | .begin i e c o =>
    if (x.tasks i).isNone then
      some { x with
        tasks := Function.update x.tasks i (some ⟨o, planAt e c o⟩)
        history := .begun i o :: x.history }
    else none
  | .go i =>
    match x.tasks i with
    | none => none
    | some ⟨_, rest⟩ =>
      match rest.heed with
      | .call a next =>
        match carryOut x.table x.minters a with
        | some (r, t, minters) =>
          some { x.answered i next r .done with table := t, minters := minters }
        | none => none
      | _ => none

def follow (x : System) : List Move → Option System
  | [] => some x
  | m :: ms => (x.take m).bind fun y => y.follow ms

/-- Whether a task has nothing left to do. -/
def ended (x : System) (i : Nat) : Bool :=
  match x.tasks i with
  | none => true
  | some ⟨_, rest⟩ =>
    match rest.heed with
    | .done _ => true
    | _ => false

/-- The operation that a task has come to the end of, and what it returned. -/
def returned? (x : System) (i : Nat) : Option ((o : Operation) × o.Answer) :=
  match x.tasks i with
  | some ⟨o, rest⟩ =>
    match rest.heed with
    | .done v => some ⟨o, v⟩
    | _ => none
  | none => none

/-- The release that a task has come to the end of, and what it returned. -/
def released? (x : System) (i : Nat) : Option (WorkerId × SpaceId × List Outcome) :=
  match x.tasks i with
  | some ⟨.release w s, rest⟩ =>
    match rest.heed with
    | .done (.ok answer) => some (w, s, answer)
    | _ => none
  | _ => none

variable {x y z : System}

theorem returned_of_released? {i : Nat} {w : WorkerId} {s : SpaceId} {answer : List Outcome}
    (released : x.released? i = some (w, s, answer)) :
    x.Returned i (.release w s) (.ok answer) := by
  unfold released? at released
  split at released
  · next task =>
    split at released
    · next ended =>
      cases released
      exact ⟨_, task, ended⟩
    · cases released
  · cases released

theorem returned_of_returned? {i : Nat} {o : Operation} {v : o.Answer}
    (returned : x.returned? i = some ⟨o, v⟩) : x.Returned i o v := by
  unfold returned? at returned
  split at returned
  · next task =>
    split at returned
    · next ended =>
      cases returned
      exact ⟨_, task, ended⟩
    · cases returned
  · cases returned

/-- A move is a step in which nothing fails. -/
theorem step_of_take {m : Move} (taken : x.take m = some y) :
    ∃ e, Step x e y ∧ e.calm = true := by
  cases m with
  | begin i e c o =>
    simp only [take] at taken
    split at taken
    · next free =>
      cases taken
      exact ⟨_, .begun (Option.isNone_iff_eq_none.1 free) e c o, rfl⟩
    · cases taken
  | go i =>
    simp only [take] at taken
    split at taken
    · cases taken
    · next o rest task =>
      split at taken
      · next a next calls =>
        split at taken
        · next r t minters carried =>
          cases taken
          exact ⟨_, .done task calls (effect_of_carryOut carried), rfl⟩
        · cases taken
      · cases taken

theorem Run.trans {fits : Event → Prop} (first : Run fits x y) (second : Run fits y z) :
    Run fits x z := by
  induction second with
  | here => exact first
  | step run step fit ih => exact .step ih step fit

theorem Run.imp {fits fits' : Event → Prop} (weaker : ∀ e, fits e → fits' e)
    (run : Run fits x y) : Run fits' x y := by
  induction run with
  | here => exact .here
  | step run step fit ih => exact .step ih step (weaker _ fit)

/-- What the moves lead to is reached by a run in which nothing fails. -/
theorem run_of_follow {ms : List Move} (followed : x.follow ms = some y) :
    Run (·.calm = true) x y := by
  induction ms generalizing x with
  | nil => cases followed; exact .here
  | cons m ms ih =>
    obtain ⟨z, taken, followed⟩ := Option.bind_eq_some_iff.1 followed
    obtain ⟨e, step, calm⟩ := step_of_take taken
    exact Run.trans (.step .here step calm) (ih followed)

end System

end Interlock.Concurrent
