import Interlock.Proofs.Concurrent.System
import Interlock.Proofs.Store.Stretch

/-!
The manners of coordinators: what an operation asks of the store and of the vendor, and what it has
seen just before. Only an enrollment adds records, all of them waiting; only a release or an
abandonment deletes records, all of the worker it is about; a swap puts the holder record of a
waiting record in its place and comes right after the space was blocked; and an unblock comes right
after a look at the space that called for it.
-/
namespace Interlock

open Coordinator Store Fleet

namespace Coordinator.Operation

def LetsGo (o : Operation) (w : WorkerId) (s : SpaceId) : Prop :=
  o = .release w s ∨ o = .abandon w

/-- The calls an operation may make that change the table. -/
def Changes (o : Operation) : Store.Call → Prop
  | .add r | .addIfAbsent r => o = .enroll r.worker r.space ∧ r.isHolder = false
  | .delete r => o.LetsGo r.worker r.space
  | .swap new old => new = old.toHolder
  | _ => True

end Coordinator.Operation

namespace Concurrent

/-- A look at a space after which an operation may unblock it: a worker that is to go holds it, or
nobody does. -/
inductive Look (o : Operation) (s : SpaceId) : (a : Action) → a.Answer → Prop
  | held {limit : Option Time.Duration} {w : WorkerId} {rs : List Record} (goes : o.LetsGo w s)
      (holds : rs.any Record.isHolder = true) :
    Look o s (.store limit (.find s w)) (.inTime (.ok rs))
  | free {limit : Option Time.Duration} :
    Look o s (.store limit (.lockHolder s)) (.inTime (.ok none))

inductive Blocked (s : SpaceId) : (a : Action) → a.Answer → Prop
  | ok {limit : Option Time.Duration} : Blocked s (.vendor limit (.block s)) (.inTime (.ok ()))

def JustHad (log : Log actions) (P : (a : Action) → a.Answer → Prop) : Prop :=
  ∃ e ∈ log.head?, P e.1 e.2

/-- The next action that an operation may take after a log. -/
def Allows (o : Operation) (log : Log actions) : Action → Prop
  | .store _ (.swap new old) => new = old.toHolder ∧ JustHad log (Blocked old.space)
  | .store _ c => o.Changes c
  | .vendor _ (.unblock s) => JustHad log (Look o s)
  | _ => True

/-- An answer that some table could have given, or that any failure could be. -/
def MayAnswer : (a : Action) → a.Answer → Prop
  | .store _ c, .inTime (.ok v) => ∃ t : Table, (c.apply t).1 = .ok v
  | _, _ => True

/-- The manners of an operation. -/
def manners (o : Operation) : Conduct actions := ⟨Allows o, MayAnswer⟩

theorem mayAnswer_of_effect {t t' : Table} {minters minters' : Nat → Minter} {a : Action}
    {r : a.Answer} (effect : Effect t minters a r t' minters') : MayAnswer a r := by
  cases effect with
  | store limit c =>
    cases answer : (c.apply t).1 with
    | ok v => exact ⟨t, answer⟩
    | error e => trivial
  | vendor => trivial
  | publish => trivial
  | stamp => trivial

theorem mayAnswer_of_fails {a : Action} {r : a.Answer} (fails : Fails a r) : MayAnswer a r := by
  cases fails <;> trivial

/-! What answers tell. -/

theorem of_mayAnswer_find {l : Option Time.Duration} {s : SpaceId} {w : WorkerId}
    {rs : List Record} (may : MayAnswer (.store l (.find s w)) (.inTime (.ok rs))) :
    ∀ r ∈ rs, r.space = s ∧ r.worker = w := by
  obtain ⟨t, answer⟩ := may
  simp only [Call.apply, Except.ok.injEq] at answer
  subst answer
  exact fun r hr => (Table.mem_find.1 hr).2

theorem of_mayAnswer_nextWaiter {l : Option Time.Duration} {s : SpaceId} {r : Record}
    (may : MayAnswer (.store l (.nextWaiter s)) (.inTime (.ok (some r)))) : r.space = s := by
  obtain ⟨t, answer⟩ := may
  simp only [Call.apply, Except.ok.injEq] at answer
  exact (Table.mem_of_nextWaiter answer).2.1

/-! Every operation has manners. -/

section Operations

open Program

variable {o : Operation} {c : Coordinator} {l : Limits} {w : WorkerId} {s : SpaceId}

def Enrolls (w : WorkerId) (s : SpaceId) : Action → Prop
  | .stamp _ => True
  | .store _ (.addIfAbsent r) => r.worker = w ∧ r.space = s ∧ r.isHolder = false
  | _ => False

theorem enroll_enrolls :
    (c.enroll w s).Keeps ⟨fun _ => Enrolls w s, fun _ _ => True⟩ (fun _ _ => True) [] := by
  unfold Coordinator.enroll
  split
  · trivial
  · refine Keeps.bind (fun log => ?_) fun a log => by cases a <;> simp
    simp only [Queue.enroll, keeps_bind, ask, keeps_call, keeps_done]
    refine ⟨trivial, fun stamp _ => ?_⟩
    split
    · trivial
    · exact keeps_bind.2 (keeps_callStore.2
        ⟨⟨rfl, rfl, rfl⟩, fun a _ => by cases a <;> trivial, fun _ => trivial⟩)

/-- Both ways to enroll add nothing but waiting records of the worker in the space. -/
theorem enroll_manners (e : Enrolling) :
    (planAt e c (.enroll w s)).Keeps (manners (.enroll w s)) (fun _ _ => True) [] := by
  cases e with
  | atOnce =>
    refine enroll_enrolls.imp (fun log a enrolls => ?_) fun _ _ _ => trivial
    rcases a with ⟨_, call⟩ | _ | _ | _
    · cases call with
      | addIfAbsent r =>
        obtain ⟨rfl, rfl, waits⟩ := enrolls
        exact ⟨rfl, waits⟩
      | _ => cases enrolls
    · cases enrolls
    · cases enrolls
    · trivial
  | inTwoCalls =>
    refine Keeps.handle enroll_enrolls (fun a enrolls log => ?_) []
    rcases a with ⟨limit, call⟩ | _ | _ | _
    · cases call with
      | addIfAbsent r =>
        obtain ⟨rfl, rfl, waits⟩ := enrolls
        simp only [splitEnrollment, lookThenAdd]
        split
        · trivial
        · simp only [keeps_bind, ask, keeps_call, keeps_done]
          refine ⟨trivial, fun found _ => ?_⟩
          split
          · trivial
          · trivial
          · trivial
          · simp only [keeps_bind, keeps_call, keeps_done]
            exact ⟨⟨rfl, waits⟩, fun added _ => by split <;> trivial⟩
      | _ => cases enrolls
    · cases enrolls
    · cases enrolls
    · exact ⟨trivial, fun _ _ => trivial⟩

theorem takeBackBlock_manners (waiting : Record) (log : Log actions) :
    (c.takeBackBlock s waiting).Keeps (manners o) (fun _ _ => True) log := by
  unfold takeBackBlock Queue.lockHolder
  refine keeps_bind.2 (keeps_callStore.2 ⟨trivial, fun a _ => ?_, fun _ => trivial⟩)
  rcases a with e | holder | holder
  · trivial
  · exact keeps_bind.2 (keeps_command.2
      ⟨⟨_, rfl, .free⟩, fun a _ => by cases a <;> trivial, fun _ => trivial⟩)
  · trivial

theorem grant_manners {waiting : Record} (own : waiting.space = s) (log : Log actions) :
    (c.grant s waiting).Keeps (manners o) (fun _ _ => True) log := by
  unfold grant
  refine keeps_bind.2 (keeps_command.2 ⟨trivial, fun a _ => ?_, fun _ => trivial⟩)
  rcases a with e | ⟨⟩
  · trivial
  · subst own
    refine keeps_bind.2 (keeps_bind.2 (keeps_callStore.2
      ⟨⟨rfl, _, rfl, .ok⟩, fun a _ => ?_, fun _ => ?_⟩))
    · cases a with
      | error e => exact Keeps.bind (takeBackBlock_manners waiting) fun _ _ => trivial
      | ok u =>
        simp only [keeps_pure, keeps_bind, keeps_report, keeps_publish]
        exact ⟨trivial, fun _ _ => trivial⟩
    · exact Keeps.bind (takeBackBlock_manners waiting) fun _ _ => trivial

theorem attempt_manners (log : Log actions) :
    (c.attempt s).Keeps (manners o) (fun _ _ => True) log := by
  unfold attempt Queue.lockHolder Queue.nextWaiter Queue.heldBy Queue.lockHolders
  refine keeps_bind.2 (keeps_callStore.2 ⟨trivial, fun a _ => ?_, fun _ => trivial⟩)
  rcases a with e | holder | holder
  · trivial
  · refine keeps_bind.2 (keeps_callStore.2 ⟨trivial, fun a may => ?_, fun _ => trivial⟩)
    rcases a with e | waiting | waiting
    · trivial
    · trivial
    · have own := of_mayAnswer_nextWaiter (l := c.limits.store) may
      refine keeps_bind.2 (keeps_bind.2 (keeps_callStore.2
        ⟨trivial, fun a _ => ?_, fun _ => trivial⟩))
      cases a with
      | error e => trivial
      | ok holders =>
        simp only [keeps_pure]
        split
        · trivial
        · exact Keeps.bind (grant_manners own) fun _ _ => trivial
  · trivial

theorem evaluate_manners (log : Log actions) :
    (c.evaluate s).Keeps (manners o) (fun _ _ => True) log := by
  rw [evaluate, keeps_inSpan]
  exact Keeps.bind attempt_manners fun a _ => by cases a <;> trivial

theorem deleteAll_manners (goes : o.LetsGo w s) {rs : List Record}
    (own : ∀ r ∈ rs, r.space = s ∧ r.worker = w) (removal : Queue.Removal) (log : Log actions) :
    (Queue.deleteAll l removal rs).Keeps (manners o) (fun _ _ => True) log := by
  induction rs generalizing removal log with
  | nil => trivial
  | cons r rest ih =>
    obtain ⟨rfl, rfl⟩ := own r List.mem_cons_self
    refine keeps_bind.2 (keeps_callStore.2 ⟨goes, fun a _ => ?_, fun _ => trivial⟩)
    cases a with
    | error e => trivial
    | ok u => exact ih (fun x hx => own x (List.mem_cons_of_mem _ hx)) _ _

theorem remove_manners (goes : o.LetsGo w s) (log : Log actions) :
    (Queue.remove l w s).Keeps (manners o) (fun _ _ => True) log := by
  unfold Queue.remove Queue.recordsOf
  refine keeps_bind.2 (keeps_callStore.2 ⟨trivial, fun a may => ?_, fun _ => trivial⟩)
  cases a with
  | error e => trivial
  | ok rs => exact deleteAll_manners goes (of_mayAnswer_find (l := l.store) may) _ _

theorem withdraw_manners (goes : o.LetsGo w s) (log : Log actions) :
    (c.withdraw w s).Keeps (manners o) (fun _ _ => True) log :=
  Keeps.bind (remove_manners goes) fun a _ => by cases a <;> trivial

theorem removeHolder_manners (goes : o.LetsGo w s) (unblocked : Bool) (log : Log actions) :
    (c.removeHolder w s unblocked).Keeps (manners o) (fun _ _ => True) log := by
  unfold removeHolder
  refine Keeps.bind (remove_manners goes) fun a log => ?_
  cases a with
  | error e => trivial
  | ok removal =>
    have finish (log : Log actions) : (do
        publish c.limits ⟨w, .sharedSpaceLock none⟩
        let next ← c.evaluate s
        return .ok [.released s w unblocked, next] :
        Plan (Except OperationError (List Outcome))).Keeps (manners o) (fun _ _ => True) log :=
      keeps_bind.2 (keeps_publish.2 ⟨trivial, fun _ _ =>
        Keeps.bind evaluate_manners fun _ _ => trivial⟩)
    cases removal with
    | holder r => exact finish log
    | waiting r => exact finish log
    | notEnrolled => exact finish log

theorem release_manners (goes : o.LetsGo w s) (log : Log actions) :
    (c.release w s).Keeps (manners o) (fun _ _ => True) log := by
  unfold Coordinator.release Queue.recordsOf
  split
  · trivial
  · refine keeps_bind.2 (keeps_callStore.2 ⟨trivial, fun a may => ?_, fun _ => trivial⟩)
    rcases a with e | rs
    · trivial
    · rcases rs with _ | ⟨r, rs⟩
      · trivial
      · simp only
        split
        · next holds =>
          unfold releaseHolder
          refine keeps_bind.2 (keeps_command.2
            ⟨⟨_, rfl, .held goes holds⟩, fun a _ => ?_, fun _ => ?_⟩)
          · cases a with
            | error e => exact removeHolder_manners goes false _
            | ok u => exact removeHolder_manners goes true _
          · exact removeHolder_manners goes false _
        · exact withdraw_manners goes _

theorem releaseAll_manners (goes : ∀ s, o.LetsGo w s) (sofar : List Outcome) (ss : List SpaceId)
    (log : Log actions) :
    (c.releaseAll w sofar ss).Keeps (manners o) (fun _ _ => True) log := by
  induction ss generalizing sofar log with
  | nil => trivial
  | cons s rest ih =>
    refine Keeps.bind (release_manners (goes s)) fun a log => ?_
    cases a with
    | error e => trivial
    | ok outcomes => exact ih _ log

theorem abandon_manners (goes : ∀ s, o.LetsGo w s) (log : Log actions) :
    (c.abandon w).Keeps (manners o) (fun _ _ => True) log := by
  unfold Coordinator.abandon Queue.heldBy Queue.lockHolders
  split
  · trivial
  · refine keeps_bind.2 (keeps_bind.2 (keeps_callStore.2
      ⟨trivial, fun a _ => ?_, fun _ => trivial⟩))
    cases a with
    | error e => trivial
    | ok holders =>
      exact Keeps.bind (releaseAll_manners goes [] _) fun a _ => by cases a <;> trivial

end Operations

/-- Every operation has manners, whichever way the store enrolls. -/
theorem planAt_manners (e : Enrolling) (c : Coordinator) (o : Operation) :
    (planAt e c o).Keeps (manners o) (fun _ _ => True) [] := by
  cases o with
  | enroll w s => exact enroll_manners e
  | evaluate s => exact evaluate_manners []
  | release w s => exact release_manners (.inl rfl) []
  | abandon w => exact abandon_manners (fun _ => .inr rfl) []
  | lockHolders =>
    simp only [planAt, Operation.plan, Coordinator.lockHolders, Queue.lockHolders]
    refine Program.keeps_bind.2 (keeps_callStore.2 ⟨trivial, fun a _ => ?_, fun _ => trivial⟩)
    cases a <;> trivial
  | queue s =>
    simp only [planAt, Operation.plan, Coordinator.queue, Queue.records]
    refine Program.keeps_bind.2 (keeps_callStore.2 ⟨trivial, fun a _ => ?_, fun _ => trivial⟩)
    cases a <;> trivial

end Concurrent

end Interlock
