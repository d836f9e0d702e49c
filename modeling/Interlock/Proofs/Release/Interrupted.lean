import Interlock.Proofs.Concurrent.Manners
import Interlock.Proofs.Evaluation.Failures
import Interlock.Proofs.Release.Course
import Interlock.Proofs.Store.Enrolled

/-!
What a release that fails leaves half done. One coordinator has run its operations one after the
other, and so no worker has two records in one space. Then store calls fail without effect in a
release of a worker that holds its space, while the vendor does all it is told. A release that fails
leaves the table as it was, and with it the holder. If the first look at the records has failed then
that is all, and the space is still blocked. Everything later comes after the unblock, and nobody
blocks the space again: the worker holds a space that is not blocked. Specification, section 4.3:
Shared Space Coordinator.
-/
namespace Interlock.Release

open Coordinator Store Fleet Interlock.Sequential Evaluation Program

variable {ε : Type} {W : Hazards ε} {c : Coordinator} {l : Limits} {w : WorkerId} {s : SpaceId}
  {x : Scene Table ε} {log : Log actions} {t t' : Table}

/-! One record for each worker in each space, as long as one coordinator works alone. -/

/-- No record is added without a look for others. -/
def looking : Conduct actions where
  allows _ a := ∀ limit r, a ≠ Action.store limit (.add r)
  expects := Concurrent.MayAnswer

theorem looking_of_manners {o : Operation} {p : Plan o.Answer} (other : o.enrolls = false)
    (keeps : p.Keeps (Concurrent.manners o) (fun _ _ => True) log) :
    p.Keeps looking (fun _ _ => True) log := by
  refine keeps.imp (fun log a allows => ?_) fun _ _ may => may
  rintro limit r rfl
  obtain ⟨rfl, -⟩ := allows
  cases other

theorem plan_looking (c : Coordinator) (o : Operation) :
    (o.plan c).Keeps looking (fun _ _ => True) [] := by
  cases o with
  | enroll w s =>
    refine Concurrent.enroll_enrolls.imp (fun log a enrolls => ?_) fun _ _ _ => trivial
    rintro limit r rfl
    exact enrolls
  | evaluate s => exact looking_of_manners rfl (Concurrent.evaluate_manners [])
  | release w s => exact looking_of_manners rfl (Concurrent.release_manners (.inl rfl) [])
  | abandon w => exact looking_of_manners rfl (Concurrent.abandon_manners (fun _ => .inr rfl) [])
  | lockHolders => exact looking_of_manners rfl (Concurrent.planAt_manners .atOnce c .lockHolders)
  | queue s => exact looking_of_manners rfl (Concurrent.planAt_manners .atOnce c (.queue s))

/-- Whatever fails, an answer is one that some table gives, or a failure. -/
theorem mayAnswer_answer (W : Hazards ε) (a : Action) (x : Scene Table ε) :
    Concurrent.MayAnswer a (W.answer a x).1 := by
  cases a with
  | store limit k =>
    rcases fate : W.store k x.beyond with ⟨_ | ⟨landed, e⟩, b⟩
    · simp only [Hazards.answer, fate, Surroundings.call]
      cases answer : (k.apply x.state).1 with
      | ok v => exact ⟨x.state, answer⟩
      | error e => trivial
    · simp only [Hazards.answer, fate]
      cases e <;> trivial
  | _ => trivial

/-- Whatever fails, an action that does not add blindly leaves each worker with one record. -/
theorem single_answer (W : Hazards ε) {a : Action} (looks : ∀ limit r, a ≠ .store limit (.add r))
    (single : x.state.Single) : (W.answer a x).2.state.Single := by
  cases a with
  | store limit k =>
    have applied : (k.apply x.state).2.Single :=
      single.apply fun r same => looks limit r (congrArg _ same)
    rcases fate : W.store k x.beyond with ⟨_ | ⟨landed, e⟩, b⟩
    · simpa only [Hazards.answer, fate, Surroundings.call] using applied
    · simp only [Hazards.answer, fate]
      cases landed with
      | false => exact single
      | true => exact applied
  | _ => exact single

/-- Operations one after the other leave each worker with at most one record in each space. -/
theorem single_trail (W : Hazards ε) (c : Coordinator) (os : List Operation)
    (single : x.state.Single) : (trail (W.perform c) os x).2.state.Single := by
  induction os generalizing x with
  | nil => exact single
  | cons o os ih =>
    have kept : (o.plan c).Ends W.answer (fun _ y => y.state.Single) x :=
      (plan_looking c o).preserves (mayAnswer_answer W)
        (fun _ _ _ looks single => single_answer W looks single) single
    exact ih kept

/-! What is left of a release that fails. -/

/-- A store call that fails has no effect, and the vendor does what it is told. -/
structure Lapsing (W : Hazards ε) : Prop where
  harmless : ∀ k, ¬W.Lands k
  blocks : ∀ s b, (W.vendor (.block s) b).1 = .inTime (.ok ())
  unblocks : ∀ s b, (W.vendor (.unblock s) b).1 = .inTime (.ok ())

/-- What an event does about the block of a space at the vendor, if anything. -/
def blocks? (s : SpaceId) : Event → Option Bool
  | ⟨.vendor _ (.block p), a⟩ => if p = s ∧ a = .inTime (.ok ()) then some true else none
  | ⟨.vendor _ (.unblock p), a⟩ => if p = s ∧ a = .inTime (.ok ()) then some false else none
  | _ => none

/-- Whether the vendor has the space blocked after a log, when it had it blocked before. -/
def staysBlocked (s : SpaceId) (log : Log actions) : Bool := (log.findSome? (blocks? s)).getD true

@[simp] theorem blocks?_asked (k : Call) (a : Timed k.Answer) :
    blocks? s (asked l k a) = none := rfl

/-- A removal commands nothing. -/
theorem Removing.silent {a : Except StoreError Unit} (removing : Removing W l w s t log a t') :
    log.findSome? (blocks? s) = none := by
  rw [List.findSome?_eq_none_iff]
  cases removing with
  | unread => simp
  | read deleting =>
    cases deleting <;>
      simp only [List.mem_append, List.mem_cons, List.not_mem_nil, or_false, List.mem_reverse,
        List.mem_map]
    case done =>
      rintro e (⟨r, -, rfl⟩ | rfl) <;> rfl
    case stopped =>
      rintro e ((rfl | ⟨r, -, rfl⟩) | rfl) <;> rfl

/-- A removal of a single record that fails has changed nothing. -/
theorem Removing.untouched {h : Record} {e : StoreError} (harmless : ∀ k, ¬W.Lands k)
    (found : t.find s w = [h]) (removing : Removing W l w s t log (.error e) t') : t' = t := by
  cases removing with
  | unread => rfl
  | read deleting =>
    cases deleting with
    | @stopped front rest r split a e fault fails t' landed =>
      have first : front = [] := by
        rw [found] at split
        cases front with
        | nil => rfl
        | cons x xs => simp at split
      subst first
      exact landed.resolve_right fun lands => harmless _ lands.1

/-- A release of the holder that fails leaves the table, and leaves the block if it could not even
look. -/
theorem Course.interrupted {e : OperationError} (lapsing : Lapsing W) (single : t.Single)
    (held : t.Holds w s) (course : Course W l w s t log (.error e) t') :
    t' = t ∧ (staysBlocked s log = true ↔ (readError? log).isSome = true) := by
  obtain ⟨h, holder, own⟩ := held
  obtain ⟨stored, isHolder, space⟩ := Table.holder_eq_some_iff.1 holder
  have listed : h ∈ t.find s w := Table.mem_find.2 ⟨stored, space, own⟩
  have found : t.find s w = [h] := single.find_eq_singleton listed
  cases course with
  | invalid wrong =>
    rw [checkIds_of_holds ⟨h, holder, own⟩] at wrong
    cases wrong
  | unread fault fails =>
    refine ⟨rfl, iff_of_true rfl ?_⟩
    simp [readError?, List.takeWhile_cons, error?_of_storeAnswer fails]
  | notWithdrawn waits removing => simp [found, isHolder] at waits
  | notReleased holds answered removing =>
    obtain ⟨b, rfl⟩ := answered
    rw [lapsing.unblocks]
    refine ⟨removing.untouched lapsing.harmless found, iff_of_false ?_ ?_⟩
    · simp [staysBlocked, List.findSome?_append, removing.silent, blocks?]
    · simp [readError?, List.takeWhile_cons]

/-- One coordinator has worked alone, and whatever has failed then, the worker holds the space and
the vendor has it blocked. Now store calls may fail without effect, and commands do not fail. A
release that fails leaves the table as it was, so that the worker still holds the space; but the
space is still blocked only if the first look at the records was the call that failed. -/
theorem release_interrupted {past : Hazards ε} {os : List Operation} {minter : Minter} {b : ε}
    (lapsing : Lapsing W) (ran : (trail (past.perform c) os ⟨.empty, minter, b⟩).2 = x)
    (held : x.state.Holds w s) :
    (c.release w s).Ends (recorded W.answer)
      (fun a y => ∀ e, a = .error e → y.2.state = x.state ∧ y.2.state.Holds w s ∧
        (staysBlocked s y.1 = true ↔ (readError? y.1).isSome = true)) ([], x) := by
  have single : x.state.Single := ran ▸ single_trail past c os Table.Single.empty
  refine (release_course W c w s x).mono ?_
  rintro a ⟨log, y⟩ course e rfl
  obtain ⟨same, blocked⟩ := course.interrupted lapsing single held
  exact ⟨same, same ▸ held, blocked⟩

/-- The vendor obeys, and of the store calls the second one fails. -/
def lapse : Hazards Nat where
  clock n := ((0, ⟨0, 0⟩), n)
  vendor
    | .block _, n | .unblock _, n => (.inTime (.ok ()), n)
    | .status _, n | .location _, n => (.late, n)
  registry _ n := (.late, n)
  store _ n := (if n = 1 then .failed false none else .carriedOut, n + 1)

theorem lapsing_lapse : Lapsing lapse where
  harmless k := by
    rintro ⟨n, e, lands⟩
    simp only [lapse] at lands
    split at lands <;> cases lands
  blocks _ _ := rfl
  unblocks _ _ := rfl

/-- What one worker finds that has enrolled and was granted its space, when nothing failed. -/
def granted : Scene Table Nat :=
  let steady : Hazards Nat := { lapse with store := fun _ n => (.carriedOut, n) }
  (trail (steady.perform {}) [.enroll ⟨"w-1"⟩ ⟨"s-1"⟩, .evaluate ⟨"s-1"⟩] ⟨.empty, {}, 0⟩).2

/-- When the worker is to go, the second look at its records fails: it goes on holding its space,
which is not blocked any more. -/
theorem release_interrupted_lapse :
    (Coordinator.release {} ⟨"w-1"⟩ ⟨"s-1"⟩).Ends (recorded lapse.answer)
      (fun a y => a.isOk = false ∧ y.2.state.Holds ⟨"w-1"⟩ ⟨"s-1"⟩ ∧
        staysBlocked ⟨"s-1"⟩ y.1 = false) ([], granted) := by
  have held : granted.state.Holds ⟨"w-1"⟩ ⟨"s-1"⟩ := ⟨_, rfl, rfl⟩
  have ends := release_interrupted lapsing_lapse rfl held
  have seen : (Coordinator.release {} ⟨"w-1"⟩ ⟨"s-1"⟩).Ends (recorded lapse.answer)
      (fun a y => a.isOk = false ∧ (readError? y.1).isSome = false) ([], granted) := by
    unfold Ends
    decide +kernel
  refine (ends.and seen).mono ?_
  rintro a ⟨log, y⟩ ⟨ends, failed, looked⟩
  cases a with
  | ok outcomes => cases failed
  | error e =>
    obtain ⟨-, still, blocked⟩ := ends e rfl
    refine ⟨rfl, still, Bool.eq_false_iff.2 fun stays => ?_⟩
    rw [blocked.1 stays] at looked
    cases looked

end Interlock.Release
