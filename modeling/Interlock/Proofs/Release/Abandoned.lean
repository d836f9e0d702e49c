import Interlock.Proofs.Evaluation.Failures
import Interlock.Proofs.Ordered
import Interlock.Proofs.Release.Course

/-!
What an abandonment leaves of its worker. The spaces it goes through are those that the worker held
at the start and those that were configured. From each of them the worker is released, and from then
on no evaluation grants it anything there; the spaces that are not gone through keep all of its
records. So the worker holds nothing in the end, and what is left of it are its waiting records in
spaces that it did not hold and that nobody configured. Specification, section 4.3: Shared Space
Coordinator.
-/
namespace Interlock.Release

open Coordinator Store Fleet Interlock.Sequential Evaluation Program

variable {ε : Type} {W : Hazards ε} {c : Coordinator} {l : Limits} {w : WorkerId} {s : SpaceId}
  {ss ss' : List SpaceId} {x : Scene Table ε} {log : Log actions} {t t' t'' : Table}

/-- The worker has left the spaces, and has all of its records in others. -/
def Quits (w : WorkerId) (ss : List SpaceId) (t t' : Table) : Prop :=
  ∀ r, r.worker = w → (r ∈ t'.records ↔ r ∈ t.records ∧ r.space ∉ ss)

theorem Quits.refl (w : WorkerId) (t : Table) : Quits w [] t t := by
  simp [Quits]

theorem Quits.trans (first : Quits w ss t t') (second : Quits w ss' t' t'') :
    Quits w (ss ++ ss') t t'' := by
  intro r own
  rw [second r own, first r own, List.mem_append, not_or, and_assoc]

/-- An evaluation leaves the records of a worker that has none in the space. -/
theorem quits_of_absent {o : Outcome} (course : Evaluation.Course W l s t log o t')
    (absent : ∀ r ∈ t.records, r.space = s → r.worker ≠ w) : Quits w [] t t' := by
  rcases course.accounted.table with rfl | ⟨q, first, -, exchanged⟩
  · exact .refl w t'
  · intro r own
    have other := absent q first.stored first.space
    have new : r ≠ q.toHolder := by
      rintro rfl
      exact other own
    have old : r ≠ q := by
      rintro rfl
      exact other own
    simp [exchanged r, new, old]

theorem Removing.quits (removing : Removing W l w s t log (.ok ()) t') : Quits w [s] t t' := by
  intro r own
  cases removing with
  | read deleting =>
    cases deleting
    rw [Table.mem_deleteAll_find, List.mem_singleton]
    simp only [own, and_true]

/-- A release that succeeds takes its worker out of the space. -/
theorem Course.quits {os : List Outcome} (course : Course W l w s t log (.ok os) t') :
    Quits w [s] t t' := by
  cases course with
  | absent nobody =>
    intro r own
    rw [List.mem_singleton, iff_self_and]
    exact fun stored space => Table.find_eq_nil_iff.1 nobody r stored space own
  | withdrawn waits removing => exact removing.quits
  | released holds answered removing p evaluated =>
    refine removing.quits.trans (quits_of_absent evaluated fun r stored space own => ?_)
    exact ((removing.quits r own).1 stored).2 (List.mem_singleton.2 space)

/-- A release fails because of its store or of its request. -/
theorem Course.isOk {a : Except OperationError (List Outcome)} (course : Course W l w s t log a t')
    (steady : ∀ k, ¬W.Fails k) (valid : checkIds w s = .ok ()) : a.isOk = true := by
  have removes {new : Log actions} {e : StoreError} {left : Table} :
      ¬Removing W l w s t new (.error e) left := by
    rintro (⟨fault, -⟩ | ⟨deleting⟩)
    · exact steady _ fault
    · cases deleting with
      | stopped split fault => exact steady _ fault
  cases course with
  | invalid wrong => simp [valid] at wrong
  | unread fault => exact absurd fault (steady _)
  | notWithdrawn waits removing | notReleased holds answered removing =>
    exact absurd removing removes
  | absent | withdrawn | released => rfl

/-- The spaces that are gone through. -/
theorem mem_visited : s ∈ distinctSpaces (t.spacesOf w ++ ss) ↔ t.Holds w s ∨ s ∈ ss := by
  simp [distinctSpaces, mem_eraseReps, Table.mem_spacesOf]

/-- The spaces of the worker are read, or the holders could not be read. -/
theorem heldBy_ends {post : Except StoreError (List SpaceId) → Log actions × Scene Table ε → Prop}
    (fails : ∀ e y, W.Fails .lockHolders → post (.error e) y)
    (works : ∀ y, y.2.state = x.state → post (.ok (x.state.spacesOf w)) y) :
    (Queue.heldBy l w).Ends (recorded W.answer) post (log, x) := by
  unfold Queue.heldBy Queue.lockHolders
  rw [ends_bind]
  refine Hazards.read_ends rfl (fun a e y fault _ _ => ?_) fun y same => ?_
  · exact fails e _ fault
  · exact works _ same

/-- Releases one after the other take the worker out of all their spaces, and out of no other. -/
theorem releaseAll_ends (sofar : List Outcome) (ss : List SpaceId) :
    (c.releaseAll w sofar ss).Ends (recorded W.answer)
      (fun a y => (a.isOk = true → Quits w ss x.state y.2.state) ∧
        ((∀ k, ¬W.Fails k) → (∀ s ∈ ss, checkIds w s = .ok ()) → a.isOk = true)) (log, x) := by
  induction ss generalizing x log sofar with
  | nil => exact ⟨fun _ => .refl w x.state, fun _ _ => rfl⟩
  | cons s ss ih =>
    rw [Coordinator.releaseAll, ends_bind, ends_recorded_append]
    refine (release_course W c w s x).mono fun a y course => ?_
    cases a with
    | error e =>
      refine ends_pure.2 ⟨nofun, fun steady valid => ?_⟩
      have released := course.isOk steady (valid s List.mem_cons_self)
      cases released
    | ok outcomes =>
      refine (ih _).mono fun a z rest => ⟨fun ok => ?_, fun steady valid => ?_⟩
      · exact course.quits.trans (rest.1 ok)
      · exact rest.2 steady fun p later => valid p (List.mem_cons_of_mem s later)

/-- Who has left all spaces that it held holds nothing. -/
theorem Quits.not_holds (quits : Quits w ss t t') (all : ∀ s, t.Holds w s → s ∈ ss)
    (s : SpaceId) : ¬t'.Holds w s := by
  intro holds
  obtain ⟨r, held, space, own⟩ := Table.holds_iff.1 holds
  obtain ⟨stored, isHolder⟩ := Table.mem_holders.1 held
  obtain ⟨before, elsewhere⟩ := (quits r own).1 stored
  have held := Table.mem_holders.2 ⟨before, isHolder⟩
  exact elsewhere (all r.space (Table.holds_iff.2 ⟨r, held, rfl, own⟩))

/-- Whatever the vendor answers and whichever store calls fail: after an abandonment that succeeds
the worker holds no space, and of its records exactly those are left that waited in spaces which it
did not hold and which are not configured. It succeeds if the store works and no identifier is
blank. -/
theorem records_after_abandon (W : Hazards ε) (c : Coordinator) (w : WorkerId) (x : Scene Table ε) :
    (c.abandon w).Ends W.answer
      (fun a y =>
        (a.isOk = true → (∀ s, ¬y.state.Holds w s) ∧ ∀ r, r.worker = w →
          (r ∈ y.state.records ↔
            r ∈ x.state.records ∧ ¬x.state.Holds w r.space ∧ r.space ∉ c.spaces)) ∧
        ((∀ k, ¬W.Fails k) → w.isBlank = false → (∀ s ∈ c.spaces, s.isBlank = false) →
          a.isOk = true)) x := by
  rw [← ends_recorded []]
  unfold Coordinator.abandon
  split
  next blank => exact ⟨nofun, fun _ named => absurd blank (by simp [named])⟩
  rw [ends_bind]
  refine heldBy_ends (fun e y fault => ?_) fun y same => ?_
  · exact ends_pure.2 ⟨nofun, fun steady => absurd fault (steady _)⟩
  refine ends_bind.2 ((releaseAll_ends [] _).mono fun a z after => ?_)
  rw [same] at after
  obtain ⟨quits, ends⟩ := after
  have leaves (ok : a.isOk = true) : (∀ s, ¬z.2.state.Holds w s) ∧ ∀ r, r.worker = w →
      (r ∈ z.2.state.records ↔
        r ∈ x.state.records ∧ ¬x.state.Holds w r.space ∧ r.space ∉ c.spaces) := by
    refine ⟨(quits ok).not_holds fun s held => mem_visited.2 (.inl held), fun r own => ?_⟩
    rw [quits ok r own, mem_visited, not_or]
  have succeeds (steady : ∀ k, ¬W.Fails k) (worker : w.isBlank = false)
      (spaces : ∀ s ∈ c.spaces, s.isBlank = false) : a.isOk = true := by
    refine ends steady fun s here => (mem_visited.1 here).elim checkIds_of_holds fun listed => ?_
    exact checkIds_eq_ok_iff.2 ⟨spaces s listed, worker⟩
  cases a with
  | error e => exact ends_pure.2 ⟨leaves, succeeds⟩
  | ok outcomes => exact ends_bind.2 (ends_report.2 ⟨leaves, succeeds⟩)

/-- A world in which nothing fails. -/
def smooth : Surroundings Unit where
  clock b := ((0, ⟨0, 0⟩), b)
  vendor
    | .block _, b | .unblock _, b => (.inTime (.ok ()), b)
    | .status _, b | .location _, b => (.late, b)
  registry _ b := (.late, b)
  swap b := (.carriedOut, b)

/-- A worker that waits for a space which is not configured still does after it was abandoned. -/
example :
    let c : Coordinator := { spaces := [⟨"s-1"⟩] }
    let x := (trail (smooth.perform c) [.enroll ⟨"w-1"⟩ ⟨"s-2"⟩] ⟨.empty, {}, ()⟩).2
    let y := smooth.perform c (.abandon ⟨"w-1"⟩) x
    y.1 = .ok [] ∧ ∃ r ∈ y.2.state.records, r.space = ⟨"s-2"⟩ ∧ r.worker = ⟨"w-1"⟩ := by
  decide +kernel

end Interlock.Release
