import Interlock.Proofs.Evaluation.Course

/-!
How a release of a worker from a space goes, under every pattern of failures. A release looks at the
records of the worker; if one of them holds the space it sends an unblock; then it looks again and
deletes what it finds, one record after the other; and in the end the space is evaluated for the
next one. The courses are listed with their whole log, the answer they give and the table they
leave, and an evaluation at the end is a course of its own.
-/
namespace Interlock.Release

open Coordinator Store Fleet Interlock.Sequential Evaluation Program

variable {ε : Type}

abbrev looked (l : Limits) (w : WorkerId) (s : SpaceId) (t : Table) : (a : Action) × a.Answer :=
  asked l (.find s w) (.inTime (.ok (t.find s w)))

abbrev deleted (l : Limits) (r : Record) : (a : Action) × a.Answer :=
  asked l (.delete r) (.inTime (.ok ()))

/-- The courses of the deletion of records one after the other: the log, the latest first, the
answer and the table that is left. -/
inductive Deleting (W : Hazards ε) (l : Limits) (t : Table) (rs : List Record) :
    Log actions → Except StoreError Unit → Table → Prop
  | done : Deleting W l t rs (rs.map (deleted l)).reverse (.ok ()) (t.deleteAll rs)
  /-- Records in front have been deleted, and the next one could not be. -/
  | stopped {front rest : List Record} {r : Record} (split : rs = front ++ r :: rest)
      {a : Timed (Call.delete r).Answer} {e : StoreError} (fault : W.Fails (.delete r))
      (fails : storeAnswer l (.delete r) a = .error e) {t' : Table}
      (landed : t' = t.deleteAll front ∨ W.Lands (.delete r) ∧ t' = t.deleteAll (front ++ [r])) :
    Deleting W l t rs (asked l (.delete r) a :: (front.map (deleted l)).reverse) (.error e) t'

/-- The courses of the removal of a worker from a space. -/
inductive Removing (W : Hazards ε) (l : Limits) (w : WorkerId) (s : SpaceId) (t : Table) :
    Log actions → Except StoreError Unit → Table → Prop
  | unread {a : Timed (Call.find s w).Answer} {e : StoreError} (fault : W.Fails (.find s w))
      (fails : storeAnswer l (.find s w) a = .error e) :
    Removing W l w s t [asked l (.find s w) a] (.error e) t
  | read {log : Log actions} {a : Except StoreError Unit} {t' : Table}
      (deleting : Deleting W l t (t.find s w) log a t') :
    Removing W l w s t (log ++ [looked l w s t]) a t'

/-- The courses of a release. -/
inductive Course (W : Hazards ε) (l : Limits) (w : WorkerId) (s : SpaceId) (t : Table) :
    Log actions → Except OperationError (List Outcome) → Table → Prop
  | invalid {e : RecordError} (wrong : checkIds w s = .error e) :
    Course W l w s t [] (.error (.invalidRecord e)) t
  | unread {a : Timed (Call.find s w).Answer} {e : StoreError} (fault : W.Fails (.find s w))
      (fails : storeAnswer l (.find s w) a = .error e) :
    Course W l w s t [asked l (.find s w) a] (.error (.ofStore e)) t
  | absent (nobody : t.find s w = []) :
    Course W l w s t [looked l w s t] (.ok [.notEnrolled s w]) t
  | notWithdrawn (waits : (t.find s w).any Record.isHolder = false) {log : Log actions}
      {e : StoreError} {t' : Table} (removing : Removing W l w s t log (.error e) t') :
    Course W l w s t (log ++ [looked l w s t]) (.error (.ofStore e)) t'
  | withdrawn (waits : (t.find s w).any Record.isHolder = false) {log : Log actions} {t' : Table}
      (removing : Removing W l w s t log (.ok ()) t') :
    Course W l w s t (log ++ [looked l w s t]) (.ok [.withdrawn s w]) t'
  | notReleased (holds : (t.find s w).any Record.isHolder = true)
      {u : Timed (Command.unblock s).Answer} (answered : W.Answers (.unblock s) u)
      {log : Log actions} {e : StoreError} {t' : Table}
      (removing : Removing W l w s t log (.error e) t') :
    Course W l w s t (log ++ [told l (.unblock s) u, looked l w s t]) (.error (.ofStore e)) t'
  | released (holds : (t.find s w).any Record.isHolder = true)
      {u : Timed (Command.unblock s).Answer} (answered : W.Answers (.unblock s) u)
      {log : Log actions} {t' : Table} (removing : Removing W l w s t log (.ok ()) t')
      (p : Timed Publication.Answer) {next : Log actions} {o : Outcome} {t'' : Table}
      (evaluated : Evaluation.Course W l s t' next o t'') :
    Course W l w s t
      (next ++ ⟨.publish l.command ⟨w, .sharedSpaceLock none⟩, p⟩ ::
        (log ++ [told l (.unblock s) u, looked l w s t]))
      (.ok [.released s w (vendorAnswer l (.unblock s) u).isOk, o]) t''

variable {W : Hazards ε} {c : Coordinator} {l : Limits} {w : WorkerId} {s : SpaceId}
  {x : Scene Table ε} {log : Log actions} {t t' : Table} {r : Record} {rs : List Record}

/-! What a request needs. -/

/-- Who holds a space has identifiers that a request may have. -/
theorem checkIds_of_holds (holds : t.Holds w s) : checkIds w s = .ok () := by
  obtain ⟨r, held, rfl, rfl⟩ := Table.holds_iff.1 holds
  have valid := t.valid r (Table.mem_holders.1 held).1
  obtain ⟨space, worker, -⟩ := (Record.validate_eq_ok_iff r).1 valid
  exact checkIds_eq_ok_iff.2 ⟨space, worker⟩

/-! Every part of a release takes one of its courses. -/

/-- One more record has been deleted before all others. -/
theorem Deleting.after {a : Except StoreError Unit}
    (deleting : Deleting W l ((t.delete r).getD t) rs log a t') :
    Deleting W l t (r :: rs) (log ++ [deleted l r]) a t' := by
  cases deleting with
  | done =>
    rw [← List.reverse_cons, ← List.map_cons]
    exact .done
  | @stopped front rest q split answer e fault fails t' landed =>
    have split' : r :: rs = (r :: front) ++ q :: rest := congrArg (r :: ·) split
    rw [List.cons_append, ← List.reverse_cons, ← List.map_cons]
    exact .stopped split' fault fails landed

/-- Deletions take one of their courses. -/
theorem deleteAll_course (sofar : Queue.Removal) (rs : List Record) :
    (Queue.deleteAll l sofar rs).Ends (recorded W.answer)
      (fun a y => ∃ new, y.1 = new ++ log ∧
        Deleting W l x.state rs new (a.map fun _ => ()) y.2.state) (log, x) := by
  induction rs generalizing x log sofar with
  | nil => exact ⟨[], rfl, .done⟩
  | cons r rs ih =>
    rw [Queue.deleteAll, ends_bind]
    refine Hazards.store_ends (fun a e y fault fails same => ?_) fun y same => ?_
    · have split : r :: rs = [] ++ r :: rs := rfl
      exact ends_pure.2 ⟨[asked l (.delete r) a], rfl, .stopped split fault fails same⟩
    · simp only [Call.apply] at same ⊢
      refine (ih (sofar.add r)).mono ?_
      rintro a z ⟨new, grown, deleting⟩
      refine ⟨new ++ [deleted l r], by simp [grown], ?_⟩
      rw [same] at deleting
      exact deleting.after

/-- A removal takes one of its courses. -/
theorem remove_course :
    (Queue.remove l w s).Ends (recorded W.answer)
      (fun a y => ∃ new, y.1 = new ++ log ∧
        Removing W l w s x.state new (a.map fun _ => ()) y.2.state) (log, x) := by
  unfold Queue.remove Queue.recordsOf
  rw [ends_bind]
  refine Hazards.read_ends rfl (fun a e y fault fails same => ?_) fun y same => ?_
  · exact ends_pure.2 ⟨[asked l (.find s w) a], rfl, same ▸ .unread fault fails⟩
  · simp only [Call.apply]
    refine (deleteAll_course .notEnrolled _).mono ?_
    rintro a z ⟨new, grown, deleting⟩
    refine ⟨new ++ [looked l w s x.state], by simp [grown], .read ?_⟩
    rwa [same] at deleting

theorem withdraw_course (waits : (x.state.find s w).any Record.isHolder = false) :
    (c.withdraw w s).Ends (recorded W.answer)
      (fun a y => Course W c.limits w s x.state y.1 a y.2.state)
      ([looked c.limits w s x.state], x) := by
  unfold Coordinator.withdraw
  rw [ends_bind]
  refine remove_course.mono ?_
  rintro a ⟨log, y⟩ ⟨new, rfl, removing⟩
  cases a with
  | error e => exact ends_pure.2 (.notWithdrawn waits removing)
  | ok removal => exact .withdrawn waits removing

/-- After the unblock the worker is removed, and the space is evaluated. -/
theorem removeHolder_course {t : Table} (holds : (t.find s w).any Record.isHolder = true)
    {u : Timed (Command.unblock s).Answer} (answered : W.Answers (.unblock s) u)
    (same : x.state = t) :
    (c.removeHolder w s (vendorAnswer c.limits (.unblock s) u).isOk).Ends (recorded W.answer)
      (fun a y => Course W c.limits w s t y.1 a y.2.state)
      ([told c.limits (.unblock s) u, looked c.limits w s t], x) := by
  subst same
  unfold Coordinator.removeHolder
  rw [ends_bind]
  refine remove_course.mono ?_
  rintro a ⟨log, y⟩ ⟨new, rfl, removing⟩
  cases a with
  | error e => exact ends_pure.2 (.notReleased holds answered removing)
  | ok removal =>
    have evaluated (p : Timed Publication.Answer) {z : Scene Table ε} (still : z.state = y.state) :
        (c.evaluate s).Ends (recorded W.answer)
          (fun o z' => Course W c.limits w s x.state z'.1
            (.ok [.released s w (vendorAnswer c.limits (.unblock s) u).isOk, o]) z'.2.state)
          (⟨.publish c.limits.command ⟨w, .sharedSpaceLock none⟩, p⟩ ::
            (new ++ [told c.limits (.unblock s) u, looked c.limits w s x.state]), z) := by
      rw [ends_recorded_append]
      refine (Hazards.evaluate_course W c s z).mono fun o z' course => ?_
      rw [still] at course
      exact .released holds answered removing p course
    -- what was removed only makes a difference to the notes
    cases removal <;>
      simp only [ends_bind, ends_report, ends_pure, ends_publish] <;>
      exact evaluated _ rfl

theorem releaseHolder_course (holds : (x.state.find s w).any Record.isHolder = true) :
    (c.releaseHolder w s).Ends (recorded W.answer)
      (fun a y => Course W c.limits w s x.state y.1 a y.2.state)
      ([looked c.limits w s x.state], x) := by
  unfold Coordinator.releaseHolder
  rw [ends_bind]
  refine Hazards.command_ends fun u y answered same => ?_
  have next := removeHolder_course (c := c) holds answered same
  cases unblocked : vendorAnswer c.limits (.unblock s) u with
  | ok v =>
    rw [unblocked] at next
    exact next
  | error e =>
    rw [unblocked] at next
    exact ends_bind.2 (ends_report.2 next)

/-- Every release takes one of the courses. -/
theorem release_course (W : Hazards ε) (c : Coordinator) (w : WorkerId) (s : SpaceId)
    (x : Scene Table ε) :
    (c.release w s).Ends (recorded W.answer)
      (fun a y => Course W c.limits w s x.state y.1 a y.2.state) ([], x) := by
  unfold Coordinator.release
  cases valid : checkIds w s with
  | error e => exact .invalid valid
  | ok u =>
    unfold Queue.recordsOf
    simp only [ends_bind]
    refine Hazards.read_ends rfl (fun a e y fault fails same => ?_) fun y same => ?_
    · exact ends_pure.2 (same ▸ .unread fault fails)
    · simp only [Call.apply]
      rw [← same]
      cases found : y.state.find s w with
      | nil =>
        have absent := Course.absent (W := W) (l := c.limits) found
        rw [looked, found] at absent
        exact absent
      | cons r rs =>
        simp only
        rw [← found]
        split
        · next holds => exact releaseHolder_course holds
        · next waits => exact withdraw_course (Bool.eq_false_iff.2 waits)

end Interlock.Release
