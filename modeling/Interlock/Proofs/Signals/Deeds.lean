import Interlock.Proofs.Sequential.Scene
import Interlock.Proofs.Store.Enrolled

/-!
One coordinator at a store that may fail. Any store call may be late or refused, and then it has no
effect; vendor, registry and clock answer as they like. An enrollment that succeeds leaves its
worker with a record in the space and a release that succeeds leaves it with none; one that fails
leaves the worker where it was. Everybody else stays in any case, and an evaluation, whatever
becomes of it, takes nobody in or out.
-/
namespace Interlock.Signals

open Coordinator Store Fleet Interlock.Sequential

variable {ε : Type}

/-- The world outside of a coordinator, where it is also said what becomes of each store call. -/
structure Weather (ε : Type) where
  clock : ε → (Int64 × Time.Instant) × ε
  vendor : (c : Command) → ε → Timed c.Answer × ε
  registry : Publication → ε → Timed Publication.Answer × ε
  store : Call → ε → SwapFate × ε

namespace Weather

/-- The same world with a store that never fails. -/
def steady (W : Weather ε) : Surroundings ε :=
  ⟨W.clock, W.vendor, W.registry, fun b => (.carriedOut, b)⟩

/-- How every action of the coordinator is answered. -/
def answer (W : Weather ε) : (a : Action) → Scene Table ε → a.Answer × Scene Table ε
  | .store _ c, x =>
    match W.store c x.beyond with
    | (.carriedOut, b) => Surroundings.call c { x with beyond := b }
    | (.late, b) => (.late, { x with beyond := b })
    | (.turnedDown e, b) => (.inTime (c.fail e), { x with beyond := b })
  | a, x => W.steady.answer a x

variable {W : Weather ε} {c : Coordinator} {l : Limits} {w : WorkerId} {s : SpaceId}
  {x : Scene Table ε}

/-- A store call fails and leaves the table, or is carried out on it. -/
theorem ends_store {k : Call} {post : k.Answer → Scene Table ε → Prop}
    (fails : ∀ e y, y.state = x.state → post (.error e) y)
    (works : ∀ y, y.state = (k.apply x.state).2 → post (k.apply x.state).1 y) :
    (callStore l k).Ends W.answer post x := by
  rw [ends_callStore]
  rcases fate : W.store k x.beyond with ⟨_ | _ | e, b⟩
  · simp only [answer, fate]
    exact works _ rfl
  · simp only [answer, fate]
    exact fails _ _ rfl
  · simp only [answer, fate]
    exact fails e _ rfl

/-- What is read leaves the table in any case. -/
theorem reads {k : Call} (reading : k.writes = false) {post : k.Answer → Scene Table ε → Prop}
    (fails : ∀ e y, y.state = x.state → post (.error e) y)
    (works : ∀ y, y.state = x.state → post (k.apply x.state).1 y) :
    (callStore l k).Ends W.answer post x := by
  refine ends_store fails fun y same => works y (same.trans ?_)
  cases k <;> first | rfl | cases reading

/-- Commands to the vendor have nothing to do with the table. -/
theorem command_ends {k : Command} :
    (command l k).Ends W.answer (fun _ y => y.state = x.state) x := by
  rw [ends_command]
  rfl

theorem publish_ends {p : Publication} :
    (publish l p).Ends W.answer (fun _ y => y.state = x.state) x := by
  rw [ends_publish]
  rfl

/-! Evaluating. -/

theorem takeBackBlock_ends (waiting : Record) :
    (c.takeBackBlock s waiting).Ends W.answer (fun _ y => y.state = x.state) x := by
  unfold Coordinator.takeBackBlock Queue.lockHolder
  rw [Program.ends_bind]
  refine reads rfl (fun e y same => same) fun y same => ?_
  simp only [Call.apply]
  cases x.state.holder s with
  | some h => exact same
  | none =>
    rw [Program.ends_bind]
    refine command_ends.mono fun a z unblocked => ?_
    cases a with
    | ok u => exact unblocked.trans same
    | error e => exact unblocked.trans same

theorem promote_ends (waiting : Record) :
    (Queue.promote l waiting).Ends W.answer (fun _ y => x.state.SameHas y.state) x := by
  unfold Queue.promote
  rw [Program.ends_bind]
  refine ends_store (fun e y same => ?_) fun y swapped => ?_
  · exact Table.sameHas_of_eq same
  · cases result : x.state.swap waiting.toHolder waiting with
    | ok t =>
      simp only [Call.apply, result, Call.settle] at swapped ⊢
      have same : x.state.SameHas y.state := swapped ▸ Table.sameHas_of_swap result
      exact same
    | error e =>
      simp only [Call.apply, result, Call.settle] at swapped ⊢
      exact Table.sameHas_of_eq swapped

theorem grant_ends (waiting : Record) :
    (c.grant s waiting).Ends W.answer (fun _ y => x.state.SameHas y.state) x := by
  unfold Coordinator.grant
  rw [Program.ends_bind]
  refine command_ends.mono fun a y same => ?_
  cases a with
  | error e => exact Table.sameHas_of_eq same
  | ok u =>
    rw [Program.ends_bind]
    refine (promote_ends waiting).mono fun a z promoted => ?_
    rw [same] at promoted
    cases a with
    | ok r =>
      simp only [Program.ends_bind, Program.ends_report, Program.ends_pure]
      exact publish_ends.mono fun _ _ told => promoted.trans (Table.sameHas_of_eq told)
    | error e =>
      rw [Program.ends_bind]
      exact (takeBackBlock_ends waiting).mono fun _ _ taken =>
        promoted.trans (Table.sameHas_of_eq taken)

theorem attempt_ends :
    (c.attempt s).Ends W.answer (fun _ y => x.state.SameHas y.state) x := by
  have stays {y : Scene Table ε} (same : y.state = x.state) : x.state.SameHas y.state :=
    Table.sameHas_of_eq same
  unfold Coordinator.attempt Queue.lockHolder
  rw [Program.ends_bind]
  refine reads rfl (fun e y same => stays same) fun y same => ?_
  simp only [Call.apply]
  cases x.state.holder s with
  | some h => exact stays same
  | none =>
    unfold Queue.nextWaiter
    simp only [Program.ends_bind]
    refine reads rfl (fun e z same' => stays (same'.trans same)) fun z same' => ?_
    simp only [Call.apply]
    cases y.state.nextWaiter s with
    | none => exact stays (same'.trans same)
    | some waiting =>
      unfold Queue.heldBy Queue.lockHolders
      simp only [Program.ends_bind]
      have unchanged : z.state = x.state := same'.trans same
      refine reads rfl (fun e z' same => stays (same.trans unchanged)) fun z' same => ?_
      simp only [Call.apply, Program.ends_pure]
      split
      · exact stays (same.trans unchanged)
      · rw [Program.ends_bind]
        refine (grant_ends waiting).mono fun o y granted => ?_
        rw [same, unchanged] at granted
        exact granted

/-- An evaluation takes nobody in or out. -/
theorem evaluate_ends :
    (c.evaluate s).Ends W.answer (fun _ y => x.state.SameHas y.state) x := by
  unfold Coordinator.evaluate
  rw [Program.ends_inSpan, Program.ends_bind]
  refine attempt_ends.mono fun a y same => ?_
  cases a with
  | ok o => exact same
  | error e => exact same

/-! Releasing. -/

/-- Deletions that fail half way have deleted the first of the records. -/
theorem deleteAll_ends (sofar : Queue.Removal) (rs : List Record) :
    (Queue.deleteAll l sofar rs).Ends W.answer
      (fun a y => ∃ front rest, rs = front ++ rest ∧ rest.isEmpty = a.isOk ∧
        y.state = x.state.deleteAll front) x := by
  induction rs generalizing x sofar with
  | nil => exact ⟨[], [], rfl, rfl, rfl⟩
  | cons r rs ih =>
    rw [Queue.deleteAll, Program.ends_bind]
    refine ends_store (fun e y same => ⟨[], r :: rs, rfl, rfl, same⟩) fun y deleted => ?_
    refine (ih (sofar.add r)).mono fun a z later => ?_
    obtain ⟨front, rest, split, ok, left⟩ := later
    refine ⟨r :: front, rest, congrArg (r :: ·) split, ok, left.trans ?_⟩
    rw [deleted]
    rfl

theorem remove_ends :
    (Queue.remove l w s).Ends W.answer
      (fun a y => Table.Settles w s False a.isOk x.state y.state) x := by
  unfold Queue.remove Queue.recordsOf
  rw [Program.ends_bind]
  refine reads rfl (fun e y same => ?_) fun y same => ?_
  · exact Table.settles_of_sameHas (Table.sameHas_of_eq same)
  · refine (deleteAll_ends .notEnrolled (x.state.find s w)).mono fun a z deleted => ?_
    obtain ⟨front, rest, found, ok, left⟩ := deleted
    rw [same] at left
    rw [← ok, left]
    exact Table.settles_deleteAll found

theorem withdraw_ends :
    (c.withdraw w s).Ends W.answer
      (fun a y => Table.Settles w s False a.isOk x.state y.state) x := by
  unfold Coordinator.withdraw
  rw [Program.ends_bind]
  refine remove_ends.mono fun a y removed => ?_
  cases a with
  | ok removal => exact removed
  | error e => exact removed

/-- The evaluation that follows a removal makes no difference. -/
theorem removeHolder_ends (unblocked : Bool) :
    (c.removeHolder w s unblocked).Ends W.answer
      (fun a y => Table.Settles w s False a.isOk x.state y.state) x := by
  unfold Coordinator.removeHolder
  rw [Program.ends_bind]
  refine remove_ends.mono fun a y removed => ?_
  cases a with
  | error e => exact removed
  | ok removal =>
    have next : (publish c.limits ⟨w, .sharedSpaceLock none⟩ >>= fun _ =>
        c.evaluate s >>= fun next => pure (.ok [.released s w unblocked, next])).Ends W.answer
          (fun (a : Except OperationError (List Outcome)) z =>
            Table.Settles w s False a.isOk x.state z.state) y := by
      simp only [Program.ends_bind, Program.ends_pure]
      refine publish_ends.mono fun _ z told => ?_
      refine evaluate_ends.mono fun o z' same => ?_
      rw [told] at same
      exact removed.trans same
    -- what was removed only makes a difference to the notes
    cases removal with
    | holder r => exact Program.ends_bind.2 (Program.ends_report.2 next)
    | waiting r => exact next
    | notEnrolled => exact next

theorem releaseHolder_ends :
    (c.releaseHolder w s).Ends W.answer
      (fun a y => Table.Settles w s False a.isOk x.state y.state) x := by
  unfold Coordinator.releaseHolder
  rw [Program.ends_bind]
  refine command_ends.mono fun a y same => ?_
  rw [← same]
  cases a with
  | ok u => exact removeHolder_ends true
  | error e => exact Program.ends_bind.2 (Program.ends_report.2 (removeHolder_ends false))

/-- A release that succeeds takes the worker out of the space, and one that fails does not. -/
theorem release_ends :
    (c.release w s).Ends W.answer
      (fun a y => Table.Settles w s False a.isOk x.state y.state) x := by
  have stays {y : Scene Table ε} (same : y.state = x.state) :
      Table.Settles w s False false x.state y.state :=
    Table.settles_of_sameHas (Table.sameHas_of_eq same)
  unfold Coordinator.release
  cases checkIds w s with
  | error e => exact stays rfl
  | ok u =>
    unfold Queue.recordsOf
    simp only [Program.ends_bind]
    refine reads rfl (fun e y same => stays same) fun y same => ?_
    simp only [Call.apply]
    cases found : x.state.find s w with
    | nil =>
      have nobody := Table.settles_deleteAll (show _ = [] ++ [] from found)
      rw [← same] at nobody ⊢
      exact nobody
    | cons r rs =>
      simp only
      rw [← same]
      split
      · exact releaseHolder_ends
      · exact withdraw_ends

/-! Enrolling. -/

/-- An enrollment that succeeds leaves the worker with a record, and one that fails changes
nothing. -/
theorem enroll_ends :
    (c.enroll w s).Ends W.answer
      (fun a y => Table.Settles w s True a.isOk x.state y.state) x := by
  have stays {y : Scene Table ε} (same : y.state = x.state) :
      Table.Settles w s True false x.state y.state :=
    Table.settles_of_sameHas (Table.sameHas_of_eq same)
  unfold Coordinator.enroll
  cases checkIds w s with
  | error e => exact stays rfl
  | ok u =>
    unfold Queue.enroll
    simp only [Program.ends_bind]
    refine Program.ends_ask.2 ?_
    rcases stamped : W.answer (.stamp c.minter) x with ⟨stamp, z⟩
    have same : z.state = x.state := congrArg (fun p => p.2.state) stamped.symm
    simp only
    cases valid : (Record.waiting s w stamp.priority stamp.time).validate with
    | error e => exact stays same
    | ok u =>
      simp only [Program.ends_bind]
      refine ends_store (fun e y kept => stays (kept.trans same)) fun y added => ?_
      have settles := Table.settles_addIfAbsent (t := x.state)
        (r := .waiting s w stamp.priority stamp.time) rfl
      rw [same] at added ⊢
      rw [← added] at settles
      cases answer : ((Call.addIfAbsent (.waiting s w stamp.priority stamp.time)).apply x.state).1
        with
      | error e => rwa [answer] at settles
      | ok b => rwa [answer] at settles

end Weather

end Interlock.Signals
