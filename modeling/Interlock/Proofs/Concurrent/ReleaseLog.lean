import Interlock.Proofs.Concurrent.Runs

/-!
The calls of a release when nothing fails. It looks at the records of the worker; if it sees a
holder record it unblocks the space; it looks again and deletes every record of the second look, one
after the other; after that it deletes nothing more. The two looks need not show the same records.
-/
namespace Interlock.Concurrent

open Coordinator Store Fleet Program

/-- The answers to be reckoned with when nothing fails. -/
def Smooth : (a : Action) → a.Answer → Prop
  | .store _ (.find _ _), r => ∃ rs, r = .inTime (.ok rs)
  | .store _ (.delete _), r => r = .inTime (.ok ())
  | .vendor _ (.unblock _), r => r = .inTime (.ok ())
  | _, _ => True

/-- Anything may be asked, and the answers are those of a table at which nothing fails. -/
def smoothly : Conduct actions := ⟨fun _ _ => True, fun a r => MayAnswer a r ∧ Smooth a r⟩

def looked (l : Limits) (s : SpaceId) (w : WorkerId) (rs : List Record) :
    (a : Action) × a.Answer :=
  ⟨.store l.store (.find s w), .inTime (.ok rs)⟩

def unblocked (l : Limits) (s : SpaceId) : (a : Action) × a.Answer :=
  ⟨.vendor l.command (.unblock s), .inTime (.ok ())⟩

def deleted (l : Limits) (r : Record) : (a : Action) × a.Answer :=
  ⟨.store l.store (.delete r), .inTime (.ok ())⟩

def Spares (entry : (a : Action) × a.Answer) : Prop := ∀ l r, entry.1 ≠ .store l (.delete r)

/-- The calls up to the second look, which comes first in this list. -/
def looks (l : Limits) (s : SpaceId) (w : WorkerId) (first second : List Record) : Log actions :=
  looked l s w second ::
    ((if first.any Record.isHolder then [unblocked l s] else []) ++ [looked l s w first])

/-- The log of a release that came to its end without a failure. -/
inductive Released (s : SpaceId) (w : WorkerId) :
    Log actions → Except OperationError (List Outcome) → Prop
  | invalid {log : Log actions} {e : OperationError} : Released s w log (.error e)
  | notEnrolled {l : Limits} : Released s w [looked l s w []] (.ok [.notEnrolled s w])
  | removed {l : Limits} {first second : List Record} {after : Log actions}
      {answer : List Outcome} (spares : ∀ e ∈ after, Spares e) :
    Released s w (after ++ ((second.map (deleted l)).reverse ++ looks l s w first second))
      (.ok answer)

section Programs

variable {c : Coordinator} {l : Limits} {w : WorkerId} {s : SpaceId} {old : Log actions}

theorem deleteAll_smoothly (sofar : Queue.Removal) (rs : List Record) :
    (Queue.deleteAll l sofar rs).Keeps smoothly
      (fun log a => (∃ removal, a = .ok removal) ∧ log = (rs.map (deleted l)).reverse ++ old)
      old := by
  induction rs generalizing sofar old with
  | nil => exact ⟨⟨_, rfl⟩, rfl⟩
  | cons r rs ih =>
    refine keeps_bind.2 (keeps_callStore.2 ⟨trivial, fun a expected => ?_, fun expected => ?_⟩)
    · obtain rfl : a = .ok () := Timed.inTime.inj expected.2
      refine (ih _).mono fun log a h => ⟨h.1, ?_⟩
      rw [h.2]
      simp [deleted]
    · cases expected.2

theorem remove_smoothly :
    (Queue.remove l w s).Keeps smoothly
      (fun log a => (∃ removal, a = .ok removal) ∧
        ∃ rs, log = (rs.map (deleted l)).reverse ++ looked l s w rs :: old) old := by
  unfold Queue.remove Queue.recordsOf
  refine keeps_bind.2 (keeps_callStore.2 ⟨trivial, fun a expected => ?_, fun expected => ?_⟩)
  · obtain ⟨rs, shown⟩ := expected.2
    obtain rfl := Timed.inTime.inj shown
    exact (deleteAll_smoothly _ rs).mono fun log a h => ⟨h.1, rs, h.2⟩
  · obtain ⟨rs, shown⟩ := expected.2
    cases shown

theorem withdraw_smoothly :
    (c.withdraw w s).Keeps smoothly
      (fun log a => a = .ok [.withdrawn s w] ∧
        ∃ rs, log = (rs.map (deleted c.limits)).reverse ++ looked c.limits s w rs :: old) old := by
  refine keeps_bind.2 (remove_smoothly.mono ?_)
  rintro log _ ⟨⟨removal, rfl⟩, found⟩
  exact ⟨rfl, found⟩

/-- An evaluation deletes nothing. -/
theorem evaluate_smoothly :
    (c.evaluate s).Keeps smoothly
      (fun log _ => ∃ new, log = new ++ old ∧ ∀ e ∈ new, Spares e) old := by
  have manners := (evaluate_manners (o := .evaluate s) (c := c) (s := s) old).appended
  refine (manners.imp (fun _ _ _ => trivial) fun a r (expected : smoothly.expects a r) =>
    expected.1).mono ?_
  rintro log _ ⟨new, rfl, allowed⟩
  refine ⟨new, rfl, fun entry made l r call => ?_⟩
  obtain ⟨log', allows⟩ := allowed entry made
  rw [call] at allows
  rcases allows with go | go <;> cases go

theorem removeHolder_smoothly (u : Bool) :
    (c.removeHolder w s u).Keeps smoothly
      (fun log a => (∃ answer, a = .ok answer) ∧ ∃ after rs, (∀ e ∈ after, Spares e) ∧
        log = after ++ ((rs.map (deleted c.limits)).reverse ++ looked c.limits s w rs :: old))
      old := by
  unfold removeHolder
  refine keeps_bind.2 (remove_smoothly.mono ?_)
  rintro log _ ⟨⟨removal, rfl⟩, rs, rfl⟩
  have finish : (do
      publish c.limits ⟨w, .sharedSpaceLock none⟩
      let next ← c.evaluate s
      return .ok [.released s w u, next] :
      Plan (Except OperationError (List Outcome))).Keeps smoothly
        (fun log a => (∃ answer, a = .ok answer) ∧ ∃ after rs, (∀ e ∈ after, Spares e) ∧
          log = after ++ ((rs.map (deleted c.limits)).reverse ++ looked c.limits s w rs :: old))
        ((rs.map (deleted c.limits)).reverse ++ looked c.limits s w rs :: old) := by
    refine keeps_bind.2 (keeps_publish.2 ⟨trivial, fun r _ => ?_⟩)
    refine keeps_bind.2 (evaluate_smoothly.mono ?_)
    rintro log next ⟨new, rfl, spares⟩
    refine ⟨⟨_, rfl⟩, new ++ [⟨.publish c.limits.command _, r⟩], rs, fun e he => ?_, by simp⟩
    rcases List.mem_append.1 he with he | he
    · exact spares e he
    · rw [List.mem_singleton.1 he]
      exact fun _ _ h => nomatch h
  cases removal with
  | holder r => exact finish
  | waiting r => exact finish
  | notEnrolled => exact finish

/-- What the log of a release looks like. -/
theorem release_smoothly : (c.release w s).Keeps smoothly (Released s w) [] := by
  unfold Coordinator.release Queue.recordsOf
  split
  · exact .invalid
  · refine keeps_bind.2 (keeps_callStore.2 ⟨trivial, fun a expected => ?_, fun expected => ?_⟩)
    · obtain ⟨first, shown⟩ := expected.2
      obtain rfl := Timed.inTime.inj shown
      cases first with
      | nil => exact .notEnrolled
      | cons r rs =>
        simp only
        split
        · next holds =>
          unfold releaseHolder
          refine keeps_bind.2 (keeps_command.2
            ⟨trivial, fun a expected => ?_, fun expected => ?_⟩)
          · obtain rfl : a = .ok () := Timed.inTime.inj expected.2
            refine (removeHolder_smoothly true).mono ?_
            rintro log _ ⟨⟨answer, rfl⟩, after, second, spares, rfl⟩
            have removed : Released s w (after ++ ((second.map (deleted c.limits)).reverse ++
                looks c.limits s w (r :: rs) second)) (.ok answer) := .removed spares
            rw [looks, if_pos holds] at removed
            exact removed
          · cases expected.2
        · next waits =>
          refine withdraw_smoothly.mono ?_
          rintro log _ ⟨rfl, second, rfl⟩
          have removed : Released s w ([] ++ ((second.map (deleted c.limits)).reverse ++
              looks c.limits s w (r :: rs) second)) (.ok [.withdrawn s w]) :=
            .removed fun e he => nomatch he
          rw [looks, if_neg waits] at removed
          exact removed
    · obtain ⟨rs, shown⟩ := expected.2
      cases shown

end Programs

end Interlock.Concurrent
