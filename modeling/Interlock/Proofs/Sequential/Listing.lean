import Interlock.Proofs.Sequential.Accord
import Interlock.Proofs.Store.Held

/-!
What a registry shows of the locks. Everything a coordinator publishes is listed, whatever the
registry answers to it. Between two operations the list is right about every worker: the space it
shows for a worker is the one that the worker holds. Inside an operation it is behind at two places,
between a swap and its publication and between the removal of a holder and the publication that
follows; whatever fails does so on one side of both. Specification, section 4.3: Shared Space
Coordinator.
-/
namespace Interlock

namespace Sequential

open Coordinator Store Fleet

variable {ε : Type}

/-- What was last published for a worker, in a list with the latest publication first. -/
def lastPublished (w : WorkerId) (ps : List Publication) : Option WorkerProperty :=
  (ps.find? fun p => p.worker == w).map Publication.property

def unlisted {α : Type} (f : ε → α × ε) (x : List Publication × ε) : α × (List Publication × ε) :=
  ((f x.2).1, (x.1, (f x.2).2))

/-- The same world with a registry that lists what is published. -/
def Surroundings.listing (S : Surroundings ε) : Surroundings (List Publication × ε) where
  clock := unlisted S.clock
  vendor c := unlisted (S.vendor c)
  registry p x := ((S.registry p x.2).1, (p :: x.1, (S.registry p x.2).2))
  swap := unlisted S.swap

abbrev Board (ε : Type) : Type := Scene Table (List Publication × ε)

def Scene.listed (x : Board ε) : List Publication := x.beyond.1

/-- The list shows for every worker the space that it holds. -/
def Lists (x : Board ε) : Prop :=
  ∀ w s, lastPublished w x.listed = some (.sharedSpaceLock (some s)) ↔ x.state.Holds w s

/-- Neither the table nor the list has changed. -/
structure Still (x y : Board ε) : Prop where
  state : y.state = x.state
  listed : y.listed = x.listed

variable {S : Surroundings ε} {x y z : Board ε} {l : Limits} {c : Coordinator} {s q : SpaceId}
  {w v : WorkerId} {r : Record}

@[simp] theorem lastPublished_cons (p : Publication) (ps : List Publication) :
    lastPublished w (p :: ps) = if p.worker = w then some p.property else lastPublished w ps := by
  by_cases own : p.worker = w <;> simp [lastPublished, own]

namespace Lists

theorem congr (lists : Lists x) (same : ∀ w s, y.state.Holds w s ↔ x.state.Holds w s)
    (listed : y.listed = x.listed) : Lists y := by
  intro w s
  rw [listed, same]
  exact lists w s

theorem still (lists : Lists x) (still : Still x y) : Lists y :=
  lists.congr (fun _ _ => by rw [still.state]) still.listed

/-- Nobody holds two spaces where the list is right. -/
theorem unique (lists : Lists x) (one : x.state.Holds w s) (other : x.state.Holds w q) : s = q := by
  have shown := (lists w s).2 one
  rw [(lists w q).2 other] at shown
  simpa using shown.symm

/-- A worker that held nothing is given a space, and that is published. -/
theorem given (lists : Lists x) (idle : ∀ q, ¬x.state.Holds w q)
    (holds : ∀ v q, y.state.Holds v q ↔ (w = v ∧ s = q) ∨ x.state.Holds v q)
    (listed : y.listed = ⟨w, .sharedSpaceLock (some s)⟩ :: x.listed) : Lists y := by
  intro v q
  rw [listed, lastPublished_cons, holds]
  by_cases own : w = v
  · subst own
    simp [idle]
  · simpa [own] using lists v q

/-- A worker has left the space it held, and that is published. -/
theorem left (lists : Lists x) (held : x.state.Holds w s)
    (holds : ∀ v q, y.state.Holds v q ↔ x.state.Holds v q ∧ ¬(q = s ∧ v = w))
    (listed : y.listed = ⟨w, .sharedSpaceLock none⟩ :: x.listed) : Lists y := by
  intro v q
  rw [listed, lastPublished_cons, holds]
  by_cases own : w = v
  · subst own
    have gone : x.state.Holds w q → q = s := fun other => lists.unique other held
    simpa using gone
  · simpa [own, Ne.symm own] using lists v q

end Lists

/-- A worker that has left holds its other spaces, and so does everybody else. -/
theorem Left.holds {t t' : Table} (left : Left w s t t') :
    t'.Holds v q ↔ t.Holds v q ∧ ¬(q = s ∧ v = w) := by
  simp only [Table.holds_iff, Table.mem_holders, left _]
  constructor
  · rintro ⟨r, ⟨⟨stored, stays⟩, holds⟩, rfl, rfl⟩
    exact ⟨⟨r, ⟨stored, holds⟩, rfl, rfl⟩, stays⟩
  · rintro ⟨⟨r, ⟨stored, holds⟩, rfl, rfl⟩, stays⟩
    exact ⟨r, ⟨⟨stored, stays⟩, holds⟩, rfl, rfl⟩

/-! What the calls leave. -/

theorem command_still (k : Command) :
    (command l k).Ends S.listing.answer (fun _ y => Still x y) x :=
  ends_command.2 ⟨rfl, rfl⟩

theorem publish_listed (p : Publication) :
    (publish l p).Ends S.listing.answer (fun _ y => y.state = x.state ∧ y.listed = p :: x.listed)
      x :=
  ends_publish.2 ⟨rfl, rfl⟩

/-- A swap that is carried out changes the table; otherwise nothing changes. -/
theorem promote_listed (waiting : Record) :
    (Queue.promote l waiting).Ends S.listing.answer
      (fun a y =>
        match a with
        | .ok _ => x.state.swap waiting.toHolder waiting = .ok y.state ∧ y.listed = x.listed
        | .error _ => Still x y) x := by
  rw [Queue.promote, Program.ends_bind]
  rcases fate : S.swap x.beyond.2 with ⟨f, b⟩
  have answered : S.listing.swap x.beyond = (f, (x.listed, b)) := by
    change unlisted S.swap x.beyond = _
    rw [unlisted, fate]
    rfl
  rw [Program.Ends, callSwap_eq answered]
  cases f with
  | carriedOut =>
    cases swapped : x.state.swap waiting.toHolder waiting with
    | ok t =>
      simp only [Call.apply, swapped, Call.settle]
      exact ⟨rfl, rfl⟩
    | error e =>
      simp only [Call.apply, swapped, Call.settle]
      exact ⟨rfl, rfl⟩
  | late => exact ⟨rfl, rfl⟩
  | turnedDown e => exact ⟨rfl, rfl⟩

theorem remove_listed (w : WorkerId) (s : SpaceId) :
    (Queue.remove l w s).Ends S.listing.answer
      (fun a y => (∃ removal, a = .ok removal) ∧ Left w s x.state y.state ∧ y.listed = x.listed)
      x := by
  rw [Queue.remove, Program.ends_bind, ends_recordsOf]
  obtain ⟨removal, deleted⟩ :=
    Agree.deleteAll_eq (S := S.listing) (l := l) x .notEnrolled (x.state.find s w)
  rw [Program.Ends, deleted]
  exact ⟨⟨removal, rfl⟩, fun r => Table.mem_deleteAll_find, rfl⟩

/-! What the operations leave. -/

variable (S) in
/-- The program, run in a scene, leaves the list right. -/
def Leaves {α : Type} (p : Plan α) (x : Board ε) : Prop :=
  p.Ends S.listing.answer (fun _ y => Lists y) x

theorem takeBackBlock_leaves (lists : Lists x) : Leaves S (c.takeBackBlock s r) x := by
  unfold Coordinator.takeBackBlock Leaves
  rw [Program.ends_bind, ends_lockHolder]
  cases x.state.holder s with
  | some h => exact lists
  | none =>
    rw [Program.ends_bind]
    refine (command_still _).mono fun a y still => ?_
    cases a with
    | ok u => exact lists.still still
    | error e => exact lists.still still

/-- An attempt to grant a free space to a worker without one publishes just when the swap has
happened. -/
theorem grant_leaves (grantable : x.state.Grantable s r) (lists : Lists x) :
    Leaves S (c.grant s r) x := by
  unfold Coordinator.grant Leaves
  rw [Program.ends_bind]
  refine (command_still _).mono fun a y still => ?_
  cases a with
  | error e => exact lists.still still
  | ok u =>
    rw [Program.ends_bind]
    refine (promote_listed r).mono fun a z promoted => ?_
    cases a with
    | error e =>
      rw [Program.ends_bind]
      exact takeBackBlock_leaves ((lists.still still).still promoted)
    | ok q =>
      obtain ⟨swapped, listed⟩ := promoted
      have holdsNothing : ∀ q, ¬y.state.Holds r.worker q := by
        rw [still.state]
        exact grantable.not_holds
      simp only [Program.ends_bind, Program.ends_report]
      refine (publish_listed _).mono fun _ u shown => ?_
      obtain ⟨same, published⟩ := shown
      have right : Lists u := by
        refine (lists.still still).given holdsNothing (fun v q => ?_) (listed ▸ published)
        rw [same, Table.holds_of_swap swapped, Record.toHolder_worker, Record.toHolder_space,
          grantable.first.space]
      exact right

theorem attempt_leaves (lists : Lists x) : Leaves S (c.attempt s) x := by
  unfold Coordinator.attempt Leaves
  rw [Program.ends_bind, ends_lockHolder]
  cases free : x.state.holder s with
  | some h => exact lists
  | none =>
    simp only [Program.ends_bind, ends_nextWaiter]
    cases next : x.state.nextWaiter s with
    | none => exact lists
    | some waiting =>
      simp only [Program.ends_bind, ends_heldBy]
      split
      · exact lists
      · next passed =>
        simp only [Program.ends_bind, Program.ends_pure]
        exact grant_leaves ⟨free, Table.nextWaiter_eq_some_iff.1 next,
          Table.find?_spacesOf_eq_none_iff.1 passed⟩ lists

theorem evaluate_leaves (lists : Lists x) : Leaves S (c.evaluate s) x := by
  unfold Coordinator.evaluate Leaves
  rw [Program.ends_inSpan, Program.ends_bind]
  refine (attempt_leaves lists).mono fun a y lists => ?_
  cases a with
  | ok outcome => exact lists
  | error e => exact lists

/-- A worker that waits leaves without a publication. -/
theorem withdraw_leaves (waits : (x.state.find s w).any Record.isHolder = false) (lists : Lists x) :
    Leaves S (c.withdraw w s) x := by
  unfold Coordinator.withdraw Leaves
  rw [Program.ends_bind]
  refine (remove_listed w s).mono fun a y ⟨_, left, listed⟩ => ?_
  have stay : Lists y := by
    refine lists.congr (fun v q => ?_) listed
    rw [left.holds, and_iff_left_iff_imp]
    rintro holds ⟨rfl, rfl⟩
    obtain ⟨r, held, own⟩ := Table.holds_iff.1 holds
    obtain ⟨stored, holder⟩ := Table.mem_holders.1 held
    exact List.any_eq_false.1 waits r (Table.mem_find.2 ⟨stored, own⟩) holder
  cases a with
  | ok removal => exact stay
  | error e => exact stay

/-- When a holder has been removed the publication follows, and then the next one is looked for. -/
theorem removeHolder_leaves {unblocked : Bool} (held : x.state.Holds w s) (lists : Lists x) :
    Leaves S (c.removeHolder w s unblocked) x := by
  unfold Coordinator.removeHolder Leaves
  rw [Program.ends_bind]
  refine (remove_listed w s).mono fun a y ⟨⟨removal, removed⟩, left, listed⟩ => ?_
  subst removed
  have next : (publish c.limits ⟨w, .sharedSpaceLock none⟩).Ends S.listing.answer
      (fun _ z => Leaves S (c.evaluate s) z) y := by
    refine (publish_listed _).mono fun _ z ⟨same, published⟩ => evaluate_leaves ?_
    exact lists.left held (fun v q => by rw [same, left.holds]) (listed ▸ published)
  -- what was removed only makes a difference to the notes
  cases removal <;>
    simp only [Program.ends_bind, Program.ends_report, Program.ends_pure] <;>
    exact next

theorem releaseHolder_leaves (held : x.state.Holds w s) (lists : Lists x) :
    Leaves S (c.releaseHolder w s) x := by
  unfold Coordinator.releaseHolder Leaves
  rw [Program.ends_bind]
  refine (command_still _).mono fun a y still => ?_
  have gone (unblocked : Bool) : Leaves S (c.removeHolder w s unblocked) y :=
    removeHolder_leaves (still.state ▸ held) (lists.still still)
  cases a with
  | ok u => exact gone true
  | error e =>
    simp only [Program.ends_bind, Program.ends_report]
    exact gone false

theorem release_leaves (w : WorkerId) (s : SpaceId) (lists : Lists x) :
    Leaves S (c.release w s) x := by
  unfold Coordinator.release Leaves
  cases checkIds w s with
  | error e => exact lists
  | ok u =>
    simp only [Program.ends_bind, ends_recordsOf]
    cases found : x.state.find s w with
    | nil => exact lists
    | cons r rs =>
      simp only
      split
      · next holds =>
        obtain ⟨h, listed, holder⟩ := List.any_eq_true.1 holds
        obtain ⟨stored, space, own⟩ := Table.mem_find.1 (found ▸ listed)
        have held : x.state.Holds w s :=
          Table.holds_iff.2 ⟨h, Table.mem_holders.2 ⟨stored, holder⟩, space, own⟩
        exact releaseHolder_leaves held lists
      · next waits =>
        refine withdraw_leaves ?_ lists
        rw [found]
        exact Bool.eq_false_iff.2 waits

/-- An enrollment adds a record that waits, if any. -/
theorem queueEnroll_leaves (k : Nat) (w : WorkerId) (s : SpaceId) (lists : Lists x) :
    Leaves S (Queue.enroll l k w s) x := by
  unfold Queue.enroll Leaves
  rw [Program.ends_bind, Program.ends_ask]
  let stamp := (S.listing.stamp x).1
  have holder (q : SpaceId) :=
    Call.holder_addIfAbsent (t := x.state) (r := .waiting s w stamp.priority stamp.time) rfl q
  simp only
  split
  · exact lists.congr (fun _ _ => Iff.rfl) rfl
  · rw [Program.ends_bind, ends_callStore]
    split <;> exact lists.congr (fun _ q => by rw [Table.Holds, Table.Holds, ← holder q]; rfl) rfl

theorem enroll_leaves (w : WorkerId) (s : SpaceId) (lists : Lists x) :
    Leaves S (c.enroll w s) x := by
  unfold Coordinator.enroll Leaves
  cases checkIds w s with
  | error e => exact lists
  | ok u =>
    rw [Program.ends_bind]
    refine (queueEnroll_leaves c.minter w s lists).mono fun a y lists => ?_
    cases a with
    | error e => exact lists
    | ok enrollment =>
      simp only [Program.ends_bind, Program.ends_report, Program.ends_pure]
      exact lists

theorem releaseAll_leaves (sofar : List Outcome) (ss : List SpaceId) (lists : Lists x) :
    Leaves S (c.releaseAll w sofar ss) x := by
  unfold Leaves
  induction ss generalizing x sofar with
  | nil => exact lists
  | cons s ss ih =>
    rw [Coordinator.releaseAll, Program.ends_bind]
    refine (release_leaves w s lists).mono fun a y lists => ?_
    cases a with
    | error e => exact lists
    | ok outcomes => exact ih _ lists

theorem abandon_leaves (w : WorkerId) (lists : Lists x) : Leaves S (c.abandon w) x := by
  unfold Coordinator.abandon Leaves
  split
  · exact lists
  · simp only [Program.ends_bind, ends_heldBy]
    refine (releaseAll_leaves [] _ lists).mono fun a y lists => ?_
    cases a with
    | error e => exact lists
    | ok outcomes =>
      simp only [Program.ends_bind, Program.ends_report, Program.ends_pure]
      exact lists

/-- An operation leaves the list right. -/
theorem perform_lists (o : Operation) (lists : Lists x) : Lists (S.listing.perform c o x).2 := by
  cases o with
  | enroll w s => exact enroll_leaves w s lists
  | evaluate s => exact evaluate_leaves lists
  | release w s => exact release_leaves w s lists
  | abandon w => exact abandon_leaves w lists
  | lockHolders => exact lists
  | queue s => exact lists

/-- Operations one after the other leave the list right. -/
theorem run_lists (os : List Operation) (lists : Lists x) :
    Lists (trail (S.listing.perform c) os x).2 := by
  induction os generalizing x with
  | nil => exact lists
  | cons o os ih => exact ih (perform_lists o lists)

/-- Where nobody holds and nothing has been published the list is right. -/
theorem lists_empty (minter : Minter) (b : ε) : Lists (⟨.empty, minter, ([], b)⟩ : Board ε) := by
  intro w s
  simp [lastPublished, Scene.listed, Table.holds_iff, Table.mem_holders, Table.empty]

/-- After every sequence of operations the registry shows for a worker just the space it holds, and
a worker that holds nothing is shown without a space, or not at all. -/
theorem trail_lists (S : Surroundings ε) (c : Coordinator) (os : List Operation) (minter : Minter)
    (b : ε) (w : WorkerId) :
    let x := (trail (S.listing.perform c) os ⟨.empty, minter, ([], b)⟩).2
    (∀ s, lastPublished w x.listed = some (.sharedSpaceLock (some s)) ↔ x.state.Holds w s) ∧
      ((∀ s, ¬x.state.Holds w s) →
        lastPublished w x.listed = none ∨
          lastPublished w x.listed = some (.sharedSpaceLock none)) := by
  intro x
  have lists : Lists x := run_lists os (lists_empty minter b)
  refine ⟨lists w, fun idle => ?_⟩
  rcases shown : lastPublished w x.listed with _ | ⟨_ | s⟩
  · exact .inl rfl
  · exact .inr rfl
  · exact absurd ((lists w s).1 shown) (idle s)

end Sequential

end Interlock
