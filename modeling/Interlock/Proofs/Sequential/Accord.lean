import Interlock.Proofs.Fleet.Standing
import Interlock.Proofs.Sequential.Refinement
import Interlock.Proofs.Store.Holders

/-!
Records and blocks accord. A coordinator whose vendor is a set of fleets works through its
operations, and any command may fail at any member, any swap may be turned down. Whenever an
operation has ended, a held space is blocked at every member that serves it, and a free space only
at members that have refused to unblock it. Each program is settled on the one space it is about: it
leaves the accord there and touches neither the holders nor the blocks of the others. Specification,
section 4.3: Shared Space Coordinator.
-/
namespace Interlock

namespace Sequential

open Coordinator Store Fleet

variable {ε : Type}

/-- What the outside of a coordinator and its set of fleets answers; each member may succeed or fail
as it likes. -/
structure Outside (ε : Type) where
  clock : ε → (Int64 × Time.Instant) × ε
  member : (c : MemberCall) → ε → c.command.Answer × ε
  registry : Publication → ε → Timed Publication.Answer × ε
  swap : ε → SwapFate × ε

namespace Outside

/-- Something that happens outside and leaves the log of the members. -/
def beside {α : Type} (f : ε → α × ε) (x : Log members × ε) : α × (Log members × ε) :=
  ((f x.2).1, (x.1, (f x.2).2))

/-- The surroundings of a coordinator whose vendor is a set of fleets. Every command to a member is
logged with its answer. -/
def surroundings (O : Outside ε) (set : FleetSet) : Surroundings (Log members × ε) where
  clock := beside O.clock
  vendor c x :=
    let (answer, x) := (set.perform c).runQuiet (Program.recorded O.member) x
    (.inTime answer, x)
  registry p := beside (O.registry p)
  swap := beside O.swap

end Outside

abbrev Stage (ε : Type) : Type := Scene Table (Log members × ε)

def Scene.told (x : Stage ε) : Log members := x.beyond.1

/-- A held space is blocked at every member that serves it, a free one at none but those that have
refused to unblock it. -/
structure Accord (set : FleetSet) (x : Stage ε) (s : SpaceId) : Prop where
  held : ∀ r, x.state.holder s = some r → set.Blocks s x.told
  free : x.state.holder s = none → set.Excused s x.told

/-- No space but one has changed its holder or its blocks. -/
structure Spares (s : SpaceId) (x y : Stage ε) : Prop where
  holder : ∀ r, r ≠ s → y.state.holder r = x.state.holder r
  told : ∀ r, r ≠ s → ∀ i, standing i r y.told = standing i r x.told

/-- Only one space has been worked on, and it has been left in accord. -/
structure Tended (set : FleetSet) (s : SpaceId) (x y : Stage ε) : Prop where
  spares : Spares s x y
  accord : Accord set y s

variable {set : FleetSet} {x y z : Stage ε} {s r : SpaceId} {w : WorkerId}

namespace Accord

theorem of_held {h : Record} (held : x.state.holder s = some h) (blocks : set.Blocks s x.told) :
    Accord set x s := by
  refine ⟨fun _ _ => blocks, fun free => ?_⟩
  rw [held] at free
  cases free

theorem of_free (free : x.state.holder s = none) (excused : set.Excused s x.told) :
    Accord set x s := by
  refine ⟨fun h held => ?_, fun _ => excused⟩
  rw [free] at held
  cases held

/-- Accord depends on the holder and the log only. -/
theorem congr (accord : Accord set x s) (holder : y.state.holder s = x.state.holder s)
    (told : y.told = x.told) : Accord set y s where
  held h held := told ▸ accord.held h (holder ▸ held)
  free free := told ▸ accord.free (holder ▸ free)

end Accord

namespace Spares

theorem refl (x : Stage ε) : Spares s x x := ⟨fun _ _ => rfl, fun _ _ _ => rfl⟩

theorem of_same (state : y.state = x.state) (told : y.told = x.told) : Spares s x y :=
  ⟨fun r _ => by rw [state], fun r _ i => by rw [told]⟩

theorem trans (first : Spares s x y) (second : Spares s y z) : Spares s x z where
  holder r other := (second.holder r other).trans (first.holder r other)
  told r other i := (second.told r other i).trans (first.told r other i)

theorem accord (spares : Spares s x y) (other : r ≠ s) (accord : Accord set x r) :
    Accord set y r where
  held h held m serves := by
    rw [spares.told r other]
    exact accord.held h (spares.holder r other ▸ held) m serves
  free free m serves := by
    rw [spares.told r other]
    exact accord.free (spares.holder r other ▸ free) m serves

end Spares

namespace Tended

theorem refl (accord : Accord set x s) : Tended set s x x := ⟨.refl x, accord⟩

/-- Where everything was in accord it still is. -/
theorem accords (tended : Tended set s x y) (accords : ∀ r, Accord set x r) (r : SpaceId) :
    Accord set y r := by
  by_cases here : r = s
  · exact here ▸ tended.accord
  · exact tended.spares.accord here (accords r)

end Tended

def Left (w : WorkerId) (s : SpaceId) (t t' : Table) : Prop :=
  ∀ r, r ∈ t'.records ↔ r ∈ t.records ∧ ¬ (r.space = s ∧ r.worker = w)

theorem Left.spares (left : Left w s x.state y.state) (told : y.told = x.told) :
    Spares s x y where
  holder r other := by
    refine Table.holder_congr fun h _ space => ?_
    rw [left h, and_iff_left_iff_imp]
    exact fun _ own => other (space.symm.trans own.1)
  told r _ i := by rw [told]

/-! What the calls leave. -/

section

variable {S : Surroundings ε} {x : Scene Table ε} {l : Limits}

@[simp] theorem ends_lockHolder {post : Except StoreError (Option Record) → Scene Table ε → Prop} :
    (Queue.lockHolder l s).Ends S.answer post x ↔ post (.ok (x.state.holder s)) x :=
  ends_callStore

@[simp] theorem ends_nextWaiter {post : Except StoreError (Option Record) → Scene Table ε → Prop} :
    (Queue.nextWaiter l s).Ends S.answer post x ↔ post (.ok (x.state.nextWaiter s)) x :=
  ends_callStore

@[simp] theorem ends_recordsOf {post : Except StoreError (List Record) → Scene Table ε → Prop} :
    (Queue.recordsOf l w s).Ends S.answer post x ↔ post (.ok (x.state.find s w)) x :=
  ends_callStore

@[simp] theorem ends_lockHolders {post : Except StoreError (List Record) → Scene Table ε → Prop} :
    (Queue.lockHolders l).Ends S.answer post x ↔ post (.ok x.state.holders) x :=
  ends_callStore

@[simp] theorem ends_heldBy {post : Except StoreError (List SpaceId) → Scene Table ε → Prop} :
    (Queue.heldBy l w).Ends S.answer post x ↔
      post (.ok ((x.state.holders.filter fun r => r.worker == w).map Record.space)) x := by
  simp only [Queue.heldBy, Program.ends_bind, ends_lockHolders, Program.ends_pure]

end

namespace Outside

variable {O : Outside ε} {l : Limits} {c : Coordinator}

/-- A block of the set blocks all its members or leaves them excused, and nothing else changes. -/
theorem block_ends (s : SpaceId) :
    (command l (.block s)).Ends (O.surroundings set).answer
      (fun a y => Spares s x y ∧ y.state = x.state ∧ set.AfterBlock s x.told y.told a) x := by
  have carried := (FleetSet.keeps_elsewhere (set.block_keeps s x.told)).ends O.member x.beyond.2
  exact ends_command.2 ⟨⟨fun _ _ => rfl, carried.2⟩, rfl, carried.1⟩

/-- An unblock of the set leaves its members excused, and nothing else changes. -/
theorem unblock_ends (s : SpaceId) :
    (command l (.unblock s)).Ends (O.surroundings set).answer
      (fun _ y => Spares s x y ∧ y.state = x.state ∧ set.Excused s y.told) x := by
  have carried := (FleetSet.keeps_elsewhere (set.unblock_keeps s x.told)).ends O.member x.beyond.2
  exact ends_command.2 ⟨⟨fun _ _ => rfl, carried.2⟩, rfl, carried.1⟩

/-- A swap that is carried out makes a holder; otherwise the table stays. -/
theorem promote_ends (waiting : Record) :
    (Queue.promote l waiting).Ends (O.surroundings set).answer
      (fun a y => y.told = x.told ∧
        match a with
        | .ok _ => x.state.swap waiting.toHolder waiting = .ok y.state
        | .error _ => y.state = x.state) x := by
  rw [Queue.promote, Program.ends_bind]
  rcases fate : O.swap x.beyond.2 with ⟨f, b⟩
  have answered : (O.surroundings set).swap x.beyond = (f, (x.told, b)) := by
    change Outside.beside O.swap x.beyond = _
    rw [beside, fate]
    rfl
  rw [Program.Ends, callSwap_eq answered]
  cases f with
  | carriedOut =>
    cases swapped : x.state.swap waiting.toHolder waiting with
    | ok t =>
      simp only [Call.apply, swapped, Call.settle]
      exact ⟨rfl, rfl⟩
    | error e =>
      simp only [Call.apply, swapped, Call.settle]
      exact ⟨rfl, rfl⟩
  | late => exact ⟨rfl, rfl⟩
  | turnedDown e => exact ⟨rfl, rfl⟩

/-! What the operations leave. -/

variable (O) in
/-- The program, run in a scene, tends a space. -/
def Tends (set : FleetSet) {α : Type} (p : Plan α) (s : SpaceId) (x : Stage ε) : Prop :=
  p.Ends (O.surroundings set).answer (fun _ y => Tended set s x y) x

/-- A space may be tended after a time in which others were spared. -/
theorem Tends.after {α : Type} {p : Plan α} (tends : O.Tends set p s y) (spares : Spares s x y) :
    p.Ends (O.surroundings set).answer (fun _ z => Tended set s x z) y :=
  tends.mono fun _ _ tended => ⟨spares.trans tended.spares, tended.accord⟩

/-- A block that is taken back leaves the space in accord, whoever holds it by then. -/
theorem takeBackBlock_tends (waiting : Record) (blocked : set.Blocks s x.told) :
    O.Tends set (c.takeBackBlock s waiting) s x := by
  unfold Coordinator.takeBackBlock Tends
  rw [Program.ends_bind, ends_lockHolder]
  cases holder : x.state.holder s with
  | some h => exact Tended.refl (.of_held holder blocked)
  | none =>
    rw [Program.ends_bind]
    refine (unblock_ends s).mono fun a y ⟨spares, same, excused⟩ => ?_
    have tended : Tended set s x y := ⟨spares, .of_free (same ▸ holder) excused⟩
    cases a with
    | ok u => exact tended
    | error e => exact tended

/-- An attempt to grant a free space leaves it held and blocked, or free and excused. -/
theorem grant_tends {waiting : Record} (own : waiting.space = s) (free : x.state.holder s = none)
    (accord : Accord set x s) : O.Tends set (c.grant s waiting) s x := by
  unfold Coordinator.grant Tends
  rw [Program.ends_bind]
  refine (block_ends s).mono fun a y ⟨spares, same, blocked⟩ => ?_
  cases a with
  | error e => exact ⟨spares, .of_free (same ▸ free) (blocked (accord.free free))⟩
  | ok u =>
    rw [Program.ends_bind]
    refine (promote_ends waiting).mono fun a z ⟨told, promoted⟩ => ?_
    have blocks : set.Blocks s z.told := told ▸ blocked
    cases a with
    | ok r =>
      have held : z.state.holder s = some waiting.toHolder := own ▸ Table.holder_of_swap promoted
      have others : Spares s y z :=
        ⟨fun r other => Table.holder_of_swap_ne promoted (own ▸ other), fun r _ i => by rw [told]⟩
      simp only [Program.ends_bind, Program.ends_report, ends_publish, Program.ends_pure]
      exact ⟨(spares.trans others).trans (.of_same rfl rfl), .of_held held blocks⟩
    | error e =>
      have others : Spares s y z := .of_same promoted told
      rw [Program.ends_bind]
      exact (takeBackBlock_tends waiting blocks).after (spares.trans others)

theorem attempt_tends (accord : Accord set x s) : O.Tends set (c.attempt s) s x := by
  unfold Coordinator.attempt Tends
  rw [Program.ends_bind, ends_lockHolder]
  cases free : x.state.holder s with
  | some h => exact Tended.refl accord
  | none =>
    simp only [Program.ends_bind, ends_nextWaiter]
    cases next : x.state.nextWaiter s with
    | none => exact Tended.refl accord
    | some waiting =>
      simp only [Program.ends_bind, ends_heldBy]
      split
      · exact Tended.refl accord
      · simp only [Program.ends_bind, Program.ends_pure]
        obtain ⟨-, own, -⟩ := Table.mem_of_nextWaiter next
        exact grant_tends own free accord

theorem evaluate_tends (accord : Accord set x s) : O.Tends set (c.evaluate s) s x := by
  unfold Coordinator.evaluate Tends
  rw [Program.ends_inSpan, Program.ends_bind]
  refine (attempt_tends accord).mono fun a y tended => ?_
  cases a with
  | ok outcome => exact tended
  | error e => exact tended

/-- Removing a worker from a space deletes its records there and nothing else. -/
theorem remove_ends (w : WorkerId) (s : SpaceId) :
    (Queue.remove l w s).Ends (O.surroundings set).answer
      (fun _ y => y.told = x.told ∧ Left w s x.state y.state) x := by
  rw [Queue.remove, Program.ends_bind, ends_recordsOf]
  obtain ⟨removal, deleted⟩ := Agree.deleteAll_eq (S := O.surroundings set) (l := l) x .notEnrolled
    (x.state.find s w)
  rw [Program.Ends, deleted]
  exact ⟨rfl, fun r => Table.mem_deleteAll_find⟩

/-- A worker that waits leaves without a change of the holder. -/
theorem withdraw_tends (waits : (x.state.find s w).any Record.isHolder = false)
    (accord : Accord set x s) : O.Tends set (c.withdraw w s) s x := by
  unfold Coordinator.withdraw Tends
  rw [Program.ends_bind]
  refine (remove_ends w s).mono fun a y ⟨told, left⟩ => ?_
  have spares : Spares s x y := left.spares told
  have holder : y.state.holder s = x.state.holder s := by
    refine Table.holder_congr fun r holds space => ?_
    rw [left r, and_iff_left_iff_imp]
    rintro stored own
    have found := List.any_eq_false.1 waits r (Table.mem_find.2 ⟨stored, own⟩)
    exact found holds
  have tended : Tended set s x y := ⟨spares, accord.congr holder told⟩
  cases a with
  | ok removal => exact tended
  | error e => exact tended

/-- When the holder has left after an unblock, the space is free and excused, and is evaluated. -/
theorem removeHolder_tends {h : Record} {unblocked : Bool} (held : x.state.holder s = some h)
    (own : h.worker = w) (excused : set.Excused s x.told) :
    O.Tends set (c.removeHolder w s unblocked) s x := by
  unfold Coordinator.removeHolder Tends
  rw [Program.ends_bind]
  refine (remove_ends w s).mono fun a y ⟨told, left⟩ => ?_
  have spares : Spares s x y := left.spares told
  have free : y.state.holder s = none := by
    refine Table.holder_eq_none_iff.2 fun r stored holds space => ?_
    obtain ⟨stored, stays⟩ := (left r).1 stored
    have same := Table.holder_eq_some_iff.2 ⟨stored, holds, space⟩
    rw [held, Option.some.injEq] at same
    exact stays ⟨space, same ▸ own⟩
  have accord : Accord set y s := .of_free free (told ▸ excused)
  cases a with
  | error e => exact ⟨spares, accord⟩
  | ok removal =>
    let told := ((O.surroundings set).answer
      (.publish c.limits.command ⟨w, .sharedSpaceLock none⟩) y).2
    have next : O.Tends set (c.evaluate s) s told := evaluate_tends (accord.congr rfl rfl)
    -- what was removed only makes a difference to the notes
    cases removal <;>
      simp only [Program.ends_bind, Program.ends_report, Program.ends_pure, ends_publish] <;>
      exact next.after (spares.trans (.of_same rfl rfl))

theorem releaseHolder_tends {h : Record} (held : x.state.holder s = some h) (own : h.worker = w) :
    O.Tends set (c.releaseHolder w s) s x := by
  unfold Coordinator.releaseHolder Tends
  rw [Program.ends_bind]
  refine (unblock_ends s).mono fun a y ⟨spares, same, excused⟩ => ?_
  have gone (unblocked : Bool) : O.Tends set (c.removeHolder w s unblocked) s y :=
    removeHolder_tends (same ▸ held) own excused
  cases a with
  | ok u => exact (gone true).after spares
  | error e =>
    simp only [Program.ends_bind, Program.ends_report]
    exact (gone false).after spares

theorem release_tends (w : WorkerId) (accord : Accord set x s) :
    O.Tends set (c.release w s) s x := by
  unfold Coordinator.release Tends
  cases checkIds w s with
  | error e => exact Tended.refl accord
  | ok u =>
    simp only [Program.ends_bind, ends_recordsOf]
    cases found : x.state.find s w with
    | nil => exact Tended.refl accord
    | cons r rs =>
      simp only
      split
      · next holds =>
        obtain ⟨h, listed, isHolder⟩ := List.any_eq_true.1 holds
        obtain ⟨stored, space, own⟩ := Table.mem_find.1 (found ▸ listed)
        exact releaseHolder_tends (Table.holder_eq_some_iff.2 ⟨stored, isHolder, space⟩) own
      · next waits =>
        refine withdraw_tends ?_ accord
        rw [found]
        exact Bool.eq_false_iff.2 waits

/-- An enrollment adds a record that waits, if any. -/
theorem queueEnroll_tends (k : Nat) (w : WorkerId) (accord : Accord set x s) :
    O.Tends set (Queue.enroll l k w s) s x := by
  unfold Queue.enroll Tends
  rw [Program.ends_bind, Program.ends_ask]
  let stamp := ((O.surroundings set).stamp x).1
  have holder (r : SpaceId) :=
    Call.holder_addIfAbsent (t := x.state) (r := .waiting s w stamp.priority stamp.time) rfl r
  simp only
  split
  · exact ⟨.of_same rfl rfl, accord.congr rfl rfl⟩
  · rw [Program.ends_bind, ends_callStore]
    split <;> exact ⟨⟨fun r _ => holder r, fun _ _ _ => rfl⟩, accord.congr (holder s) rfl⟩

theorem enroll_tends (w : WorkerId) (accord : Accord set x s) : O.Tends set (c.enroll w s) s x := by
  unfold Coordinator.enroll Tends
  cases checkIds w s with
  | error e => exact Tended.refl accord
  | ok u =>
    rw [Program.ends_bind]
    refine (queueEnroll_tends c.minter w accord).mono fun a y tended => ?_
    cases a with
    | error e => exact tended
    | ok enrollment =>
      simp only [Program.ends_bind, Program.ends_report, Program.ends_pure]
      exact tended

/-- Spaces are tended one after the other. -/
theorem releaseAll_ends (accords : ∀ r, Accord set x r) (sofar : List Outcome) (ss : List SpaceId) :
    (c.releaseAll w sofar ss).Ends (O.surroundings set).answer (fun _ y => ∀ r, Accord set y r)
      x := by
  induction ss generalizing x sofar with
  | nil => exact accords
  | cons s ss ih =>
    rw [Coordinator.releaseAll, Program.ends_bind]
    refine (release_tends w (accords s)).mono fun a y tended => ?_
    cases a with
    | error e => exact tended.accords accords
    | ok outcomes => exact ih (tended.accords accords) _

theorem abandon_ends (w : WorkerId) (accords : ∀ r, Accord set x r) :
    (c.abandon w).Ends (O.surroundings set).answer (fun _ y => ∀ r, Accord set y r) x := by
  unfold Coordinator.abandon
  split
  · exact accords
  · simp only [Program.ends_bind, ends_heldBy]
    refine (releaseAll_ends accords [] _).mono fun a y accords => ?_
    cases a with
    | error e => exact accords
    | ok outcomes =>
      simp only [Program.ends_bind, Program.ends_report, Program.ends_pure]
      exact accords

/-- An operation keeps all spaces in accord. -/
theorem perform_accords (o : Operation) (accords : ∀ r, Accord set x r) :
    ∀ r, Accord set ((O.surroundings set).perform c o x).2 r := by
  cases o with
  | enroll w s => exact (enroll_tends w (accords s)).accords accords
  | evaluate s => exact (evaluate_tends (accords s)).accords accords
  | release w s => exact (release_tends w (accords s)).accords accords
  | abandon w => exact abandon_ends w accords
  | lockHolders => exact accords
  | queue s => exact accords

/-- Operations one after the other keep all spaces in accord. -/
theorem run_accords (os : List Operation) (accords : ∀ r, Accord set x r) :
    ∀ r, Accord set (trail ((O.surroundings set).perform c) os x).2 r := by
  induction os generalizing x with
  | nil => exact accords
  | cons o os ih => exact ih (perform_accords o accords)

end Outside

/-- Where nobody holds and nothing is blocked everything is in accord. -/
theorem accord_empty (set : FleetSet) (minter : Minter) (b : ε) (s : SpaceId) :
    Accord set ⟨.empty, minter, ([], b)⟩ s := by
  refine .of_free rfl fun m _ blocked => ?_
  cases blocked

/-- Records and blocks accord after every sequence of operations, whatever each member, the clock and
the registry answer and whichever swaps are turned down. -/
theorem trail_accords (set : FleetSet) (O : Outside ε) (c : Coordinator) (os : List Operation)
    (minter : Minter) (b : ε) (s : SpaceId) :
    Accord set (trail ((O.surroundings set).perform c) os ⟨.empty, minter, ([], b)⟩).2 s :=
  O.run_accords os (accord_empty set minter b) s

/-- The first fleet blocks and the others do not, and no fleet gives a block back. -/
def stubborn : Outside Unit where
  clock b := ((0, ⟨0, 0⟩), b)
  member
    | ⟨0, .block _⟩, b => (.ok (), b)
    | ⟨_, .block _⟩, b => (.error (.status .requestLock 503), b)
    | ⟨_, .unblock _⟩, b => (.error (.status .requestRelease 503), b)
    | ⟨_, .status w⟩, b | ⟨_, .location w⟩, b => (.error (.unknownWorker w), b)
  registry _ b := (.late, b)
  swap b := (.carriedOut, b)

/-- A free space stays blocked at a fleet that refused to be rolled back. -/
example :
    let set : FleetSet := [⟨"first", [⟨"s-1"⟩], []⟩, ⟨"second", [⟨"s-1"⟩], []⟩]
    let x := (trail ((stubborn.surroundings set).perform {})
      [.enroll ⟨"w-1"⟩ ⟨"s-1"⟩, .evaluate ⟨"s-1"⟩] ⟨.empty, {}, ([], ())⟩).2
    x.state.holder ⟨"s-1"⟩ = none ∧ standing 0 ⟨"s-1"⟩ x.told = ⟨true, true⟩ ∧
      standing 1 ⟨"s-1"⟩ x.told = {} := by
  refine ⟨rfl, rfl, rfl⟩

end Sequential

end Interlock
