import Interlock.Coordinator.Operations
import Interlock.Proofs.Fleet.Standing
import Interlock.Proofs.Schedule.Alone

/-!
A set of fleets under the time limit of a coordinator. A member takes its time for a block and then
answers; it unblocks at once. The members are blocked one after the other within a single limit, and
the roll back after a refusal belongs to what the limit is for: when the time runs out it is dropped
together with the blocks that were still to come. So a failed attempt leaves blocked exactly those
members that had been blocked when the time ran out, and nobody if a member refused in time.
Specification, section 5: Concurrency & Resource Model.
-/
namespace Interlock.Fleet

open Coordinator Store Schedule

variable {ε : Type}

/-- How long a member takes to block a space, and what it answers then. -/
abbrev Pace (ε : Type) : Type := Nat → SpaceId → ε → (Nat × Except FleetError Unit) × ε

/-- A store, what the members have been told and have answered, and what is beyond. -/
structure Yard (ε : Type) where
  table : Table := .empty
  told : Log members := []
  beyond : ε

namespace Pace

/-- A member that unblocks answers so at once. It is asked for nothing else but blocks here. -/
def answer : (c : Command) → Except FleetError Unit → c.Answer
  | .block _, blocked => blocked
  | .unblock _, _ => .ok ()
  | .status w, _ | .location w, _ => .error (.unknownWorker w)

/-- A coordinator with a set of fleets. Only blocks take time, and a block that is not waited for has
no effect. -/
def site (P : Pace ε) (set : FleetSet) : Site (Yard ε) where
  base := members
  Ticket := Except FleetError Unit
  expand
    | .store _ c, x => (.done (c.apply x.table).1, { x with table := (c.apply x.table).2 })
    | .vendor _ c, x => (set.perform c, x)
    | .publish .., x => (.done (.ok ()), x)
    | .stamp _, x => (.done default, x)
  start c now x :=
    match c.command with
    | .block s =>
      let ((delay, answer), beyond) := P c.member s x.beyond
      ((now + delay, answer), { x with beyond := beyond })
    | _ => ((now, .ok ()), x)
  finish c ticket x :=
    let answer := answer c.command ticket
    (answer, { x with told := ⟨c, answer⟩ :: x.told })
  hear _ x := x

instance (P : Pace ε) (set : FleetSet) : (P.site set).Deaf := ⟨fun _ _ => rfl⟩

/-- How it comes out when members are blocked one after the other: all of them are, or one refuses,
or the time runs out, when some have been blocked. -/
inductive Course where
  | through
  | refused (e : FleetError)
  | cut (blocked : List Nat)
  deriving DecidableEq, Repr

def Course.left : Course → List Nat
  | .through | .refused _ => []
  | .cut blocked => blocked

/-- The course of blocking members after some have been blocked. -/
def course (P : Pace ε) (s : SpaceId) (deadline : Nat) (blocked : List Nat) :
    List (Nat × Member) → Nat → ε → Course
  | [], _, _ => .through
  | (i, _) :: rest, now, b =>
    let ((delay, answer), b) := P i s b
    if 0 < delay ∧ deadline < now + delay then .cut blocked
    else
      match answer with
      | .ok _ => course P s deadline (blocked ++ [i]) rest (now + delay) b
      | .error e => .refused e

variable {P : Pace ε} {set : FleetSet} {s : SpaceId} {now d : Nat} {x : Yard ε} {i : Nat}

/-! What the members do in time. -/

/-- A command to a member is a call of the site; what is said around it plays no part. -/
theorem baseEnds_command {deadline : Option Nat} {c : Command}
    {post : Option c.Answer → Nat → Yard ε → Prop} :
    (P.site set).BaseEnds deadline (FleetSet.command i c) post now x ↔
      (P.site set).BaseEnds deadline (.call (I := members) ⟨i, c⟩ .done) post now x := by
  refine Site.baseEnds_bind.trans (Site.baseEnds_sayAll.trans (Site.baseEnds_bind.trans ?_))
  refine ⟨fun h => h.mono fun a t y later => ?_, fun h => h.mono fun a t y later => ?_⟩
  · cases a with
    | none => exact later
    | some a => exact Site.baseEnds_sayAll.1 (Site.baseEnds_bind.1 later)
  · cases a with
    | none => exact later
    | some a => exact Site.baseEnds_bind.2 (Site.baseEnds_sayAll.2 later)

theorem baseEnds_block {post : Option (Command.block s).Answer → Nat → Yard ε → Prop} :
    (P.site set).BaseEnds (some d) (FleetSet.command i (.block s)) post now x ↔
      let ((delay, answer), b) := P i s x.beyond
      if 0 < delay ∧ d < now + delay then post none (max now d) { x with beyond := b }
      else post (some answer) (now + delay)
        { x with told := ⟨⟨i, .block s⟩, answer⟩ :: x.told, beyond := b } := by
  refine baseEnds_command.trans (Site.baseEnds_call.trans ?_)
  have begun : (P.site set).start ⟨i, .block s⟩ now x =
      ((now + (P i s x.beyond).1.1, (P i s x.beyond).1.2),
        { x with beyond := (P i s x.beyond).2 }) := rfl
  rw [begun]
  simp only [Nat.lt_add_right_iff_pos, Nat.max_eq_right (Nat.le_add_right now _)]
  exact Iff.rfl

theorem baseEnds_unblock {post : Option (Command.unblock s).Answer → Nat → Yard ε → Prop} :
    (P.site set).BaseEnds (some d) (FleetSet.command i (.unblock s)) post now x ↔
      post (some (.ok ())) now { x with told := ⟨⟨i, .unblock s⟩, .ok ()⟩ :: x.told } := by
  refine baseEnds_command.trans (Site.baseEnds_call.trans ?_)
  have begun : (P.site set).start ⟨i, .unblock s⟩ now x = ((now, .ok ()), x) := rfl
  rw [begun]
  simp only [Nat.lt_irrefl, false_and, Nat.max_self, ↓reduceIte]
  exact Iff.rfl

/-- A roll back takes no time, and none of the members it is about is left blocked. -/
theorem rollBack_ends (ms : List (Nat × Member)) (ns : List Nat)
    (within : ∀ i ∈ ns, (standing i s x.told).blocked = true → i ∈ ms.map Prod.fst) :
    (P.site set).BaseEnds (some d) (FleetSet.rollBack s ms)
      (fun a _ y => a = some () ∧ ∀ i ∈ ns, (standing i s y.told).blocked = false) now x := by
  induction ms generalizing x with
  | nil => exact ⟨rfl, fun i hi => Bool.eq_false_iff.2 fun blocked => nomatch within i hi blocked⟩
  | cons m ms ih =>
    obtain ⟨j, m⟩ := m
    refine Site.baseEnds_bind.2 (baseEnds_unblock.2 (ih fun i hi blocked => ?_))
    obtain ⟨before, other⟩ := blocked_after_unblock.1 blocked
    exact (List.mem_cons.1 (within i hi before)).resolve_left other

/-- After an attempt that did not get through the members are blocked that its course has left. -/
theorem blockAll_ends (ms blocked : List (Nat × Member)) (ns : List Nat)
    (exact : ∀ i ∈ ns, (standing i s x.told).blocked = true ↔ i ∈ blocked.map Prod.fst) :
    (P.site set).BaseEnds (some d) (FleetSet.blockAll s blocked ms)
      (fun a _ y => a ≠ some (.ok ()) → ∀ i ∈ ns, (standing i s y.told).blocked = true ↔
        i ∈ (P.course s d (blocked.map Prod.fst) ms now x.beyond).left) now x := by
  induction ms generalizing x now blocked with
  | nil => exact fun failed => absurd rfl failed
  | cons m ms ih =>
    obtain ⟨j, m⟩ := m
    refine Site.baseEnds_bind.2 (baseEnds_block.2 ?_)
    rw [course]
    rcases P j s x.beyond with ⟨⟨delay, answer⟩, b⟩
    simp only
    split
    · exact fun _ => exact
    · cases answer with
      | ok u =>
        let y : Yard ε := { x with told := ⟨⟨j, .block s⟩, .ok u⟩ :: x.told, beyond := b }
        have blocks : ∀ i ∈ ns, (standing i s y.told).blocked = true ↔
            i ∈ (blocked ++ [(j, m)]).map Prod.fst := fun i hi => by
          rw [blocked_after_block, exact i hi]
          simp
        refine (ih (x := y) (blocked ++ [(j, m)]) blocks).mono fun a t z left failed i hi => ?_
        simpa only [List.map_append, List.map_cons, List.map_nil] using left failed i hi
      | error e =>
        refine Site.baseEnds_bind.2 (Site.baseEnds_report.2 (Site.baseEnds_bind.2
          ((rollBack_ends blocked ns fun i hi => ?_).mono ?_)))
        · rw [standing_of_refused]
          exact (exact i hi).1
        · rintro a t y ⟨rfl, free⟩
          refine Site.baseEnds_pure.2 fun _ i hi => ?_
          simp [free i hi, Course.left]

/-- A failed block of the set leaves those blocked that its course has left. -/
theorem block_ends (free : ∀ m ∈ set.servingSpace s, (standing m.1 s x.told).blocked = false) :
    (P.site set).BaseEnds (some d) (set.block s)
      (fun a _ y => a ≠ some (.ok ()) → ∀ m ∈ set.servingSpace s,
        (standing m.1 s y.told).blocked = true ↔
          m.1 ∈ (P.course s d [] (set.servingSpace s) now x.beyond).left) now x := by
  unfold FleetSet.block
  cases serving : set.servingSpace s with
  | nil => exact fun _ m hm => nomatch hm
  | cons m ms =>
    rw [serving] at free
    refine (blockAll_ends (m :: ms) [] ((m :: ms).map Prod.fst) fun i hi => ?_).mono ?_
    · obtain ⟨m', hm, rfl⟩ := List.mem_map.1 hi
      simp [free m' hm]
    · exact fun a t y left failed m' hm => left failed m'.1 (List.mem_map_of_mem hm)

/-! What the coordinator does. -/

variable {c : Coordinator}

/-- The store answers at once. -/
theorem ends_store {l : Limits} {k : Call} {post : k.Answer → Nat → Yard ε → Prop} :
    (P.site set).Ends (callStore l k) post now x ↔
      post (k.apply x.table).1 now { x with table := (k.apply x.table).2 } :=
  Site.ends_callStore

/-- If the attempt at the space has failed to block it, its course tells which members it has left
blocked. -/
def LeavesBlocked (P : Pace ε) (set : FleetSet) (c : Coordinator) (s : SpaceId) (now : Nat)
    (x : Yard ε) (o : Outcome) (y : Yard ε) : Prop :=
  o.kind = .failedToBlock → ∀ m ∈ set.servingSpace s,
    (standing m.1 s y.told).blocked = true ↔
      m.1 ∈ (P.course s (now + c.settings.commandTimeout.toNanos) [] (set.servingSpace s) now
        x.beyond).left

/-- Other outcomes do not matter. -/
theorem LeavesBlocked.of_ne {o : Outcome} {y : Yard ε} (other : o.kind ≠ .failedToBlock) :
    P.LeavesBlocked set c s now x o y := fun failed => absurd failed other

theorem grant_ends (free : ∀ m ∈ set.servingSpace s, (standing m.1 s x.told).blocked = false)
    (waiting : Record) :
    (P.site set).Ends (c.grant s waiting) (fun o _ y => P.LeavesBlocked set c s now x o y) now
      x := by
  unfold Coordinator.grant
  rw [Site.ends_bind, Site.ends_command]
  refine (block_ends free).mono fun a t y left => ?_
  rcases a with _ | e | u
  · exact fun _ => left nofun
  · exact fun _ => left nofun
  · -- from here on the outcome is another one
    refine Site.ends_bind.2 (Site.ends_of_forall fun promoted t y => ?_)
    cases promoted with
    | ok r =>
      refine Site.ends_bind.2 (Site.ends_report.2 (Site.ends_bind.2 ?_))
      exact Site.ends_of_forall fun _ t y => LeavesBlocked.of_ne nofun
    | error e => exact Site.ends_bind.2 (Site.ends_of_forall fun _ t y => LeavesBlocked.of_ne nofun)

theorem attempt_ends (free : ∀ m ∈ set.servingSpace s, (standing m.1 s x.told).blocked = false) :
    (P.site set).Ends (c.attempt s)
      (fun a _ y => ∀ o, a = .ok o → P.LeavesBlocked set c s now x o y) now x := by
  unfold Coordinator.attempt
  rw [Site.ends_bind, Queue.lockHolder, ends_store]
  simp only [Call.apply]
  cases x.table.holder s with
  | some h =>
    rintro _ ⟨⟩
    exact .of_ne (by rintro ⟨⟩)
  | none =>
    simp only
    rw [Site.ends_bind, Queue.nextWaiter, ends_store]
    simp only [Call.apply]
    cases x.table.nextWaiter s with
    | none =>
      rintro _ ⟨⟩
      exact .of_ne (by rintro ⟨⟩)
    | some waiting =>
      simp only
      rw [Site.ends_bind, Queue.heldBy, Site.ends_bind, Queue.lockHolders, ends_store]
      simp only [Call.apply, Site.ends_pure]
      split
      · rintro _ ⟨⟩
        exact .of_ne (by rintro ⟨⟩)
      · rw [Site.ends_bind]
        refine (grant_ends free waiting).mono fun o t y left => ?_
        rintro _ ⟨⟩
        exact left

/-- A failed attempt to grant a space leaves blocked exactly those members that were blocked when the
time ran out, if it did. -/
theorem left_blocked (P : Pace ε) (set : FleetSet) (c : Coordinator) (s : SpaceId) (now : Nat)
    (x : Yard ε) (free : ∀ m ∈ set.servingSpace s, (standing m.1 s x.told).blocked = false)
    {o : Outcome} {t : Nat} {y : Yard ε}
    (ran : (P.site set).runAlone [] (c.evaluate s) now x = (o, t, y))
    (failed : o.kind = .failedToBlock) :
    ∀ m ∈ set.servingSpace s, (standing m.1 s y.told).blocked = true ↔
      m.1 ∈ (P.course s (now + c.settings.commandTimeout.toNanos) [] (set.servingSpace s) now
        x.beyond).left := by
  have evaluated : (P.site set).Ends (c.evaluate s)
      (fun o _ y => P.LeavesBlocked set c s now x o y) now x := by
    unfold Coordinator.evaluate
    rw [Site.ends_inSpan, Site.ends_bind]
    refine (attempt_ends free).mono fun a t y left => ?_
    cases a with
    | ok o => exact left o rfl
    | error e => exact Site.ends_bind.2 (Site.ends_report.2 (.of_ne nofun))
  rw [Site.Ends, ran] at evaluated
  exact evaluated failed

def slowSecond : Pace Unit := fun i _ b => ((if i = 0 then 0 else 6000000000, .ok ()), b)

def oneWaits : Yard Unit where
  table := Table.empty.insert (.waiting ⟨"s-1"⟩ ⟨"w-1"⟩ ⟨1⟩ ⟨0, 0⟩) (by rfl)
  beyond := ()

theorem left_blocked_slowSecond :
    let set : FleetSet := [⟨"first", [], []⟩, ⟨"second", [], []⟩]
    ∃ t y, (slowSecond.site set).runAlone [] (Coordinator.evaluate {} ⟨"s-1"⟩) 0 oneWaits =
        (.failedToBlock ⟨"s-1"⟩ ⟨"w-1"⟩ "REQUEST_LOCK timed out after 5s", t, y) ∧
      (standing 0 ⟨"s-1"⟩ y.told).blocked = true ∧ (standing 1 ⟨"s-1"⟩ y.told).blocked = false := by
  intro set
  have left := left_blocked slowSecond set {} ⟨"s-1"⟩ 0 oneWaits (fun _ _ => rfl) rfl rfl
  have serving : set.servingSpace ⟨"s-1"⟩ = [(0, ⟨"first", [], []⟩), (1, ⟨"second", [], []⟩)] := rfl
  have course : slowSecond.course ⟨"s-1"⟩ 5000000000 [] (set.servingSpace ⟨"s-1"⟩) 0 () =
    .cut [0] := rfl
  refine ⟨_, _, rfl, ?_, Bool.eq_false_iff.2 fun blocked => ?_⟩
  · refine (left (0, ⟨"first", [], []⟩) (by simp [serving])).2 ?_
    exact course ▸ List.mem_singleton.2 rfl
  · have cut := (left (1, ⟨"second", [], []⟩) (by simp [serving])).1 blocked
    change 1 ∈ (slowSecond.course ⟨"s-1"⟩ 5000000000 [] (set.servingSpace ⟨"s-1"⟩) 0 ()).left at cut
    rw [course] at cut
    exact absurd cut (by decide)

end Pace

end Interlock.Fleet
