import Interlock.Proofs.Ordered
import Interlock.Proofs.Schedule.Work

/-!
Which tasks of a crew have failed. A task fails at its start or never: whatever a crew is sent,
whatever its site does, and however long it goes on, the loops are those it had at its start, and
just those have failed that failed there. So a loop or a watcher that has failed is one without a
period. Specification, section 5: Concurrency & Resource Model.
-/
namespace Interlock.Schedule

open Coordinator

variable {σ : Type} {site : Site σ} {now : Nat} {y y' : σ}

namespace SpaceLoop

def hasFailed (l : SpaceLoop site) : Bool :=
  match l.phase with
  | .failed => true
  | _ => false

variable {l l' : SpaceLoop site} {closing : Bool}

theorem settle_hasFailed (p : site.Progress Unit × σ) :
    (l.settle closing p).1.hasFailed = false := by
  obtain ⟨_ | _, _⟩ := p
  · cases closing <;> rfl
  · rfl

theorem close_hasFailed (l : SpaceLoop site) : l.close.hasFailed = l.hasFailed := by
  obtain ⟨_, _, _, _ | _ | _ | _⟩ := l <;> rfl

theorem close_space (l : SpaceLoop site) : l.close.space = l.space := by
  obtain ⟨_, _, _, _ | _ | _ | _⟩ := l <;> rfl

/-- A loop that does a piece of work has not failed, and does not fail. -/
theorem step?_hasFailed {c : Coordinator} {period : Nat}
    (step : l.step? c period closing now y = some (l', y')) :
    l.hasFailed = false ∧ l'.hasFailed = false := by
  obtain ⟨parked, rfl⟩ | ⟨t, busy, rfl⟩ := step?_cases step
  · exact ⟨by simp only [hasFailed, parked], settle_hasFailed _⟩
  · exact ⟨by simp only [hasFailed, busy], settle_hasFailed _⟩

end SpaceLoop

namespace WatchLoop

def hasFailed (l : WatchLoop site) : Bool :=
  match l.phase with
  | .failed => true
  | _ => false

theorem close_hasFailed (l : WatchLoop site) : l.close.hasFailed = l.hasFailed := by
  obtain ⟨_, _, _ | _ | _ | _⟩ := l <;> rfl

end WatchLoop

namespace Crew

/-- The spaces of the loops, and for each loop and the watcher whether it has failed. -/
structure Fates where
  loops : List (SpaceId × Bool)
  watch : Option Bool

def fates (crew : Crew site) : Fates :=
  ⟨crew.loops.map fun l => (l.space, l.hasFailed), crew.watch.map WatchLoop.hasFailed⟩

/-! Nothing that happens to a crew changes who has failed. -/

variable {crew crew' : Crew site}

theorem fates_wake (crew : Crew site) (s : SpaceId) : (crew.wake s).fates = crew.fates := by
  simp only [fates, wake, List.map_map]
  congr 1
  refine List.map_congr_left fun l _ => ?_
  cases own : l.space == s <;> simp only [Function.comp_apply, own] <;> rfl

theorem fates_settleSignal (crew : Crew site) (p : site.Progress (Option SpaceId) × σ) :
    (crew.settleSignal p).1.fates = crew.fates := by
  obtain ⟨(_ | s) | t, y⟩ := p
  · rfl
  · exact fates_wake _ s
  · rfl

theorem fates_stepLoops {loops loops' : List (SpaceLoop site)}
    (step : crew.stepLoops? now y loops = some (loops', y')) :
    (loops'.map fun l => (l.space, l.hasFailed)) = loops.map fun l => (l.space, l.hasFailed) := by
  induction loops generalizing loops' with
  | nil => cases step
  | cons l rest ih =>
    unfold stepLoops? at step
    split at step
    next l' _ stepped =>
      obtain ⟨rfl, -⟩ := Prod.mk.inj (Option.some.inj step)
      obtain ⟨before, after⟩ := SpaceLoop.step?_hasFailed stepped
      simp only [List.map_cons, SpaceLoop.step?_space stepped, before, after]
    next =>
      obtain ⟨⟨rest', z⟩, stepped, same⟩ := Option.map_eq_some_iff.1 step
      obtain ⟨rfl, rfl⟩ := Prod.mk.inj same
      rw [List.map_cons, List.map_cons, ih stepped]

/-- Only a watcher that has not failed polls, and it does not fail then. -/
theorem fates_settlePoll (alive : crew.fates.watch = some false) (l : WatchLoop site)
    (p : site.Progress (List Signal × Watcher) × σ) :
    (crew.settlePoll l p).1.fates = crew.fates := by
  have same (l : WatchLoop site) (well : l.hasFailed = false) :
      ({ crew with watch := some l } : Crew site).fates = crew.fates := by
    rw [fates, Option.map_some, well, ← alive]
    rfl
  obtain ⟨⟨signals, m⟩ | t, y⟩ := p
  · simp only [settlePoll]
    cases (!signals.isEmpty && !crew.accepts) <;> cases crew.closing <;> exact same _ rfl
  · exact same _ rfl

theorem Work.fates_eq (work : Work crew now y crew') : crew'.fates = crew.fates := by
  have alive {l : WatchLoop site} (watched : crew.watch = some l) (well : l.hasFailed = false) :
      crew.fates.watch = some false := by
    rw [fates, watched, Option.map_some, well]
  cases work with
  | takes idle first => exact fates_settleSignal _ _
  | goesOn busy => exact fates_settleSignal _ _
  | evaluates stepped => simp only [fates, fates_stepLoops stepped]
  | polls watched waiting =>
    exact fates_settlePoll (alive watched (by simp only [WatchLoop.hasFailed, waiting])) _ _
  | hears watched polling =>
    exact fates_settlePoll (alive watched (by simp only [WatchLoop.hasFailed, polling])) _ _

theorem fates_close (crew : Crew site) : crew.close.fates = crew.fates := by
  simp [fates, close, Function.comp_def, SpaceLoop.close_hasFailed, SpaceLoop.close_space,
    WatchLoop.close_hasFailed]

theorem Move.fates_eq (move : Move crew crew') : crew'.fates = crew.fates := by
  cases move with
  | works now step => exact (work_of_step step).fates_eq
  | sent signals => rfl
  | closes => exact fates_close crew

theorem Reaches.fates_eq (reaches : Reaches crew crew') : crew'.fates = crew.fates := by
  induction reaches with
  | refl => rfl
  | tail _ move ih => exact move.fates_eq.trans ih

/-! The tasks that have failed. -/

inductive Task where
  | loop (s : SpaceId)
  | dispatcher
  | watcher

/-- The task has failed. A dispatcher has nothing that could. -/
def Fails (crew : Crew site) : Task → Prop
  | .loop s => ∃ l ∈ crew.loops, l.space = s ∧ l.phase = .failed
  | .dispatcher => False
  | .watcher => ∃ l, crew.watch = some l ∧ l.phase = .failed

/-- A coordinator gives the task a period. -/
def Ticks (c : Coordinator) (workers : List WorkerId) : Task → Prop
  | .loop s => s ∈ c.spaces
  | .dispatcher => False
  | .watcher => workers ≠ []

theorem fails_loop_iff {s : SpaceId} : crew.Fails (.loop s) ↔ (s, true) ∈ crew.fates.loops := by
  have failed (l : SpaceLoop site) : l.hasFailed = true ↔ l.phase = .failed := by
    obtain ⟨_, _, _, _ | _ | _ | _⟩ := l <;> simp [SpaceLoop.hasFailed]
  simp only [Fails, fates, List.mem_map, Prod.mk.injEq, failed]

theorem fails_watcher_iff : crew.Fails .watcher ↔ crew.fates.watch = some true := by
  have failed (l : WatchLoop site) : l.hasFailed = true ↔ l.phase = .failed := by
    obtain ⟨_, _, _ | _ | _ | _⟩ := l <;> simp [WatchLoop.hasFailed]
  simp only [Fails, fates, Option.map_eq_some_iff, failed]

theorem fails_congr (same : crew'.fates = crew.fates) (t : Task) :
    crew'.Fails t ↔ crew.Fails t := by
  cases t with
  | loop s => rw [fails_loop_iff, fails_loop_iff, same]
  | dispatcher => exact Iff.rfl
  | watcher => rw [fails_watcher_iff, fails_watcher_iff, same]

theorem fates_start (site : Site σ) (c : Coordinator) (workers : List WorkerId) (now : Nat) :
    (start c workers now : Crew site).fates =
      ⟨(Coordinator.distinctSpaces c.spaces).map fun s =>
          (s, decide (c.settings.evaluationPeriod.toNanos = 0)),
        if workers.isEmpty then none
        else some (decide (c.settings.evaluationPeriod.toNanos = 0))⟩ := by
  by_cases period : c.settings.evaluationPeriod.toNanos = 0 <;> cases workers <;>
    simp [fates, start, SpaceLoop.new, WatchLoop.new, Function.comp_def, period,
      SpaceLoop.hasFailed, WatchLoop.hasFailed]

/-- At its start every task without a period fails, and no other. -/
theorem start_fails_iff {c : Coordinator} {workers : List WorkerId} (t : Task) :
    (start c workers now : Crew site).Fails t ↔
      c.settings.evaluationPeriod.toNanos = 0 ∧ Ticks c workers t := by
  cases t with
  | loop s =>
    rw [fails_loop_iff, fates_start]
    simp [Ticks, Coordinator.distinctSpaces, mem_eraseReps, and_comm]
  | dispatcher => simp [Fails, Ticks]
  | watcher =>
    rw [fails_watcher_iff, fates_start]
    cases workers <;> simp [Ticks]

/-- However a crew goes on: the tasks have failed that had no period, and no other. -/
theorem Reaches.fails_iff {c : Coordinator} {workers : List WorkerId}
    (reaches : Reaches (start c workers now) crew) (t : Task) :
    crew.Fails t ↔ c.settings.evaluationPeriod.toNanos = 0 ∧ Ticks c workers t :=
  (fails_congr reaches.fates_eq t).trans (start_fails_iff t)

/-! A crew at work makes moves. -/

theorem reaches_runUntil (crew : Crew site) (fuel target now : Nat) (y : σ) :
    Reaches crew (crew.runUntil fuel target now y).1 := by
  induction fuel generalizing crew now y with
  | zero => exact .refl
  | succ fuel ih =>
    rw [runUntil]
    split
    · next stepped => exact .head (.works now stepped) (ih _ _ _)
    · split
      · exact .refl
      · split
        · split
          · exact ih _ _ _
          · exact .refl
        · exact .refl

theorem reaches_settle (crew : Crew site) (now : Nat) (y : σ) :
    Reaches crew (crew.settle now y).1 :=
  crew.reaches_runUntil manySteps now now y

end Crew

end Interlock.Schedule
