import Interlock.Schedule.Loops
import Mathlib.Logic.Relation

/-!
What a crew does, piece by piece. A piece of work belongs to the dispatcher, to one of the loops or
to the watcher, and leaves the rest of the crew alone; besides, a crew is sent signals and may begin
to stop. A crew that is closing does not come back. Specification, section 5: Concurrency & Resource
Model.
-/
namespace Interlock.Schedule

open Coordinator

variable {σ : Type} {site : Site σ} {c : Coordinator} {now period : Nat} {y y' : σ}
  {crew crew' : Crew site}

namespace SpaceLoop

variable {l l' : SpaceLoop site} {closing : Bool} {p : site.Progress Unit × σ}

@[simp] theorem settle_space : (l.settle closing p).1.space = l.space := by
  obtain ⟨_ | _, _⟩ := p <;> rfl

@[simp] theorem settle_permit : (l.settle closing p).1.permit = l.permit := by
  obtain ⟨_ | _, _⟩ := p <;> rfl

@[simp] theorem consume_space : (l.consume period now).space = l.space := by
  unfold consume
  split <;> rfl

/-- A piece of work of a loop: a turn begins, or goes on. -/
theorem step?_cases (step : l.step? c period closing now y = some (l', y')) :
    l.phase = .parked ∧
        l' = ((l.consume period now).settle closing (site.advance now [] (turn c l.space) y)).1 ∨
      ∃ t, l.phase = .evaluating t ∧ l' = (l.settle closing (site.resume now t y)).1 := by
  unfold SpaceLoop.step? at step
  split at step
  next parked =>
    split at step
    · exact .inl ⟨parked, (congrArg Prod.fst (Option.some.inj step)).symm⟩
    · cases step
  next t busy =>
    split at step
    · exact .inr ⟨t, busy, (congrArg Prod.fst (Option.some.inj step)).symm⟩
    · cases step
  · cases step

theorem step?_space (step : l.step? c period closing now y = some (l', y')) :
    l'.space = l.space := by
  obtain ⟨-, rfl⟩ | ⟨t, -, rfl⟩ := step?_cases step <;> simp

end SpaceLoop

namespace Crew

/-- What can happen to a crew: it does a piece of work, at any time and with its site in any state;
it is sent signals; or it begins to stop. -/
inductive Move : Crew site → Crew site → Prop
  | works {crew crew' : Crew site} (now : Nat) {y y' : σ}
      (step : crew.step? now y = some (crew', y')) : Move crew crew'
  | sent (crew : Crew site) (signals : List Signal) : Move crew (crew.send signals)
  | closes (crew : Crew site) : Move crew crew.close

abbrev Reaches : Crew site → Crew site → Prop := Relation.ReflTransGen Move

/-- The pieces of work of a crew: its dispatcher takes a signal or goes on with one, one of its
loops does something, or its watcher polls or goes on with a poll. -/
inductive Work (crew : Crew site) (now : Nat) (y : σ) : Crew site → Prop
  | takes {signal : Signal} {later : List Signal} (idle : crew.dispatcher.phase = .idle)
      (first : crew.dispatcher.inbox = signal :: later) :
    Work crew now y
      (settleSignal { crew with dispatcher := { crew.dispatcher with inbox := later } }
        (site.advance now [] (crew.coordinator.dispatch signal) y)).1
  | goesOn {t : site.Suspended (Option SpaceId)} (busy : crew.dispatcher.phase = .handling t) :
    Work crew now y (crew.settleSignal (site.resume now t y)).1
  | evaluates {loops : List (SpaceLoop site)} {y' : σ}
      (stepped : crew.stepLoops? now y crew.loops = some (loops, y')) :
    Work crew now y { crew with loops := loops }
  | polls {l : WatchLoop site} (watched : crew.watch = some l) (waiting : l.phase = .waiting) :
    Work crew now y
      (crew.settlePoll { l with nextTick := skippedTick crew.period l.nextTick now }
        (site.advance now [] l.watcher.poll y)).1
  | hears {l : WatchLoop site} {t : site.Suspended (List Signal × Watcher)}
      (watched : crew.watch = some l) (polling : l.phase = .polling t) :
    Work crew now y (crew.settlePoll l (site.resume now t y)).1

theorem work_of_stepDispatcher (step : crew.stepDispatcher? now y = some (crew', y')) :
    Work crew now y crew' := by
  unfold stepDispatcher? at step
  split at step
  next t busy =>
    split at step
    · obtain rfl := congrArg Prod.fst (Option.some.inj step)
      exact .goesOn busy
    · cases step
  next signal later idle first =>
    obtain rfl := congrArg Prod.fst (Option.some.inj step)
    exact .takes idle first
  · cases step

theorem work_of_stepWatch (step : crew.stepWatch? now y = some (crew', y')) :
    Work crew now y crew' := by
  unfold stepWatch? at step
  obtain ⟨l, watched, step⟩ := Option.bind_eq_some_iff.1 step
  split at step
  next waiting =>
    split at step
    · obtain rfl := congrArg Prod.fst (Option.some.inj step)
      exact .polls watched waiting
    · cases step
  next t polling =>
    split at step
    · obtain rfl := congrArg Prod.fst (Option.some.inj step)
      exact .hears watched polling
    · cases step
  · cases step

/-- Whatever a crew does at one time is one of these pieces of work. -/
theorem work_of_step (step : crew.step? now y = some (crew', y')) : Work crew now y crew' := by
  unfold step? at step
  split at step
  · next dispatched =>
    obtain rfl := Option.some.inj step
    exact work_of_stepDispatcher dispatched
  · split at step
    · next loops _ stepped =>
      obtain rfl := congrArg Prod.fst (Option.some.inj step)
      exact .evaluates stepped
    · exact work_of_stepWatch step

/-! A crew that is closing does not come back. -/

theorem settleSignal_closing (p : site.Progress (Option SpaceId) × σ) :
    (crew.settleSignal p).1.closing = crew.closing := by
  obtain ⟨(_ | woken) | t, y⟩ := p <;> rfl

theorem settlePoll_closing (l : WatchLoop site) (p : site.Progress (List Signal × Watcher) × σ) :
    (crew.settlePoll l p).1.closing = crew.closing := by
  obtain ⟨⟨signals, m⟩ | t, y⟩ := p
  · simp only [settlePoll]
    split <;> rfl
  · rfl

theorem Work.closing (work : Work crew now y crew') : crew'.closing = crew.closing := by
  cases work with
  | takes idle first => exact settleSignal_closing _
  | goesOn busy => exact settleSignal_closing _
  | evaluates stepped => rfl
  | polls watched waiting => exact settlePoll_closing _ _
  | hears watched polling => exact settlePoll_closing _ _

theorem Move.isOpen (move : Move crew crew') (isOpen : crew'.closing = false) :
    crew.closing = false := by
  cases move with
  | works now step => exact (work_of_step step).closing.symm.trans isOpen
  | sent signals => exact isOpen
  | closes => cases isOpen

end Crew

end Interlock.Schedule
