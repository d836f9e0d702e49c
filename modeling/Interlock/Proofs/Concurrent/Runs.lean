import Interlock.Proofs.Concurrent.Manners

/-!
What one step does, and from it what holds in every run. A step applies at most one store call to
the table and adds its event to the history. Each task goes on from the log it has, so it keeps to
the conduct its program was found to keep to; and the history of a run from an opening holds no
call that the manners of its operation do not allow.
-/
namespace Interlock.Concurrent

open Coordinator Store Fleet

theorem logOf_cons_call {i j : Nat} {o : Operation} {a : Action} {r : a.Answer} {fate : Fate}
    {t : Table} {history : List Event} :
    logOf i (.call j o a r fate t :: history) =
      if j = i then ⟨a, r⟩ :: logOf i history else logOf i history := by
  by_cases same : j = i <;> simp [logOf, Event.logged?, same]

theorem logOf_cons_of_ne {i : Nat} {e : Event} {history : List Event}
    (other : e.task? ≠ some i) : logOf i (e :: history) = logOf i history := by
  cases e with
  | begun j o => rfl
  | call j o a r fate t => rw [logOf_cons_call, if_neg fun same => other (congrArg some same)]
  | landed o c t => rfl

theorem logOf_append (i : Nat) (late early : List Event) :
    logOf i (late ++ early) = logOf i late ++ logOf i early := List.filterMap_append

/-- A task without events has an empty log. -/
theorem logOf_eq_nil {i : Nat} {history : List Event}
    (none : ∀ e ∈ history, e.task? ≠ some i) : logOf i history = [] := by
  induction history with
  | nil => rfl
  | cons e older ih =>
    rw [logOf_cons_of_ne (none e List.mem_cons_self)]
    exact ih fun e' he => none e' (List.mem_cons_of_mem _ he)

namespace Event

variable {e : Event}

theorem of_effect?_eq_some {o : Operation} {c : Store.Call} {t : Table}
    (effect : e.effect? = some (o, c, t)) :
    (∃ i l r, e = .call i o (.store l c) r .done t) ∨ e = .landed o c t := by
  unfold effect? at effect
  split at effect
  · cases effect; exact .inl ⟨_, _, _, rfl⟩
  · cases effect; exact .inr rfl
  · cases effect

theorem operation_of_effect? {o : Operation} {c : Store.Call} {t : Table}
    (effect : e.effect? = some (o, c, t)) : e.operation = o := by
  rcases of_effect?_eq_some effect with ⟨i, l, r, rfl⟩ | rfl <;> rfl

theorem fate_eq_done_of_calm {i : Nat} {o : Operation} {a : Action} {r : a.Answer} {fate : Fate}
    {t : Table} (calm : (Event.call i o a r fate t).calm = true) (must : mayFail a = false) :
    fate = .done := by
  unfold Event.calm at calm
  split at calm
  · contradiction
  · simp_all
  · simp_all [mayFail]
  · simp_all [mayFail]
  · cases calm

theorem of_logged?_eq_some {i : Nat} {a : Action} {r : a.Answer}
    (entry : e.logged? i = some ⟨a, r⟩) : ∃ o fate t, e = .call i o a r fate t := by
  cases e with
  | begun j o => cases entry
  | call j o a' r' fate t =>
    simp only [logged?] at entry
    split at entry
    · next same =>
      cases entry
      exact ⟨o, fate, t, by rw [same]⟩
    · cases entry
  | landed o c t => cases entry

theorem of_command?_eq_some {c : Command} (command : e.command? = some c) :
    ∃ i o l r t, e = .call i o (.vendor l c) r .done t := by
  unfold command? at command
  split at command
  · cases command; exact ⟨_, _, _, _, _, rfl⟩
  · cases command

end Event

/-- Where a log splits at a call, the history splits at the event of that call. -/
theorem split_of_logOf {i : Nat} {history : List Event} {a : Action} {r : a.Answer}
    {later sooner : Log actions} (logged : logOf i history = later ++ ⟨a, r⟩ :: sooner) :
    ∃ late o fate t early, history = late ++ .call i o a r fate t :: early ∧
      logOf i late = later ∧ logOf i early = sooner := by
  obtain ⟨newer, older, rfl, rfl, rest⟩ := List.filterMap_eq_append_iff.1 logged
  obtain ⟨quiet, e, early, rfl, none, entry, rfl⟩ := List.filterMap_eq_cons_iff.1 rest
  obtain ⟨o, fate, t, rfl⟩ := Event.of_logged?_eq_some entry
  refine ⟨newer ++ quiet, o, fate, t, early, by simp, ?_, rfl⟩
  rw [logOf, List.filterMap_append, List.filterMap_eq_nil_iff.2 none, List.append_nil]

theorem mem_logOf {i : Nat} {history : List Event} {a : Action} {r : a.Answer} :
    ⟨a, r⟩ ∈ logOf i history ↔ ∃ o fate t, .call i o a r fate t ∈ history := by
  constructor
  · intro logged
    obtain ⟨later, sooner, split⟩ := List.append_of_mem logged
    obtain ⟨late, o, fate, t, early, rfl, -⟩ := split_of_logOf split
    exact ⟨o, fate, t, by simp⟩
  · rintro ⟨o, fate, t, happened⟩
    exact List.mem_filterMap.2 ⟨_, happened, by simp [Event.logged?]⟩

theorem split_of_justHad {i : Nat} {history : List Event} {P : (a : Action) → a.Answer → Prop}
    (had : JustHad (logOf i history) P) :
    ∃ late o a r fate t early, history = late ++ .call i o a r fate t :: early ∧
      logOf i late = [] ∧ P a r := by
  obtain ⟨⟨a, r⟩, head, holds⟩ := had
  obtain ⟨log, last⟩ := List.head?_eq_some_iff.1 (Option.mem_def.1 head)
  rw [← List.nil_append (⟨a, r⟩ :: log)] at last
  obtain ⟨late, o, fate, t, early, split, none, -⟩ := split_of_logOf last
  exact ⟨late, o, a, r, fate, t, early, split, none, holds⟩

namespace System

variable {x y : System} {e : Event}

/-! One step. -/

theorem Step.history (step : Step x e y) : y.history = e :: x.history := by cases step <;> rfl

theorem Step.table_of_effect {o : Operation} {c : Store.Call} {t : Table} (step : Step x e y)
    (effect : e.effect? = some (o, c, t)) : t = x.table ∧ y.table = (c.apply x.table).2 := by
  cases step with
  | begun => cases effect
  | done task calls done =>
    cases done <;> cases effect
    exact ⟨rfl, rfl⟩
  | refused => simp [Event.effect?] at effect
  | adrift => simp [Event.effect?] at effect
  | landed =>
    cases effect
    exact ⟨rfl, rfl⟩

theorem Step.table_of_none (step : Step x e y) (none : e.effect? = none) :
    y.table = x.table := by
  cases step with
  | done task calls done => cases done <;> first | rfl | cases none
  | landed => cases none
  | _ => rfl

/-- A call belongs to a task that is under way and has come to just this call. -/
theorem Step.of_call {i : Nat} {o : Operation} {a : Action} {r : a.Answer} {fate : Fate}
    {t : Table} (step : Step x (.call i o a r fate t) y) :
    t = x.table ∧ MayAnswer a r ∧ ∃ rest next, x.tasks i = some ⟨o, rest⟩ ∧
      rest.heed = .call a next ∧ y.tasks = Function.update x.tasks i (some ⟨o, next r⟩) := by
  cases step with
  | done task calls effect => exact ⟨rfl, mayAnswer_of_effect effect, _, _, task, calls, rfl⟩
  | refused task calls fails => exact ⟨rfl, mayAnswer_of_fails fails, _, _, task, calls, rfl⟩
  | adrift task calls fails => exact ⟨rfl, mayAnswer_of_fails fails, _, _, task, calls, rfl⟩

/-- An operation begins under a number that was free. -/
theorem Step.of_begun {i : Nat} {o : Operation} (step : Step x (.begun i o) y) :
    x.tasks i = none ∧
      ∃ e c, y.tasks = Function.update x.tasks i (some ⟨o, planAt e c o⟩) := by
  cases step with
  | begun free e c => exact ⟨free, e, c, rfl⟩

/-- The tasks other than that of the event are where they were. -/
theorem Step.tasks_of_ne {i : Nat} (step : Step x e y) (other : e.task? ≠ some i) :
    y.tasks i = x.tasks i := by
  have apart {j : Nat} (ne : some j ≠ some i) : i ≠ j := fun same => ne (congrArg some same.symm)
  cases step with
  | landed => rfl
  | _ => exact Function.update_of_ne (apart other) _ _

/-- A task keeps to a conduct as long as it gets only answers the conduct reckons with. -/
theorem Step.keeps {κ : Conduct actions} {i : Nat} {o : Operation} {rest : Plan o.Answer}
    {post : Log actions → o.Answer → Prop} (step : Step x e y)
    (task : x.tasks i = some ⟨o, rest⟩) (keeps : rest.Keeps κ post (logOf i x.history))
    (expected : ∀ o' a r fate t, e = .call i o' a r fate t → κ.expects a r) :
    ∃ rest', y.tasks i = some ⟨o, rest'⟩ ∧ rest'.Keeps κ post (logOf i y.history) := by
  rw [step.history]
  by_cases other : e.task? = some i
  · cases e with
    | begun j o' =>
      cases other
      rw [step.of_begun.1] at task
      cases task
    | call j o' a r fate t =>
      cases other
      obtain ⟨-, -, rest', next, task', calls, tasks⟩ := step.of_call
      rw [task] at task'
      cases task'
      refine ⟨next r, by rw [tasks, Function.update_self], ?_⟩
      rw [logOf_cons_call, if_pos rfl]
      have goesOn := keeps.heed
      rw [calls, Program.keeps_call] at goesOn
      exact goesOn.2 r (expected _ _ _ _ _ rfl)
    | landed o' c t => cases other
  · rw [logOf_cons_of_ne other, step.tasks_of_ne other]
    exact ⟨rest, task, keeps⟩

end System

/-! Every run from an opening. -/

/-- Each event of a history satisfies a condition on what happened before it. -/
def Throughout (P : List Event → Event → Prop) : List Event → Prop
  | [] => True
  | e :: older => P older e ∧ Throughout P older

theorem Throughout.tail {P : List Event → Event → Prop} {late early : List Event}
    (holds : Throughout P (late ++ early)) : Throughout P early := by
  induction late with
  | nil => exact holds
  | cons e late ih => exact ih holds.2

theorem Throughout.split {P : List Event → Event → Prop} {late early : List Event} {e : Event}
    (holds : Throughout P (late ++ e :: early)) : P early e := holds.tail.1

/-- Whether the manners of its operation allow an event after what happened before. -/
def Event.Mannerly (older : List Event) : Event → Prop
  | .begun .. => True
  | .call i o a _ _ _ => Allows o (logOf i older) a
  | .landed o c _ => o.Changes c

theorem Allows.changes {o : Operation} {log : Log actions} {limit : Option Time.Duration}
    {c : Store.Call} (allowed : Allows o log (.store limit c)) : o.Changes c := by
  cases c with
  | swap new old => exact allowed.1
  | _ => exact allowed

/-- A history of events that were allowed when they happened. -/
def Orderly : List Event → Prop := Throughout fun older e => e.Mannerly older

theorem Orderly.changes {history : List Event} {e : Event} {o : Operation} {c : Store.Call}
    {t : Table} (orderly : Orderly history) (happened : e ∈ history)
    (effect : e.effect? = some (o, c, t)) : o.Changes c := by
  obtain ⟨late, early, rfl⟩ := List.append_of_mem happened
  have allowed : e.Mannerly early := orderly.split
  rcases Event.of_effect?_eq_some effect with ⟨i, l, r, rfl⟩ | rfl
  · exact Allows.changes allowed
  · exact allowed

/-- The table that a history leaves. -/
def tableAfter (t : Table) : List Event → Table
  | [] => t
  | e :: older =>
    match e.effect? with
    | some (_, c, _) => (c.apply (tableAfter t older)).2
    | none => tableAfter t older

/-- Whether an event found the table, and answered as the table tells if it was done. -/
def Event.FaithfulTo (t : Table) : Event → Prop
  | .begun .. => True
  | .call _ _ a r fate found =>
    found = t ∧ (fate = .done → ∃ minters t' minters', Effect t minters a r t' minters')
  | .landed _ _ found => found = t

/-- A history of events that tell the truth about the table. -/
def Faithful (t : Table) : List Event → Prop :=
  Throughout fun older e => e.FaithfulTo (tableAfter t older)

/-- The events of a task are about its operation, every task keeps its manners, every call that is
adrift was allowed, and so was everything that happened. -/
structure Sound (x : System) : Prop where
  own : ∀ i, ∀ e ∈ x.history, e.task? = some i → ∃ rest, x.tasks i = some ⟨e.operation, rest⟩
  keeps : ∀ i o rest, x.tasks i = some ⟨o, rest⟩ →
    rest.Keeps (manners o) (fun _ _ => True) (logOf i x.history)
  adrift : ∀ p ∈ x.adrift, p.1.Changes p.2
  orderly : Orderly x.history

/-- The events of a task are all about the same operation. -/
theorem Sound.operation_eq {x : System} {i : Nat} {e e' : Event} (sound : Sound x)
    (he : e ∈ x.history) (he' : e' ∈ x.history) (mine : e.task? = some i)
    (mine' : e'.task? = some i) : e.operation = e'.operation := by
  obtain ⟨rest, task⟩ := sound.own i e he mine
  obtain ⟨rest', task'⟩ := sound.own i e' he' mine'
  rw [task] at task'
  exact congrArg Task.operation (Option.some.inj task')

theorem sound_opening (t : Table) (minters : Nat → Minter) : Sound (System.opening t minters) where
  own _ _ h := nomatch h
  keeps _ _ _ task := nomatch task
  adrift _ h := nomatch h
  orderly := trivial

namespace System

variable {x y : System} {e : Event}

theorem Step.mannered {i : Nat} {o : Operation} {rest : Plan o.Answer} (step : Step x e y)
    (sound : Sound x) (task : x.tasks i = some ⟨o, rest⟩) :
    ∃ rest', y.tasks i = some ⟨o, rest'⟩ ∧
      rest'.Keeps (manners o) (fun _ _ => True) (logOf i y.history) := by
  refine step.keeps task (sound.keeps i o rest task) fun o' a r fate t call => ?_
  subst call
  exact step.of_call.2.1

/-- A call that is made is one that the manners of its operation allow. -/
theorem Step.allows {i : Nat} {o : Operation} {a : Action} {r : a.Answer} {fate : Fate}
    {t : Table} (step : Step x (.call i o a r fate t) y) (sound : Sound x) :
    Allows o (logOf i x.history) a := by
  obtain ⟨-, -, rest, next, task, calls, -⟩ := step.of_call
  have keeps := (sound.keeps i o rest task).heed
  rw [calls, Program.keeps_call] at keeps
  exact keeps.1

theorem Step.mannerly (step : Step x e y) (sound : Sound x) : e.Mannerly x.history := by
  cases e with
  | begun i o => trivial
  | call i o a r fate t => exact step.allows sound
  | landed o c t =>
    cases step with
    | landed waits => exact sound.adrift (o, c) (by simp [waits])

theorem Step.own (step : Step x e y) (sound : Sound x) (i : Nat) (e' : Event)
    (happened : e' ∈ y.history) (mine : e'.task? = some i) :
    ∃ rest, y.tasks i = some ⟨e'.operation, rest⟩ := by
  rw [step.history] at happened
  rcases List.mem_cons.1 happened with rfl | happened
  · cases e' with
    | begun j o =>
      cases mine
      obtain ⟨-, e, c, tasks⟩ := step.of_begun
      exact ⟨_, by rw [tasks, Function.update_self]; rfl⟩
    | call j o a r fate t =>
      cases mine
      obtain ⟨-, -, -, next, -, -, tasks⟩ := step.of_call
      exact ⟨next r, by rw [tasks, Function.update_self]; rfl⟩
    | landed o c t => cases mine
  · obtain ⟨rest, task⟩ := sound.own i e' happened mine
    obtain ⟨rest', task', -⟩ := step.mannered sound task
    exact ⟨rest', task'⟩

variable {κ : Operation → Conduct actions} {post : (o : Operation) → Log actions → o.Answer → Prop}

/-- If every program keeps to the conduct of its operation from its beginning, then the tasks keep
to it: one that begins has no log yet, and one that was under way goes on. -/
theorem Step.tasks_keep (step : Step x e y)
    (own : ∀ i, ∀ e ∈ x.history, e.task? = some i → ∃ rest, x.tasks i = some ⟨e.operation, rest⟩)
    (begins : ∀ e c o, (planAt e c o).Keeps (κ o) (post o) [])
    (goesOn : ∀ i o rest, x.tasks i = some ⟨o, rest⟩ →
      rest.Keeps (κ o) (post o) (logOf i x.history))
    (expected : ∀ i o a r fate t, e = .call i o a r fate t → ∀ o', (κ o').expects a r)
    (i : Nat) (o : Operation) (rest : Plan o.Answer) (task : y.tasks i = some ⟨o, rest⟩) :
    rest.Keeps (κ o) (post o) (logOf i y.history) := by
  cases before : x.tasks i with
  | some old =>
    obtain ⟨o', rest'⟩ := old
    obtain ⟨rest'', task', keeps⟩ := step.keeps before (goesOn i o' rest' before)
      fun _ _ _ _ _ call => expected _ _ _ _ _ _ call o'
    rw [task] at task'
    cases task'
    exact keeps
  | none =>
    have unheard : ∀ e' ∈ x.history, e'.task? ≠ some i := by
      intro e' happened mine
      obtain ⟨rest', task'⟩ := own i e' happened mine
      rw [before] at task'
      cases task'
    by_cases mine : e.task? = some i
    · cases e with
      | begun j o' =>
        cases mine
        obtain ⟨-, e, c, tasks⟩ := step.of_begun
        rw [tasks, Function.update_self] at task
        cases task
        have fresh : logOf i (.begun i o :: x.history) = logOf i x.history := rfl
        rw [step.history, fresh, logOf_eq_nil unheard]
        exact begins e c o
      | call j o' a r fate t =>
        cases mine
        obtain ⟨-, -, rest', next, task', -⟩ := step.of_call
        rw [before] at task'
        cases task'
      | landed o' c t => cases mine
    · rw [step.tasks_of_ne mine, before] at task
      cases task

theorem Step.adrift_changes (step : Step x e y) (sound : Sound x) :
    ∀ p ∈ y.adrift, p.1.Changes p.2 := by
  intro p waits
  have allowed := step.mannerly sound
  cases step with
  | adrift task calls fails =>
    rcases List.mem_append.1 waits with mine | older
    · obtain ⟨c, call, rfl⟩ := List.mem_map.1 mine
      simp only [Option.mem_toList, storeCall?] at call
      split at call
      · cases call
        exact Allows.changes allowed
      · cases call
    · exact sound.adrift p older
  | landed waiting =>
    refine sound.adrift p ?_
    rw [waiting]
    rcases List.mem_append.1 waits with front | back
    · exact List.mem_append_left _ front
    · exact List.mem_append_right _ (List.mem_cons_of_mem _ back)
  | _ => exact sound.adrift p waits

/-- Soundness is kept by every step. -/
theorem Step.sound (step : Step x e y) (sound : Sound x) : Sound y where
  own := step.own sound
  keeps := by
    refine step.tasks_keep sound.own planAt_manners sound.keeps fun i o a r fate t call o' => ?_
    subst call
    exact step.of_call.2.1
  adrift := step.adrift_changes sound
  orderly := by
    rw [step.history]
    exact ⟨step.mannerly sound, sound.orderly⟩

variable {kind : Event → Prop} {t : Table} {minters : Nat → Minter}

/-- Every run from an opening is sound. -/
theorem Run.sound (run : Run kind (opening t minters) x) : Sound x := by
  induction run with
  | here => exact sound_opening t minters
  | step run step fit ih => exact step.sound ih

/-- In every run the tasks keep to a conduct whose answers cover those of the run. -/
theorem Run.tasks_keep (run : Run kind (opening t minters) x)
    (begins : ∀ e c o, (planAt e c o).Keeps (κ o) (post o) [])
    (expected : ∀ {x y i o a r fate t}, Step x (.call i o a r fate t) y →
      kind (.call i o a r fate t) → ∀ o', (κ o').expects a r) :
    ∀ i o rest, x.tasks i = some ⟨o, rest⟩ → rest.Keeps (κ o) (post o) (logOf i x.history) := by
  induction run with
  | here => exact fun _ _ _ task => nomatch task
  | step run step fit ih =>
    refine step.tasks_keep run.sound.own begins ih fun i o a r fate t call o' => ?_
    subst call
    exact expected step fit o'

/-- Every call that was made is one that the conduct of its operation allows. -/
theorem Run.conducted (run : Run kind (opening t minters) x)
    (begins : ∀ e c o, (planAt e c o).Keeps (κ o) (post o) [])
    (expected : ∀ {x y i o a r fate t}, Step x (.call i o a r fate t) y →
      kind (.call i o a r fate t) → ∀ o', (κ o').expects a r) :
    Throughout (fun older e => ∀ i o a r fate t, e = .call i o a r fate t →
      (κ o).allows (logOf i older) a) x.history := by
  induction run with
  | here => trivial
  | step run step fit ih =>
    rw [step.history]
    refine ⟨?_, ih⟩
    rintro i o a r fate t rfl
    obtain ⟨-, -, rest, next, task, calls, -⟩ := step.of_call
    have keeps := (run.tasks_keep begins expected i o rest task).heed
    rw [calls, Program.keeps_call] at keeps
    exact keeps.1

/-- What a program was found to end with holds when its task has returned. -/
theorem Run.of_returned {i : Nat} {o : Operation} {v : o.Answer}
    (run : Run kind (opening t minters) x)
    (begins : ∀ e c o, (planAt e c o).Keeps (κ o) (post o) [])
    (expected : ∀ {x y i o a r fate t}, Step x (.call i o a r fate t) y →
      kind (.call i o a r fate t) → ∀ o', (κ o').expects a r)
    (returned : x.Returned i o v) : post o (logOf i x.history) v := by
  obtain ⟨rest, task, ended⟩ := returned
  have keeps := (run.tasks_keep begins expected i o rest task).heed
  rw [ended] at keeps
  exact keeps

theorem Run.fits (run : Run kind (opening t minters) x) : ∀ e ∈ x.history, kind e := by
  induction run with
  | here => exact fun _ h => nomatch h
  | step run step fit ih =>
    intro e happened
    rw [step.history] at happened
    rcases List.mem_cons.1 happened with rfl | happened
    · exact fit
    · exact ih e happened

/-- A task that is under way, or has come to its end, has begun. -/
theorem Run.exists_of_task (run : Run kind (opening t minters) x) {i : Nat} {task : Task}
    (under : x.tasks i = some task) : ∃ e ∈ x.history, e.task? = some i := by
  induction run with
  | here => cases under
  | @step y z e run step fit ih =>
    rw [step.history]
    by_cases mine : e.task? = some i
    · exact ⟨e, List.mem_cons_self, mine⟩
    · obtain ⟨e', happened, own⟩ := ih (step.tasks_of_ne mine ▸ under)
      exact ⟨e', List.mem_cons_of_mem _ happened, own⟩

/-- A run only adds to the history. -/
theorem Run.history_eq (run : Run kind x y) : ∃ since, y.history = since ++ x.history := by
  induction run with
  | here => exact ⟨[], rfl⟩
  | step run step fit ih =>
    obtain ⟨since, older⟩ := ih
    exact ⟨_ :: since, by rw [step.history, older, List.cons_append]⟩

/-- A run has been where its history was shorter. -/
theorem Run.earlier {late early : List Event} (run : Run kind (opening t minters) x)
    (split : x.history = late ++ early) :
    ∃ y, Run kind (opening t minters) y ∧ y.history = early := by
  induction run generalizing late with
  | here =>
    obtain ⟨-, rfl⟩ := List.append_eq_nil_iff.1 split.symm
    exact ⟨_, .here, rfl⟩
  | step run step fit ih =>
    cases late with
    | nil => exact ⟨_, .step run step fit, split⟩
    | cons e late =>
      rw [step.history, List.cons_append] at split
      exact ih (List.cons.inj split).2

/-- A run is of every kind that all its events are of. -/
theorem Run.of_kind {kind' : Event → Prop} (run : Run kind x y) (all : ∀ e ∈ y.history, kind' e) :
    Run kind' x y := by
  induction run with
  | here => exact .here
  | step run step fit ih =>
    rw [step.history] at all
    exact .step (ih fun e he => all e (List.mem_cons_of_mem _ he)) step (all _ List.mem_cons_self)

theorem Step.faithful (step : Step x e y) : e.FaithfulTo x.table := by
  cases step with
  | begun => trivial
  | done task calls effect => exact ⟨rfl, fun _ => ⟨_, _, _, effect⟩⟩
  | refused => exact ⟨rfl, nofun⟩
  | adrift => exact ⟨rfl, nofun⟩
  | landed => rfl

/-- A call that was not done got the answer of a failure. -/
theorem Run.done_or_fails (run : Run kind (opening t minters) x) {i : Nat} {o : Operation}
    {a : Action} {r : a.Answer} {fate : Fate} {found : Table}
    (happened : .call i o a r fate found ∈ x.history) : fate = .done ∨ Fails a r := by
  induction run with
  | here => cases happened
  | step run step fit ih =>
    rw [step.history] at happened
    rcases List.mem_cons.1 happened with rfl | happened
    · cases step with
      | done => exact .inl rfl
      | refused task calls fails => exact .inr fails
      | adrift task calls fails => exact .inr fails
    · exact ih happened

/-- The table is what the history made of the first one. -/
theorem Run.table (run : Run kind (opening t minters) x) : x.table = tableAfter t x.history := by
  induction run with
  | here => rfl
  | step run step fit ih =>
    rw [step.history, tableAfter, ← ih]
    split
    · next effect => exact (step.table_of_effect effect).2
    · next effect => exact step.table_of_none effect

theorem Run.faithful (run : Run kind (opening t minters) x) : Faithful t x.history := by
  induction run with
  | here => trivial
  | step run step fit ih =>
    rw [step.history]
    refine ⟨?_, ih⟩
    simp only [← run.table]
    exact step.faithful

end System

end Interlock.Concurrent
