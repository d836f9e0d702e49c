import Interlock.Proofs.Concurrent.Moves
import Interlock.Proofs.Concurrent.Presence
import Interlock.Proofs.Concurrent.ReleaseLog

/-!
A release against concurrent grants to the same worker. The release looks twice. A grant between its
looks makes it delete a holder record without an unblock if it has already decided that the worker
only waits; a grant after the second look leaves a holder record it does not know of. These two
gaps are the only ones: without a grant in them the release does all it promises. Specification,
section 4.3: Shared Space Coordinator.
-/
namespace Interlock.Concurrent

open Coordinator Store Fleet

/-- Where the task deletes a holder record of the worker, it has unblocked the space before. -/
def UnblockedFirst (i : Nat) (s : SpaceId) (w : WorkerId) (history : List Event) : Prop :=
  ∀ late e early, history = late ++ e :: early → e.task? = some i →
    e.mark? = some (.vacated s w) →
    ∃ e' ∈ early, e'.task? = some i ∧ e'.command? = some (.unblock s)

/-- A history with the first look of a task, its second look and what happened in between: at most
an unblock of its own. -/
structure TwoLooks (i : Nat) (s : SpaceId) (w : WorkerId)
    (history late between early : List Event) : Prop where
  split : ∃ o o' l l' shown shown' t t', history =
    late ++ .call i o' (.store l' (.find s w)) shown' .done t' ::
      (between ++ .call i o (.store l (.find s w)) shown .done t :: early)
  first : logOf i early = []
  second : ∀ entry ∈ logOf i between, ∃ l, entry.1 = .vendor l (.unblock s)

variable {i : Nat} {s : SpaceId} {w : WorkerId} {t : Table}

/-- How the looks, the deletions and the tables of a release fit together. -/
structure Course (i : Nat) (s : SpaceId) (w : WorkerId) (t : Table) (l : Limits)
    (late between early : List Event) (look look' : Event) (first second : List Record)
    (after : Log actions) : Prop where
  tame : ∀ e ∈ late ++ look' :: (between ++ look :: early), Tame i s w e
  faithful : Faithful t (late ++ look' :: (between ++ look :: early))
  before : tableAfter t (look :: early) = tableAfter t early
  before' : tableAfter t (look' :: (between ++ look :: early)) =
    tableAfter t (between ++ look :: early)
  first_eq : first = (tableAfter t early).find s w
  second_eq : second = (tableAfter t (between ++ look :: early)).find s w
  spares : ∀ entry ∈ after, Spares entry
  log_late : logOf i late = after ++ (second.map (deleted l)).reverse
  log_between : logOf i between = if first.any Record.isHolder then [unblocked l s] else []
  log_looks : logOf i (look' :: (between ++ look :: early)) = looks l s w first second

namespace Course

variable {l : Limits} {late between early : List Event} {look look' : Event}
  {first second : List Record} {after : Log actions}

theorem deletions_map (l : Limits) (rs : List Record) :
    deletions (rs.map (deleted l)).reverse = rs.reverse := by
  unfold deletions
  rw [List.filterMap_reverse, List.filterMap_map]
  congr 1
  exact List.filterMap_some

theorem deletions_eq_nil {log : Log actions} (spares : ∀ entry ∈ log, Spares entry) :
    deletions log = [] := by
  refine List.filterMap_eq_nil_iff.2 fun entry he => ?_
  have spared := spares entry he
  split
  · next r call => exact absurd call (spared _ r)
  · rfl

theorem deletions_late
    (course : Course i s w t l late between early look look' first second after) :
    deletions (logOf i late) = second.reverse := by
  rw [course.log_late, deletions, List.filterMap_append]
  exact (congrArg₂ _ (deletions_eq_nil course.spares) (deletions_map l second)).trans (by simp)

theorem deletions_between
    (course : Course i s w t l late between early look look' first second after) :
    deletions (logOf i between) = [] := by
  refine deletions_eq_nil fun entry he => ?_
  rw [course.log_between] at he
  split at he
  · rw [List.mem_singleton.1 he]
    exact fun _ _ h => nomatch h
  · cases he

theorem mem_second (course : Course i s w t l late between early look look' first second after)
    {r : Record} : r ∈ second ↔
      r ∈ (tableAfter t (between ++ look :: early)).records ∧ r.space = s ∧ r.worker = w := by
  rw [course.second_eq, Table.mem_find]

/-- Without a grant after the second look nothing of the worker is left. -/
theorem gone (course : Course i s w t l late between early look look' first second after)
    (ungranted : ¬ Granted s w late) :
    (tableAfter t (late ++ look' :: (between ++ look :: early))).find s w = [] := by
  refine List.eq_nil_iff_forall_not_mem.2 fun r there => ?_
  obtain ⟨seen, spared⟩ := mem_of_ungranted
    (fun e he => course.tame e (List.mem_append_left _ he)) course.faithful ungranted there
  rw [course.before', ← course.second_eq] at seen
  have listed : r ∈ deletions (logOf i late) := by
    rw [course.deletions_late]
    exact List.mem_reverse.2 seen
  exact spared r listed rfl rfl

/-- With a grant after the second look the worker holds the space in the end. -/
theorem not_gone (course : Course i s w t l late between early look look' first second after)
    (granted : Granted s w late) :
    (tableAfter t (late ++ look' :: (between ++ look :: early))).find s w ≠ [] := by
  obtain ⟨e, he, mark⟩ := granted
  obtain ⟨newer, older, rfl⟩ := List.append_of_mem he
  have faithful := course.faithful
  have tame := course.tame
  have parts := course.deletions_late
  rw [deletions_append] at parts
  rw [List.append_assoc] at faithful tame ⊢
  obtain ⟨h, held, space, own⟩ := (Faithful.granted faithful.tail mark).2
  by_cases hit : ∃ d ∈ deletions (logOf i newer), d.key = h.key
  · -- the record was seen by the second look and stayed until now, so there was no grant
    exfalso
    obtain ⟨d, deleted, key⟩ := hit
    have listed : d ∈ second := by
      rw [← List.mem_reverse, ← parts]
      exact List.mem_append_left _ deleted
    obtain ⟨stored, dspace, down⟩ := course.mem_second.1 listed
    have holds : d.isHolder = true :=
      (Record.isHolder_eq_of_key key).trans (Table.mem_holders.1 held).2
    have apart := List.pairwise_reverse.2
      ((course.second_eq ▸ Table.pairwise_find_key _ s w).imp Ne.symm)
    rw [← parts] at apart
    have spared : ∀ d' ∈ deletions (logOf i (e :: older)), d'.key ≠ d.key := fun d' hd' =>
      ((List.pairwise_append.1 apart).2.2 d deleted d' hd').symm
    have stretch : ∀ e' ∈ e :: older, Tame i s w e' := by
      intro e' he'
      rcases List.mem_cons.1 he' with rfl | he'
      · exact tame e' (by simp)
      · exact tame e' (by simp [he'])
    refine not_granted_of_held stretch faithful.tail ?_ dspace down spared
      ⟨e, List.mem_cons_self, mark⟩
    rw [course.before']
    exact Table.mem_holders.2 ⟨stored, holds⟩
  · have stays := holder_stays (fun e' (he' : e' ∈ newer) => tame e' (by simp [he'])) held space own
      fun d hd key => hit ⟨d, hd, key⟩
    intro empty
    exact Table.find_eq_nil_iff.1 empty h (Table.mem_holders.1 stays).1 space own

/-- What the task deletes it has seen in the second look, and both looks came before. -/
theorem of_deletion (course : Course i s w t l late between early look look' first second after)
    {newer older : List Event} {o : Operation} {k : Option Time.Duration} {d : Record}
    {answer : Timed (Store.Call.delete d).Answer} {fate : Fate} {found : Table}
    (split : late ++ look' :: (between ++ look :: early) =
      newer ++ .call i o (.store k (.delete d)) answer fate found :: older) :
    d ∈ second ∧ ∃ log, logOf i older = log ++ looks l s w first second := by
  have logs := congrArg (logOf i) split
  rw [logOf_append, course.log_late, course.log_looks, logOf_append, logOf_cons_call,
    if_pos rfl] at logs
  rcases List.append_eq_append_iff.1 logs with ⟨extra, -, inLooks⟩ | ⟨extra, inLate, rest⟩
  · -- none of the looks is a deletion
    have listed : (⟨.store k (.delete d), answer⟩ : (a : Action) × a.Answer) ∈
        looks l s w first second := by simp [inLooks]
    simp only [looks, looked, unblocked, List.mem_cons, List.mem_append] at listed
    rcases listed with eq | eq | eq | eq
    · cases eq
    · split at eq
      · cases List.mem_singleton.1 eq
      · cases eq
    · cases eq
    · cases eq
  · cases extra with
    | nil =>
      simp only [List.nil_append, looks, looked] at rest
      cases (List.cons.inj rest).1
    | cons entry extra =>
      rw [List.cons_append] at rest
      obtain ⟨rfl, before⟩ := List.cons.inj rest
      refine ⟨?_, extra, before⟩
      have listed : (⟨.store k (.delete d), answer⟩ : (a : Action) × a.Answer) ∈
          after ++ (second.map (deleted l)).reverse := by simp [inLate]
      rcases List.mem_append.1 listed with spared | listed
      · exact absurd rfl (course.spares _ spared k d)
      · obtain ⟨r, seen, eq⟩ := List.mem_map.1 (List.mem_reverse.1 listed)
        cases eq
        exact seen

/-- Without a grant between the looks the task unblocks the space before it deletes a holder. -/
theorem unblockedFirst (course : Course i s w t l late between early look look' first second after)
    (ungranted : ¬ Granted s w between) :
    UnblockedFirst i s w (late ++ look' :: (between ++ look :: early)) := by
  intro newer e older split mine mark
  obtain ⟨⟨o, c, found⟩, effect, vacated⟩ := Option.bind_eq_some_iff.1 mark
  obtain ⟨d, h, rfl, held, key, own, rfl, rfl, -⟩ := Store.Call.of_mark?_vacated vacated
  rcases Event.of_effect?_eq_some effect with ⟨j, k, answer, rfl⟩ | rfl
  · cases mine
    obtain ⟨listed, log, earlier⟩ := course.of_deletion split
    obtain ⟨stored, space, worker⟩ := course.mem_second.1 listed
    have holds : d.isHolder = true :=
      (Record.isHolder_eq_of_key key.symm).trans (Table.mem_holders.1 held).2
    -- the first look has seen the holder as well
    have seen := (mem_of_ungranted (fun e' he' => course.tame e' (by simp [he']))
      course.faithful.tail.2 ungranted (Table.mem_find.2 ⟨stored, space, worker⟩)).1
    rw [course.before, ← course.first_eq] at seen
    have held : first.any Record.isHolder = true := List.any_eq_true.2 ⟨d, seen, holds⟩
    have sent : unblocked l h.space ∈ logOf i older := by
      rw [earlier, looks, if_pos held]
      simp
    obtain ⟨e', he', entry⟩ := List.mem_filterMap.1 sent
    obtain ⟨o', fate, found', rfl⟩ := Event.of_logged?_eq_some entry
    have happened := List.mem_append_right newer (List.mem_cons_of_mem
      (.call i o (.store k (.delete d)) answer .done found) he')
    rw [← split] at happened
    obtain rfl := Event.fate_eq_done_of_calm (course.tame _ happened).calm rfl
    exact ⟨_, he', rfl, rfl⟩
  · cases mine

/-- Where there is a grant between the looks, the first look did not see a holder. -/
theorem unheld_of_granted
    (course : Course i s w t l late between early look look' first second after)
    (granted : Granted s w between) : first.any Record.isHolder = false := by
  by_contra held
  rw [Bool.not_eq_false, List.any_eq_true] at held
  obtain ⟨r, seen, holds⟩ := held
  rw [course.first_eq, ← course.before] at seen
  obtain ⟨stored, space, own⟩ := Table.mem_find.1 seen
  refine not_granted_of_held (fun e he => course.tame e (by simp [he])) course.faithful.tail.2
    (Table.mem_holders.2 ⟨stored, holds⟩) space own ?_ granted
  rw [course.deletions_between]
  exact fun d hd => nomatch hd

/-- Where there is a grant between the looks, the worker holds the space at the second one. -/
theorem held_of_granted
    (course : Course i s w t l late between early look look' first second after)
    (granted : Granted s w between) :
    ∃ h ∈ (tableAfter t (between ++ look :: early)).holders, h.space = s ∧ h.worker = w := by
  obtain ⟨e, he, mark⟩ := granted
  obtain ⟨newer, older, rfl⟩ := List.append_of_mem he
  have faithful := course.faithful.tail.2
  have spared := course.deletions_between
  rw [deletions_append, List.append_eq_nil_iff] at spared
  rw [List.append_assoc] at faithful ⊢
  obtain ⟨h, held, space, own⟩ := (Faithful.granted faithful.tail mark).2
  have stays := holder_stays (fun e' (he' : e' ∈ newer) => course.tame e' (by simp [he'])) held
    space own fun d hd => by rw [spared.1] at hd; cases hd
  exact ⟨h, stays, space, own⟩

/-- With a grant between the looks the task deletes a holder without having unblocked the space. -/
theorem not_unblockedFirst
    (course : Course i s w t l late between early look look' first second after)
    (granted : Granted s w between) :
    ¬ UnblockedFirst i s w (late ++ look' :: (between ++ look :: early)) := by
  have unheld := course.unheld_of_granted granted
  obtain ⟨h, held, space, own⟩ := course.held_of_granted granted
  obtain ⟨stored, holds⟩ := Table.mem_holders.1 held
  obtain ⟨sooner, later, parts⟩ := List.append_of_mem (course.mem_second.2 ⟨stored, space, own⟩)
  -- the task deletes the new holder, and it is still there
  have logs : logOf i late = (after ++ (later.map (deleted l)).reverse) ++
      deleted l h :: (sooner.map (deleted l)).reverse := by
    rw [course.log_late, parts]
    simp
  obtain ⟨newer, rest, rfl, -, entries⟩ := List.filterMap_eq_append_iff.1 logs
  obtain ⟨none, e, older, rfl, -, entry, log⟩ := List.filterMap_eq_cons_iff.1 entries
  change logOf i older = _ at log
  obtain ⟨o, fate, found, rfl⟩ := Event.of_logged?_eq_some entry
  have still : h ∈ (tableAfter t (older ++ look' :: (between ++ look :: early))).holders := by
    refine holder_stays (fun e' he' => course.tame e' (by simp [he'])) (course.before' ▸ held)
      space own fun d hd => ?_
    rw [log, deletions_map, List.mem_reverse] at hd
    have apart := Table.pairwise_find_key (tableAfter t (between ++ look :: early)) s w
    rw [← course.second_eq, parts] at apart
    exact (List.pairwise_append.1 apart).2.2 d hd h List.mem_cons_self
  have tame := course.tame (.call i o (.store l.store (.delete h)) (.inTime (.ok ())) fate found)
    (by simp)
  obtain rfl := Event.fate_eq_done_of_calm tame.calm rfl
  have faithful := course.faithful
  simp only [List.append_assoc, List.cons_append] at faithful
  have seen : found = tableAfter t (older ++ look' :: (between ++ look :: early)) :=
    faithful.tail.tail.1.1
  have mark : Event.mark? (.call i o (.store l.store (.delete h)) (.inTime (.ok ())) .done found) =
      some (.vacated s w) := by
    have stored := Table.getOf?_eq_some_iff.2 ⟨(Table.mem_holders.1 still).1, rfl, rfl⟩
    simp only [Event.mark?, Event.effect?, Option.bind_some, Store.Call.mark?, seen, stored]
    simp [holds, space, own]
  -- but up to there the task has only looked and deleted
  intro first_unblocked
  obtain ⟨e', he', mine, command⟩ := first_unblocked (newer ++ none) _
    (older ++ look' :: (between ++ look :: early)) (by simp) rfl mark
  obtain ⟨j, o', k, r, found', rfl⟩ := Event.of_command?_eq_some command
  cases mine
  have sent : (⟨.vendor k (.unblock s), r⟩ : (a : Action) × a.Answer) ∈
      logOf i (older ++ look' :: (between ++ look :: early)) :=
    List.mem_filterMap.2 ⟨_, he', by simp [Event.logged?]⟩
  rw [logOf_append, log, course.log_looks, looks, unheld] at sent
  simp [deleted, looked] at sent

end Course

/-- A look tells the records of the worker at its time, and leaves them. -/
theorem Tame.of_looked {o : Operation} {l : Option Time.Duration} {rs : List Record} {fate : Fate}
    {found : Table} {early : List Event}
    (tame : Tame i s w (.call i o (.store l (.find s w)) (.inTime (.ok rs)) fate found))
    (faithful : Faithful t
      (.call i o (.store l (.find s w)) (.inTime (.ok rs)) fate found :: early)) :
    fate = .done ∧ rs = (tableAfter t early).find s w ∧
      tableAfter t (.call i o (.store l (.find s w)) (.inTime (.ok rs)) fate found :: early) =
        tableAfter t early := by
  obtain ⟨rfl, told⟩ := faithful.1
  obtain rfl := Event.fate_eq_done_of_calm tame.calm rfl
  obtain ⟨minters, t', minters', effect⟩ := told rfl
  have shown := effect.answer_eq
  simp only [Call.apply, Timed.inTime.injEq, Except.ok.injEq] at shown
  exact ⟨rfl, shown, rfl⟩

/-- A task that has deleted nothing has deleted no holder. -/
theorem unblockedFirst_of_spares {history : List Event}
    (spares : ∀ entry ∈ logOf i history, Spares entry) : UnblockedFirst i s w history := by
  rintro late e early rfl mine mark
  obtain ⟨⟨o, c, found⟩, effect, vacated⟩ := Option.bind_eq_some_iff.1 mark
  obtain ⟨d, h, rfl, -⟩ := Store.Call.of_mark?_vacated vacated
  rcases Event.of_effect?_eq_some effect with ⟨j, k, answer, rfl⟩ | rfl
  · cases mine
    exact absurd rfl (spares ⟨.store k (.delete d), answer⟩ (by simp [logOf, Event.logged?]) k d)
  · cases mine

namespace System

variable {x y : System} {minters : Nat → Minter} {answer : List Outcome}

/-- The events of an undisturbed run are tame. -/
theorem Run.tame (run : Run (Undisturbed i s w) (opening t minters) x)
    {rest : Plan (Operation.release w s).Answer}
    (task : x.tasks i = some ⟨.release w s, rest⟩) : ∀ e ∈ x.history, Tame i s w e := by
  intro e happened
  obtain ⟨calm, others⟩ := run.fits e happened
  have changes {o : Operation} {c : Store.Call} {t' : Table}
      (effect : e.effect? = some (o, c, t')) : o.Changes c := run.sound.orderly.changes happened effect
  have mine (own : e.task? = some i) : e.operation = .release w s := by
    obtain ⟨rest', task'⟩ := run.sound.own i e happened own
    rw [task] at task'
    exact (congrArg Task.operation (Option.some.inj task')).symm
  constructor
  · exact calm
  · exact fun o c t' effect => (changes effect).addsWaiting
  · rintro o c t' r effect added rfl rfl
    have enrolls : o = .enroll r.worker r.space := by
      rcases added with rfl | rfl
      · exact (changes effect).1
      · exact (changes effect).1
    rw [← Event.operation_of_effect? effect] at enrolls
    rcases others with own | ⟨notEnroll, -⟩
    · rw [mine own] at enrolls
      cases enrolls
    · exact notEnroll enrolls
  · rintro o r t' effect rfl rfl
    have goes : o.LetsGo r.worker r.space := changes effect
    rw [← Event.operation_of_effect? effect] at goes
    rcases others with own | ⟨-, notRelease, notAbandon⟩
    · exact own
    · rcases goes with release | abandon
      · exact absurd release notRelease
      · exact absurd abandon notAbandon

theorem Step.smooth {o : Operation} {a : Action} {r : a.Answer} {fate : Fate}
    (step : Step x (.call i o a r fate t) y)
    (calm : (Event.call i o a r fate t).calm = true) : smoothly.expects a r := by
  refine ⟨step.of_call.2.1, ?_⟩
  cases step with
  | done task calls effect =>
    cases effect with
    | store l c => cases c <;> first | exact ⟨_, rfl⟩ | rfl | trivial
    | vendor l c v => cases c <;> first | rfl | trivial
    | publish => trivial
    | stamp => trivial
  | refused => rcases a with ⟨l, _ | _⟩ | ⟨l, _ | _⟩ | _ | _ <;> trivial
  | adrift => rcases a with ⟨l, _ | _⟩ | ⟨l, _ | _⟩ | _ | _ <;> trivial

/-- What holds of the log of an operation that has returned in a run without failures. -/
def Told : (o : Operation) → Log actions → o.Answer → Prop
  | .release w s, log, answer => Released s w log answer
  | _, _, _ => True

theorem planAt_smoothly (e : Enrolling) (c : Coordinator) (o : Operation) :
    (planAt e c o).Keeps smoothly (Told o) [] := by
  cases o with
  | release w s => exact release_smoothly
  | _ => exact Program.keeps_top _ []

/-- In an undisturbed run the log of a release that has returned tells of its looks. -/
theorem Run.released (run : Run (Undisturbed i s w) (opening t minters) x)
    (returned : x.Returned i (.release w s) (.ok answer)) :
    Released s w (logOf i x.history) (.ok answer) :=
  run.of_returned planAt_smoothly (fun step fit _ => step.smooth fit.1) returned

/-- In an undisturbed run a release that has returned found nobody, or its two looks can be told
apart. It has removed the worker exactly if there was no grant to the worker after the second look;
and it has unblocked the space before every holder it deleted exactly if there was no such grant
between its looks. -/
theorem release_outcome (run : Run (Undisturbed i s w) (opening t minters) x)
    (returned : x.Returned i (.release w s) (.ok answer)) :
    (answer = [.notEnrolled s w] ∧ x.table.find s w = [] ∧ UnblockedFirst i s w x.history) ∨
    ∃ late between early, TwoLooks i s w x.history late between early ∧
      (x.table.find s w = [] ↔ ¬ Granted s w late) ∧
      (UnblockedFirst i s w x.history ↔ ¬ Granted s w between) := by
  have log := run.released returned
  obtain ⟨rest, task, -⟩ := returned
  have tame := run.tame task
  have faithful := run.faithful
  rw [run.table]
  generalize x.history = history at tame faithful log ⊢
  generalize logged : logOf i history = entries at log
  cases log with
  | notEnrolled =>
    rename_i l
    refine .inl ⟨rfl, ?_, ?_⟩
    · obtain ⟨late, o, fate, found, early, rfl, -, -⟩ :=
        split_of_logOf (logged.trans (List.nil_append [looked l s w []]).symm)
      obtain ⟨-, shown, after⟩ := (tame _ (by simp)).of_looked faithful.tail
      exact absent_stays (fun e he => tame e (by simp [he])) faithful (after ▸ shown.symm)
    · refine unblockedFirst_of_spares fun entry he => ?_
      rw [logged] at he
      rw [List.mem_singleton.1 he]
      exact fun _ _ h => nomatch h
  | removed spares =>
    rename_i l first second after
    refine .inr ?_
    rw [← List.append_assoc] at logged
    obtain ⟨late, o', fate', found', older, rfl, log_late, log_older⟩ := split_of_logOf logged
    obtain ⟨between, o, fate, found, early, rfl, log_between, start⟩ := split_of_logOf log_older
    obtain ⟨rfl, first_eq, before⟩ := (tame _ (by simp)).of_looked faithful.tail.2.tail
    obtain ⟨rfl, second_eq, before'⟩ := (tame _ (by simp)).of_looked faithful.tail
    have course : Course i s w t l late between early
        (.call i o (.store l.store (.find s w)) (.inTime (.ok first)) .done found)
        (.call i o' (.store l.store (.find s w)) (.inTime (.ok second)) .done found')
        first second after :=
      { tame, faithful, before, before', first_eq, second_eq, spares, log_late, log_between
        log_looks := by
          rw [logOf_cons_call, if_pos rfl, log_older]
          rfl }
    refine ⟨late, between, early, ⟨⟨o, o', _, _, _, _, _, _, rfl⟩, start, fun entry he => ?_⟩,
      ⟨fun gone granted => course.not_gone granted gone, course.gone⟩,
      ⟨fun unblocked granted => course.not_unblockedFirst granted unblocked, course.unblockedFirst⟩⟩
    rw [log_between] at he
    split at he
    · rw [List.mem_singleton.1 he]
      exact ⟨l.command, rfl⟩
    · cases he

def oneWaits : Table :=
  Table.empty.insert (.waiting ⟨"s-1"⟩ ⟨"w-1"⟩ ⟨1⟩ default) (by decide +kernel)

/-- A release of the waiter that has looked twice when an evaluation grants the space to it. -/
def crossed : List Move :=
  [.begin 0 .atOnce {} (.evaluate ⟨"s-1"⟩), .begin 1 .atOnce {} (.release ⟨"w-1"⟩ ⟨"s-1"⟩)] ++
  List.replicate 2 (.go 1) ++ List.replicate 6 (.go 0) ++ [.go 1]

theorem release_outcome_crossed :
    ∃ x late between early,
      Run (Undisturbed 1 ⟨"s-1"⟩ ⟨"w-1"⟩) (opening oneWaits fun _ => {}) x ∧
      x.Returned 1 (.release ⟨"w-1"⟩ ⟨"s-1"⟩) (.ok [.withdrawn ⟨"s-1"⟩ ⟨"w-1"⟩]) ∧
      x.table.find ⟨"s-1"⟩ ⟨"w-1"⟩ ≠ [] ∧
      TwoLooks 1 ⟨"s-1"⟩ ⟨"w-1"⟩ x.history late between early ∧
      Granted ⟨"s-1"⟩ ⟨"w-1"⟩ late := by
  have ran : ((opening oneWaits fun _ => {}).follow crossed).map
      (fun x => (x.released? 1, (x.table.find ⟨"s-1"⟩ ⟨"w-1"⟩).isEmpty,
        x.history.all fun e => decide (Undisturbed 1 ⟨"s-1"⟩ ⟨"w-1"⟩ e))) =
    some (some (⟨"w-1"⟩, ⟨"s-1"⟩, [.withdrawn ⟨"s-1"⟩ ⟨"w-1"⟩]), false, true) := by rfl
  obtain ⟨x, followed, seen⟩ := Option.map_eq_some_iff.1 ran
  obtain ⟨released, left, undisturbed⟩ := (Prod.mk.inj seen).imp id Prod.mk.inj
  have run := (run_of_follow followed).of_kind fun e happened =>
    of_decide_eq_true (List.all_eq_true.1 undisturbed e happened)
  have returned := returned_of_released? released
  have stays : x.table.find ⟨"s-1"⟩ ⟨"w-1"⟩ ≠ [] := by
    rw [← List.isEmpty_eq_false_iff, left]
  rcases release_outcome run returned with ⟨-, gone, -⟩ | ⟨late, between, early, looks, gone, -⟩
  · exact absurd gone stays
  · exact ⟨x, late, between, early, run, returned, stays, looks, not_not.1 fun ungranted =>
      stays (gone.2 ungranted)⟩

end System

end Interlock.Concurrent
