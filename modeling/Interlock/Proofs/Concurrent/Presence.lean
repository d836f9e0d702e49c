import Interlock.Proofs.Concurrent.Exclusion

/-!
The records of one worker in one space over a stretch of a history. One task is to remove them, and
nobody else enrolls, releases or abandons the worker there. Then only a grant can bring a record, a
record that is still there was never deleted, and a holder record stays until the task deletes it.
-/
namespace Interlock.Concurrent

open Coordinator Store

/-- Nothing failed, and apart from the task nobody puts the worker into the space or takes it
out. -/
def Undisturbed (i : Nat) (s : SpaceId) (w : WorkerId) (e : Event) : Prop :=
  e.calm = true ∧ (e.task? = some i ∨
    e.operation ≠ .enroll w s ∧ e.operation ≠ .release w s ∧ e.operation ≠ .abandon w)

instance (i : Nat) (s : SpaceId) (w : WorkerId) (e : Event) : Decidable (Undisturbed i s w e) :=
  inferInstanceAs (Decidable (_ ∧ (_ ∨ _ ∧ _ ∧ _)))

/-- What an undisturbed event may do: it adds no record of the worker in the space, and only the
task deletes one. -/
structure Tame (i : Nat) (s : SpaceId) (w : WorkerId) (e : Event) : Prop where
  calm : e.calm = true
  waiting : ∀ o c t, e.effect? = some (o, c, t) → c.AddsWaiting
  adds : ∀ o c t r, e.effect? = some (o, c, t) → c = .add r ∨ c = .addIfAbsent r →
    r.space = s → r.worker ≠ w
  deletes : ∀ o r t, e.effect? = some (o, .delete r, t) → r.space = s → r.worker = w →
    e.task? = some i

/-- The records that a log deletes, the latest first. -/
def deletions (log : Log actions) : List Record :=
  log.filterMap fun entry =>
    match entry.1 with
    | .store _ (.delete r) => some r
    | _ => none

def Granted (s : SpaceId) (w : WorkerId) (events : List Event) : Prop :=
  ∃ e ∈ events, e.mark? = some (.granted s w)

variable {i : Nat} {s : SpaceId} {w : WorkerId} {t : Table} {e : Event} {late early : List Event}

theorem Faithful.found {o : Operation} {c : Store.Call} {found : Table}
    (faithful : Faithful t (e :: early)) (effect : e.effect? = some (o, c, found)) :
    found = tableAfter t early := by
  have told := faithful.1
  rcases Event.of_effect?_eq_some effect with ⟨j, l, r, rfl⟩ | rfl
  · exact told.1
  · exact told

theorem tableAfter_cons {o : Operation} {c : Store.Call} {found : Table}
    (effect : e.effect? = some (o, c, found)) :
    tableAfter t (e :: early) = (c.apply (tableAfter t early)).2 := by
  simp [tableAfter, effect]

theorem tableAfter_cons_of_none (none : e.effect? = none) :
    tableAfter t (e :: early) = tableAfter t early := by
  simp [tableAfter, none]

/-! One event. -/

/-- A record of the worker is there after an event only if it was there before or was granted. -/
theorem Tame.of_mem (tame : Tame i s w e) (faithful : Faithful t (e :: early)) {r : Record}
    (there : r ∈ (tableAfter t (e :: early)).find s w) :
    r ∈ (tableAfter t early).find s w ∨ e.mark? = some (.granted s w) := by
  cases effect : e.effect? with
  | none =>
    rw [tableAfter_cons_of_none effect] at there
    exact .inl there
  | some made =>
    obtain ⟨o, c, found⟩ := made
    have seen := faithful.found effect
    rw [tableAfter_cons effect] at there
    obtain ⟨stored, rfl, rfl⟩ := Table.mem_find.1 there
    rcases Store.Call.mem_of_mem_apply stored with before | added | granted
    · exact .inl (Table.mem_find.2 ⟨before, rfl, rfl⟩)
    · exact absurd rfl (tame.adds o c found r effect added rfl)
    · refine .inr ?_
      rw [Event.mark?, effect, Option.bind_some, seen]
      exact granted.2

/-- The deletion of a record by the task takes it away. -/
theorem Tame.not_mem_of_deleted (tame : Tame i s w e) {d r : Record}
    (deleted : d ∈ deletions (logOf i [e])) (key : d.key = r.key) (own : d.worker = r.worker) :
    r ∉ (tableAfter t (e :: early)).records := by
  cases e with
  | begun j o => cases deleted
  | landed o c found => cases deleted
  | call j o a answer fate found =>
    rw [logOf_cons_call] at deleted
    split at deleted
    · cases a with
      | store l c =>
        cases c with
        | delete d' =>
          obtain rfl : d = d' := by simpa [deletions, logOf] using deleted
          obtain rfl := Event.fate_eq_done_of_calm tame.calm rfl
          rw [tableAfter_cons (by rfl)]
          intro there
          exact (Table.mem_delete.1 there).2 ⟨key.symm, own.symm⟩
        | _ => cases deleted
      | _ => cases deleted
    · cases deleted

theorem Tame.mem_deletions {o : Operation} {d : Record} {found : Table} (tame : Tame i s w e)
    (effect : e.effect? = some (o, .delete d, found)) (space : d.space = s) (own : d.worker = w) :
    d ∈ deletions (logOf i [e]) := by
  have mine := tame.deletes o d found effect space own
  rcases Event.of_effect?_eq_some effect with ⟨j, l, answer, rfl⟩ | rfl
  · cases mine
    rw [logOf_cons_call, if_pos rfl]
    exact List.mem_cons_self
  · cases mine

/-- A holder record of the worker stays unless the task deletes it. -/
theorem Tame.holder_stays (tame : Tame i s w e) {r : Record}
    (held : r ∈ (tableAfter t early).holders) (space : r.space = s) (own : r.worker = w)
    (spared : ∀ d ∈ deletions (logOf i [e]), d.key ≠ r.key) :
    r ∈ (tableAfter t (e :: early)).holders := by
  cases effect : e.effect? with
  | none =>
    rw [tableAfter_cons_of_none effect]
    exact held
  | some made =>
    obtain ⟨o, c, found⟩ := made
    rw [tableAfter_cons effect]
    cases mark : c.mark? (tableAfter t early) with
    | none => exact (Store.Call.mem_holders_of_unmarked (tame.waiting o c found effect) mark).2 held
    | some m =>
      cases m with
      | granted s' w' =>
        obtain ⟨new, old, -, -, -, -, added⟩ := Store.Call.of_mark?_granted mark
        exact (added r).2 (.inr held)
      | vacated s' w' =>
        obtain ⟨d, h, rfl, -, key, own', -, -, removed⟩ := Store.Call.of_mark?_vacated mark
        refine (removed r).2 ⟨held, ?_⟩
        rintro rfl
        have space' : d.space = s := (congrArg RecordKey.space key).symm.trans space
        exact spared d (tame.mem_deletions effect space' (own'.symm.trans own)) key.symm

/-- Where the worker is granted the space nobody held it, and now the worker does. -/
theorem Faithful.granted (faithful : Faithful t (e :: early))
    (granted : e.mark? = some (.granted s w)) :
    (∀ r ∈ (tableAfter t early).holders, r.space ≠ s) ∧
      ∃ r ∈ (tableAfter t (e :: early)).holders, r.space = s ∧ r.worker = w := by
  obtain ⟨⟨o, c, found⟩, effect, mark⟩ := Option.bind_eq_some_iff.1 granted
  rw [faithful.found effect] at mark
  obtain ⟨new, old, -, may, rfl, rfl, added⟩ := Store.Call.of_mark?_granted mark
  constructor
  · intro r held
    obtain ⟨stored, holds⟩ := Table.mem_holders.1 held
    exact Table.holder_eq_none_iff.1 may.free r stored holds
  · refine ⟨new, ?_, rfl, rfl⟩
    rw [tableAfter_cons effect]
    exact (added new).2 (.inl rfl)

/-! A stretch of a history. -/

theorem deletions_append (i : Nat) (xs ys : List Event) :
    deletions (logOf i (xs ++ ys)) = deletions (logOf i xs) ++ deletions (logOf i ys) := by
  rw [logOf_append, deletions, List.filterMap_append, ← deletions, ← deletions]

/-- Without a grant, a record of the worker at the end was there all along and was not deleted. -/
theorem mem_of_ungranted (tame : ∀ e ∈ late, Tame i s w e)
    (faithful : Faithful t (late ++ early)) (ungranted : ¬ Granted s w late) {r : Record}
    (there : r ∈ (tableAfter t (late ++ early)).find s w) :
    r ∈ (tableAfter t early).find s w ∧
      ∀ d ∈ deletions (logOf i late), d.key = r.key → d.worker ≠ r.worker := by
  induction late with
  | nil => exact ⟨there, fun d hd => nomatch hd⟩
  | cons e late ih =>
    have fresh := tame e List.mem_cons_self
    rcases fresh.of_mem faithful there with before | granted
    · obtain ⟨start, spared⟩ := ih (fun e' he => tame e' (List.mem_cons_of_mem _ he)) faithful.2
        (fun ⟨e', he, granted⟩ => ungranted ⟨e', List.mem_cons_of_mem _ he, granted⟩) before
      refine ⟨start, fun d deleted key own => ?_⟩
      rw [← List.singleton_append, deletions_append] at deleted
      rcases List.mem_append.1 deleted with now | earlier
      · exact fresh.not_mem_of_deleted now key own (Table.mem_find.1 there).1
      · exact spared d earlier key own
    · exact absurd ⟨e, List.mem_cons_self, granted⟩ ungranted

/-- A holder record of the worker stays as long as the task does not delete it. -/
theorem holder_stays (tame : ∀ e ∈ late, Tame i s w e) {r : Record}
    (held : r ∈ (tableAfter t early).holders) (space : r.space = s)
    (own : r.worker = w) (spared : ∀ d ∈ deletions (logOf i late), d.key ≠ r.key) :
    r ∈ (tableAfter t (late ++ early)).holders := by
  induction late with
  | nil => exact held
  | cons e late ih =>
    rw [← List.singleton_append, deletions_append] at spared
    have before := ih (fun e' he => tame e' (List.mem_cons_of_mem _ he))
      fun d hd => spared d (List.mem_append_right _ hd)
    exact (tame e List.mem_cons_self).holder_stays before space own
      fun d hd => spared d (List.mem_append_left _ hd)

/-- While a holder record of the worker stays, the space is not granted again. -/
theorem not_granted_of_held (tame : ∀ e ∈ late, Tame i s w e)
    (faithful : Faithful t (late ++ early)) {r : Record}
    (held : r ∈ (tableAfter t early).holders) (space : r.space = s) (own : r.worker = w)
    (spared : ∀ d ∈ deletions (logOf i late), d.key ≠ r.key) : ¬ Granted s w late := by
  rintro ⟨e, he, granted⟩
  obtain ⟨after, before, rfl⟩ := List.append_of_mem he
  rw [List.append_assoc] at faithful
  have stays : r ∈ (tableAfter t (before ++ early)).holders := by
    refine holder_stays (fun e' he' => tame e' (by simp [he'])) held space own
      fun d hd => spared d ?_
    rw [deletions_append, ← List.singleton_append, deletions_append]
    simp [hd]
  exact (Faithful.granted faithful.tail granted).1 r stays space

/-- A worker without a record does not get one by a grant. -/
theorem absent_stays (tame : ∀ e ∈ late, Tame i s w e) (faithful : Faithful t (late ++ early))
    (absent : (tableAfter t early).find s w = []) :
    (tableAfter t (late ++ early)).find s w = [] := by
  induction late with
  | nil => exact absent
  | cons e late ih =>
    have before := ih (fun e' he => tame e' (List.mem_cons_of_mem _ he)) faithful.2
    refine List.eq_nil_iff_forall_not_mem.2 fun r there => ?_
    rcases (tame e List.mem_cons_self).of_mem faithful there with old | granted
    · exact absurd old (List.eq_nil_iff_forall_not_mem.1 before r)
    · -- a grant needs a waiting record of the worker
      obtain ⟨⟨o, c, found⟩, effect, mark⟩ := Option.bind_eq_some_iff.1 granted
      have seen := faithful.found effect
      obtain ⟨new, waiting, -, may, rfl, rfl, -⟩ := Store.Call.of_mark?_granted mark
      obtain ⟨x, stored, key⟩ := may.stored
      have own := Table.worker_eq_of_waiting_key stored may.old_valid may.waits key
      have space : x.space = waiting.space := congrArg RecordKey.space key
      rw [seen] at stored
      exact Table.find_eq_nil_iff.1 before x stored (space.trans may.same_space.symm)
        (own.trans may.same_worker.symm)

end Interlock.Concurrent
