import Interlock.Proofs.Concurrent.Arrivals
import Interlock.Proofs.Concurrent.Moves

/-!
No overtaking. A worker whose enrollment has returned stands in line until a swap turns exactly its
record into the holder record or until it is released or abandoned, and it is taken out once. Who
enrolls after that does not get past it: the record of the newcomer is only ever swapped in after
a look that showed it as the first waiter, and the look would have shown the other record.
Specification, section 4.2: Priority Queue.
-/
namespace Interlock.Concurrent

open Coordinator Store

/-- A record leaves the line: a swap turns exactly this record into the holder record, or a release
or an abandonment of its worker deletes it. -/
inductive Event.Takes (r : Record) (e : Event) : Prop
  | promoted {o : Operation} {found : Table}
    (effect : e.effect? = some (o, .swap r.toHolder r, found))
    (granted : e.mark? = some (.granted r.space r.worker)) (stored : r ∈ found.records)
  | deleted {o : Operation} {d : Record} {found : Table}
    (effect : e.effect? = some (o, .delete d, found)) (key : d.key = r.key)
    (own : d.worker = r.worker) (goes : o = .release r.worker r.space ∨ o = .abandon r.worker)
    (stored : r ∈ found.records)

section Events

variable {t : Table} {e : Event} {early : List Event} {r : Record}

/-- What is taken was in the table before, and is not in it after. -/
theorem Event.Takes.gone (takes : e.Takes r) (faithful : Faithful t (e :: early))
    (waits : r.isHolder = false) :
    r ∈ (tableAfter t early).records ∧ r ∉ (tableAfter t (e :: early)).records := by
  cases takes with
  | promoted effect granted stored =>
    obtain rfl := faithful.found effect
    refine ⟨stored, fun there => ?_⟩
    rw [tableAfter_cons effect] at there
    cases swapped : (tableAfter t early).swap r.toHolder r with
    | error e => simp [Event.mark?, effect, Store.Call.mark?, swapped] at granted
    | ok t' =>
      simp only [Store.Call.apply, Store.Call.settle, swapped, Table.mem_swap swapped] at there
      rcases there with same | other
      · rw [same, Record.toHolder_isHolder] at waits
        cases waits
      · exact other.2 rfl
  | deleted effect key own goes stored =>
    obtain rfl := faithful.found effect
    refine ⟨stored, fun there => ?_⟩
    rw [tableAfter_cons effect] at there
    exact (Table.mem_delete.1 there).2 ⟨key.symm, own.symm⟩

end Events

namespace Lined

variable {m : Nat} {s : SpaceId} {t : Table} {minters : Nat → Minter} {x : System}
  {late early : List Event} {r : Record} {e : Event}

/-- A swap is asked for a record that was drawn, so it does not hit another one by its key. -/
theorem eq_of_swapped (lined : Lined m s t minters x) (happened : e ∈ x.history) {o : Operation}
    {new old : Record} {found : Table} (effect : e.effect? = some (o, .swap new old, found))
    {i : Nat} (drew : Drew x.history i r) (space : r.space = s) (same : r.key = old.key) :
    r = old := by
  obtain ⟨late, early, split⟩ := List.append_of_mem happened
  obtain ⟨gap, sooner, rfl, -, first⟩ := lined.run.shown split effect
  have split' : x.history = (late ++ e :: gap) ++ sooner := by simp [split]
  have spaces : r.space = old.space := congrArg RecordKey.space same
  obtain ⟨j, drew'⟩ := lined.drew_of_mem split' (spaces ▸ space) first.waits first.stored
  exact lined.eq_of_key drew (drew'.mono fun e' h => by simp [split, h]) space same

/-- A record stays in line when something is put into the table. -/
theorem stays_put (lined : Lined m s t minters x) (happened : e ∈ x.history) {q : Record}
    (adds : e.Adds q) {i : Nat} (drew : Drew x.history i r) (space : r.space = s) {found : Table}
    (there : r ∈ found.records) {α : Type} {a : α} :
    r ∈ (Store.Call.settle found a (found.put q)).2.records := by
  cases put : found.put q with
  | error e => exact there
  | ok t' =>
    obtain ⟨valid, rfl⟩ := Table.put_eq_ok_iff.1 put
    refine (Table.mem_insert valid).2 ?_
    by_cases same : r.key = q.key
    · obtain ⟨j, drew'⟩ := (lined.drew_of_adds happened adds).1
      exact .inl (lined.eq_of_key drew drew' space same)
    · exact .inr ⟨there, same⟩

/-- A record stays in line when another one is swapped. -/
theorem stays_or_promoted (lined : Lined m s t minters x) (happened : e ∈ x.history) {o : Operation}
    {new old : Record} {found : Table} (effect : e.effect? = some (o, .swap new old, found))
    (becomes : new = old.toHolder) {i : Nat} (drew : Drew x.history i r) (space : r.space = s)
    (there : r ∈ found.records) :
    r ∈ ((Store.Call.swap new old).apply found).2.records ∨ e.Takes r := by
  cases swapped : found.swap new old with
  | error e => simpa [Store.Call.apply, Store.Call.settle, swapped] using .inl there
  | ok t' =>
    simp only [Store.Call.apply, Store.Call.settle, swapped, Table.mem_swap swapped]
    by_cases same : r.key = old.key
    · obtain rfl := lined.eq_of_swapped happened effect drew space same
      subst becomes
      refine .inr (.promoted effect ?_ there)
      rw [Event.mark?, effect, Option.bind_some]
      simp [Store.Call.mark?, swapped]
    · exact .inl (.inr ⟨there, same⟩)

/-- A record stays in line through an event that does not take it. -/
theorem stays_or_takes (lined : Lined m s t minters x) (split : x.history = late ++ e :: early)
    (space : r.space = s) (waits : r.isHolder = false)
    (there : r ∈ (tableAfter t early).records) :
    r ∈ (tableAfter t (e :: early)).records ∨ e.Takes r := by
  have split' : x.history = (late ++ [e]) ++ early := by simp [split]
  obtain ⟨i, drew⟩ := lined.drew_of_mem split' space waits there
  have drew : Drew x.history i r := drew.mono fun e' h => by simp [split, h]
  have happened : e ∈ x.history := by simp [split]
  cases effect : e.effect? with
  | none =>
    rw [tableAfter_cons_of_none effect]
    exact .inl there
  | some made =>
    obtain ⟨o, c, found⟩ := made
    have faithful := lined.run.faithful
    rw [split] at faithful
    have now : Faithful t (e :: early) := faithful.tail
    have changes := lined.run.sound.orderly.changes happened effect
    rw [tableAfter_cons effect]
    obtain rfl := now.found effect
    cases c with
    | add q => exact .inl (lined.stays_put happened ⟨o, _, _, effect, rfl⟩ drew space there)
    | addIfAbsent q =>
      simp only [Store.Call.apply]
      split
      · exact .inl there
      · split
        · exact .inl (lined.stays_put happened ⟨o, _, _, effect, rfl⟩ drew space there)
        · exact .inl there
    | delete d =>
      by_cases hit : r.key = d.key ∧ r.worker = d.worker
      · refine .inr (.deleted effect hit.1.symm hit.2.symm ?_ there)
        rw [hit.2, show r.space = d.space from congrArg RecordKey.space hit.1]
        exact changes
      · exact .inl (Table.mem_delete.2 ⟨there, hit⟩)
    | swap new old => exact lined.stays_or_promoted happened effect changes drew space there
    | _ => exact .inl there

theorem stays_or_taken (lined : Lined m s t minters x) (space : r.space = s)
    (waits : r.isHolder = false) (there : r ∈ (tableAfter t early).records) (newer : List Event)
    (split : x.history = newer ++ (late ++ early)) :
    r ∈ (tableAfter t (late ++ early)).records ∨ ∃ e ∈ late, e.Takes r := by
  induction late generalizing newer with
  | nil => exact .inl there
  | cons e late ih =>
    rcases ih (newer ++ [e]) (by simp [split]) with still | ⟨e', before, takes⟩
    · rcases lined.stays_or_takes split space waits still with still | takes
      · exact .inl still
      · exact .inr ⟨e, List.mem_cons_self, takes⟩
    · exact .inr ⟨e', List.mem_cons_of_mem _ before, takes⟩

/-- What was taken does not come back. -/
theorem gone_of_taken (lined : Lined m s t minters x) {newer : List Event}
    (split : x.history = newer ++ (late ++ e :: early)) (space : r.space = s)
    (waits : r.isHolder = false) (takes : e.Takes r) :
    r ∉ (tableAfter t (late ++ e :: early)).records := by
  intro there
  have faithful := lined.run.faithful
  rw [split] at faithful
  obtain ⟨stored, absent⟩ := takes.gone faithful.tail.tail waits
  rw [← List.append_nil early] at stored
  rcases mem_or_added waits there with back | ⟨e', second, adds⟩
  · exact absent back
  · rcases mem_or_added waits stored with old | ⟨e'', first, adds'⟩
    · exact lined.vacant r old space
    · rw [← List.append_assoc] at split
      exact lined.not_added_twice space split (List.mem_append_right _ second)
        (List.mem_cons_of_mem _ first) adds adds'

/-- From its admission on a record is in the table as long as nothing takes it. -/
theorem mem_iff_not_taken (lined : Lined m s t minters x) (split : x.history = late ++ early)
    (space : r.space = s) (waits : r.isHolder = false)
    (admitted : r ∈ (tableAfter t early).records) :
    r ∈ (tableAfter t x.history).records ↔ ∀ e ∈ late, ¬ e.Takes r := by
  rw [split]
  constructor
  · intro there e happened takes
    obtain ⟨later, sooner, rfl⟩ := List.append_of_mem happened
    rw [List.append_assoc, List.cons_append] at split there
    exact lined.gone_of_taken (split.trans (List.nil_append _).symm) space waits takes there
  · intro spared
    rcases lined.stays_or_taken space waits admitted [] split with there | taken
    · exact there
    · obtain ⟨e, happened, takes⟩ := taken
      exact absurd takes (spared e happened)

/-- A record is taken once. -/
theorem taken_once (lined : Lined m s t minters x) (space : r.space = s)
    (waits : r.isHolder = false) (newer : List Event) (split : x.history = newer ++ late) :
    late.Pairwise fun e e' => ¬ (e.Takes r ∧ e'.Takes r) := by
  induction late generalizing newer with
  | nil => exact .nil
  | cons e late ih =>
    have split' : x.history = (newer ++ [e]) ++ late := by simp [split]
    refine List.pairwise_cons.2 ⟨fun e' before ⟨takes, takes'⟩ => ?_, ih _ split'⟩
    have faithful := lined.run.faithful
    rw [split] at faithful
    have stored := (takes.gone faithful.tail waits).1
    obtain ⟨later, sooner, rfl⟩ := List.append_of_mem before
    exact lined.gone_of_taken split' space waits takes' stored

end Lined

/-! The record of an enrollment. -/

theorem mem_of_put {α : Type} {t : Table} {r : Record} {a : α}
    (answer : (Store.Call.settle t a (t.put r)).1 = .ok a) :
    r ∈ (Store.Call.settle t a (t.put r)).2.records := by
  cases put : t.put r with
  | error e => rw [put] at answer; cases answer
  | ok t' =>
    obtain ⟨valid, rfl⟩ := Table.put_eq_ok_iff.1 put
    exact (Table.mem_insert valid).2 (.inl rfl)

/-- What was answered to have been added is in the table. -/
theorem mem_of_addIfAbsent {t : Table} {r : Record}
    (answer : ((Store.Call.addIfAbsent r).apply t).1 = .ok true) :
    r ∈ ((Store.Call.addIfAbsent r).apply t).2.records := by
  simp only [Store.Call.apply] at answer ⊢
  split at answer
  · cases answer
  · split at answer
    · next free =>
      rw [if_pos free]
      exact mem_of_put answer
    · cases answer

/-- The enrollment of the task has returned, and this is its record. -/
structure Enrolled (x : System) (i : Nat) (r : Record) : Prop where
  returned : x.Returned i (.enroll r.worker r.space) (.ok (.enrolled r.space r.worker r.priority))
  drew : Drew x.history i r

/-- The task put the record into the table, with what happened after and before. -/
structure Admission (t : Table) (i : Nat) (r : Record) (history late : List Event) (e : Event)
    (early : List Event) : Prop where
  split : history = late ++ e :: early
  admits : ∃ o a answer found, e = .call i o a answer .done found ∧ Admits r a answer
  stored : r ∈ (tableAfter t (e :: early)).records

theorem Admission.adds {t : Table} {i : Nat} {r : Record} {history late early : List Event}
    {e : Event} (admission : Admission t i r history late e early) : e.Adds r := by
  obtain ⟨o, a, answer, found, rfl, admits⟩ := admission.admits
  cases admits <;> exact ⟨o, _, found, rfl, rfl⟩

/-- An enrollment that has returned has put a record into the table. -/
theorem System.Run.enrolled {x : System} {kind : Event → Prop} {t : Table}
    {minters : Nat → Minter} {i : Nat} {w : WorkerId} {s : SpaceId} {p : Priority}
    (run : Run kind (opening t minters) x)
    (returned : x.Returned i (.enroll w s) (.ok (.enrolled s w p))) :
    ∃ time late e early, Enrolled x i (.waiting s w p time) ∧
      Admission t i (.waiting s w p time) x.history late e early := by
  obtain ⟨m, time, drawn, ⟨a, answer⟩, logged, admits⟩ :=
    run.of_returned planAt_grounds (fun step _ _ => step.of_call.2.1) returned
  have ⟨rest, task, _⟩ := returned
  obtain ⟨o, fate, found, happened⟩ := mem_logOf.1 drawn
  obtain ⟨rest', task'⟩ := run.sound.own i _ happened rfl
  rw [task] at task'
  cases task'
  obtain ⟨o, fate, found, happened'⟩ := mem_logOf.1 logged
  obtain ⟨late, early, split⟩ := List.append_of_mem happened'
  refine ⟨time, late, _, early, ⟨returned, _, happened, rfl, rfl⟩, split, ?_, ?_⟩
  · cases admits with
    | atOnce => exact ⟨_, _, _, _, by rw [(run.of_ok split).1], .atOnce⟩
    | inTwoCalls => exact ⟨_, _, _, _, by rw [(run.of_ok split).1], .inTwoCalls⟩
  · cases admits with
    | atOnce =>
      obtain ⟨rfl, rfl, answer⟩ := run.of_ok split
      rw [tableAfter_cons (by rfl)]
      exact mem_of_addIfAbsent answer
    | inTwoCalls =>
      obtain ⟨rfl, rfl, answer⟩ := run.of_ok split
      rw [tableAfter_cons (by rfl)]
      exact mem_of_put answer

/-! Two enrollments, the second of which begins after the first has returned. -/

/-- A waiter with the larger priority is not in front. -/
theorem isLE_waiterOrder {p q : Priority} {u v : WorkerId} (smaller : q.value < p.value) :
    (SortKey.waiterOrder (p, u) (q, v)).isLE = false := by
  have lt : compare q p = .lt := if_pos smaller
  have gt : compare p q = .gt := Std.OrientedCmp.gt_of_lt lt
  change ((compare p q).then (compare u v)).isLE = false
  rw [gt]
  rfl

/-- A task that has not begun has drawn nothing. -/
theorem Sound.not_drew {y : System} {j : Nat} {b : Record} (sound : Sound y)
    (free : y.tasks j = none) : ¬ Drew y.history j b := by
  rintro ⟨e, happened, task, -⟩
  obtain ⟨rest, under⟩ := sound.own j e happened task
  rw [free] at under
  cases under

namespace Lined

variable {m : Nat} {s : SpaceId} {t : Table} {minters : Nat → Minter} {x y : System} {i j : Nat}
  {a b : Record} {late early since : List Event} {e : Event}

/-- A record that was added before, and is in the table later, is in it all the time between. -/
theorem mem_between (lined : Lined m s t minters x) {between : List Event}
    (split : x.history = late ++ (between ++ early)) (space : a.space = s)
    (waits : a.isHolder = false) (before : e ∈ early) (adds : e.Adds a)
    (there : a ∈ (tableAfter t (between ++ early)).records) :
    a ∈ (tableAfter t early).records := by
  rcases mem_or_added waits there with old | ⟨e', happened, adds'⟩
  · exact old
  · rw [← List.append_assoc] at split
    exact absurd adds (lined.not_added_twice space split (List.mem_append_right _ happened) before
      adds')

/-- A swap of the record of a newcomer rests on a look that was made after the newcomer began. -/
theorem look_after (lined : Lined m s t minters x) (sound : Sound y)
    (after : x.history = since ++ y.history) (free : y.tasks j = none)
    (drew : Drew x.history j b) (space : b.space = s) {o : Operation} {new : Record}
    {found : Table} (split : x.history = late ++ e :: early)
    (effect : e.effect? = some (o, .swap new b, found)) :
    ∃ gap between, early = gap ++ (between ++ y.history) ∧
      (tableAfter t (between ++ y.history)).FirstWaiter b.space b := by
  obtain ⟨gap, sooner, rfl, -, first⟩ := lined.run.shown split effect
  have history : x.history = (late ++ e :: gap) ++ sooner := by simp [split]
  obtain ⟨k, drew'⟩ := lined.drew_of_mem history space first.waits first.stored
  obtain ⟨rfl, -⟩ := lined.draw_unique drew (drew'.mono fun e' h => by simp [history, h]) space
    space rfl
  rcases List.append_eq_append_iff.1 (history.symm.trans after) with ⟨back, -, h⟩ | ⟨back, -, h⟩
  · exact ⟨gap, back, by rw [h], h ▸ first⟩
  · exact absurd (drew'.mono (h ▸ List.subset_append_right _ _)) (sound.not_drew free)

/-- Who enrolled before is not overtaken: where the later record is swapped in, the earlier one is
not in the table any more. -/
theorem not_overtaken (lined : Lined m s t minters x) (lined' : Lined m s t minters y)
    (after : x.history = since ++ y.history) (enrolled : Enrolled y i a) (spaceA : a.space = s)
    (free : y.tasks j = none) (drew : Drew x.history j b) (spaceB : b.space = s) {o : Operation}
    {new : Record} {found : Table} (split : x.history = late ++ e :: early)
    (effect : e.effect? = some (o, .swap new b, found)) :
    a ∉ (tableAfter t early).records := by
  intro there
  obtain ⟨gap, between, rfl, first⟩ :=
    lined.look_after lined'.run.sound after free drew spaceB split effect
  -- the earlier record was there at the look already, since it is added only once
  obtain ⟨time, newer, e', older, enrolled', admission⟩ := lined'.run.enrolled enrolled.returned
  obtain ⟨-, same⟩ := lined'.draw_unique enrolled.drew enrolled'.drew spaceA spaceA rfl
  rw [← same] at admission
  have split' : x.history = (late ++ [e]) ++ (gap ++ (between ++ y.history)) := by simp [split]
  have before : e' ∈ between ++ y.history := by simp [admission.split]
  have shown := lined.mem_between split' spaceA enrolled.drew.waits before admission.adds there
  -- so it would have been shown in front of the later one
  have second : Drew since j b := by
    obtain ⟨e'', happened, draw⟩ := drew
    rw [after] at happened
    rcases List.mem_append.1 happened with new | old
    · exact ⟨e'', new, draw⟩
    · exact absurd ⟨e'', old, draw⟩ (lined'.run.sound.not_drew free)
  have smaller := lined.priority_lt after enrolled.drew second spaceA spaceB
  have least := first.least a shown (spaceA.trans spaceB.symm) enrolled.drew.waits
  rw [isLE_waiterOrder smaller] at least
  cases least

end Lined

namespace System

/-- What is fair about a line between two moments of a run. A record whose enrollment has returned
was put into the table and stays there until it is taken; no record is taken twice; and whoever has
begun to enroll after another enrollment returned is not swapped in, and no swap is even tried, as
long as the record of that one is in the table. -/
structure Fair (t : Table) (s : SpaceId) (y x : System) : Prop where
  stays : ∀ i w p, x.Returned i (.enroll w s) (.ok (.enrolled s w p)) →
    ∃ time late e early, Enrolled x i (.waiting s w p time) ∧
      Admission t i (.waiting s w p time) x.history late e early ∧
      (.waiting s w p time ∈ x.table.records ↔ ∀ e' ∈ late, ¬ e'.Takes (.waiting s w p time))
  once : ∀ i r, Drew x.history i r → r.space = s →
    x.history.Pairwise fun e e' => ¬ (e.Takes r ∧ e'.Takes r)
  order : ∀ i j a b, Enrolled y i a → a.space = s → y.tasks j = none → Drew x.history j b →
    b.space = s → ∀ e ∈ x.history, ∀ o new found, e.effect? = some (o, .swap new b, found) →
      a ∉ found.records

/-- In every interleaving the line of a space is fair, as long as all enrollments for the space draw
from one minter that does not run out. Calls may fail, and may take effect long after their caller
has given up. -/
theorem no_overtaking {m : Nat} {s : SpaceId} {t : Table} {minters : Nat → Minter} {x y : System}
    (before : Run (fun e => e.drawsFrom m s = true) (opening t minters) y)
    (after : Run (fun e => e.drawsFrom m s = true) y x) (vacant : ∀ r ∈ t.records, r.space ≠ s)
    (fresh : minters m = {}) (few : (tokens m x.history).length < 2 ^ 63) : Fair t s y x := by
  have lined : Lined m s t minters x := ⟨before.trans after, vacant, fresh, few⟩
  obtain ⟨since, history⟩ := after.history_eq
  have lined' : Lined m s t minters y := by
    refine ⟨before, vacant, fresh, Nat.lt_of_le_of_lt ?_ few⟩
    rw [history, tokens, tokens, List.filterMap_append, List.length_append]
    exact Nat.le_add_left _ _
  refine ⟨fun i w p returned => ?_, fun i r drew space => ?_, ?_⟩
  · obtain ⟨time, late, e, early, enrolled, admission⟩ := lined.run.enrolled returned
    refine ⟨time, late, e, early, enrolled, admission, ?_⟩
    rw [lined.run.table]
    exact lined.mem_iff_not_taken admission.split rfl rfl admission.stored
  · exact lined.taken_once space drew.waits [] rfl
  · intro i j a b enrolled spaceA free drew spaceB e happened o new found effect
    obtain ⟨late, early, split⟩ := List.append_of_mem happened
    have faithful := lined.run.faithful
    rw [split] at faithful
    have now : Faithful t (e :: early) := faithful.tail
    rw [now.found effect]
    exact lined.not_overtaken lined' history enrolled spaceA free drew spaceB split effect

/-- A worker enrolls, and when it has returned a second one does. The first is granted the space and
is released, and the second follows. -/
def firstInLine : List Move :=
  .begin 0 .atOnce {} (.enroll ⟨"w-1"⟩ ⟨"s-1"⟩) :: List.replicate 2 (.go 0)

def secondInLine : List Move :=
  .begin 1 .inTwoCalls {} (.enroll ⟨"w-2"⟩ ⟨"s-1"⟩) :: List.replicate 3 (.go 1) ++
  .begin 2 .atOnce {} (.evaluate ⟨"s-1"⟩) :: List.replicate 6 (.go 2) ++
  .begin 3 .atOnce {} (.release ⟨"w-1"⟩ ⟨"s-1"⟩) :: List.replicate 11 (.go 3)

theorem no_overtaking_inLine :
    ∃ y x, Fair .empty ⟨"s-1"⟩ y x ∧ y.tasks 1 = none ∧
      y.Returned 0 (.enroll ⟨"w-1"⟩ ⟨"s-1"⟩) (.ok (.enrolled ⟨"s-1"⟩ ⟨"w-1"⟩ ⟨1⟩)) ∧
      x.Returned 1 (.enroll ⟨"w-2"⟩ ⟨"s-1"⟩) (.ok (.enrolled ⟨"s-1"⟩ ⟨"w-2"⟩ ⟨2⟩)) ∧
      marks (.space ⟨"s-1"⟩) x.history =
        [.granted ⟨"s-1"⟩ ⟨"w-2"⟩, .vacated ⟨"s-1"⟩ ⟨"w-1"⟩, .granted ⟨"s-1"⟩ ⟨"w-1"⟩] := by
  have ran : ((opening .empty fun _ => {}).follow firstInLine).bind (fun y =>
      (y.follow secondInLine).map fun x => ((y.tasks 1).isNone, y.returned? 0, x.returned? 1,
        marks (.space ⟨"s-1"⟩) x.history, x.history.all (Event.drawsFrom 0 ⟨"s-1"⟩),
        (tokens 0 x.history).length)) =
    some (true, some ⟨.enroll ⟨"w-1"⟩ ⟨"s-1"⟩, .ok (.enrolled ⟨"s-1"⟩ ⟨"w-1"⟩ ⟨1⟩)⟩,
      some ⟨.enroll ⟨"w-2"⟩ ⟨"s-1"⟩, .ok (.enrolled ⟨"s-1"⟩ ⟨"w-2"⟩ ⟨2⟩)⟩,
      [.granted ⟨"s-1"⟩ ⟨"w-2"⟩, .vacated ⟨"s-1"⟩ ⟨"w-1"⟩, .granted ⟨"s-1"⟩ ⟨"w-1"⟩], true, 2) := by
    rfl
  obtain ⟨y, first, ran⟩ := Option.bind_eq_some_iff.1 ran
  obtain ⟨x, second, seen⟩ := Option.map_eq_some_iff.1 ran
  simp only [Prod.mk.injEq] at seen
  obtain ⟨free, returned, returned', marked, drawn, minted⟩ := seen
  have draws : ∀ e ∈ x.history, e.drawsFrom 0 ⟨"s-1"⟩ = true := List.all_eq_true.1 drawn
  obtain ⟨since, history⟩ := (run_of_follow second).history_eq
  have before : Run (fun e => e.drawsFrom 0 ⟨"s-1"⟩ = true) (opening .empty fun _ => {}) y :=
    (run_of_follow first).of_kind fun e he => draws e (history ▸ List.mem_append_right _ he)
  have after : Run (fun e => e.drawsFrom 0 ⟨"s-1"⟩ = true) y x :=
    (run_of_follow second).of_kind draws
  exact ⟨y, x, no_overtaking before after (by simp [Table.empty]) rfl (by rw [minted]; decide),
    Option.isNone_iff_eq_none.1 free, returned_of_returned? returned,
    returned_of_returned? returned', marked⟩

end System

end Interlock.Concurrent
