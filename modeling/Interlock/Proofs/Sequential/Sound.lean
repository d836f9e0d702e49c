import Interlock.Proofs.Ordered
import Interlock.Proofs.Sequential.Fifo
import Mathlib.Tactic.Common

/-!
What the locks and queues of one coordinator never lose: each space has one holder, each worker
holds one space and is once in a queue, and the queues stand in the order of the priorities, none of
which is above the last one that was handed out. Who joins with a priority above that one therefore
stands where the order wants it, at the tail.
-/
namespace Interlock.Sequential

open Store

variable {s r : SpaceId} {e : Entry}

theorem mem_insertLock {ls : List (SpaceId × Entry)} {l : SpaceId × Entry} :
    l ∈ insertLock s e ls ↔ l = (s, e) ∨ l ∈ ls := by
  induction ls with
  | nil => simp [insertLock]
  | cons x xs ih =>
    simp only [insertLock]
    split
    · exact List.mem_cons
    · rw [List.mem_cons, ih, List.mem_cons]
      exact or_left_comm

theorem pairwise_insertLock {ls : List (SpaceId × Entry)} (free : ∀ l ∈ ls, l.1 ≠ s)
    (sorted : ls.Pairwise fun a b => compare a.1 b.1 = .lt) :
    (insertLock s e ls).Pairwise fun a b => compare a.1 b.1 = .lt := by
  induction ls with
  | nil => exact List.pairwise_singleton _ _
  | cons x xs ih =>
    obtain ⟨above, sorted'⟩ := List.pairwise_cons.1 sorted
    simp only [insertLock]
    split
    · next lt =>
      refine List.pairwise_cons.2 ⟨fun l hl => ?_, sorted⟩
      rcases List.mem_cons.1 hl with rfl | hl
      · exact lt
      · exact Std.TransCmp.lt_trans lt (above l hl)
    · next ge =>
      have before : compare x.1 s = .lt := by
        cases order : compare s x.1 with
        | lt => exact absurd order ge
        | eq => exact absurd (Std.LawfulEqOrd.eq_of_compare order).symm (free x List.mem_cons_self)
        | gt => exact Std.OrientedCmp.lt_of_gt order
      refine List.pairwise_cons.2
        ⟨fun l hl => ?_, ih (fun l hl => free l (List.mem_cons_of_mem _ hl)) sorted'⟩
      rcases mem_insertLock.1 hl with rfl | hl
      · exact before
      · exact above l hl

theorem mem_insertSpace {ss : List SpaceId} : r ∈ insertSpace s ss ↔ r = s ∨ r ∈ ss := by
  induction ss with
  | nil => simp [insertSpace]
  | cons x xs ih =>
    simp only [insertSpace]
    split
    · exact List.mem_cons
    · next eq =>
      have here : s = x := Std.LawfulEqOrd.eq_of_compare eq
      rw [here, List.mem_cons, or_self_left]
    · rw [List.mem_cons, ih, List.mem_cons]
      exact or_left_comm

theorem pairwise_insertSpace {ss : List SpaceId}
    (sorted : ss.Pairwise fun a b => compare a b = .lt) :
    (insertSpace s ss).Pairwise fun a b => compare a b = .lt := by
  induction ss with
  | nil => exact List.pairwise_singleton _ _
  | cons x xs ih =>
    obtain ⟨above, sorted'⟩ := List.pairwise_cons.1 sorted
    simp only [insertSpace]
    split
    · next lt =>
      refine List.pairwise_cons.2 ⟨fun r hr => ?_, sorted⟩
      rcases List.mem_cons.1 hr with rfl | hr
      · exact lt
      · exact Std.TransCmp.lt_trans lt (above r hr)
    · exact sorted
    · next gt =>
      refine List.pairwise_cons.2 ⟨fun r hr => ?_, ih sorted'⟩
      rcases mem_insertSpace.1 hr with rfl | hr
      · exact Std.OrientedCmp.lt_of_gt gt
      · exact above r hr

theorem mem_ascending {ss : List SpaceId} : s ∈ ascending ss ↔ s ∈ ss := by
  induction ss with
  | nil => exact Iff.rfl
  | cons x xs ih =>
    rw [List.mem_cons, ← ih]
    exact mem_insertSpace

theorem pairwise_ascending (ss : List SpaceId) :
    (ascending ss).Pairwise fun a b => compare a b = .lt := by
  induction ss with
  | nil => exact List.Pairwise.nil
  | cons x xs ih => exact pairwise_insertSpace ih

/-- To put spaces in their places one by one is to sort them and drop the repetitions. -/
theorem distinctSpaces_eq_ascending (ss : List SpaceId) :
    Coordinator.distinctSpaces ss = ascending ss := by
  have total (a b : SpaceId) : ((compare a b).isLE || (compare b a).isLE) = true := by
    rw [Std.OrientedOrd.eq_swap (a := b)]
    cases compare a b <;> rfl
  have sorted := List.pairwise_mergeSort (fun _ _ _ => Std.TransCmp.isLE_trans) total ss
  refine eq_of_mem_iff_of_pairwise_lt compare id (pairwise_eraseReps sorted)
    (pairwise_ascending ss) fun s => ?_
  simp only [Coordinator.distinctSpaces, mem_eraseReps, List.mem_mergeSort, mem_ascending]

namespace Fifo

/-- A queue in the order of its priorities, none of them above `last`, with each worker once. -/
structure InOrder (last : UInt64) (es : List Entry) : Prop where
  rising : es.Pairwise fun a b => a.priority.value < b.priority.value ∧ a.worker ≠ b.worker
  handed : ∀ e ∈ es, e.priority.value ≤ last

namespace InOrder

variable {es : List Entry} {last next : UInt64}

theorem mono (ordered : InOrder last es) (le : last ≤ next) : InOrder next es :=
  ⟨ordered.rising, fun e he => UInt64.le_trans (ordered.handed e he) le⟩

theorem sublist {rest : List Entry} (ordered : InOrder last es) (sub : rest.Sublist es) :
    InOrder last rest :=
  ⟨ordered.rising.sublist sub, fun e he => ordered.handed e (sub.subset he)⟩

theorem append (ordered : InOrder last es) (later : last < e.priority.value)
    (absent : ∀ x ∈ es, x.worker ≠ e.worker) : InOrder e.priority.value (es ++ [e]) where
  rising := by
    refine List.pairwise_append.2 ⟨ordered.rising, List.pairwise_singleton _ _, ?_⟩
    intro a ha b hb
    obtain rfl := List.mem_singleton.1 hb
    exact ⟨UInt64.lt_of_le_of_lt (ordered.handed a ha) later, absent a ha⟩
  handed := by
    intro x hx
    rcases List.mem_append.1 hx with hx | hx
    · exact UInt64.le_of_lt (UInt64.lt_of_le_of_lt (ordered.handed x hx) later)
    · exact List.mem_singleton.1 hx ▸ UInt64.le_refl _

end InOrder

/-- What holds of locks and queues when `last` is the last priority that was handed out. -/
structure Sound (last : UInt64) (m : Fifo) : Prop where
  sorted : m.locks.Pairwise fun a b => compare a.1 b.1 = .lt
  single : ∀ a ∈ m.locks, ∀ b ∈ m.locks, a.2.worker = b.2.worker → a = b
  queues : ∀ s, InOrder last (m.waiting s)
  outside : ∀ l ∈ m.locks, ∀ e ∈ m.waiting l.1, e.worker ≠ l.2.worker

theorem sound_empty : Sound 0 {} := by
  refine ⟨List.Pairwise.nil, ?_, fun _ => ⟨List.Pairwise.nil, ?_⟩, ?_⟩ <;> simp

variable {m : Fifo} {last next : UInt64} {w : WorkerId}

/-! What a change does to the locks and to each queue. -/

theorem locks_join : (m.join s e).locks = m.locks := rfl

theorem waiting_join (r : SpaceId) :
    (m.join s e).waiting r = if r = s then m.waiting s ++ [e] else m.waiting r :=
  Function.update_apply ..

theorem locks_grant {rest : List Entry} (head : m.waiting s = e :: rest) :
    (m.grant s).locks = insertLock s e m.locks := by
  simp only [grant, head]

theorem waiting_grant {rest : List Entry} (head : m.waiting s = e :: rest) (r : SpaceId) :
    (m.grant s).waiting r = if r = s then rest else m.waiting r := by
  simp only [grant, head, Function.update_apply]

theorem mem_locks_leave {l : SpaceId × Entry} :
    l ∈ (m.leave w s).locks ↔ l ∈ m.locks ∧ ¬ (l.1 = s ∧ l.2.worker = w) := by
  simp [leave, imp_iff_not_or]

theorem waiting_leave (r : SpaceId) :
    (m.leave w s).waiting r =
      if r = s then (m.waiting s).filter fun e => e.worker != w else m.waiting r :=
  Function.update_apply ..

theorem mem_waiting_leave {r : SpaceId} :
    e ∈ (m.leave w s).waiting r ↔ e ∈ m.waiting r ∧ ¬ (r = s ∧ e.worker = w) := by
  rw [waiting_leave]
  split
  · next here => simp [here]
  · next other => simp [other]

theorem row_join (r : SpaceId) :
    (m.join s e).row r = if r = s then m.row s ++ [e.waits s] else m.row r := by
  simp only [row, holder?, locks_join, waiting_join]
  split
  · next here => simp [here]
  · rfl

/-! Looking up. -/

theorem holder?_eq_none_iff : m.holder? s = none ↔ ∀ l ∈ m.locks, l.1 ≠ s := by
  simp [holder?, List.find?_eq_none]

theorem lockOf?_eq_none_iff : m.lockOf? w = none ↔ ∀ l ∈ m.locks, l.2.worker ≠ w := by
  simp [lockOf?, List.find?_eq_none]

theorem waitsFor_eq_true_iff : m.waitsFor w s = true ↔ ∃ e ∈ m.waiting s, e.worker = w := by
  simp [waitsFor]

namespace Sound

/-- A space is locked once. -/
theorem lock_eq (sound : Sound last m) {a b : SpaceId × Entry} (ha : a ∈ m.locks)
    (hb : b ∈ m.locks) (same : a.1 = b.1) : a = b := by
  have sorted := sound.sorted
  generalize m.locks = ls at ha hb sorted
  induction sorted with
  | nil => cases ha
  | @cons x xs above _ ih =>
    have other : ∀ y ∈ xs, x.1 ≠ y.1 := by
      intro y hy eq
      have lt := above y hy
      rw [eq, Std.ReflOrd.compare_self] at lt
      cases lt
    rcases List.mem_cons.1 ha with rfl | ha' <;> rcases List.mem_cons.1 hb with rfl | hb'
    · rfl
    · exact absurd same (other b hb')
    · exact absurd same.symm (other a ha')
    · exact ih ha' hb'

theorem holder?_eq_some_iff (sound : Sound last m) : m.holder? s = some e ↔ (s, e) ∈ m.locks := by
  unfold holder?
  constructor
  · intro found
    obtain ⟨l, hl, rfl⟩ := Option.map_eq_some_iff.1 found
    have here : l.1 = s := by simpa using List.find?_some hl
    exact here ▸ List.mem_of_find?_eq_some hl
  · intro locked
    cases found : m.locks.find? fun l => l.1 == s with
    | none => simpa using List.find?_eq_none.1 found (s, e) locked
    | some l =>
      have here : l.1 = s := by simpa using List.find?_some found
      rw [sound.lock_eq (List.mem_of_find?_eq_some found) locked here, Option.map_some]

theorem lockOf?_eq_some_iff (sound : Sound last m) :
    m.lockOf? w = some s ↔ ∃ e, (s, e) ∈ m.locks ∧ e.worker = w := by
  unfold lockOf?
  constructor
  · intro found
    obtain ⟨l, hl, rfl⟩ := Option.map_eq_some_iff.1 found
    exact ⟨l.2, List.mem_of_find?_eq_some hl, by simpa using List.find?_some hl⟩
  · rintro ⟨e, locked, own⟩
    cases found : m.locks.find? fun l => l.2.worker == w with
    | none => exact absurd own (by simpa using List.find?_eq_none.1 found (s, e) locked)
    | some l =>
      have theirs : l.2.worker = w := by simpa using List.find?_some found
      rw [sound.single l (List.mem_of_find?_eq_some found) (s, e) locked (theirs.trans own.symm),
        Option.map_some]

theorem holdsIt_eq_true_iff (sound : Sound last m) :
    m.holdsIt w s = true ↔ ∃ e, (s, e) ∈ m.locks ∧ e.worker = w := by
  simp only [holdsIt, Option.any_eq_true, sound.holder?_eq_some_iff, beq_iff_eq]

/-- The row of a space has a record for the lock and one for each waiter. -/
theorem mem_row (sound : Sound last m) {x : Record} :
    x ∈ m.row s ↔
      (∃ e, (s, e) ∈ m.locks ∧ x = e.holds s) ∨ ∃ e ∈ m.waiting s, x = e.waits s := by
  simp only [row, List.mem_append, Option.mem_toList, Option.map_eq_some_iff,
    sound.holder?_eq_some_iff, List.mem_map, @eq_comm _ x]

/-- After a grant everyone but the head still waits. -/
theorem mem_waiting_grant (sound : Sound last m) {rest : List Entry}
    (head : m.waiting s = e :: rest) {x : Entry} {r : SpaceId} :
    x ∈ (m.grant s).waiting r ↔ x ∈ m.waiting r ∧ ¬ (r = s ∧ x = e) := by
  rw [waiting_grant head]
  split
  · next here =>
    have rising := (sound.queues s).rising
    rw [head] at rising
    rw [here, head, List.mem_cons]
    constructor
    · rintro behind
      refine ⟨.inr behind, fun ⟨_, same⟩ => ?_⟩
      exact ((List.pairwise_cons.1 rising).1 x behind).2 (congrArg Entry.worker same.symm)
    · rintro ⟨rfl | behind, other⟩
      · exact absurd ⟨rfl, rfl⟩ other
      · exact behind
  · next other => simp [other]

/-! What a change leaves is sound again. -/

theorem mono (sound : Sound last m) (le : last ≤ next) : Sound next m :=
  ⟨sound.sorted, sound.single, fun s => (sound.queues s).mono le, sound.outside⟩

theorem join (sound : Sound last m) (later : last < e.priority.value)
    (held : m.holdsIt e.worker s = false) (queued : m.waitsFor e.worker s = false) :
    Sound e.priority.value (m.join s e) where
  sorted := sound.sorted
  single := sound.single
  queues := by
    intro r
    rw [waiting_join]
    split
    · refine (sound.queues s).append later fun x hx same => ?_
      rw [waitsFor_eq_true_iff.2 ⟨x, hx, same⟩] at queued
      cases queued
    · exact (sound.queues r).mono (UInt64.le_of_lt later)
  outside := by
    rintro ⟨r, h⟩ locked x hx same
    rw [waiting_join] at hx
    split at hx
    · next here =>
      obtain rfl : r = s := here
      rcases List.mem_append.1 hx with hx | hx
      · exact sound.outside (r, h) locked x hx same
      · obtain rfl := List.mem_singleton.1 hx
        rw [sound.holdsIt_eq_true_iff.2 ⟨h, locked, same.symm⟩] at held
        cases held
    · exact sound.outside (r, h) locked x hx same

theorem grant (sound : Sound last m) {rest : List Entry} (head : m.waiting s = e :: rest)
    (free : m.holder? s = none) (idle : m.lockOf? e.worker = none) : Sound last (m.grant s) := by
  have queue := sound.queues s
  rw [head] at queue
  refine ⟨?_, ?_, fun r => ?_, fun l hl x hx => ?_⟩
  · rw [locks_grant head]
    exact pairwise_insertLock (holder?_eq_none_iff.1 free) sound.sorted
  · intro a ha b hb same
    rw [locks_grant head, mem_insertLock] at ha hb
    rcases ha with rfl | ha <;> rcases hb with rfl | hb
    · rfl
    · exact absurd same.symm (lockOf?_eq_none_iff.1 idle b hb)
    · exact absurd same (lockOf?_eq_none_iff.1 idle a ha)
    · exact sound.single a ha b hb same
  · rw [waiting_grant head]
    split
    · exact queue.sublist (List.sublist_cons_self e rest)
    · exact sound.queues r
  · rw [locks_grant head, mem_insertLock] at hl
    rw [waiting_grant head] at hx
    rcases hl with rfl | hl
    · rw [if_pos rfl] at hx
      exact ((List.pairwise_cons.1 queue.rising).1 x hx).2.symm
    · rw [if_neg (holder?_eq_none_iff.1 free l hl)] at hx
      exact sound.outside l hl x hx

theorem leave (sound : Sound last m) : Sound last (m.leave w s) where
  sorted := List.Pairwise.filter _ sound.sorted
  single := fun a ha b hb =>
    sound.single a (mem_locks_leave.1 ha).1 b (mem_locks_leave.1 hb).1
  queues := by
    intro r
    rw [waiting_leave]
    split
    · exact (sound.queues s).sublist List.filter_sublist
    · exact sound.queues r
  outside := by
    intro l hl x hx
    refine sound.outside l (mem_locks_leave.1 hl).1 x ?_
    rw [waiting_leave] at hx
    split at hx
    · next here => exact here ▸ (List.mem_filter.1 hx).1
    · exact hx

end Sound

end Fifo

end Interlock.Sequential
