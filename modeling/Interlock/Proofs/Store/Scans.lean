import Interlock.Proofs.Ordered
import Interlock.Proofs.Store.Stretch
import Interlock.Proofs.Text.Keys

/-!
What the scans of a table yield. The range of a space holds all of its records and no others, each
once: the holder, if there is one, and behind it the waiters by priority and by the bytes of their
workers. The next waiter is the least of them, and every other way to look into a table agrees with
a filter over all of its records. This holds of whatever records are stored, and for every space,
also for one that no record names. Specification, section 4.1: Lock Record Store.
-/
namespace Interlock

namespace Record

/-- A waiter goes before another: its priority is smaller, or the priorities are the same and its
worker comes first byte by byte. -/
def Precedes (a b : Record) : Prop :=
  a.priority.toNat < b.priority.toNat ∨
    a.priority = b.priority ∧ Bytes.ofText a.worker.text < Bytes.ofText b.worker.text

theorem precedes_iff {a b : Record} :
    a.Precedes b ↔ SortKey.waiterOrder (a.priority, a.worker) (b.priority, b.worker) = .lt := by
  have same : compare a.priority b.priority = .eq ↔ a.priority = b.priority :=
    Std.LawfulEqCmp.compare_eq_iff_eq
  change _ ↔ (compare a.priority b.priority).then (compare a.worker b.worker) = .lt
  rw [Ordering.then_eq_lt]
  exact (or_congr Priority.compare_eq_lt_iff (and_congr same WorkerId.compare_eq_lt_iff)).symm

theorem Precedes.not_precedes {a b : Record} (first : a.Precedes b) : ¬b.Precedes a := by
  rw [precedes_iff] at first ⊢
  rw [Std.OrientedCmp.gt_of_lt first]
  exact nofun

/-- The holder stands in front of all who wait for its space. -/
theorem order_holder_waiter {h r : Record} (holds : h.isHolder = true) (waits : r.isHolder = false)
    (same : h.space = r.space) : RecordKey.order h.key r.key = .lt := by
  obtain ⟨space, sortKey, worker, priority, enqueuedAt⟩ := r
  cases sortKey with
  | holder => cases waits
  | waiting p w =>
    simp only [RecordKey.order, key, same, (isHolder_iff h).1 holds, Std.ReflCmp.compare_self,
      Ordering.eq_then]
    rfl

end Record

namespace Store

theorem increasing_toList (found : Option Record) : Increasing found.toList := by
  cases found with
  | none => exact List.Pairwise.nil
  | some r => exact List.pairwise_singleton _ _

namespace Table

variable {t : Table} {s : SpaceId} {w : WorkerId} {r : Record}

theorem increasing_filter (t : Table) (p : Record → Bool) : Increasing (t.records.filter p) :=
  List.Pairwise.filter _ t.increasing

def waiters (t : Table) (s : SpaceId) : List Record :=
  t.records.filter fun r => !r.isHolder && r.space == s

theorem mem_waiters : r ∈ t.waiters s ↔ r ∈ t.records ∧ r.isHolder = false ∧ r.space = s := by
  simp [waiters]

/-- No space has a second holder record. -/
theorem toList_holder (t : Table) (s : SpaceId) :
    (t.holder s).toList = t.records.filter fun r => r.isHolder && r.space == s :=
  eq_of_mem_iff_of_pairwise_lt RecordKey.order Record.key (increasing_toList _)
    (t.increasing_filter _) fun r => by simp [holder_eq_some_iff]

/-- A range is the holder, if there is one, and the waiters. -/
theorem space_eq_holder_append (t : Table) (s : SpaceId) :
    t.space s = (t.holder s).toList ++ t.waiters s := by
  refine eq_of_mem_iff_of_pairwise_lt RecordKey.order Record.key (t.increasing_space s) ?_ ?_
  · refine List.pairwise_append.2 ⟨increasing_toList _, t.increasing_filter _, ?_⟩
    intro h first r behind
    obtain ⟨-, holds, space⟩ := holder_eq_some_iff.1 (Option.mem_toList.1 first)
    obtain ⟨-, waits, space'⟩ := mem_waiters.1 behind
    exact Record.order_holder_waiter holds waits (space.trans space'.symm)
  · intro r
    rw [List.mem_append, Option.mem_toList, holder_eq_some_iff, mem_waiters, mem_space]
    cases r.isHolder <;> simp

theorem pairwise_waiters (t : Table) (s : SpaceId) : (t.waiters s).Pairwise Record.Precedes := by
  refine (t.increasing_filter _).imp_of_mem fun {a b} ha hb lt => ?_
  obtain ⟨stored, waits, space⟩ := mem_waiters.1 ha
  obtain ⟨stored', waits', space'⟩ := mem_waiters.1 hb
  rw [order_key_of_waits stored stored' waits waits' (space.trans space'.symm)] at lt
  exact Record.precedes_iff.2 lt

theorem nextWaiter_eq_head? (t : Table) (s : SpaceId) : t.nextWaiter s = (t.waiters s).head? := by
  rw [nextWaiter, space_eq_filter, ← List.head?_filter, List.filter_filter, waiters]

/-- The next waiter is the one that goes before all others. -/
theorem nextWaiter_eq_some_iff_precedes :
    t.nextWaiter s = some r ↔ r ∈ t.waiters s ∧ ∀ q ∈ t.waiters s, q ≠ r → r.Precedes q := by
  have ordered := t.pairwise_waiters s
  rw [nextWaiter_eq_head?]
  generalize t.waiters s = row at ordered
  cases row with
  | nil => simp
  | cons first rest =>
    obtain ⟨ahead, -⟩ := List.pairwise_cons.1 ordered
    rw [List.head?_cons, Option.some.injEq]
    constructor
    · rintro rfl
      refine ⟨List.mem_cons_self, fun q listed other => ?_⟩
      exact ahead q ((List.mem_cons.1 listed).resolve_left other)
    · rintro ⟨listed, least⟩
      by_contra other
      have behind := (List.mem_cons.1 listed).resolve_left (Ne.symm other)
      exact (ahead r behind).not_precedes (least first List.mem_cons_self other)

theorem find_eq_filter (t : Table) (s : SpaceId) (w : WorkerId) :
    t.find s w = t.records.filter fun r => r.worker == w && r.space == s := by
  rw [find, space_eq_filter, List.filter_filter]

/-- The scans of a table, for all records that may be stored and for all spaces and workers. -/
theorem scans_agree (t : Table) (s : SpaceId) (w : WorkerId) :
    -- the range of a space: all of its records, each once, and in order
    (∀ r, r ∈ t.space s ↔ r ∈ t.records ∧ r.space = s) ∧ (t.space s).Nodup ∧
      t.space s = (t.holder s).toList ++ t.waiters s ∧
      (t.waiters s).Pairwise Record.Precedes ∧
    -- the next waiter: the least one
      (∀ r, t.nextWaiter s = some r ↔
        r ∈ t.waiters s ∧ ∀ q ∈ t.waiters s, q ≠ r → r.Precedes q) ∧
      (t.nextWaiter s = none ↔ t.waiters s = []) ∧
    -- everything else: a filter over all records
      t.find s w = (t.records.filter fun r => r.worker == w && r.space == s) ∧
      (t.holder s).toList = (t.records.filter fun r => r.isHolder && r.space == s) ∧
      t.heldBy w = (t.records.filter fun r => r.isHolder && r.worker == w).head? ∧
      t.holders = t.records.filter fun r => r.isHolder := by
  refine ⟨fun r => mem_space, ?_, t.space_eq_holder_append s, t.pairwise_waiters s,
    fun r => nextWaiter_eq_some_iff_precedes, ?_, t.find_eq_filter s w, t.toList_holder s,
    (List.head?_filter ..).symm, rfl⟩
  · refine (t.increasing_space s).imp fun lt same => ?_
    exact ne_of_order_lt lt (congrArg Record.key same)
  · rw [nextWaiter_eq_head?, List.head?_eq_none_iff]

end Table

end Store

end Interlock
