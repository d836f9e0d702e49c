import Interlock.Proofs.Store.Entries

/-!
One space is one stretch of the table. The stretch that starts where the holder of a space would
stand, and ends where another space begins, is exactly the list of all records of that space, also
when the name of one space is the beginning of another. What is read from a table about one space
or one worker is therefore a plain filter over all of its records.
-/
namespace Interlock.Store

theorem SortKey.compare_holder_ne_lt (k : SortKey) : compare k .holder ≠ .lt := by
  cases k <;> exact Ordering.noConfusion

/-- The holder's key stands in front of all keys of its space. -/
theorem order_holderOf_eq_lt_iff (k : RecordKey) (s : SpaceId) :
    RecordKey.order k (.holderOf s) = .lt ↔ compare k.space s = .lt := by
  have above := SortKey.compare_holder_ne_lt k.sortKey
  simp only [RecordKey.order, RecordKey.holderOf]
  cases compare k.space s <;> simp [above]

theorem space_isLE_of_order_lt {a b : RecordKey} (lt : RecordKey.order a b = .lt) :
    (compare a.space b.space).isLE = true := by
  simp only [RecordKey.order] at lt
  cases spaces : compare a.space b.space <;> simp_all

/-- Behind a record of a later space there is none of an earlier one. -/
theorem Increasing.space_ne_of_gt {x : Record} {xs : List Record} {s : SpaceId}
    (increasing : Increasing (x :: xs)) (later : compare x.space s = .gt) :
    ∀ y ∈ xs, y.space ≠ s := by
  rintro y hy rfl
  have le := space_isLE_of_order_lt ((List.pairwise_cons.1 increasing).1 y hy)
  simp only [Record.key] at le
  rw [later] at le
  cases le

theorem takeWhile_space_eq_filter {s : SpaceId} {rs : List Record} (increasing : Increasing rs)
    (started : ∀ r ∈ rs, compare r.space s ≠ .lt) :
    rs.takeWhile (fun r => r.space == s) = rs.filter fun r => r.space == s := by
  induction rs with
  | nil => rfl
  | cons x xs ih =>
    have rest := ih (List.pairwise_cons.1 increasing).2
      fun r hr => started r (List.mem_cons_of_mem _ hr)
    by_cases own : x.space = s
    · rw [List.takeWhile_cons_of_pos (by simpa using own), rest,
        List.filter_cons_of_pos (by simpa using own)]
    · have later : compare x.space s = .gt := by
        cases order : compare x.space s with
        | lt => exact absurd order (started x List.mem_cons_self)
        | eq => exact absurd (Std.LawfulEqOrd.eq_of_compare order) own
        | gt => rfl
      rw [List.takeWhile_cons_of_neg (by simpa using own), eq_comm, List.filter_eq_nil_iff]
      intro y hy
      rcases List.mem_cons.1 hy with rfl | hy
      · simpa using own
      · simpa using increasing.space_ne_of_gt later y hy

namespace Table

variable {t : Table}

/-- What the table shows of a space are all records of the space and no other. -/
theorem space_eq_filter (t : Table) (s : SpaceId) :
    t.space s = t.records.filter fun r => r.space == s := by
  unfold space
  have increasing := t.increasing
  generalize t.records = rs at increasing
  induction rs with
  | nil => rfl
  | cons x xs ih =>
    obtain ⟨above, rest⟩ := List.pairwise_cons.1 increasing
    by_cases before : RecordKey.order x.key (.holderOf s) = .lt
    · have other : x.space ≠ s := by
        rintro rfl
        have lt : compare x.space x.space = .lt := (order_holderOf_eq_lt_iff _ _).1 before
        have same : compare x.space x.space = .eq := Std.ReflCmp.compare_self
        rw [same] at lt
        cases lt
      rw [List.dropWhile_cons_of_pos (by simpa using before), ih rest,
        List.filter_cons_of_neg (by simpa using other)]
    · rw [List.dropWhile_cons_of_neg (by simpa using before)]
      refine takeWhile_space_eq_filter increasing fun r hr lt => before ?_
      have reached := (order_holderOf_eq_lt_iff r.key s).2 lt
      rcases List.mem_cons.1 hr with rfl | hr
      · exact reached
      · exact Std.TransCmp.lt_trans (above r hr) reached

theorem mem_space {s : SpaceId} {r : Record} : r ∈ t.space s ↔ r ∈ t.records ∧ r.space = s := by
  simp [space_eq_filter]

theorem increasing_space (t : Table) (s : SpaceId) : Increasing (t.space s) := by
  rw [space_eq_filter]
  exact List.Pairwise.filter _ t.increasing

theorem mem_find {s : SpaceId} {w : WorkerId} {r : Record} :
    r ∈ t.find s w ↔ r ∈ t.records ∧ r.space = s ∧ r.worker = w := by
  simp [find, mem_space, and_assoc]

theorem find_eq_nil_iff {s : SpaceId} {w : WorkerId} :
    t.find s w = [] ↔ ∀ r ∈ t.records, r.space = s → r.worker ≠ w := by
  simp only [List.eq_nil_iff_forall_not_mem, mem_find, not_and, ne_eq]

theorem pairwise_find_key (t : Table) (s : SpaceId) (w : WorkerId) :
    (t.find s w).Pairwise fun a b => a.key ≠ b.key :=
  (List.Pairwise.filter _ (t.increasing_space s)).imp ne_of_order_lt

def deleteAll (t : Table) (rs : List Record) : Table := rs.foldl (fun t r => (t.delete r).getD t) t

theorem mem_deleteAll {rs : List Record} {x : Record} :
    x ∈ (t.deleteAll rs).records ↔
      x ∈ t.records ∧ ∀ r ∈ rs, ¬ (x.key = r.key ∧ x.worker = r.worker) := by
  induction rs generalizing t with
  | nil => simp [deleteAll]
  | cons r rs ih =>
    change x ∈ (((t.delete r).getD t).deleteAll rs).records ↔ _
    rw [ih, mem_delete, and_assoc, List.forall_mem_cons]

/-- Without the records found of a worker in a space it has none there, and all others stay. -/
theorem mem_deleteAll_find {s : SpaceId} {w : WorkerId} {x : Record} :
    x ∈ (t.deleteAll (t.find s w)).records ↔ x ∈ t.records ∧ ¬ (x.space = s ∧ x.worker = w) := by
  rw [mem_deleteAll]
  refine and_congr_right fun stored => ⟨fun others own => ?_, fun other r found same => other ?_⟩
  · exact others x (mem_find.2 ⟨stored, own⟩) ⟨rfl, rfl⟩
  · obtain ⟨-, space, worker⟩ := mem_find.1 found
    exact ⟨(congrArg RecordKey.space same.1).trans space, same.2.trans worker⟩

/-- The next waiter is a waiting record of the space. -/
theorem mem_of_nextWaiter {s : SpaceId} {r : Record} (next : t.nextWaiter s = some r) :
    r ∈ t.records ∧ r.space = s ∧ r.isHolder = false := by
  have stored := mem_space.1 (List.mem_of_find?_eq_some next)
  exact ⟨stored.1, stored.2, by simpa using List.find?_some next⟩

/-- The first waiter of a space: no other waiter has a smaller priority, or the same priority and a
smaller identifier. -/
structure FirstWaiter (t : Table) (s : SpaceId) (r : Record) : Prop where
  stored : r ∈ t.records
  space : r.space = s
  waits : r.isHolder = false
  least : ∀ q ∈ t.records, q.space = s → q.isHolder = false →
    (SortKey.waiterOrder (r.priority, r.worker) (q.priority, q.worker)).isLE = true

/-- Two waiters of a space stand in the order of their priorities and identifiers. -/
theorem order_key_of_waits {a b : Record} (ha : a ∈ t.records) (hb : b ∈ t.records)
    (waitsA : a.isHolder = false) (waitsB : b.isHolder = false) (same : a.space = b.space) :
    RecordKey.order a.key b.key =
      SortKey.waiterOrder (a.priority, a.worker) (b.priority, b.worker) := by
  have keyA := congrArg Record.sortKey (Record.eq_waiting_of_valid (t.valid a ha) waitsA)
  have keyB := congrArg Record.sortKey (Record.eq_waiting_of_valid (t.valid b hb) waitsB)
  simp only [Record.waiting] at keyA keyB
  simp only [RecordKey.order, Record.key, same, Std.ReflCmp.compare_self, Ordering.eq_then, keyA,
    keyB]
  rfl

/-- The next waiter is the first one. -/
theorem nextWaiter_eq_some_iff {s : SpaceId} {r : Record} :
    t.nextWaiter s = some r ↔ t.FirstWaiter s r := by
  have first {r : Record} (next : t.nextWaiter s = some r) : t.FirstWaiter s r := by
    obtain ⟨stored, space, waits⟩ := mem_of_nextWaiter next
    refine ⟨stored, space, waits, fun q hq hs hw => ?_⟩
    obtain ⟨-, front, back, row, passed⟩ := List.find?_eq_some_iff_append.1 next
    have increasing := t.increasing_space s
    rw [row] at increasing
    have listed : q ∈ front ++ r :: back := row ▸ mem_space.2 ⟨hq, hs⟩
    rw [← order_key_of_waits stored hq waits hw (space.trans hs.symm)]
    rcases List.mem_append.1 listed with before | here
    · exact absurd (passed q before) (by simp [hw])
    · rcases List.mem_cons.1 here with rfl | behind
      · rw [order_self]
        rfl
      · rw [(List.pairwise_cons.1 (List.pairwise_append.1 increasing).2.1).1 q behind]
        rfl
  refine ⟨first, fun least => ?_⟩
  cases next : t.nextWaiter s with
  | none =>
    have passed := List.find?_eq_none.1 next r (mem_space.2 ⟨least.stored, least.space⟩)
    simp [least.waits] at passed
  | some q =>
    have other := first next
    have le := least.least q other.stored other.space other.waits
    have ge := other.least r least.stored least.space least.waits
    have same := Std.OrientedCmp.isLE_antisymm le ge
    rw [← order_key_of_waits least.stored other.stored least.waits other.waits
      (least.space.trans other.space.symm)] at same
    rw [t.eq_of_key least.stored other.stored (Std.LawfulEqCmp.eq_of_compare same)]

end Table

end Interlock.Store
