import Interlock.Store.Call
import Mathlib.Tactic.Common

/-!
What a change does to the entries of a table. Every change is described by the records that are in
the table afterwards: an insertion replaces the record under its key and nothing else, a deletion
leaves all other records, and a swap exchanges exactly one waiting record for a holder record. The
conditions of a swap are gathered in one structure, and a swap happens exactly when it is met.
-/
namespace Interlock

namespace Record

theorem validate_eq_ok_iff (r : Record) :
    r.validate = .ok () ↔
      r.space.isBlank = false ∧ r.worker.isBlank = false ∧ r.keyMatches = true := by
  unfold validate
  by_cases space : r.space.isBlank = true
  · simp [space]
  · by_cases worker : r.worker.isBlank = true
    · simp [space, worker]
    · by_cases key : r.keyMatches = true <;> simp [space, worker, key]

@[simp] theorem toHolder_space (r : Record) : r.toHolder.space = r.space := rfl

@[simp] theorem toHolder_worker (r : Record) : r.toHolder.worker = r.worker := rfl

@[simp] theorem toHolder_isHolder (r : Record) : r.toHolder.isHolder = true := rfl

theorem isHolder_iff (r : Record) : r.isHolder = true ↔ r.sortKey = .holder := by
  unfold isHolder SortKey.isHolder
  cases r.sortKey <;> simp

theorem key_eq_holderOf_iff (r : Record) (s : SpaceId) :
    r.key = .holderOf s ↔ r.isHolder = true ∧ r.space = s := by
  rw [isHolder_iff]
  simp only [key, RecordKey.holderOf, RecordKey.mk.injEq]
  exact and_comm

/-- Records under one key both hold or both wait. -/
theorem isHolder_eq_of_key {a b : Record} (same : a.key = b.key) : a.isHolder = b.isHolder :=
  congrArg (SortKey.isHolder ∘ RecordKey.sortKey) same

/-- A valid record that does not hold waits under the key its own fields give it. -/
theorem eq_waiting_of_valid {r : Record} (valid : r.validate = .ok ())
    (waits : r.isHolder = false) :
    r = waiting r.space r.worker r.priority r.enqueuedAt := by
  obtain ⟨-, -, matching⟩ := (validate_eq_ok_iff r).1 valid
  obtain ⟨space, sortKey, worker, priority, enqueuedAt⟩ := r
  cases sortKey with
  | holder => cases waits
  | waiting p w =>
    simp only [keyMatches, Bool.and_eq_true, beq_iff_eq] at matching
    obtain ⟨rfl, rfl⟩ := matching
    rfl

/-- A record that waits is valid if its space and its worker have names. -/
theorem validate_waiting {s : SpaceId} {w : WorkerId} (placed : s.isBlank = false)
    (called : w.isBlank = false) (p : Priority) (time : Time.Instant) :
    (waiting s w p time).validate = .ok () :=
  (validate_eq_ok_iff _).2 ⟨placed, called, by simp [waiting, keyMatches]⟩

/-- The holder record of a valid record is valid. -/
theorem toHolder_valid {r : Record} (valid : r.validate = .ok ()) :
    r.toHolder.validate = .ok () := by
  obtain ⟨space, worker, -⟩ := (validate_eq_ok_iff r).1 valid
  exact (validate_eq_ok_iff _).2 ⟨space, worker, rfl⟩

end Record

namespace Store

theorem order_self (k : RecordKey) : RecordKey.order k k = .eq := Std.ReflCmp.compare_self

theorem ne_of_order_lt {a b : RecordKey} (lt : RecordKey.order a b = .lt) : a ≠ b := by
  rintro rfl
  rw [order_self] at lt
  cases lt

/-- In a list with increasing keys a record is determined by its key. -/
theorem Increasing.eq_of_key {rs : List Record} (increasing : Increasing rs) {a b : Record}
    (ha : a ∈ rs) (hb : b ∈ rs) (same : a.key = b.key) : a = b := by
  induction rs with
  | nil => cases ha
  | cons x xs ih =>
    obtain ⟨above, increasing⟩ := List.pairwise_cons.1 increasing
    rcases List.mem_cons.1 ha with rfl | tailA <;> rcases List.mem_cons.1 hb with rfl | tailB
    · rfl
    · exact absurd same (ne_of_order_lt (above b tailB))
    · exact absurd same.symm (ne_of_order_lt (above a tailA))
    · exact ih increasing tailA tailB

theorem mem_insertRecord {r x : Record} {rs : List Record} (increasing : Increasing rs) :
    x ∈ insertRecord r rs ↔ x = r ∨ (x ∈ rs ∧ x.key ≠ r.key) := by
  induction rs with
  | nil => simp [insertRecord]
  | cons y ys ih =>
    obtain ⟨above, increasing⟩ := List.pairwise_cons.1 increasing
    simp only [insertRecord]
    split
    · next lt =>
      -- what stands behind `y` comes even later than `r`
      have later : ∀ z ∈ ys, z.key ≠ r.key := fun z hz =>
        (ne_of_order_lt (Std.TransCmp.lt_trans lt (above z hz))).symm
      simp only [List.mem_cons]
      constructor
      · rintro (rfl | rfl | hx)
        · exact .inl rfl
        · exact .inr ⟨.inl rfl, (ne_of_order_lt lt).symm⟩
        · exact .inr ⟨.inr hx, later x hx⟩
      · rintro (rfl | ⟨rfl | hx, -⟩)
        · exact .inl rfl
        · exact .inr (.inl rfl)
        · exact .inr (.inr hx)
    · next eq =>
      have head : r.key = y.key := Std.LawfulEqCmp.eq_of_compare eq
      simp only [List.mem_cons]
      constructor
      · rintro (rfl | hx)
        · exact .inl rfl
        · exact .inr ⟨.inr hx, head ▸ (ne_of_order_lt (above x hx)).symm⟩
      · rintro (rfl | ⟨rfl | hx, other⟩)
        · exact .inl rfl
        · exact absurd head.symm other
        · exact .inr hx
    · next gt =>
      have head : y.key ≠ r.key := ne_of_order_lt (Std.OrientedCmp.lt_of_gt gt)
      rw [List.mem_cons, ih increasing, List.mem_cons]
      constructor
      · rintro (rfl | rfl | ⟨hx, other⟩)
        · exact .inr ⟨.inl rfl, head⟩
        · exact .inl rfl
        · exact .inr ⟨.inr hx, other⟩
      · rintro (rfl | ⟨rfl | hx, other⟩)
        · exact .inr (.inl rfl)
        · exact .inl rfl
        · exact .inr (.inr ⟨hx, other⟩)

theorem mem_eraseKey {k : RecordKey} {x : Record} {rs : List Record} :
    x ∈ eraseKey k rs ↔ x ∈ rs ∧ x.key ≠ k := by
  simp [eraseKey]

namespace Table

variable {t t' : Table}

theorem eq_of_key (t : Table) {a b : Record} (ha : a ∈ t.records) (hb : b ∈ t.records)
    (same : a.key = b.key) : a = b :=
  t.increasing.eq_of_key ha hb same

@[simp] theorem mem_insert {r x : Record} (valid : r.validate = .ok ()) :
    x ∈ (t.insert r valid).records ↔ x = r ∨ (x ∈ t.records ∧ x.key ≠ r.key) :=
  mem_insertRecord t.increasing

@[simp] theorem mem_erase {k : RecordKey} {x : Record} :
    x ∈ (t.erase k).records ↔ x ∈ t.records ∧ x.key ≠ k := mem_eraseKey

/-! Looking up. -/

theorem get?_eq_some_iff {k : RecordKey} {r : Record} :
    t.get? k = some r ↔ r ∈ t.records ∧ r.key = k := by
  constructor
  · intro found
    exact ⟨List.mem_of_find?_eq_some found, by simpa using List.find?_some found⟩
  · rintro ⟨stored, rfl⟩
    cases result : t.get? r.key with
    | none => simpa using List.find?_eq_none.1 result r stored
    | some x =>
      have key : x.key = r.key := by simpa using List.find?_some result
      rw [t.eq_of_key (List.mem_of_find?_eq_some result) stored key]

theorem get?_eq_none_iff {k : RecordKey} : t.get? k = none ↔ ∀ r ∈ t.records, r.key ≠ k := by
  simp [get?, List.find?_eq_none]

theorem holder_eq_some_iff {s : SpaceId} {r : Record} :
    t.holder s = some r ↔ r ∈ t.records ∧ r.isHolder = true ∧ r.space = s := by
  rw [holder, get?_eq_some_iff, Record.key_eq_holderOf_iff]

theorem holder_eq_none_iff {s : SpaceId} :
    t.holder s = none ↔ ∀ r ∈ t.records, r.isHolder = true → r.space ≠ s := by
  simp only [holder, get?_eq_none_iff, ne_eq, Record.key_eq_holderOf_iff, not_and]

theorem mem_holders {r : Record} : r ∈ t.holders ↔ r ∈ t.records ∧ r.isHolder = true := by
  simp [holders]

theorem heldBy_eq_none_iff {w : WorkerId} :
    t.heldBy w = none ↔ ∀ r ∈ t.records, r.isHolder = true → r.worker ≠ w := by
  simp [heldBy, List.find?_eq_none]

/-- No space has two holder records. -/
theorem holders_eq_of_space {a b : Record} (ha : a ∈ t.holders) (hb : b ∈ t.holders)
    (same : a.space = b.space) : a = b := by
  rw [mem_holders] at ha hb
  have hka := (Record.key_eq_holderOf_iff a a.space).2 ⟨ha.2, rfl⟩
  have hkb := (Record.key_eq_holderOf_iff b a.space).2 ⟨hb.2, same.symm⟩
  exact t.eq_of_key ha.1 hb.1 (hka.trans hkb.symm)

/-- A stored waiting record of a key belongs to the worker the key names. -/
theorem worker_eq_of_waiting_key {x r : Record} (stored : x ∈ t.records)
    (valid : r.validate = .ok ()) (waits : r.isHolder = false) (same : x.key = r.key) :
    x.worker = r.worker := by
  have hx := Record.eq_waiting_of_valid (t.valid x stored)
  have hr := Record.eq_waiting_of_valid valid waits
  have keys : x.sortKey = r.sortKey := congrArg RecordKey.sortKey same
  rw [hx ((Record.isHolder_eq_of_key same).trans waits), hr] at keys
  simp only [Record.waiting, SortKey.waiting.injEq] at keys
  exact keys.2

theorem getOf?_eq_some_iff {k : RecordKey} {w : WorkerId} {r : Record} :
    t.getOf? k w = some r ↔ r ∈ t.records ∧ r.key = k ∧ r.worker = w := by
  unfold getOf?
  cases found : t.get? k with
  | none =>
    rw [get?_eq_none_iff] at found
    simp only [reduceCtorEq, false_iff]
    exact fun h => found r h.1 h.2.1
  | some x =>
    obtain ⟨stored, key⟩ := get?_eq_some_iff.1 found
    by_cases own : x.worker = w
    · simp only [beq_iff_eq, own, ↓reduceIte, Option.some.injEq]
      constructor
      · rintro rfl
        exact ⟨stored, key, own⟩
      · rintro ⟨hr, hk, -⟩
        exact t.eq_of_key stored hr (key.trans hk.symm)
    · simp only [beq_iff_eq, own, ↓reduceIte, reduceCtorEq, false_iff]
      rintro ⟨hr, hk, hw⟩
      exact own (t.eq_of_key stored hr (key.trans hk.symm) ▸ hw)

/-! Changing. -/

theorem put_eq_ok_iff {r : Record} :
    t.put r = .ok t' ↔ ∃ valid : r.validate = .ok (), t' = t.insert r valid := by
  unfold put
  split
  · next valid =>
    rw [Except.ok.injEq]
    exact ⟨fun eq => ⟨valid, eq.symm⟩, fun ⟨_, eq⟩ => eq.symm⟩
  · next e invalid => simp [invalid]

theorem delete_eq_some_iff {r : Record} :
    t.delete r = some t' ↔
      (∃ x ∈ t.records, x.key = r.key ∧ x.worker = r.worker) ∧ t' = t.erase r.key := by
  unfold delete
  rw [Option.map_eq_some_iff]
  simp only [getOf?_eq_some_iff]
  constructor
  · rintro ⟨x, hx, rfl⟩
    exact ⟨⟨x, hx⟩, rfl⟩
  · rintro ⟨⟨x, hx⟩, rfl⟩
    exact ⟨x, hx, rfl⟩

/-- A deletion takes away the record under the key if it belongs to the same worker, and nothing
else. -/
theorem mem_delete {r x : Record} :
    x ∈ ((t.delete r).getD t).records ↔
      x ∈ t.records ∧ ¬ (x.key = r.key ∧ x.worker = r.worker) := by
  cases result : t.delete r with
  | some t' =>
    obtain ⟨⟨y, stored, key, own⟩, rfl⟩ := delete_eq_some_iff.1 result
    simp only [Option.getD_some, mem_erase, ne_eq, not_and]
    refine and_congr_right fun hx => ⟨fun other same => absurd same other, fun h same => ?_⟩
    exact h same (t.eq_of_key stored hx (key.trans same.symm) ▸ own)
  | none =>
    simp only [Option.getD_none, iff_self_and]
    rintro hx same
    have : t.delete r = some (t.erase r.key) := delete_eq_some_iff.2 ⟨⟨x, hx, same⟩, rfl⟩
    rw [result] at this
    cases this

/-- What a swap needs of the two records and of the table. -/
structure Swappable (t : Table) (new old : Record) : Prop where
  new_valid : new.validate = .ok ()
  old_valid : old.validate = .ok ()
  holds : new.isHolder = true
  waits : old.isHolder = false
  same_space : new.space = old.space
  same_worker : new.worker = old.worker
  stored : ∃ x ∈ t.records, x.key = old.key
  free : t.holder new.space = none
  idle : t.heldBy new.worker = none

/-- The check of the two records, as a chain of cases. -/
theorem checkSwap_eq (new old : Record) :
    checkSwap new old =
      match new.validate, old.validate with
      | .error reason, _ | .ok _, .error reason => .error (.invalidRecord reason)
      | .ok _, .ok _ =>
        if !new.isHolder || old.isHolder then
          .error (.transaction (.rejected "swap needs a holder record and a waiting record"))
        else if new.space != old.space || new.worker != old.worker then
          .error (.transaction
            (.rejected "holder and waiting records differ in shared space or worker"))
        else .ok () := by
  unfold checkSwap
  cases new.validate <;> cases old.validate <;> rfl

theorem checkSwap_eq_ok_iff {new old : Record} :
    checkSwap new old = .ok () ↔
      new.validate = .ok () ∧ old.validate = .ok () ∧ new.isHolder = true ∧
        old.isHolder = false ∧ new.space = old.space ∧ new.worker = old.worker := by
  rw [checkSwap_eq]
  split
  next reason invalid => simp [invalid]
  next reason valid invalid => simp [invalid]
  next newValid oldValid =>
    simp only [newValid, oldValid, true_and]
    split
    · next kinds =>
      simp only [reduceCtorEq, false_iff]
      rintro ⟨holds, waits, -⟩
      simp [holds, waits] at kinds
    next kinds =>
    have kinds : new.isHolder = true ∧ old.isHolder = false := by simpa using kinds
    split
    · next differ =>
      simp only [reduceCtorEq, false_iff]
      rintro ⟨-, -, space, worker⟩
      simp [space, worker] at differ
    · next agree =>
      have agree : new.space = old.space ∧ new.worker = old.worker := by simpa using agree
      exact iff_of_true rfl ⟨kinds.1, kinds.2, agree⟩

theorem swapConflict_eq_none_iff {new old : Record} :
    t.swapConflict new old = none ↔
      (∃ x ∈ t.records, x.key = old.key ∧ x.worker = old.worker) ∧
        t.holder new.space = none ∧ t.heldBy new.worker = none := by
  unfold swapConflict
  cases found : t.getOf? old.key old.worker with
  | none =>
    simp only [reduceCtorEq, false_iff]
    rintro ⟨⟨x, hx⟩, -⟩
    rw [getOf?_eq_some_iff.2 hx] at found
    cases found
  | some x =>
    have stored := getOf?_eq_some_iff.1 found
    cases holder : t.holder new.space with
    | some h => simp
    | none =>
      cases held : t.heldBy new.worker with
      | some h => simp
      | none => simpa using ⟨x, stored⟩

/-- A swap happens exactly when it may, and then it exchanges the two records. -/
theorem swap_eq_ok_iff {new old : Record} :
    t.swap new old = .ok t' ↔
      ∃ may : t.Swappable new old, t' = (t.erase old.key).insert new may.new_valid := by
  unfold swap
  cases checked : checkSwap new old with
  | error e =>
    simp only [reduceCtorEq, false_iff]
    rintro ⟨may, -⟩
    have := checkSwap_eq_ok_iff.2
      ⟨may.new_valid, may.old_valid, may.holds, may.waits, may.same_space, may.same_worker⟩
    rw [checked] at this
    cases this
  | ok u =>
    obtain ⟨nv, ov, holds, waits, space, worker⟩ := checkSwap_eq_ok_iff.1 checked
    cases conflict : t.swapConflict new old with
    | some e =>
      simp only [reduceCtorEq, false_iff]
      rintro ⟨may, -⟩
      obtain ⟨x, stored, key⟩ := may.stored
      have := swapConflict_eq_none_iff.2
        ⟨⟨x, stored, key, worker_eq_of_waiting_key stored ov waits key⟩, may.free, may.idle⟩
      rw [conflict] at this
      cases this
    | none =>
      obtain ⟨⟨x, stored, key, -⟩, free, idle⟩ := swapConflict_eq_none_iff.1 conflict
      have may : t.Swappable new old :=
        ⟨nv, ov, holds, waits, space, worker, ⟨x, stored, key⟩, free, idle⟩
      simp only [put_eq_ok_iff]
      exact ⟨fun ⟨_, eq⟩ => ⟨may, eq⟩, fun ⟨_, eq⟩ => ⟨nv, eq⟩⟩

/-- After a swap the table holds the new record and everything but the old one. -/
theorem mem_swap {new old x : Record} (swapped : t.swap new old = .ok t') :
    x ∈ t'.records ↔ x = new ∨ (x ∈ t.records ∧ x.key ≠ old.key) := by
  obtain ⟨may, rfl⟩ := swap_eq_ok_iff.1 swapped
  simp only [mem_insert, mem_erase, ne_eq]
  refine or_congr_right ⟨fun h => h.1, fun h => ⟨h, fun same => ?_⟩⟩
  have := (Record.key_eq_holderOf_iff x new.space).1
    (same.trans ((Record.key_eq_holderOf_iff new new.space).2 ⟨may.holds, rfl⟩))
  exact holder_eq_none_iff.1 may.free x h.1 this.1 this.2

end Table

end Store

end Interlock
