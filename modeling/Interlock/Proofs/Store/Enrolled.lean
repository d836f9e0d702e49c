import Interlock.Proofs.Store.Stretch

/-!
Who has a record where. A worker has a record in a space while it waits for the space or holds it.
An addition gives one worker a record in one space, the deletion of all its records there takes it
away again, and a swap changes nothing in this respect: who waited holds now, and has a record as
before. As long as every addition looks for records first nobody has two of them in one space.
-/
namespace Interlock.Store

namespace Table

def Has (t : Table) (w : WorkerId) (s : SpaceId) : Prop :=
  ∃ r ∈ t.records, r.space = s ∧ r.worker = w

/-- Everybody has records where they had some. -/
def SameHas (t t' : Table) : Prop := ∀ w s, t'.Has w s ↔ t.Has w s

variable {t t' t'' : Table} {w : WorkerId} {s : SpaceId}

theorem sameHas_of_eq (same : t' = t) : t.SameHas t' := fun _ _ => same ▸ Iff.rfl

theorem SameHas.trans (first : t.SameHas t') (second : t'.SameHas t'') : t.SameHas t'' :=
  fun w s => (second w s).trans (first w s)

theorem not_has_empty (w : WorkerId) (s : SpaceId) : ¬ empty.Has w s := by
  rintro ⟨r, stored, -⟩
  cases stored

theorem has_of_mem_find {r : Record} (found : r ∈ t.find s w) : t.Has w s :=
  ⟨r, mem_find.1 found⟩

/-- A swap exchanges a record for one of the same worker in the same space. -/
theorem sameHas_of_swap {new old : Record} (swapped : t.swap new old = .ok t') : t.SameHas t' := by
  intro w s
  obtain ⟨may, -⟩ := swap_eq_ok_iff.1 swapped
  constructor
  · rintro ⟨r, stored, space, worker⟩
    rcases (mem_swap swapped).1 stored with rfl | ⟨before, -⟩
    · obtain ⟨x, there, key⟩ := may.stored
      have own : x.worker = old.worker :=
        worker_eq_of_waiting_key there may.old_valid may.waits key
      have place : x.space = old.space := congrArg RecordKey.space key
      exact ⟨x, there, place.trans (may.same_space.symm.trans space),
        own.trans (may.same_worker.symm.trans worker)⟩
    · exact ⟨r, before, space, worker⟩
  · rintro ⟨r, stored, space, worker⟩
    by_cases key : r.key = old.key
    · have own : r.worker = old.worker :=
        worker_eq_of_waiting_key stored may.old_valid may.waits key
      have place : r.space = old.space := congrArg RecordKey.space key
      exact ⟨new, (mem_swap swapped).2 (.inl rfl), may.same_space.trans (place.symm.trans space),
        may.same_worker.trans (own.symm.trans worker)⟩
    · exact ⟨r, (mem_swap swapped).2 (.inr ⟨stored, key⟩), space, worker⟩

/-- What is done about one worker in one space: if it succeeds the worker has a record there, or
none, as it should; if it fails the worker stays where it was; and all others stay in any case. -/
structure Settles (w : WorkerId) (s : SpaceId) (should : Prop) (succeeds : Bool) (t t' : Table) :
    Prop where
  done : succeeds = true → (t'.Has w s ↔ should)
  failed : succeeds = false → (t'.Has w s ↔ t.Has w s)
  others : ∀ v r, ¬ (v = w ∧ r = s) → (t'.Has v r ↔ t.Has v r)

variable {should : Prop} {succeeds : Bool}

/-- What fails and changes nothing settles anything. -/
theorem settles_of_sameHas (same : t.SameHas t') : Settles w s should false t t' :=
  ⟨nofun, fun _ => same w s, fun v r _ => same v r⟩

/-- Afterwards it makes no difference if nobody comes or goes. -/
theorem Settles.trans (settles : Settles w s should succeeds t t') (same : t'.SameHas t'') :
    Settles w s should succeeds t t'' where
  done ok := (same w s).trans (settles.done ok)
  failed no := (same w s).trans (settles.failed no)
  others v r other := (same v r).trans (settles.others v r other)

/-- An addition that is carried out leaves the worker with a record. -/
theorem settles_addIfAbsent {r : Record} (waits : r.isHolder = false) :
    Settles r.worker r.space True ((Call.addIfAbsent r).apply t).1.isOk t
      ((Call.addIfAbsent r).apply t).2 := by
  cases valid : r.validate with
  | error e =>
    simp only [Call.apply, valid]
    exact settles_of_sameHas (sameHas_of_eq rfl)
  | ok u =>
    cases found : t.find r.space r.worker with
    | cons x xs =>
      simp only [Call.apply, valid, found, List.isEmpty_cons, Bool.false_eq_true, ↓reduceIte]
      have there : t.Has r.worker r.space := has_of_mem_find (found ▸ List.mem_cons_self)
      exact ⟨fun _ => iff_of_true there trivial, Bool.noConfusion, fun _ _ _ => Iff.rfl⟩
    | nil =>
      have put : t.put r = .ok (t.insert r valid) := put_eq_ok_iff.2 ⟨valid, rfl⟩
      simp only [Call.apply, valid, found, List.isEmpty_nil, ↓reduceIte, put, Call.settle]
      refine ⟨fun _ => ?_, Bool.noConfusion, ?_⟩
      · exact iff_of_true ⟨r, (mem_insert valid).2 (.inl rfl), rfl, rfl⟩ trivial
      intro v q other
      constructor
      · rintro ⟨x, stored, rfl, rfl⟩
        rcases (mem_insert valid).1 stored with rfl | ⟨before, -⟩
        · exact absurd ⟨rfl, rfl⟩ other
        · exact ⟨x, before, rfl, rfl⟩
      · rintro ⟨x, stored, rfl, rfl⟩
        refine ⟨x, (mem_insert valid).2 (.inr ⟨stored, fun key => other ⟨?_, ?_⟩⟩), rfl, rfl⟩
        · exact worker_eq_of_waiting_key stored valid waits key
        · exact congrArg RecordKey.space key

/-- The records of a worker in a space are gone when the last of them has been deleted. As long as
one is left it has a record there, so a deletion that stops half way takes nobody out. -/
theorem settles_deleteAll {front rest : List Record} (found : t.find s w = front ++ rest) :
    Settles w s False rest.isEmpty t (t.deleteAll front) := by
  have own {r : Record} (listed : r ∈ front ++ rest) :
      r ∈ t.records ∧ r.space = s ∧ r.worker = w := mem_find.1 (found ▸ listed)
  refine ⟨fun last => ?_, fun more => ?_, fun v q other => ?_⟩
  · have all : front = t.find s w := by
      rw [found, List.isEmpty_iff.1 last, List.append_nil]
    rw [all, iff_false]
    rintro ⟨x, stored, space, worker⟩
    exact (mem_deleteAll_find.1 stored).2 ⟨space, worker⟩
  · cases rest with
    | nil => cases more
    | cons r rest =>
      have listed : r ∈ front ++ r :: rest := List.mem_append_right _ List.mem_cons_self
      have keys := t.pairwise_find_key s w
      rw [found] at keys
      have left : r ∈ (t.deleteAll front).records := by
        refine mem_deleteAll.2 ⟨(own listed).1, fun q before same => ?_⟩
        exact (List.pairwise_append.1 keys).2.2 q before r List.mem_cons_self same.1.symm
      exact iff_of_true ⟨r, left, (own listed).2⟩ ⟨r, own listed⟩
  · constructor
    · rintro ⟨x, stored, place⟩
      exact ⟨x, (mem_deleteAll.1 stored).1, place⟩
    · rintro ⟨x, stored, rfl, rfl⟩
      refine ⟨x, mem_deleteAll.2 ⟨stored, fun r before same => other ?_⟩, rfl, rfl⟩
      obtain ⟨-, space, worker⟩ := own (List.mem_append_left rest before)
      exact ⟨same.2.trans worker, (congrArg RecordKey.space same.1).trans space⟩

/-! One record for each worker in each space. -/

/-- Each worker has at most one record in each space. -/
def Single (t : Table) : Prop :=
  ∀ a ∈ t.records, ∀ b ∈ t.records, a.space = b.space → a.worker = b.worker → a = b

namespace Single

variable {r new old : Record}

theorem empty : Table.empty.Single := fun _ there => nomatch there

/-- With fewer records there is still at most one of each. -/
theorem of_subset (single : t.Single) (fewer : ∀ r ∈ t'.records, r ∈ t.records) : t'.Single :=
  fun a ha b hb => single a (fewer a ha) b (fewer b hb)

/-- A record may come to a table where its worker has none in its space. -/
theorem add (single : t.Single)
    (others : ∀ x ∈ t'.records,
      x = r ∨ (x ∈ t.records ∧ ¬ (x.space = r.space ∧ x.worker = r.worker))) : t'.Single := by
  intro a ha b hb space worker
  rcases others a ha with rfl | ⟨storedA, otherA⟩ <;>
    rcases others b hb with rfl | ⟨storedB, otherB⟩
  · rfl
  · exact absurd ⟨space.symm, worker.symm⟩ otherB
  · exact absurd ⟨space, worker⟩ otherA
  · exact single a storedA b storedB space worker

theorem addIfAbsent (single : t.Single) : ((Call.addIfAbsent r).apply t).2.Single := by
  cases valid : r.validate with
  | error e => simpa only [Call.apply, valid] using single
  | ok u =>
    cases found : t.find r.space r.worker with
    | cons x xs => simpa [Call.apply, valid, found] using single
    | nil =>
      have put : t.put r = .ok (t.insert r valid) := put_eq_ok_iff.2 ⟨valid, rfl⟩
      simp only [Call.apply, valid, found, List.isEmpty_nil, if_true, put, Call.settle]
      refine single.add (r := r) fun x there => ?_
      refine ((mem_insert valid).1 there).imp_right fun stored => ⟨stored.1, ?_⟩
      exact fun own => find_eq_nil_iff.1 found x stored.1 own.1 own.2

/-- The waiting record of a swap is the only one of its worker in its space, and it goes. -/
theorem swap (single : t.Single) (swapped : t.swap new old = .ok t') : t'.Single := by
  obtain ⟨may, -⟩ := swap_eq_ok_iff.1 swapped
  obtain ⟨y, stored, key⟩ := may.stored
  have space : y.space = new.space := (congrArg RecordKey.space key).trans may.same_space.symm
  have worker : y.worker = new.worker :=
    (worker_eq_of_waiting_key stored may.old_valid may.waits key).trans may.same_worker.symm
  refine single.add (r := new) fun x there => ?_
  refine ((mem_swap swapped).1 there).imp_right fun kept => ⟨kept.1, fun own => kept.2 ?_⟩
  rw [single x kept.1 y stored (own.1.trans space.symm) (own.2.trans worker.symm), key]

/-- Every call but a plain addition keeps the table so. -/
theorem apply {c : Call} (single : t.Single) (looks : ∀ r, c ≠ .add r) :
    (c.apply t).2.Single := by
  cases c with
  | add r => exact absurd rfl (looks r)
  | addIfAbsent r => exact single.addIfAbsent
  | delete r => exact single.of_subset fun x there => (mem_delete.1 there).1
  | swap new old =>
    cases swapped : t.swap new old with
    | error e => simpa only [Call.apply, swapped, Call.settle] using single
    | ok t' =>
      simp only [Call.apply, swapped, Call.settle]
      exact single.swap swapped
  | _ => exact single

/-- What is found of a worker in a space is one record, if it is anything. -/
theorem find_eq_singleton (single : t.Single) (found : r ∈ t.find s w) : t.find s w = [r] := by
  have one : ∀ x ∈ t.find s w, x = r := fun x there => by
    obtain ⟨storedX, spaceX, workerX⟩ := mem_find.1 there
    obtain ⟨stored, space, worker⟩ := mem_find.1 found
    exact single x storedX r stored (spaceX.trans space.symm) (workerX.trans worker.symm)
  cases records : t.find s w with
  | nil => simp [records] at found
  | cons x xs =>
    have keys := t.pairwise_find_key s w
    rw [records] at keys one
    obtain rfl := one x List.mem_cons_self
    cases xs with
    | nil => rfl
    | cons y ys =>
      obtain rfl := one y (List.mem_cons_of_mem x List.mem_cons_self)
      exact absurd rfl ((List.pairwise_cons.1 keys).1 y List.mem_cons_self)

end Single

end Table

end Interlock.Store
