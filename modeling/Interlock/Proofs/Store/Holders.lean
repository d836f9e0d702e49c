import Interlock.Proofs.Store.Stretch

/-!
How store calls change who holds what. A swap that happens grants a space to a worker, a deletion
that hits a holder record vacates it, and no other call touches the holder records, as long as only
waiting records are added. Grants and vacations leave marks by which they can be followed.
-/
namespace Interlock.Store

inductive Mark where
  | granted (s : SpaceId) (w : WorkerId)
  | vacated (s : SpaceId) (w : WorkerId)
  deriving DecidableEq, Repr

namespace Mark

def space : Mark → SpaceId
  | granted s _ | vacated s _ => s

def worker : Mark → WorkerId
  | granted _ w | vacated _ w => w

end Mark

namespace Call

/-- What the call changes about the holders of a table. -/
def mark? : Call → Table → Option Mark
  | .swap new old, t =>
    match t.swap new old with
    | .ok _ => some (.granted new.space new.worker)
    | .error _ => none
  | .delete r, t =>
    match t.getOf? r.key r.worker with
    | some x => if x.isHolder then some (.vacated x.space x.worker) else none
    | none => none
  | _, _ => none

def AddsWaiting : Call → Prop
  | .add r | .addIfAbsent r => r.isHolder = false
  | _ => True

variable {c : Call} {t t' : Table} {s : SpaceId} {w : WorkerId} {r : Record}

theorem mem_holders_put (waits : r.isHolder = false) (put : t.put r = .ok t') {x : Record} :
    x ∈ t'.holders ↔ x ∈ t.holders := by
  obtain ⟨valid, rfl⟩ := Table.put_eq_ok_iff.1 put
  simp only [Table.mem_holders, Table.mem_insert]
  constructor
  · rintro ⟨rfl | stored, holds⟩
    · rw [waits] at holds
      cases holds
    · exact ⟨stored.1, holds⟩
  · rintro ⟨stored, holds⟩
    refine ⟨.inr ⟨stored, fun same => ?_⟩, holds⟩
    rw [Record.isHolder_eq_of_key same, waits] at holds
    cases holds

theorem mem_holders_settle_put {α : Type} {a : α} (waits : r.isHolder = false) {x : Record} :
    x ∈ (settle t a (t.put r)).2.holders ↔ x ∈ t.holders := by
  cases put : t.put r with
  | ok t' => exact mem_holders_put waits put
  | error e => exact Iff.rfl

/-- A call without a mark leaves the holders. -/
theorem mem_holders_of_unmarked (waits : c.AddsWaiting) (unmarked : c.mark? t = none) :
    r ∈ (c.apply t).2.holders ↔ r ∈ t.holders := by
  cases c with
  | add x => exact mem_holders_settle_put waits
  | addIfAbsent x =>
    simp only [apply]
    split
    · exact Iff.rfl
    · split
      · exact mem_holders_settle_put waits
      · exact Iff.rfl
  | delete x =>
    simp only [apply, Table.mem_holders, Table.mem_delete]
    refine ⟨fun h => ⟨h.1.1, h.2⟩, fun h => ⟨⟨h.1, fun hit => ?_⟩, h.2⟩⟩
    have found := Table.getOf?_eq_some_iff.2 ⟨h.1, hit⟩
    simp [mark?, found, h.2] at unmarked
  | swap new old =>
    cases swapped : t.swap new old with
    | ok t' => simp [mark?, swapped] at unmarked
    | error e => simp [apply, settle, swapped]
  | _ => exact Iff.rfl

/-- A grant is a swap of a free space to an idle worker, and adds its holder record. -/
theorem of_mark?_granted (granted : c.mark? t = some (.granted s w)) :
    ∃ new old, c = .swap new old ∧ t.Swappable new old ∧ new.space = s ∧ new.worker = w ∧
      ∀ r, r ∈ (c.apply t).2.holders ↔ r = new ∨ r ∈ t.holders := by
  cases c with
  | swap new old =>
    cases swapped : t.swap new old with
    | error e => simp [mark?, swapped] at granted
    | ok t' =>
      simp only [mark?, swapped, Option.some.injEq, Mark.granted.injEq] at granted
      obtain ⟨may, -⟩ := Table.swap_eq_ok_iff.1 swapped
      refine ⟨new, old, rfl, may, granted.1, granted.2, fun r => ?_⟩
      simp only [apply, settle, swapped, Table.mem_holders, Table.mem_swap swapped]
      constructor
      · rintro ⟨rfl | stored, holds⟩
        · exact .inl rfl
        · exact .inr ⟨stored.1, holds⟩
      · rintro (rfl | ⟨stored, holds⟩)
        · exact ⟨.inl rfl, may.holds⟩
        · refine ⟨.inr ⟨stored, fun same => ?_⟩, holds⟩
          rw [Record.isHolder_eq_of_key same, may.waits] at holds
          cases holds
  | delete x =>
    simp only [mark?] at granted
    split at granted
    · split at granted <;> cases granted
    · cases granted
  | _ => cases granted

/-- A vacation is a deletion of a holder record by its key and worker, and takes away no other. -/
theorem of_mark?_vacated (vacated : c.mark? t = some (.vacated s w)) :
    ∃ d h, c = .delete d ∧ h ∈ t.holders ∧ h.key = d.key ∧ h.worker = d.worker ∧
      h.space = s ∧ h.worker = w ∧
      ∀ r, r ∈ (c.apply t).2.holders ↔ r ∈ t.holders ∧ r ≠ h := by
  cases c with
  | swap new old =>
    simp only [mark?] at vacated
    split at vacated <;> cases vacated
  | delete d =>
    cases found : t.getOf? d.key d.worker with
    | none => simp [mark?, found] at vacated
    | some h =>
      obtain ⟨stored, key, own⟩ := Table.getOf?_eq_some_iff.1 found
      simp only [mark?, found] at vacated
      split at vacated
      · next holds =>
        simp only [Option.some.injEq, Mark.vacated.injEq] at vacated
        refine ⟨d, h, rfl, Table.mem_holders.2 ⟨stored, holds⟩, key, own, vacated.1, vacated.2,
          fun r => ?_⟩
        simp only [apply, Table.mem_holders, Table.mem_delete]
        constructor
        · rintro ⟨⟨hr, spared⟩, holds⟩
          refine ⟨⟨hr, holds⟩, ?_⟩
          rintro rfl
          exact spared ⟨key, own⟩
        · rintro ⟨⟨hr, holds⟩, other⟩
          exact ⟨⟨hr, fun hit => other (t.eq_of_key hr stored (hit.1.trans key.symm))⟩, holds⟩
      · cases vacated
  | _ => cases vacated

theorem mem_of_mem_settle_put {α : Type} {a : α} {x : Record}
    (there : x ∈ (settle t a (t.put r)).2.records) : x ∈ t.records ∨ x = r := by
  cases put : t.put r with
  | error e =>
    rw [put] at there
    exact .inl there
  | ok t' =>
    obtain ⟨valid, rfl⟩ := Table.put_eq_ok_iff.1 put
    simp only [put, settle, Table.mem_insert] at there
    exact there.symm.imp_left And.left

/-- A record is in the table after a call if it was there before, was added or was swapped in. -/
theorem mem_of_mem_apply (there : r ∈ (c.apply t).2.records) :
    r ∈ t.records ∨ (c = .add r ∨ c = .addIfAbsent r) ∨
      (r.isHolder = true ∧ c.mark? t = some (.granted r.space r.worker)) := by
  cases c with
  | add x =>
    rcases mem_of_mem_settle_put there with stored | rfl
    · exact .inl stored
    · exact .inr (.inl (.inl rfl))
  | addIfAbsent x =>
    simp only [apply] at there
    split at there
    · exact .inl there
    · split at there
      · rcases mem_of_mem_settle_put there with stored | rfl
        · exact .inl stored
        · exact .inr (.inl (.inr rfl))
      · exact .inl there
  | delete x => exact .inl (Table.mem_delete.1 there).1
  | swap new old =>
    cases swapped : t.swap new old with
    | error e =>
      simp only [apply, settle, swapped] at there
      exact .inl there
    | ok t' =>
      simp only [apply, settle, swapped, Table.mem_swap swapped] at there
      obtain ⟨may, -⟩ := Table.swap_eq_ok_iff.1 swapped
      rcases there with rfl | stored
      · exact .inr (.inr ⟨may.holds, by simp [mark?, swapped]⟩)
      · exact .inl stored.1
  | _ => exact .inl there

end Call

namespace Table

variable {t t' : Table} {s : SpaceId}

/-- The holder of a space is read from the holder records of that space alone. -/
theorem holder_congr
    (same : ∀ r, r.isHolder = true → r.space = s → (r ∈ t'.records ↔ r ∈ t.records)) :
    t'.holder s = t.holder s := by
  refine Option.ext fun r => ?_
  rw [holder_eq_some_iff, holder_eq_some_iff]
  exact and_congr_left fun h => same r h.1 h.2

/-- After a swap the new record holds its space. -/
theorem holder_of_swap {new old : Record} (swapped : t.swap new old = .ok t') :
    t'.holder new.space = some new := by
  obtain ⟨may, -⟩ := swap_eq_ok_iff.1 swapped
  exact holder_eq_some_iff.2 ⟨(mem_swap swapped).2 (.inl rfl), may.holds, rfl⟩

theorem holder_of_swap_ne {new old : Record} (swapped : t.swap new old = .ok t')
    (other : s ≠ new.space) : t'.holder s = t.holder s := by
  obtain ⟨may, -⟩ := swap_eq_ok_iff.1 swapped
  refine holder_congr fun r holds space => ?_
  rw [mem_swap swapped]
  constructor
  · rintro (rfl | stored)
    · exact absurd space.symm other
    · exact stored.1
  · intro stored
    refine .inr ⟨stored, fun same => ?_⟩
    rw [Record.isHolder_eq_of_key same, may.waits] at holds
    cases holds

end Table

/-- Adding a waiting record leaves all holders. -/
theorem Call.holder_addIfAbsent {t : Table} {r : Record} (waits : r.isHolder = false)
    (s : SpaceId) : ((Call.addIfAbsent r).apply t).2.holder s = t.holder s := by
  refine Table.holder_congr fun x holds _ => ?_
  have same := mem_holders_of_unmarked (c := .addIfAbsent r) (t := t) (r := x) waits rfl
  simpa only [Table.mem_holders, holds, and_true] using same

end Interlock.Store
