import Interlock.Proofs.Store.Held

/-!
The contract of a swap. Its conditions stand in an order. If all of them are met the swap happens,
and the entry of the waiter gives way to that of the holder. Else the first one that is not met says
what the error is, and the table stays as it was. Specification, section 4.1: Lock Record Store.
-/
namespace Interlock.Store

/-- The conditions of a swap, in the order in which they count. -/
inductive SwapCondition where
  | newValid
  | oldValid
  /-- The new record holds and the old one waits. -/
  | kinds
  /-- Both records are of one worker in one space. -/
  | agreement
  | stored
  /-- Nobody holds the space. -/
  | free
  /-- The worker holds nothing. -/
  | idle
  deriving DecidableEq, Repr

namespace SwapCondition

def all : List SwapCondition := [newValid, oldValid, kinds, agreement, stored, free, idle]

variable (t : Table) (new old : Record)

/-- The condition is met by the two records and the table. -/
def Met : SwapCondition → Prop
  | newValid => new.validate = .ok ()
  | oldValid => old.validate = .ok ()
  | kinds => new.isHolder = true ∧ old.isHolder = false
  | agreement => new.space = old.space ∧ new.worker = old.worker
  | stored => ∃ r ∈ t.records, r.key = old.key
  | free => ∀ w, ¬t.Holds w new.space
  | idle => ∀ s, ¬t.Holds new.worker s

/-- The error says that the condition is not met: it gives the error of the record, the key that is
missing, the worker that holds the space, or the least of the spaces that the worker holds. -/
def Reports (e : StoreError) : SwapCondition → Prop
  | newValid => ∃ reason, new.validate = .error reason ∧ e = .invalidRecord reason
  | oldValid => ∃ reason, old.validate = .error reason ∧ e = .invalidRecord reason
  | kinds => e = .transaction (.rejected "swap needs a holder record and a waiting record")
  | agreement =>
    e = .transaction (.rejected "holder and waiting records differ in shared space or worker")
  | stored => e = .transaction (.waiterMissing old.key.display)
  | free => ∃ w, t.Holds w new.space ∧ e = .transaction (.holderExists new.space w)
  | idle => ∃ s, t.Holds new.worker s ∧ (∀ p, t.Holds new.worker p → (compare s p).isLE = true) ∧
      e = .transaction (.workerHoldsOther new.worker s)

/-- The conditions in front of this one are met, and it is not. -/
def FirstUnmet (q : SwapCondition) : Prop :=
  ∃ front back, all = front ++ q :: back ∧ (∀ p ∈ front, p.Met t new old) ∧ ¬q.Met t new old

end SwapCondition

namespace Table

variable {t t' : Table} {new old : Record} {s : SpaceId} {w : WorkerId}

theorem holder_eq_none_iff_not_holds : t.holder s = none ↔ ∀ w, ¬t.Holds w s := by
  simp [Holds, Option.eq_none_iff_forall_ne_some]

theorem heldBy_eq_none_iff_not_holds : t.heldBy w = none ↔ ∀ s, ¬t.Holds w s := by
  simp only [heldBy_eq_none_iff, holds_iff, mem_holders]
  constructor
  · rintro none s ⟨r, ⟨stored, holds⟩, -, own⟩
    exact none r stored holds own
  · intro nowhere r stored holds own
    exact nowhere r.space ⟨r, ⟨stored, holds⟩, rfl, own⟩

/-- The holder record that is found for a worker is the one of its least space. -/
theorem least_of_heldBy {h : Record} (found : t.heldBy w = some h) :
    h.worker = w ∧ t.Holds w h.space ∧
      ∀ p, t.Holds w p → (compare h.space p).isLE = true := by
  obtain ⟨own, front, back, listed, passed⟩ := List.find?_eq_some_iff_append.1 found
  obtain ⟨holds, own⟩ : h.isHolder = true ∧ h.worker = w := by simpa using own
  have stored : h ∈ t.records := List.mem_of_find?_eq_some found
  refine ⟨own, holds_iff.2 ⟨h, mem_holders.2 ⟨stored, holds⟩, rfl, own⟩, fun p held => ?_⟩
  obtain ⟨r, isHolder, rfl, own'⟩ := holds_iff.1 held
  obtain ⟨place, holds'⟩ := mem_holders.1 isHolder
  have sorted := t.increasing
  rw [listed] at place
  rw [Increasing, listed] at sorted
  rcases List.mem_append.1 place with before | here
  · exact absurd (passed r before) (by simp [holds', own'])
  · rcases List.mem_cons.1 here with rfl | behind
    · simp [Std.ReflOrd.compare_self]
    · have later := (List.pairwise_cons.1 (List.pairwise_append.1 sorted).2.1).1 r behind
      simp [compare_space_of_holders holds holds' later]

theorem swappable_iff : t.Swappable new old ↔ ∀ q : SwapCondition, q.Met t new old := by
  constructor
  · rintro may (_ | _ | _ | _ | _ | _ | _)
    · exact may.new_valid
    · exact may.old_valid
    · exact ⟨may.holds, may.waits⟩
    · exact ⟨may.same_space, may.same_worker⟩
    · exact may.stored
    · exact holder_eq_none_iff_not_holds.1 may.free
    · exact heldBy_eq_none_iff_not_holds.1 may.idle
  · intro met
    exact ⟨met .newValid, met .oldValid, (met .kinds).1, (met .kinds).2, (met .agreement).1,
      (met .agreement).2, met .stored, holder_eq_none_iff_not_holds.2 (met .free),
      heldBy_eq_none_iff_not_holds.2 (met .idle)⟩

/-- The check of the two records fails at the first of the four conditions on them. -/
theorem firstUnmet_of_checkSwap {e : StoreError} (refused : checkSwap new old = .error e) :
    ∃ q : SwapCondition, q.FirstUnmet t new old ∧ q.Reports t new old e := by
  rw [checkSwap_eq] at refused
  split at refused
  next reason newInvalid =>
    refine ⟨.newValid, ⟨[], _, rfl, nofun, ?_⟩, reason, newInvalid, (Except.error.inj refused).symm⟩
    simp [SwapCondition.Met, newInvalid]
  next reason newValid oldInvalid =>
    refine ⟨.oldValid, ⟨[.newValid], _, rfl, ?_, ?_⟩, reason, oldInvalid,
      (Except.error.inj refused).symm⟩
    · exact List.forall_mem_singleton.2 newValid
    · simp [SwapCondition.Met, oldInvalid]
  next newValid oldValid =>
    have valid : ∀ p ∈ [SwapCondition.newValid, .oldValid], p.Met t new old :=
      List.forall_mem_cons.2 ⟨newValid, List.forall_mem_singleton.2 oldValid⟩
    split at refused
    · next kinds =>
      refine ⟨.kinds, ⟨_, _, rfl, valid, ?_⟩, (Except.error.inj refused).symm⟩
      rintro ⟨holds, waits⟩
      simp [holds, waits] at kinds
    next kinds =>
    have kinds : SwapCondition.kinds.Met t new old := by simpa [SwapCondition.Met] using kinds
    split at refused
    · next differ =>
      refine ⟨.agreement, ⟨[.newValid, .oldValid, .kinds], _, rfl, ?_, ?_⟩,
        (Except.error.inj refused).symm⟩
      · exact List.forall_mem_append.2 ⟨valid, List.forall_mem_singleton.2 kinds⟩
      · rintro ⟨space, worker⟩
        simp [space, worker] at differ
    · cases refused

/-- Two records that passed their check meet a conflict at the first of the other three
conditions. -/
theorem firstUnmet_of_swapConflict {e : TransactionError} (checked : checkSwap new old = .ok ())
    (conflict : t.swapConflict new old = some e) :
    ∃ q : SwapCondition, q.FirstUnmet t new old ∧ q.Reports t new old (.transaction e) := by
  obtain ⟨newValid, oldValid, holds, waits, space, worker⟩ := checkSwap_eq_ok_iff.1 checked
  have records : ∀ p ∈ [SwapCondition.newValid, .oldValid, .kinds, .agreement],
      p.Met t new old := by
    simpa using ⟨newValid, oldValid, ⟨holds, waits⟩, ⟨space, worker⟩⟩
  unfold swapConflict at conflict
  cases found : t.getOf? old.key old.worker with
  | none =>
    simp only [found, Option.some.injEq] at conflict
    refine ⟨.stored, ⟨_, _, rfl, records, ?_⟩, congrArg _ conflict.symm⟩
    -- a record under the key of a waiter belongs to that waiter
    rintro ⟨r, stored, key⟩
    have own := worker_eq_of_waiting_key stored oldValid waits key
    rw [getOf?_eq_some_iff.2 ⟨stored, key, own⟩] at found
    cases found
  | some r =>
  obtain ⟨stored, key, -⟩ := getOf?_eq_some_iff.1 found
  have present : SwapCondition.stored.Met t new old := ⟨r, stored, key⟩
  cases holder : t.holder new.space with
  | some h =>
    simp only [found, holder, Option.some.injEq] at conflict
    have here : h.space = new.space := (holder_eq_some_iff.1 holder).2.2
    have held : t.Holds h.worker new.space := ⟨h, holder, rfl⟩
    refine ⟨.free, ⟨[.newValid, .oldValid, .kinds, .agreement, .stored], _, rfl, ?_, ?_⟩,
      h.worker, held, ?_⟩
    · exact List.forall_mem_append.2 ⟨records, List.forall_mem_singleton.2 present⟩
    · exact fun nobody => nobody h.worker held
    · rw [← conflict, here]
  | none =>
  have free : SwapCondition.free.Met t new old := holder_eq_none_iff_not_holds.1 holder
  cases elsewhere : t.heldBy new.worker with
  | some h =>
    simp only [found, holder, elsewhere, Option.some.injEq] at conflict
    obtain ⟨own, held, least⟩ := least_of_heldBy elsewhere
    refine ⟨.idle, ⟨[.newValid, .oldValid, .kinds, .agreement, .stored, .free], _, rfl, ?_, ?_⟩,
      h.space, held, least, ?_⟩
    · exact List.forall_mem_append.2 ⟨records,
        List.forall_mem_cons.2 ⟨present, List.forall_mem_singleton.2 free⟩⟩
    · exact fun nowhere => nowhere h.space held
    · rw [← conflict, own]
  | none => simp [found, holder, elsewhere] at conflict

/-- A swap that does not happen says which condition is the first one that is not met. -/
theorem firstUnmet_of_swap {e : StoreError} (refused : t.swap new old = .error e) :
    ∃ q : SwapCondition, q.FirstUnmet t new old ∧ q.Reports t new old e := by
  unfold swap at refused
  cases checked : checkSwap new old with
  | error e' =>
    simp only [checked, Except.error.injEq] at refused
    exact refused ▸ firstUnmet_of_checkSwap checked
  | ok u =>
  cases conflict : t.swapConflict new old with
  | some e' =>
    simp only [checked, conflict, Except.error.injEq] at refused
    exact refused ▸ firstUnmet_of_swapConflict checked conflict
  | none =>
    simp only [checked, conflict] at refused
    rw [put_eq_ok_iff.2 ⟨(checkSwap_eq_ok_iff.1 checked).1, rfl⟩] at refused
    cases refused

/-- The entries after a swap: under the two keys as the swap says, under every other as before. -/
theorem get?_swap (swapped : t.swap new old = .ok t') (k : RecordKey) :
    t'.get? k = if k = new.key then some new else if k = old.key then none else t.get? k := by
  split
  · next here => exact get?_eq_some_iff.2 ⟨(mem_swap swapped).2 (.inl rfl), here.symm⟩
  next notNew =>
    split
    · next there =>
      refine get?_eq_none_iff.2 fun r stored same => ?_
      rcases (mem_swap swapped).1 stored with rfl | ⟨-, spared⟩
      · exact notNew same.symm
      · exact spared (same.trans there)
    · next notOld =>
      refine Option.ext fun r => ?_
      rw [get?_eq_some_iff, get?_eq_some_iff, mem_swap swapped]
      constructor
      · rintro ⟨rfl | ⟨stored, -⟩, key⟩
        · exact absurd key.symm notNew
        · exact ⟨stored, key⟩
      · rintro ⟨stored, rfl⟩
        exact ⟨.inr ⟨stored, notOld⟩, rfl⟩

end Table

namespace Call

/-- The contract of a swap, for every table and all records. -/
theorem swap_contract (t : Table) (new old : Record) :
    let swapped := (Call.swap new old).apply t
    (swapped.1 = .ok () ↔ ∀ q : SwapCondition, q.Met t new old) ∧
      match swapped.1 with
      | .ok _ => ∀ k, swapped.2.get? k =
          if k = new.key then some new else if k = old.key then none else t.get? k
      | .error e => swapped.2 = t ∧
          ∃ q : SwapCondition, q.FirstUnmet t new old ∧ q.Reports t new old e := by
  dsimp only [apply]
  cases result : t.swap new old with
  | ok t' =>
    refine ⟨iff_of_true rfl ?_, Table.get?_swap result⟩
    exact Table.swappable_iff.1 (Table.swap_eq_ok_iff.1 result).1
  | error e =>
    refine ⟨iff_of_false nofun fun met => ?_, rfl, Table.firstUnmet_of_swap result⟩
    rw [Table.swap_eq_ok_iff.2 ⟨Table.swappable_iff.2 met, rfl⟩] at result
    cases result

end Call

end Interlock.Store
