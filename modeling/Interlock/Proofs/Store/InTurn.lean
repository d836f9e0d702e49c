import Interlock.Proofs.Store.Holders
import Interlock.Proofs.Time.Written

/-!
Calls of a record store one after the other. A store is known by what its calls answer and by the
table there is after each; two stores are the same if these agree for any sequence of calls. The
store in memory has no call of its own for an enrollment and makes two of it, which comes to the
same as long as nobody comes between them.
-/
namespace Interlock.Store

/-- What a call has answered, and the table there is then, as far as it can be read. -/
structure Reply where
  call : Call
  answer : call.Answer
  table : Except StoreError Table

variable {σ τ : Type}

/-- The replies of a store to calls one after the other. -/
def transcript (call : (c : Call) → σ → c.Answer × σ) (table : σ → Except StoreError Table) :
    List Call → σ → List Reply
  | [], _ => []
  | c :: cs, x =>
    ⟨c, (call c x).1, table (call c x).2⟩ :: transcript call table cs (call c x).2

/-- Each of the calls, one after the other, is made where it may be made. -/
def InTurn (call : (c : Call) → σ → c.Answer × σ) (may : Call → σ → Prop) : List Call → σ → Prop
  | [], _ => True
  | c :: cs, x => may c x ∧ InTurn call may cs (call c x).2

/-- Two stores give the same replies if some relation of their states is kept by each call that may
be made, gives the same answers and shows the same tables. -/
theorem transcript_eq {call : (c : Call) → σ → c.Answer × σ} {table : σ → Except StoreError Table}
    {call' : (c : Call) → τ → c.Answer × τ} {table' : τ → Except StoreError Table}
    {R : σ → τ → Prop} {may : Call → σ → Prop} {cs : List Call}
    (tables : ∀ x y, R x y → table x = table' y)
    (answers : ∀ c ∈ cs, ∀ x y, R x y → may c x →
      (call c x).1 = (call' c y).1 ∧ R (call c x).2 (call' c y).2)
    {x : σ} {y : τ} (same : R x y) (allowed : InTurn call may cs x) :
    transcript call table cs x = transcript call' table' cs y := by
  induction cs generalizing x y with
  | nil => rfl
  | cons c cs ih =>
    obtain ⟨answer, next⟩ := answers c List.mem_cons_self x y same allowed.1
    have rest := ih (fun c mem => answers c (List.mem_cons_of_mem _ mem)) next allowed.2
    rw [transcript, transcript, answer, tables _ _ next, rest]

theorem inTurn_trivial (call : (c : Call) → σ → c.Answer × σ) (cs : List Call) (x : σ) :
    InTurn call (fun _ _ => True) cs x := by
  induction cs generalizing x with
  | nil => trivial
  | cons c cs ih => exact ⟨trivial, ih _⟩

/-- An enrollment at a store without a call for it: check the record, look for records of its worker
in its space, and add it if there is none. -/
def lookThenAdd (call : (c : Call) → σ → c.Answer × σ) (r : Record) (x : σ) :
    Except StoreError Bool × σ :=
  match r.validate with
  | .error e => (.error (.invalidRecord e), x)
  | .ok () =>
    match call (.find r.space r.worker) x with
    | (.error e, x) => (.error e, x)
    | (.ok (_ :: _), x) => (.ok false, x)
    | (.ok [], x) =>
      match call (.add r) x with
      | (.error e, x) => (.error e, x)
      | (.ok (), x) => (.ok true, x)

def inMemory : (c : Call) → Table → c.Answer × Table
  | .addIfAbsent r, t => lookThenAdd Call.apply r t
  | c, t => c.apply t

variable {t : Table} {r : Record}

theorem Table.put_of_invalid {e : RecordError} (invalid : r.validate = .error e) :
    t.put r = .error (.invalidRecord e) := by
  unfold put
  split
  · next valid =>
    rw [invalid] at valid
    cases valid
  · next e' invalid' =>
    rw [invalid] at invalid'
    cases invalid'
    rfl

theorem inMemory_eq (c : Call) (t : Table) : inMemory c t = c.apply t := by
  cases c with
  | addIfAbsent r =>
    simp only [inMemory, lookThenAdd, Call.apply]
    cases valid : r.validate with
    | error e => rfl
    | ok u =>
      cases found : t.find r.space r.worker with
      | cons x xs => rfl
      | nil =>
        have put : t.put r = .ok (t.insert r valid) := Table.put_eq_ok_iff.2 ⟨valid, rfl⟩
        simp only [put, Call.settle, List.isEmpty_nil, if_true]
  | _ => rfl

namespace Call

variable {c : Call}

def stored? : Call → Option Record
  | .add r | .addIfAbsent r | .swap r _ => some r
  | .delete _ | .find .. | .list _ | .nextWaiter _ | .lockHolder _ | .lockHolders => none

/-- Whatever the call stores has a time in the calendar. -/
def Dated (c : Call) : Prop := ∀ r ∈ c.stored?, r.enqueuedAt.Representable

instance (c : Call) : Decidable c.Dated :=
  inferInstanceAs (Decidable (∀ r ∈ c.stored?, r.enqueuedAt.Representable))

/-- A call whose record is turned away before the table is looked at. -/
theorem apply_of_precheck {e : StoreError} (refused : c.precheck = .error e) :
    c.apply t = (c.fail e, t) := by
  cases c with
  | add r =>
    simp only [precheck] at refused
    cases valid : r.validate with
    | ok u =>
      rw [valid] at refused
      cases refused
    | error e' =>
      rw [valid] at refused
      cases refused
      simp only [apply, Table.put_of_invalid valid, settle, fail]
  | addIfAbsent r =>
    simp only [precheck] at refused
    cases valid : r.validate with
    | ok u =>
      rw [valid] at refused
      cases refused
    | error e' =>
      rw [valid] at refused
      cases refused
      simp only [apply, valid, fail]
  | _ => cases refused

/-- A call whose table need not be written back has left it. -/
theorem apply_of_clean (clean : c.changes t (c.apply t).1 = false) : (c.apply t).2 = t := by
  cases c with
  | add r =>
    simp only [apply] at clean ⊢
    cases put : t.put r with
    | error e => rfl
    | ok t' =>
      rw [put] at clean
      cases clean
  | addIfAbsent r =>
    simp only [apply] at clean ⊢
    cases valid : r.validate with
    | error e => rfl
    | ok u =>
      rw [valid, Table.put_eq_ok_iff.2 ⟨valid, rfl⟩] at clean
      rw [Table.put_eq_ok_iff.2 ⟨valid, rfl⟩]
      simp only at clean ⊢
      split
      · next none =>
        rw [if_pos none] at clean
        cases clean
      · rfl
  | delete r =>
    have kept : t.delete r = none :=
      Option.not_isSome_iff_eq_none.1 (by simpa [changes, apply] using clean)
    simp only [apply, kept, Option.getD_none]
  | swap new old =>
    simp only [apply] at clean ⊢
    cases swapped : t.swap new old with
    | error e => rfl
    | ok t' =>
      rw [swapped] at clean
      cases clean
  | _ => rfl

/-- A record is in the table after a call if it was there before or the call has stored it. -/
theorem stored_of_mem_apply (there : r ∈ (c.apply t).2.records) :
    r ∈ t.records ∨ r ∈ c.stored? := by
  cases c with
  | add x =>
    exact (mem_of_mem_settle_put there).imp_right fun same : r = x => same ▸ rfl
  | addIfAbsent x =>
    simp only [apply] at there
    split at there
    · exact .inl there
    · split at there
      · exact (mem_of_mem_settle_put there).imp_right fun same : r = x => same ▸ rfl
      · exact .inl there
  | delete x => exact .inl (Table.mem_delete.1 there).1
  | swap new old =>
    cases swapped : t.swap new old with
    | error e =>
      simp only [apply, settle, swapped] at there
      exact .inl there
    | ok t' =>
      simp only [apply, settle, swapped, Table.mem_swap swapped] at there
      exact there.symm.imp And.left fun same : r = new => same ▸ rfl
  | _ => exact .inl there

/-- As long as no other times are stored, a table can be written and read. -/
theorem Dated.apply (dated : c.Dated) (written : ∀ r ∈ t.records, r.enqueuedAt.Representable) :
    ∀ r ∈ (c.apply t).2.records, r.enqueuedAt.Representable := by
  intro r there
  rcases stored_of_mem_apply there with before | mine
  · exact written r before
  · exact dated r mine

end Call

end Interlock.Store
