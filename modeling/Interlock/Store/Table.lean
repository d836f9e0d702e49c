import Interlock.Store.Error

/-!
The table of records, in the order of their keys. Every record in it validates and no key stands
twice; both are part of the type. One space is one stretch of the table: its holder, if there is
one, and behind it the waiters, the first of which is next. Specification, section 4.1: Lock Record
Store.
-/
namespace Interlock.Store

/-- Records with strictly increasing keys. -/
def Increasing (rs : List Record) : Prop :=
  rs.Pairwise fun a b => RecordKey.order a.key b.key = .lt

/-- Put a record in its place, instead of one with the same key. -/
def insertRecord (r : Record) : List Record → List Record
  | [] => [r]
  | x :: xs =>
    match RecordKey.order r.key x.key with
    | .lt => r :: x :: xs
    | .eq => r :: xs
    | .gt => x :: insertRecord r xs

/-- Leave out the record with a key. -/
def eraseKey (k : RecordKey) (rs : List Record) : List Record := rs.filter fun r => r.key != k

theorem mem_of_mem_insertRecord {r x : Record} {rs : List Record} (h : x ∈ insertRecord r rs) :
    x = r ∨ x ∈ rs := by
  induction rs with
  | nil => exact .inl (List.mem_singleton.1 h)
  | cons y ys ih =>
    simp only [insertRecord] at h
    split at h
    · rcases List.mem_cons.1 h with h | h
      · exact .inl h
      · exact .inr h
    · rcases List.mem_cons.1 h with h | h
      · exact .inl h
      · exact .inr (List.mem_cons_of_mem _ h)
    · rcases List.mem_cons.1 h with h | h
      · exact .inr (h ▸ List.mem_cons_self)
      · exact (ih h).imp_right (List.mem_cons_of_mem _)

theorem increasing_insertRecord {r : Record} {rs : List Record} (h : Increasing rs) :
    Increasing (insertRecord r rs) := by
  induction rs with
  | nil => exact List.pairwise_singleton _ _
  | cons x xs ih =>
    obtain ⟨hx, hxs⟩ := List.pairwise_cons.1 h
    simp only [insertRecord]
    split
    · next hlt =>
      refine List.pairwise_cons.2 ⟨fun y hy => ?_, h⟩
      rcases List.mem_cons.1 hy with rfl | hy
      · exact hlt
      · exact Std.TransCmp.lt_trans hlt (hx y hy)
    · next heq =>
      have hk : r.key = x.key := Std.LawfulEqCmp.eq_of_compare heq
      exact List.pairwise_cons.2 ⟨fun y hy => hk ▸ hx y hy, hxs⟩
    · next hgt =>
      refine List.pairwise_cons.2 ⟨fun y hy => ?_, ih hxs⟩
      rcases mem_of_mem_insertRecord hy with rfl | hy
      · exact Std.OrientedCmp.lt_of_gt hgt
      · exact hx y hy

theorem increasing_eraseKey {k : RecordKey} {rs : List Record} (h : Increasing rs) :
    Increasing (eraseKey k rs) := List.Pairwise.filter _ h

/-- A table of valid records, each under its own key. -/
structure Table where
  records : List Record
  increasing : Increasing records
  valid : ∀ r ∈ records, r.validate = .ok ()

namespace Table

instance : DecidableEq Table := fun a b =>
  decidable_of_iff (a.records = b.records) ⟨fun h => by cases a; cases b; cases h; rfl, (· ▸ rfl)⟩

/-- The table without records. -/
def empty : Table := ⟨[], List.Pairwise.nil, fun _ h => absurd h List.not_mem_nil⟩

instance : Inhabited Table := ⟨empty⟩

def size (t : Table) : Nat := t.records.length

def isEmpty (t : Table) : Bool := t.records.isEmpty

/-- The record stored under a key. -/
def get? (t : Table) (k : RecordKey) : Option Record := t.records.find? fun r => r.key == k

/-- The record stored under a key, as long as it belongs to the worker. -/
def getOf? (t : Table) (k : RecordKey) (w : WorkerId) : Option Record :=
  match t.get? k with
  | some r => if r.worker == w then some r else none
  | none => none

/-- The table without the record under a key. -/
def erase (t : Table) (k : RecordKey) : Table :=
  ⟨eraseKey k t.records, increasing_eraseKey t.increasing,
    fun r h => t.valid r ((List.mem_filter.1 h).1)⟩

/-- The table with a valid record in the place of its key. -/
def insert (t : Table) (r : Record) (h : r.validate = .ok ()) : Table :=
  ⟨insertRecord r t.records, increasing_insertRecord t.increasing, fun x hx =>
    (mem_of_mem_insertRecord hx).elim (fun e => e ▸ h) (t.valid x)⟩

/-- Store a record, instead of one with the same key. -/
def put (t : Table) (r : Record) : Except StoreError Table :=
  match h : r.validate with
  | .ok () => .ok (t.insert r h)
  | .error e => .error (.invalidRecord e)

/-- Store records one after the other; the first that does not validate is the error. -/
def ofRecords (rs : List Record) : Except StoreError Table := rs.foldlM put empty

/-- Delete a record by its key, unless the key belongs to another worker by now. -/
def delete (t : Table) (r : Record) : Option Table :=
  (t.getOf? r.key r.worker).map fun _ => t.erase r.key

/-- The records of a space: the stretch that starts where its holder would stand. -/
def space (t : Table) (s : SpaceId) : List Record :=
  (t.records.dropWhile fun r => RecordKey.order r.key (.holderOf s) == .lt).takeWhile
    fun r => r.space == s

/-- The records a worker has in a space. -/
def find (t : Table) (s : SpaceId) (w : WorkerId) : List Record :=
  (t.space s).filter fun r => r.worker == w

/-- The holder record of a space. -/
def holder (t : Table) (s : SpaceId) : Option Record := t.get? (.holderOf s)

/-- The first waiting record of a space. -/
def nextWaiter (t : Table) (s : SpaceId) : Option Record := (t.space s).find? fun r => !r.isHolder

/-- The holder records of all spaces. -/
def holders (t : Table) : List Record := t.records.filter Record.isHolder

/-- The first holder record of a worker. -/
def heldBy (t : Table) (w : WorkerId) : Option Record :=
  t.records.find? fun r => r.isHolder && r.worker == w

/-- What a swap has to be given, before the table is looked at. -/
def checkSwap (new old : Record) : Except StoreError Unit := do
  match new.validate with
  | .error e => throw (.invalidRecord e)
  | .ok () => pure ()
  match old.validate with
  | .error e => throw (.invalidRecord e)
  | .ok () => pure ()
  if !new.isHolder || old.isHolder then
    throw (.transaction (.rejected "swap needs a holder record and a waiting record"))
  if new.space != old.space || new.worker != old.worker then
    throw (.transaction (.rejected "holder and waiting records differ in shared space or worker"))

/-- What stands in the way of a swap in this table. -/
def swapConflict (t : Table) (new old : Record) : Option TransactionError :=
  match t.getOf? old.key old.worker with
  | none => some (.waiterMissing old.key.display)
  | some _ =>
    match t.holder new.space with
    | some h => some (.holderExists h.space h.worker)
    | none =>
      match t.heldBy new.worker with
      | some h => some (.workerHoldsOther h.worker h.space)
      | none => none

/-- Replace a waiting record by a holder record of the same worker in the same space. Every
condition is checked first, so a swap happens in full or not at all. -/
def swap (t : Table) (new old : Record) : Except StoreError Table :=
  match checkSwap new old with
  | .error e => .error e
  | .ok () =>
    match t.swapConflict new old with
    | some e => .error (.transaction e)
    | none => (t.erase old.key).put new

end Table

end Interlock.Store
