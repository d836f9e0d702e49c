import Interlock.Proofs.Store.Enrolled
import Interlock.Proofs.Store.Holders
import Interlock.Proofs.Store.Written

/-!
Tables with at most one record of each worker in each space. An addition that looks for records
first keeps a table so, and so do deletions and swaps, which need not know what is in the table by
now; a plain addition does not. All this is about tables that can be written and read again, so the
times of their records have to be in the calendar.
-/
namespace Interlock.Store

/-- Each worker has at most one record in each space, and every time in the table can be written. -/
structure Table.OneEach (t : Table) : Prop where
  one : ∀ a ∈ t.records, ∀ b ∈ t.records, a.space = b.space → a.worker = b.worker → a = b
  written : ∀ r ∈ t.records, r.enqueuedAt.Representable

namespace Call

/-- A call that looks for records of a worker before it adds one, and stores no time that cannot be
written. -/
def Orderly : Call → Prop
  | .add _ => False
  | .addIfAbsent r | .swap r _ => r.enqueuedAt.Representable
  | _ => True

/-- The records that a call has answered. -/
def listed : (c : Call) → c.Value → List Record
  | .find .., rs | .list _, rs | .lockHolders, rs => rs
  | .nextWaiter _, r? | .lockHolder _, r? => r?.toList
  | .add _, _ | .addIfAbsent _, _ | .delete _, _ | .swap .., _ => []

/-- Only stored records are answered. -/
theorem mem_of_mem_listed {c : Call} {t : Table} {v : c.Value} (answer : (c.apply t).1 = .ok v)
    {r : Record} (mine : r ∈ c.listed v) : r ∈ t.records := by
  cases c with
  | find s w =>
    cases answer
    exact (Table.mem_find.1 mine).1
  | list s =>
    cases answer
    exact (Table.mem_space.1 mine).1
  | nextWaiter s =>
    cases answer
    exact (Table.mem_of_nextWaiter (Option.mem_toList.1 mine)).1
  | lockHolder s =>
    cases answer
    exact (Table.holder_eq_some_iff.1 (Option.mem_toList.1 mine)).1
  | lockHolders =>
    cases answer
    exact (Table.mem_holders.1 mine).1
  | _ => cases mine

end Call

namespace Table.OneEach

variable {t : Table}

theorem empty : Table.empty.OneEach where
  one := Single.empty
  written _ there := nomatch there

/-- An orderly call keeps the table so. -/
theorem apply {c : Call} (oneEach : t.OneEach) (orderly : c.Orderly) :
    (c.apply t).2.OneEach where
  one := by
    refine Table.Single.apply oneEach.one ?_
    rintro r rfl
    exact orderly
  written r there := by
    rcases Call.mem_of_mem_apply there with stored | (rfl | rfl) | ⟨holds, granted⟩
    · exact oneEach.written r stored
    · exact orderly.elim
    · exact orderly
    · obtain ⟨new, old, rfl, -, -, -, holders⟩ := Call.of_mark?_granted granted
      rcases (holders r).1 (Table.mem_holders.2 ⟨there, holds⟩) with rfl | before
      · exact orderly
      · exact oneEach.written r (Table.mem_holders.1 before).1

end Table.OneEach

/-- The content of a document is read, whatever its path, and makes such a table. -/
def Document.OneEach (d : Option Bytes) : Prop :=
  ∃ t : Table, t.OneEach ∧ ∀ path, Document.tableOf path d = .ok t

/-- Where there is no document there are no records. -/
theorem Document.OneEach.none : Document.OneEach none := ⟨.empty, .empty, fun _ => rfl⟩

end Interlock.Store
