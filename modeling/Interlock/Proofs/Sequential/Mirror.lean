import Interlock.Proofs.Sequential.Sound
import Interlock.Proofs.Store.Stretch

/-!
A table that mirrors locks and queues: of each space it has exactly the records of the lock and of
the waiters. As the queues stand in the order of their priorities, the table cannot but list them
the same way, so that everything that is read from it is what locks and queues say.
-/
namespace Interlock.Sequential

open Store

namespace Entry

/-- A lower priority stands further in front. -/
theorem order_waits {a b : Entry} (lt : a.priority.value < b.priority.value) (s : SpaceId) :
    RecordKey.order (a.waits s).key (b.waits s).key = .lt := by
  have priorities : compare a.priority b.priority = .lt := if_pos lt
  change (compare s s).then ((compare a.priority b.priority).then (compare a.worker b.worker)) = .lt
  rw [Std.ReflOrd.compare_self, priorities]
  rfl

/-- The lock stands in front of the queue. -/
theorem order_holds_waits (a b : Entry) (s : SpaceId) :
    RecordKey.order (a.holds s).key (b.waits s).key = .lt := by
  change (compare s s).then .lt = .lt
  rw [Std.ReflOrd.compare_self]
  rfl

theorem order_holds (a b : Entry) {r s : SpaceId} (lt : compare r s = .lt) :
    RecordKey.order (a.holds r).key (b.holds s).key = .lt := by
  change (compare r s).then .eq = .lt
  rw [lt]
  rfl

end Entry

namespace Fifo

variable {m : Fifo} {last : UInt64} {s : SpaceId}

theorem space_of_mem_row {r : Record} (listed : r ∈ m.row s) : r.space = s := by
  simp only [row, List.mem_append, Option.mem_toList, Option.map_eq_some_iff,
    List.mem_map] at listed
  rcases listed with ⟨e, -, rfl⟩ | ⟨e, -, rfl⟩ <;> rfl

theorem Sound.increasing_row (sound : Sound last m) (s : SpaceId) : Increasing (m.row s) := by
  refine List.pairwise_append.2 ⟨?_, ?_, ?_⟩
  · cases m.holder? s with
    | none => exact List.Pairwise.nil
    | some e => exact List.pairwise_singleton _ _
  · exact List.pairwise_map.2 ((sound.queues s).rising.imp fun h => Entry.order_waits h.1 s)
  · intro a ha b hb
    simp only [Option.mem_toList, Option.map_eq_some_iff, List.mem_map] at ha hb
    obtain ⟨e, -, rfl⟩ := ha
    obtain ⟨f, -, rfl⟩ := hb
    exact Entry.order_holds_waits e f s

end Fifo

/-- The table has the records of the row of each space, and no other. -/
def Mirrors (t : Table) (m : Fifo) : Prop := ∀ r, r ∈ t.records ↔ r ∈ m.row r.space

namespace Mirrors

variable {t t' : Table} {m : Fifo} {last : UInt64} {s : SpaceId} {w : WorkerId} {e : Entry}

/-! Reading. -/

theorem space_eq (mirrors : Mirrors t m) (sound : m.Sound last) (s : SpaceId) :
    t.space s = m.row s := by
  refine eq_of_mem_iff_of_pairwise_lt RecordKey.order Record.key (t.increasing_space s)
    (sound.increasing_row s) fun r => ?_
  rw [Table.mem_space, mirrors r]
  constructor
  · rintro ⟨listed, rfl⟩
    exact listed
  · intro listed
    obtain rfl := Fifo.space_of_mem_row listed
    exact ⟨listed, rfl⟩

theorem mem_iff (mirrors : Mirrors t m) (sound : m.Sound last) {r : Record} :
    r ∈ t.records ↔
      (∃ e, (r.space, e) ∈ m.locks ∧ r = e.holds r.space) ∨
        ∃ e ∈ m.waiting r.space, r = e.waits r.space := by
  rw [mirrors r, sound.mem_row]

theorem mem_holds (mirrors : Mirrors t m) (sound : m.Sound last) (locked : (s, e) ∈ m.locks) :
    e.holds s ∈ t.records := (mirrors.mem_iff sound).2 (.inl ⟨e, locked, rfl⟩)

theorem mem_waits (mirrors : Mirrors t m) (sound : m.Sound last) (queued : e ∈ m.waiting s) :
    e.waits s ∈ t.records := (mirrors.mem_iff sound).2 (.inr ⟨e, queued, rfl⟩)

theorem mem_holders_iff (mirrors : Mirrors t m) (sound : m.Sound last) {r : Record} :
    r ∈ t.holders ↔ ∃ e, (r.space, e) ∈ m.locks ∧ r = e.holds r.space := by
  rw [Table.mem_holders, mirrors.mem_iff sound]
  constructor
  · rintro ⟨locked | ⟨e, -, eq⟩, holds⟩
    · exact locked
    · rw [eq, Entry.waits_isHolder] at holds
      cases holds
  · rintro ⟨e, locked, eq⟩
    exact ⟨.inl ⟨e, locked, eq⟩, by rw [eq, Entry.holds_isHolder]⟩

theorem holders_eq (mirrors : Mirrors t m) (sound : m.Sound last) :
    t.holders = m.locks.map fun l => l.2.holds l.1 := by
  refine eq_of_mem_iff_of_pairwise_lt RecordKey.order Record.key
    (List.Pairwise.filter _ t.increasing)
    (List.pairwise_map.2 (sound.sorted.imp fun lt => Entry.order_holds _ _ lt)) fun r => ?_
  rw [mirrors.mem_holders_iff sound, List.mem_map]
  constructor
  · rintro ⟨e, locked, eq⟩
    exact ⟨(r.space, e), locked, eq.symm⟩
  · rintro ⟨l, locked, rfl⟩
    exact ⟨l.2, locked, rfl⟩

theorem holder_eq (mirrors : Mirrors t m) (sound : m.Sound last) (s : SpaceId) :
    t.holder s = (m.holder? s).map fun e => e.holds s := by
  refine Option.ext fun r => ?_
  rw [Table.holder_eq_some_iff, ← and_assoc, ← Table.mem_holders, mirrors.mem_holders_iff sound]
  simp only [Option.map_eq_some_iff, sound.holder?_eq_some_iff]
  constructor
  · rintro ⟨⟨e, locked, eq⟩, rfl⟩
    exact ⟨e, locked, eq.symm⟩
  · rintro ⟨e, locked, rfl⟩
    exact ⟨⟨e, locked, rfl⟩, rfl⟩

theorem nextWaiter_eq (mirrors : Mirrors t m) (sound : m.Sound last) (s : SpaceId) :
    t.nextWaiter s = (m.waiting s).head?.map fun e => e.waits s := by
  rw [Table.nextWaiter, mirrors.space_eq sound, Fifo.row]
  cases m.holder? s <;> cases m.waiting s <;> simp

/-- A worker has records in a space exactly if it holds it or waits for it. -/
theorem find_eq_nil_iff (mirrors : Mirrors t m) (sound : m.Sound last) :
    t.find s w = [] ↔ m.holdsIt w s = false ∧ m.waitsFor w s = false := by
  rw [Table.find_eq_nil_iff, ← Bool.not_eq_true, ← Bool.not_eq_true, sound.holdsIt_eq_true_iff,
    Fifo.waitsFor_eq_true_iff]
  constructor
  · intro nowhere
    refine ⟨?_, ?_⟩
    · rintro ⟨e, locked, own⟩
      exact nowhere (e.holds s) (mirrors.mem_holds sound locked) rfl own
    · rintro ⟨e, queued, own⟩
      exact nowhere (e.waits s) (mirrors.mem_waits sound queued) rfl own
  · rintro ⟨held, queued⟩ r stored rfl own
    rcases (mirrors.mem_iff sound).1 stored with ⟨e, locked, eq⟩ | ⟨e, waits, eq⟩
    · exact held ⟨e, locked, (congrArg Record.worker eq).symm.trans own⟩
    · exact queued ⟨e, waits, (congrArg Record.worker eq).symm.trans own⟩

/-- One of the records a worker has in a space is the holder record exactly if it holds it. -/
theorem any_find_eq (mirrors : Mirrors t m) (sound : m.Sound last) :
    (t.find s w).any Record.isHolder = m.holdsIt w s := by
  rw [Bool.eq_iff_iff, List.any_eq_true, sound.holdsIt_eq_true_iff]
  constructor
  · rintro ⟨r, found, holds⟩
    obtain ⟨stored, rfl, own⟩ := Table.mem_find.1 found
    obtain ⟨e, locked, eq⟩ :=
      (mirrors.mem_holders_iff sound).1 (Table.mem_holders.2 ⟨stored, holds⟩)
    exact ⟨e, locked, (congrArg Record.worker eq).symm.trans own⟩
  · rintro ⟨e, locked, own⟩
    exact ⟨e.holds s, Table.mem_find.2 ⟨mirrors.mem_holds sound locked, rfl, own⟩, rfl⟩

/-- The spaces a worker holds are the one it locks, if any. -/
theorem held_eq (mirrors : Mirrors t m) (sound : m.Sound last) (w : WorkerId) :
    (t.holders.filter fun r => r.worker == w).map Record.space = (m.lockOf? w).toList := by
  have sorted := List.Pairwise.filter (fun l : SpaceId × Entry => l.2.worker == w) sound.sorted
  have owned : ∀ l ∈ m.locks.filter fun l => l.2.worker == w, l ∈ m.locks ∧ l.2.worker = w := by
    simp
  rw [mirrors.holders_eq sound, List.filter_map, List.map_map, Fifo.lockOf?,
    ← List.head?_filter]
  change (m.locks.filter fun l => l.2.worker == w).map Prod.fst = _
  cases locked : m.locks.filter fun l => l.2.worker == w with
  | nil => rfl
  | cons a rest =>
    rw [locked] at sorted owned
    obtain ⟨above, -⟩ := List.pairwise_cons.1 sorted
    obtain ⟨ha, own⟩ := owned a List.mem_cons_self
    have alone : rest = [] := by
      refine List.eq_nil_iff_forall_not_mem.2 fun b hb => ?_
      obtain ⟨hb', own'⟩ := owned b (List.mem_cons_of_mem _ hb)
      have lt := above b hb
      rw [sound.single a ha b hb' (own.trans own'.symm),
        Std.ReflOrd.compare_self] at lt
      cases lt
    rw [alone]
    rfl

/-! Changing. -/

/-- A record that is added is the one of who joins. -/
theorem join (mirrors : Mirrors t m) (sound : m.Sound last)
    (valid : (e.waits s).validate = .ok ()) (held : m.holdsIt e.worker s = false)
    (queued : m.waitsFor e.worker s = false) :
    Mirrors (t.insert (e.waits s) valid) (m.join s e) := by
  have absent := Table.find_eq_nil_iff.1 ((mirrors.find_eq_nil_iff sound).2 ⟨held, queued⟩)
  have other : ∀ x ∈ t.records, x.key ≠ (e.waits s).key := fun x stored same =>
    absent x stored (congrArg RecordKey.space same)
      (Table.worker_eq_of_waiting_key stored valid rfl same)
  intro r
  rw [Table.mem_insert, Fifo.row_join]
  constructor
  · rintro (rfl | ⟨stored, -⟩)
    · rw [Entry.waits_space, if_pos rfl]
      exact List.mem_append_right _ (List.mem_singleton.2 rfl)
    · have listed := (mirrors r).1 stored
      split
      · next here => exact List.mem_append_left _ (here ▸ listed)
      · exact listed
  · intro listed
    split at listed
    · next here =>
      rcases List.mem_append.1 listed with listed | listed
      · have stored := (mirrors r).2 (here ▸ listed)
        exact .inr ⟨stored, other r stored⟩
      · exact .inl (List.mem_singleton.1 listed)
    · have stored := (mirrors r).2 listed
      exact .inr ⟨stored, other r stored⟩

/-- A record is added exactly if its worker neither holds the space nor waits for it. -/
theorem addIfAbsent_eq (mirrors : Mirrors t m) (sound : m.Sound last)
    (valid : (e.waits s).validate = .ok ()) :
    (Call.addIfAbsent (e.waits s)).apply t =
      if m.holdsIt e.worker s || m.waitsFor e.worker s then (.ok false, t)
      else (.ok true, t.insert (e.waits s) valid) := by
  have stored : t.put (e.waits s) = .ok (t.insert (e.waits s) valid) :=
    Table.put_eq_ok_iff.2 ⟨valid, rfl⟩
  have absent : (t.find s e.worker).isEmpty =
      !(m.holdsIt e.worker s || m.waitsFor e.worker s) := by
    rw [Bool.eq_iff_iff, List.isEmpty_iff, mirrors.find_eq_nil_iff sound]
    simp
  simp only [Call.apply, valid, Entry.waits_space, Entry.waits_worker, stored, absent]
  cases m.holdsIt e.worker s || m.waitsFor e.worker s <;> rfl

/-- The swap of the head of a free space goes through. -/
theorem swappable (mirrors : Mirrors t m) (sound : m.Sound last) (queued : e ∈ m.waiting s)
    (free : m.holder? s = none) (idle : m.lockOf? e.worker = none) :
    t.Swappable (e.holds s) (e.waits s) := by
  have stored := mirrors.mem_waits sound queued
  refine ⟨Record.toHolder_valid (t.valid _ stored), t.valid _ stored, rfl, rfl, rfl, rfl,
    ⟨_, stored, rfl⟩, ?_, ?_⟩
  · rw [Entry.holds_space, mirrors.holder_eq sound, free, Option.map_none]
  · refine Table.heldBy_eq_none_iff.2 fun r hr holds own => ?_
    obtain ⟨f, locked, eq⟩ := (mirrors.mem_holders_iff sound).1 (Table.mem_holders.2 ⟨hr, holds⟩)
    exact Fifo.lockOf?_eq_none_iff.1 idle _ locked ((congrArg Record.worker eq).symm.trans own)

/-- The swap of the head of a free space is a grant. -/
theorem grant (mirrors : Mirrors t m) (sound : m.Sound last) {rest : List Entry}
    (head : m.waiting s = e :: rest) (free : m.holder? s = none) (idle : m.lockOf? e.worker = none)
    (swapped : t.swap (e.holds s) (e.waits s) = .ok t') : Mirrors t' (m.grant s) := by
  intro r
  rw [Table.mem_swap swapped, mirrors.mem_iff sound, (sound.grant head free idle).mem_row,
    Fifo.locks_grant head]
  constructor
  · rintro (rfl | ⟨⟨f, locked, eq⟩ | ⟨f, queued, eq⟩, other⟩)
    · exact .inl ⟨e, mem_insertLock.2 (.inl rfl), rfl⟩
    · exact .inl ⟨f, mem_insertLock.2 (.inr locked), eq⟩
    · refine .inr ⟨f, (sound.mem_waiting_grant head).2 ⟨queued, ?_⟩, eq⟩
      rintro ⟨rfl, rfl⟩
      exact other (congrArg Record.key eq)
  · rintro (⟨f, locked, eq⟩ | ⟨f, queued, eq⟩)
    · rcases mem_insertLock.1 locked with here | locked
      · obtain ⟨rfl, rfl⟩ := Prod.mk.inj here
        exact .inl eq
      · refine .inr ⟨.inl ⟨f, locked, eq⟩, fun same => ?_⟩
        have holds := Record.isHolder_eq_of_key same
        rw [eq] at holds
        cases holds
    · obtain ⟨queued, behind⟩ := (sound.mem_waiting_grant head).1 queued
      refine .inr ⟨.inr ⟨f, queued, eq⟩, fun same => behind ?_⟩
      have stored := (mirrors.mem_iff sound).2 (.inr ⟨f, queued, eq⟩)
      have first := mirrors.mem_waits sound (head ▸ List.mem_cons_self : e ∈ m.waiting s)
      exact Entry.waits_inj.1 (eq.symm.trans (t.eq_of_key stored first same))

/-- Without the records of a worker in a space the table is that of who is left. -/
theorem leave (mirrors : Mirrors t m) (sound : m.Sound last)
    (left : ∀ r, r ∈ t'.records ↔ r ∈ t.records ∧ ¬ (r.space = s ∧ r.worker = w)) :
    Mirrors t' (m.leave w s) := by
  intro r
  rw [left, mirrors.mem_iff sound, sound.leave.mem_row]
  constructor
  · rintro ⟨⟨e, locked, eq⟩ | ⟨e, queued, eq⟩, stays⟩
    all_goals have own := congrArg Record.worker eq
    · refine .inl ⟨e, Fifo.mem_locks_leave.2 ⟨locked, fun gone => stays ?_⟩, eq⟩
      exact ⟨gone.1, own.trans gone.2⟩
    · refine .inr ⟨e, Fifo.mem_waiting_leave.2 ⟨queued, fun gone => stays ?_⟩, eq⟩
      exact ⟨gone.1, own.trans gone.2⟩
  · rintro (⟨e, locked, eq⟩ | ⟨e, queued, eq⟩)
    all_goals have own := congrArg Record.worker eq
    · obtain ⟨locked, stays⟩ := Fifo.mem_locks_leave.1 locked
      exact ⟨.inl ⟨e, locked, eq⟩, fun gone => stays ⟨gone.1, own.symm.trans gone.2⟩⟩
    · obtain ⟨queued, stays⟩ := Fifo.mem_waiting_leave.1 queued
      exact ⟨.inr ⟨e, queued, eq⟩, fun gone => stays ⟨gone.1, own.symm.trans gone.2⟩⟩

end Mirrors

end Interlock.Sequential
