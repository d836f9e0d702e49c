import Interlock.Proofs.Store.Holders

/-!
Who holds which spaces. The spaces of a worker are read off the list of all holders, which stands in
the order of the spaces: the first of them that is not a given space is the least other one. A swap
for the first waiter of a free space happens whenever that worker holds no other space. It exchanges
one record and gives one space to one worker, and nobody else's spaces change.
-/
namespace Interlock.Store.Table

def Holds (t : Table) (w : WorkerId) (s : SpaceId) : Prop :=
  ∃ r, t.holder s = some r ∧ r.worker = w

/-- The least of the spaces that a worker holds besides a given one. -/
structure LeastOther (t : Table) (w : WorkerId) (s other : SpaceId) : Prop where
  held : t.Holds w other
  ne : other ≠ s
  least : ∀ p, t.Holds w p → p ≠ s → (compare other p).isLE = true

def spacesOf (t : Table) (w : WorkerId) : List SpaceId :=
  (t.holders.filter fun r => r.worker == w).map Record.space

variable {t t' : Table} {w : WorkerId} {s other : SpaceId} {r : Record}

theorem holds_iff : t.Holds w s ↔ ∃ r ∈ t.holders, r.space = s ∧ r.worker = w := by
  simp only [Holds, holder_eq_some_iff, mem_holders, and_assoc]

theorem mem_spacesOf : s ∈ t.spacesOf w ↔ t.Holds w s := by
  simp only [spacesOf, List.mem_map, List.mem_filter, beq_iff_eq, holds_iff]
  constructor
  · rintro ⟨r, ⟨held, own⟩, space⟩
    exact ⟨r, held, space, own⟩
  · rintro ⟨r, held, space, own⟩
    exact ⟨r, ⟨held, own⟩, space⟩

/-- Holder records stand in the order of their spaces. -/
theorem compare_space_of_holders {a b : Record} (ha : a.isHolder = true) (hb : b.isHolder = true)
    (lt : RecordKey.order a.key b.key = .lt) : compare a.space b.space = .lt := by
  rw [Record.isHolder_iff] at ha hb
  simpa [RecordKey.order, Record.key, ha, hb, Std.ReflOrd.compare_self] using lt

theorem pairwise_spacesOf (t : Table) (w : WorkerId) :
    (t.spacesOf w).Pairwise fun a b => compare a b = .lt := by
  rw [spacesOf, List.pairwise_map]
  have holders : ((t.holders).filter fun r => r.worker == w).Pairwise
      fun a b => RecordKey.order a.key b.key = .lt :=
    (List.Pairwise.filter _ t.increasing).filter _
  refine holders.imp_of_mem fun {a b} ha hb lt => ?_
  exact compare_space_of_holders (mem_holders.1 (List.mem_filter.1 ha).1).2
    (mem_holders.1 (List.mem_filter.1 hb).1).2 lt

theorem find?_spacesOf_eq_none_iff :
    (t.spacesOf w).find? (· != s) = none ↔ ∀ q, t.Holds w q → q = s := by
  simp [List.find?_eq_none, mem_spacesOf]

/-- The first other space that the list of the holders shows is the least one. -/
theorem leastOther_of_find? (found : (t.spacesOf w).find? (· != s) = some other) :
    t.LeastOther w s other := by
  obtain ⟨ne, front, back, listed, passed⟩ := List.find?_eq_some_iff_append.1 found
  have sorted := t.pairwise_spacesOf w
  have held : t.Holds w other := mem_spacesOf.1 (List.mem_of_find?_eq_some found)
  rw [listed] at sorted
  refine ⟨held, by simpa using ne, fun p holds differs => ?_⟩
  have place : p ∈ front ++ other :: back := listed ▸ mem_spacesOf.2 holds
  rcases List.mem_append.1 place with before | here
  · exact absurd (passed p before) (by simpa using differs)
  · rcases List.mem_cons.1 here with rfl | behind
    · simp [Std.ReflOrd.compare_self]
    · simp [(List.pairwise_cons.1 (List.pairwise_append.1 sorted).2.1).1 p behind]

/-- There is only one least other space. -/
theorem LeastOther.unique {other' : SpaceId} (least : t.LeastOther w s other)
    (least' : t.LeastOther w s other') : other = other' :=
  Std.LawfulEqOrd.eq_of_compare
    (Std.OrientedCmp.isLE_antisymm (least.least other' least'.held least'.ne)
      (least'.least other least.held least.ne))

theorem find?_spacesOf_eq_some_iff :
    (t.spacesOf w).find? (· != s) = some other ↔ t.LeastOther w s other := by
  constructor
  · exact leastOther_of_find?
  · intro least
    cases found : (t.spacesOf w).find? (· != s) with
    | none => exact absurd (find?_spacesOf_eq_none_iff.1 found other least.held) least.ne
    | some q =>
      rw [(leastOther_of_find? found).unique least]

/-- What a worker holds besides a space depends on nothing but what it holds. -/
theorem find?_spacesOf_congr (same : ∀ q, t'.Holds w q ↔ t.Holds w q) :
    (t'.spacesOf w).find? (· != s) = (t.spacesOf w).find? (· != s) := by
  refine Option.ext fun other => ?_
  rw [find?_spacesOf_eq_some_iff, find?_spacesOf_eq_some_iff]
  constructor
  · intro least
    exact ⟨(same other).1 least.held, least.ne, fun p held => least.least p ((same p).2 held)⟩
  · intro least
    exact ⟨(same other).2 least.held, least.ne, fun p held => least.least p ((same p).1 held)⟩

/-! The first waiter, and a swap for it. -/

theorem FirstWaiter.unique {r' : Record} (first : t.FirstWaiter s r)
    (first' : t.FirstWaiter s r') : r = r' :=
  Option.some.inj ((nextWaiter_eq_some_iff.2 first).symm.trans (nextWaiter_eq_some_iff.2 first'))

theorem FirstWaiter.congr (first : t.FirstWaiter s r)
    (same : ∀ q, q.isHolder = false → q.space = s → (q ∈ t'.records ↔ q ∈ t.records)) :
    t'.FirstWaiter s r where
  stored := (same r first.waits first.space).2 first.stored
  space := first.space
  waits := first.waits
  least q stored space waits := first.least q ((same q waits space).1 stored) space waits

/-- The next waiter depends on the waiting records of the space only. -/
theorem nextWaiter_congr
    (same : ∀ r, r.isHolder = false → r.space = s → (r ∈ t'.records ↔ r ∈ t.records)) :
    t'.nextWaiter s = t.nextWaiter s := by
  refine Option.ext fun r => ?_
  rw [nextWaiter_eq_some_iff, nextWaiter_eq_some_iff]
  exact ⟨fun first => first.congr fun q waits space => (same q waits space).symm,
    fun first => first.congr same⟩

/-- The space is free, and its first waiter holds no other one. -/
structure Grantable (t : Table) (s : SpaceId) (r : Record) : Prop where
  free : t.holder s = none
  first : t.FirstWaiter s r
  idle : ∀ q, t.Holds r.worker q → q = s

theorem Grantable.not_holds (grantable : t.Grantable s r) (q : SpaceId) : ¬t.Holds r.worker q := by
  intro holds
  obtain rfl := grantable.idle q holds
  obtain ⟨h, held, -⟩ := holds
  simp [grantable.free] at held

/-- Nothing stands in the way of a swap for the first waiter. -/
theorem Grantable.swappable (grantable : t.Grantable s r) : t.Swappable r.toHolder r where
  new_valid := Record.toHolder_valid (t.valid r grantable.first.stored)
  old_valid := t.valid r grantable.first.stored
  holds := rfl
  waits := grantable.first.waits
  same_space := rfl
  same_worker := rfl
  stored := ⟨r, grantable.first.stored, rfl⟩
  free := grantable.first.space ▸ grantable.free
  idle := by
    refine heldBy_eq_none_iff.2 fun h stored holds own => ?_
    have held : t.Holds r.worker h.space := holds_iff.2 ⟨h, mem_holders.2 ⟨stored, holds⟩, rfl, own⟩
    exact holder_eq_none_iff.1 grantable.free h stored holds (grantable.idle h.space held)

theorem Grantable.exists_swap (grantable : t.Grantable s r) : ∃ t', t.swap r.toHolder r = .ok t' :=
  ⟨_, swap_eq_ok_iff.2 ⟨grantable.swappable, rfl⟩⟩

/-- Promoting a waiter exchanges its record for a holder record, and nothing else. -/
theorem mem_promoted (stored : r ∈ t.records) (swapped : t.swap r.toHolder r = .ok t')
    {x : Record} : x ∈ t'.records ↔ x = r.toHolder ∨ (x ∈ t.records ∧ x ≠ r) := by
  rw [mem_swap swapped]
  refine or_congr_right (and_congr_right fun there => not_congr ⟨fun same => ?_, congrArg _⟩)
  exact t.eq_of_key there stored same

/-- Promoting a waiter gives it its space and leaves everybody's other spaces. -/
theorem holds_of_swap {new old : Record} (swapped : t.swap new old = .ok t') :
    t'.Holds w s ↔ (new.worker = w ∧ new.space = s) ∨ t.Holds w s := by
  obtain ⟨may, -⟩ := swap_eq_ok_iff.1 swapped
  by_cases here : s = new.space
  · subst here
    simp [Holds, holder_of_swap swapped, may.free]
  · simp [Holds, holder_of_swap_ne swapped here, Ne.symm here]

end Interlock.Store.Table
