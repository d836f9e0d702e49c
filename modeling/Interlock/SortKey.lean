import Interlock.Ident
import Interlock.Priority

/-!
Sort keys order the records of one space: the holder comes first, then the waiters by priority, and
workers with equal priority by their identifiers. The written form keeps the order of the waiters.
Specification, section 3: Data Model.
-/
namespace Interlock

/-- The place of a record in its space. -/
inductive SortKey where
  | holder
  | waiting (priority : Priority) (worker : WorkerId)
  deriving DecidableEq, Repr, Inhabited

namespace SortKey

def isHolder : SortKey → Bool
  | .holder => true
  | .waiting .. => false

/-- The holder before every waiter; waiters by priority, then by worker. -/
def order : SortKey → SortKey → Ordering
  | .holder, .holder => .eq
  | .holder, .waiting .. => .lt
  | .waiting .., .holder => .gt
  | .waiting p v, .waiting q w => (compare p q).then (compare v w)

instance : Ord SortKey := ⟨order⟩

/-- The written form of the holder's key. -/
def holderChars : List Char := ['H', 'O', 'L', 'D', 'E', 'R']

/-- The written form: `HOLDER`, or the token, `#` and the worker. -/
def chars : SortKey → List Char
  | .holder => holderChars
  | .waiting p w => p.tokenChars ++ '#' :: w.text.toList

/-- The written form. -/
def display (k : SortKey) : String := String.ofList k.chars

/-- Read a written key. The first `#` ends the token, and the worker may not be empty. -/
def ofChars? (cs : List Char) : Option SortKey :=
  if cs = holderChars then some .holder
  else
    match cs.span (· != '#') with
    | (token, _ :: worker) =>
      if worker.isEmpty then none
      else (Priority.ofTokenChars? token).map fun p => .waiting p ⟨String.ofList worker⟩
    | (_, []) => none

/-- Read a written key. -/
def ofText? (s : String) : Option SortKey := ofChars? s.toList

end SortKey

/-- The key of a record in the table of all spaces. -/
structure RecordKey where
  space : SpaceId
  sortKey : SortKey
  deriving DecidableEq, Repr, Inhabited

namespace RecordKey

/-- By space, then by sort key. -/
def order (a b : RecordKey) : Ordering :=
  (compare a.space b.space).then (compare a.sortKey b.sortKey)

instance : Ord RecordKey := ⟨order⟩

/-- The key of the holder of a space: the least key of that space. -/
def holderOf (s : SpaceId) : RecordKey := ⟨s, .holder⟩

/-- The written form: the space, a slash and the written sort key. -/
def display (k : RecordKey) : String := k.space.text ++ "/" ++ k.sortKey.display

end RecordKey

/-! The orders of keys are linear. -/

theorem SortKey.order_swap (a b : SortKey) : order a b = (order b a).swap := by
  cases a <;> cases b <;> simp only [order, Ordering.swap_eq, Ordering.swap_lt, Ordering.swap_gt]
  rw [Ordering.swap_then]
  congr 1 <;> exact Std.OrientedCmp.eq_swap

/-- The waiters of a space, compared by priority and then by worker. -/
def SortKey.waiterOrder : Priority × WorkerId → Priority × WorkerId → Ordering :=
  compareLex (compareOn Prod.fst) (compareOn Prod.snd)

instance : Std.TransCmp SortKey.waiterOrder :=
  inferInstanceAs (Std.TransCmp (compareLex (compareOn (Prod.fst : Priority × WorkerId → Priority))
    (compareOn Prod.snd)))

theorem SortKey.order_isLE_trans {a b c : SortKey} (hab : (order a b).isLE = true)
    (hbc : (order b c).isLE = true) : (order a c).isLE = true := by
  cases a with
  | holder => cases c <;> rfl
  | waiting p u =>
    cases b with
    | holder => cases hab
    | waiting q v =>
      cases c with
      | holder => cases hbc
      | waiting r w =>
        have hab : (SortKey.waiterOrder (p, u) (q, v)).isLE = true := hab
        have hbc : (SortKey.waiterOrder (q, v) (r, w)).isLE = true := hbc
        have hac : (SortKey.waiterOrder (p, u) (r, w)).isLE = true :=
          Std.TransCmp.isLE_trans hab hbc
        exact hac

instance : Std.TransCmp SortKey.order where
  eq_swap := SortKey.order_swap _ _
  isLE_trans := SortKey.order_isLE_trans

instance : Std.LawfulEqCmp SortKey.order where
  eq_of_compare {a b} h := by
    cases a <;> cases b <;>
      simp only [SortKey.order, reduceCtorEq, Ordering.then_eq_eq] at h
    · rfl
    · rw [Std.LawfulEqOrd.eq_of_compare h.1, Std.LawfulEqOrd.eq_of_compare h.2]

instance : Std.TransOrd SortKey := inferInstanceAs (Std.TransCmp SortKey.order)

instance : Std.LawfulEqOrd SortKey := inferInstanceAs (Std.LawfulEqCmp SortKey.order)

instance : Std.TransCmp RecordKey.order :=
  inferInstanceAs
    (Std.TransCmp (compareLex (compareOn RecordKey.space) (compareOn RecordKey.sortKey)))

instance : Std.TransOrd RecordKey := inferInstanceAs (Std.TransCmp RecordKey.order)

instance : Std.LawfulEqCmp RecordKey.order where
  eq_of_compare {a b} h := by
    simp only [RecordKey.order, Ordering.then_eq_eq] at h
    cases a; cases b
    simp only [RecordKey.mk.injEq]
    exact ⟨Std.LawfulEqOrd.eq_of_compare h.1, Std.LawfulEqOrd.eq_of_compare h.2⟩

instance : Std.LawfulEqOrd RecordKey := inferInstanceAs (Std.LawfulEqCmp RecordKey.order)

end Interlock
