import Interlock.Store.Table
import Interlock.Trace

/-!
The nine calls of a record store and their meaning on a table. A call happens at once: it answers
and leaves a table, and whoever interleaves several does so between calls. Specification, section
4.1: Lock Record Store.
-/
namespace Interlock.Store

/-- A call of a record store. -/
inductive Call where
  | add (r : Record)
  /-- Add a record unless its worker has one in its space already. -/
  | addIfAbsent (r : Record)
  | delete (r : Record)
  | find (s : SpaceId) (w : WorkerId)
  | list (s : SpaceId)
  | nextWaiter (s : SpaceId)
  | lockHolder (s : SpaceId)
  | lockHolders
  /-- Replace the second record, which waits, by the first, which holds. -/
  | swap (new old : Record)
  deriving DecidableEq, Repr

namespace Call

/-- What a call gives back when it succeeds. -/
@[reducible]
def Value : Call → Type
  | .add _ | .delete _ | .swap .. => Unit
  | .addIfAbsent _ => Bool
  | .find .. | .list _ | .lockHolders => List Record
  | .nextWaiter _ | .lockHolder _ => Option Record

/-- What a call gives back. -/
abbrev Answer (c : Call) : Type := Except StoreError c.Value

/-- The table after a change, and whether it happened; a failed change leaves the table. -/
def settle {α : Type} (t : Table) (a : α) : Except StoreError Table → Except StoreError α × Table
  | .ok t' => (.ok a, t')
  | .error e => (.error e, t)

/-- The meaning of a call on a table. -/
def apply : (c : Call) → Table → c.Answer × Table
  | .add r, t => settle t () (t.put r)
  | .addIfAbsent r, t =>
    match r.validate with
    | .error e => (.error (.invalidRecord e), t)
    | .ok () =>
      if (t.find r.space r.worker).isEmpty then settle t true (t.put r) else (.ok false, t)
  | .delete r, t => (.ok (), (t.delete r).getD t)
  | .find s w, t => (.ok (t.find s w), t)
  | .list s, t => (.ok (t.space s), t)
  | .nextWaiter s, t => (.ok (t.nextWaiter s), t)
  | .lockHolder s, t => (.ok (t.holder s), t)
  | .lockHolders, t => (.ok t.holders, t)
  | .swap new old, t => settle t () (t.swap new old)

/-- The answer of a call that fails. -/
def fail (c : Call) (e : StoreError) : c.Answer := .error e

/-- Whether a call may change the table. -/
def writes : Call → Bool
  | .add _ | .addIfAbsent _ | .delete _ | .swap .. => true
  | _ => false

/-- The check a call makes on its record before it goes near the stored document. -/
def precheck : Call → Except StoreError Unit
  | .add r | .addIfAbsent r =>
    match r.validate with
    | .ok () => .ok ()
    | .error e => .error (.invalidRecord e)
  | _ => .ok ()

/-- Whether the table has to be written back after a call that answered so. A delete that found
nothing and an addition that found a record leave the document alone. -/
def changes : (c : Call) → Table → c.Answer → Bool
  | .add _, _, .ok _ => true
  | .addIfAbsent _, _, .ok added => added
  | .delete r, t, .ok _ => (t.delete r).isSome
  | .swap .., _, .ok _ => true
  | _, _, _ => false

end Call

end Interlock.Store
