import Interlock.Text.Blank

/-!
Identifiers of shared spaces and of workers. Any text may be one; the blank ones are refused where
records are made. Both are ordered by code points. Specification, section 3: Data Model.
-/
namespace Interlock

/-- A shared space, such as a dock or a corridor, that at most one worker may hold. -/
structure SpaceId where
  text : String
  deriving DecidableEq, Repr, Inhabited

/-- A worker, usually a robot, that queues for shared spaces. -/
structure WorkerId where
  text : String
  deriving DecidableEq, Repr, Inhabited

instance : Ord SpaceId := ⟨compareOn SpaceId.text⟩

instance : Ord WorkerId := ⟨compareOn WorkerId.text⟩

instance : Std.TransOrd SpaceId := inferInstanceAs (Std.TransCmp (compareOn SpaceId.text))

instance : Std.TransOrd WorkerId := inferInstanceAs (Std.TransCmp (compareOn WorkerId.text))

instance : Std.LawfulEqOrd SpaceId where
  eq_of_compare {a b} h := by
    cases a; cases b
    exact congrArg _ (Std.LawfulEqOrd.eq_of_compare (α := String) h)

instance : Std.LawfulEqOrd WorkerId where
  eq_of_compare {a b} h := by
    cases a; cases b
    exact congrArg _ (Std.LawfulEqOrd.eq_of_compare (α := String) h)

/-- A blank identifier names nothing. -/
def SpaceId.isBlank (s : SpaceId) : Bool := Text.blank s.text

/-- A blank identifier names nobody. -/
def WorkerId.isBlank (w : WorkerId) : Bool := Text.blank w.text

end Interlock
