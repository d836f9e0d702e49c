import Interlock.Fleet.Command
import Interlock.Program

/-!
Several fleets behind one. A space is served by the members that list it, or, if none does, by those
that list no spaces at all; a worker by the first member that lists it, or the first that lists
nobody. A space is blocked on all its members or on none: after a failure the members blocked so far
are unblocked again. Specification, section 10.4: Configuration.
-/
namespace Interlock.Fleet

/-- A fleet with the spaces on its map and the workers it owns; an empty list stands for all. -/
structure Member where
  name : String
  spaces : List SpaceId
  workers : List WorkerId
  deriving DecidableEq, Repr

/-- A command to one member, counted from zero. -/
structure MemberCall where
  member : Nat
  command : Command
  deriving DecidableEq, Repr

/-- Programs that command the members one at a time. -/
def members : Interface := ⟨MemberCall, fun c => c.command.Answer⟩

/-- The members of a set, in their order. -/
abbrev FleetSet := List Member

namespace FleetSet

/-- The members with their numbers. -/
def numbered (set : FleetSet) : List (Nat × Member) := set.zipIdx.map fun (m, i) => (i, m)

/-- The members that serve a space. -/
def servingSpace (set : FleetSet) (s : SpaceId) : List (Nat × Member) :=
  match set.numbered.filter fun m => m.2.spaces.contains s with
  | [] => set.numbered.filter fun m => m.2.spaces.isEmpty
  | explicit => explicit

/-- The member that serves a worker. -/
def servingWorker (set : FleetSet) (w : WorkerId) : Option (Nat × Member) :=
  (set.numbered.find? fun m => m.2.workers.contains w).or
    (set.numbered.find? fun m => m.2.workers.isEmpty)

/-- Command one member and report it. -/
def command (member : Nat) (c : Command) : Program members c.Answer := do
  Program.sayAll c.opening
  let answer ← Program.ask (I := members) ⟨member, c⟩
  Program.sayAll (c.closing answer)
  return answer

/-- Unblock the members blocked so far, whatever comes of it. -/
def rollBack (s : SpaceId) : List (Nat × Member) → Program members Unit
  | [] => return ()
  | (i, m) :: rest => do
    match ← command i (.unblock s) with
    | .ok _ => pure ()
    | .error e =>
      Program.report .warn "rollback unblock failed"
        [("fleet", .text m.name), ("error", .text e.message)]
    rollBack s rest

/-- Block the members in order; at the first failure roll back those before it. -/
def blockAll (s : SpaceId) (blocked : List (Nat × Member)) :
    List (Nat × Member) → Program members (Except FleetError Unit)
  | [] => return .ok ()
  | (i, m) :: rest => do
    match ← command i (.block s) with
    | .ok _ => blockAll s (blocked ++ [(i, m)]) rest
    | .error e =>
      Program.report .warn "block failed, rolling back"
        [("fleet", .text m.name), ("space", .text s.text), ("error", .text e.message)]
      rollBack s blocked
      return .error e

/-- Unblock all members and keep the first failure. -/
def unblockAll (s : SpaceId) (first : Option FleetError) :
    List (Nat × Member) → Program members (Except FleetError Unit)
  | [] =>
    match first with
    | none => return .ok ()
    | some e => return .error e
  | (i, m) :: rest => do
    match ← command i (.unblock s) with
    | .ok _ => unblockAll s first rest
    | .error e =>
      Program.report .warn "unblock failed"
        [("fleet", .text m.name), ("space", .text s.text), ("error", .text e.message)]
      unblockAll s (first.or (some e)) rest

/-- Block a space on every member that serves it. -/
def block (set : FleetSet) (s : SpaceId) : Program members (Except FleetError Unit) :=
  match set.servingSpace s with
  | [] => .done (.error (.unknownSpace s))
  | serving => blockAll s [] serving

/-- Unblock a space on every member that serves it. -/
def unblock (set : FleetSet) (s : SpaceId) : Program members (Except FleetError Unit) :=
  match set.servingSpace s with
  | [] => .done (.error (.unknownSpace s))
  | serving => unblockAll s none serving

/-- A command to the set, carried out by its members. -/
def perform (set : FleetSet) : (c : Command) → Program members c.Answer
  | .block s => set.block s
  | .unblock s => set.unblock s
  | .status w =>
    match set.servingWorker w with
    | some (i, _) => command i (.status w)
    | none => .done (.error (.unknownWorker w))
  | .location w =>
    match set.servingWorker w with
    | some (i, _) => command i (.location w)
    | none => .done (.error (.unknownWorker w))

end FleetSet

end Interlock.Fleet
