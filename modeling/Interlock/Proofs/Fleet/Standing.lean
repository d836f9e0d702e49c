import Interlock.Fleet.Set
import Interlock.Proofs.Program.Conduct

/-!
How the members of a set stand to a space. A block or an unblock takes effect exactly when it is
answered with success, so a log of commands and answers says which member has which space blocked,
and which of them has refused to give it back. A block of the set leaves all members blocked, or
none that has not refused to be unblocked; an unblock leaves none that has not refused it.
-/
namespace Interlock.Fleet

def Command.space? : Command → Option SpaceId
  | .block s | .unblock s => some s
  | .status _ | .location _ => none

/-- How a member stands to a space: whether it has it blocked, and whether it has refused to unblock
it since it blocked it last. -/
structure Standing where
  blocked : Bool := false
  refused : Bool := false
  deriving DecidableEq, Repr

namespace Standing

/-- A command that fails has no effect, but a refusal to unblock is remembered. -/
def after (x : Standing) : (c : Command) → c.Answer → Standing
  | .block _, .ok _ => ⟨true, false⟩
  | .unblock _, .ok _ => { x with blocked := false }
  | .unblock _, .error _ => { x with refused := true }
  | _, _ => x

/-- A space is blocked without need only if its unblocking was refused. -/
def Excused (x : Standing) : Prop := x.blocked = true → x.refused = true

end Standing

/-- How a member stands to a space after a log. At first nothing is blocked. -/
def standing (i : Nat) (s : SpaceId) : Log members → Standing
  | [] => {}
  | ⟨c, a⟩ :: log =>
    if c.member = i ∧ c.command.space? = some s then (standing i s log).after c.command a
    else standing i s log

section

variable {i j : Nat} {s r : SpaceId} {c : MemberCall} {a : c.command.Answer} {log log' : Log members}

theorem standing_own (concerned : c.command.space? = some s) :
    standing c.member s (⟨c, a⟩ :: log) = (standing c.member s log).after c.command a :=
  if_pos ⟨rfl, concerned⟩

theorem standing_other (other : c.member ≠ i) :
    standing i s (⟨c, a⟩ :: log) = standing i s log := if_neg fun h => other h.1

theorem standing_elsewhere (other : c.command.space? ≠ some s) :
    standing i s (⟨c, a⟩ :: log) = standing i s log := if_neg fun h => other h.2

/-- Commands about one space change nothing about the others. -/
theorem standing_append (about : ∀ e ∈ log', e.1.command.space? = some s) (other : r ≠ s) :
    standing i r (log' ++ log) = standing i r log := by
  induction log' with
  | nil => rfl
  | cons e log' ih =>
    obtain ⟨here, about⟩ := List.forall_mem_cons.1 about
    have elsewhere : e.1.command.space? ≠ some r := by
      rw [here]
      exact fun same => other (Option.some.inj same).symm
    exact (standing_elsewhere elsewhere).trans (ih about)

/-- A member that has blocked a space has it blocked, and another stands as before. -/
theorem blocked_after_block {u : Unit} :
    (standing i s (⟨⟨j, .block s⟩, .ok u⟩ :: log)).blocked = true ↔
      (standing i s log).blocked = true ∨ i = j := by
  by_cases own : j = i
  · subst own
    rw [standing_own (c := ⟨j, .block s⟩) rfl]
    simp [Standing.after]
  · rw [standing_other (c := ⟨j, .block s⟩) own]
    exact (or_iff_left fun same => own same.symm).symm

/-- A member that has unblocked a space has it no longer blocked, and another stands as before. -/
theorem blocked_after_unblock {u : Unit} :
    (standing i s (⟨⟨j, .unblock s⟩, .ok u⟩ :: log)).blocked = true ↔
      (standing i s log).blocked = true ∧ i ≠ j := by
  by_cases own : j = i
  · subst own
    rw [standing_own (c := ⟨j, .unblock s⟩) rfl]
    simp [Standing.after]
  · rw [standing_other (c := ⟨j, .unblock s⟩) own]
    exact (and_iff_left fun same => own same.symm).symm

/-- A refused block changes nothing. -/
theorem standing_of_refused {e : FleetError} :
    standing i s (⟨⟨j, .block s⟩, .error e⟩ :: log) = standing i s log := by
  by_cases own : j = i
  · subst own
    exact standing_own (c := ⟨j, .block s⟩) rfl
  · exact standing_other (c := ⟨j, .block s⟩) own

/-- Who was told to unblock is excused, whether it did or refused. -/
theorem excused_of_unblock {a : (Command.unblock s).Answer}
    (before : (standing i s log).Excused ∨ i = j) :
    (standing i s (⟨⟨j, .unblock s⟩, a⟩ :: log)).Excused := by
  by_cases own : j = i
  · subst own
    rw [standing_own (c := ⟨j, .unblock s⟩) rfl]
    cases a with
    | ok u => exact fun blocked => nomatch blocked
    | error e => exact fun _ => rfl
  · rw [standing_other (c := ⟨j, .unblock s⟩) own]
    exact before.resolve_right fun same => own same.symm

/-- A member that did not block excused before is excused by nothing else than a block. -/
theorem excused_or_of_block {a : (Command.block s).Answer} (before : (standing i s log).Excused) :
    (standing i s (⟨⟨j, .block s⟩, a⟩ :: log)).Excused ∨ i = j := by
  by_cases own : j = i
  · exact .inr own.symm
  · rw [standing_other (c := ⟨j, .block s⟩) own]
    exact .inl before

end

namespace FleetSet

open Program

def about (s : SpaceId) : Conduct members :=
  ⟨fun _ c => c.command.space? = some s, fun _ _ => True⟩

/-- Every member that serves the space has it blocked. -/
def Blocks (set : FleetSet) (s : SpaceId) (log : Log members) : Prop :=
  ∀ m ∈ set.servingSpace s, (standing m.1 s log).blocked = true

/-- No member that serves the space has it blocked, but for those that refused to unblock it. -/
def Excused (set : FleetSet) (s : SpaceId) (log : Log members) : Prop :=
  ∀ m ∈ set.servingSpace s, (standing m.1 s log).Excused

/-- What a block of the set leaves: if it succeeds all its members blocked, and if it fails those
excused that were before. -/
def AfterBlock (set : FleetSet) (s : SpaceId) (before after : Log members) :
    Except FleetError Unit → Prop
  | .ok _ => set.Blocks s after
  | .error _ => set.Excused s before → set.Excused s after

variable {set : FleetSet} {s : SpaceId} {log : Log members}

theorem keeps_command {i : Nat} {c : Command} {κ : Conduct members}
    {post : Log members → c.Answer → Prop} :
    (command i c).Keeps κ post log ↔
      κ.allows log ⟨i, c⟩ ∧
        ∀ a, κ.expects ⟨i, c⟩ a → post (⟨⟨i, c⟩, a⟩ :: log) a := by
  refine keeps_bind.trans (keeps_sayAll.trans (keeps_bind.trans (and_congr_right fun _ => ?_)))
  exact forall_congr' fun a => imp_congr_right fun _ => keeps_bind.trans keeps_sayAll

/-- A roll back excuses those it is about and leaves the others excused. -/
theorem rollBack_keeps (ms : List (Nat × Member)) :
    (rollBack s ms).Keeps (about s)
      (fun log' _ => ∀ i, (standing i s log).Excused ∨ i ∈ ms.map Prod.fst →
        (standing i s log').Excused) log := by
  induction ms generalizing log with
  | nil => exact fun i before => before.resolve_right List.not_mem_nil
  | cons m ms ih =>
    obtain ⟨j, m⟩ := m
    rw [rollBack, keeps_bind, keeps_command]
    refine ⟨rfl, fun a _ => ?_⟩
    have rest : (rollBack s ms).Keeps (about s)
        (fun log' _ => ∀ i, (standing i s log).Excused ∨ i ∈ j :: ms.map Prod.fst →
          (standing i s log').Excused) (⟨⟨j, .unblock s⟩, a⟩ :: log) := by
      refine ih.mono fun log' _ after i before => after i ?_
      rcases before with before | told
      · exact .inl (excused_of_unblock (.inl before))
      · exact (List.mem_cons.1 told).imp_left fun here => excused_of_unblock (.inr here)
    cases a with
    | ok u => exact rest
    | error e => exact rest

/-- Members blocked one after the other end up blocked together with those before them, or excused
together with those before them. -/
theorem blockAll_keeps (blocked ms : List (Nat × Member)) :
    (blockAll s blocked ms).Keeps (about s)
      (fun log' a =>
        match a with
        | .ok _ => ∀ i, (standing i s log).blocked = true ∨ i ∈ ms.map Prod.fst →
            (standing i s log').blocked = true
        | .error _ => ∀ i, (standing i s log).Excused ∨ i ∈ blocked.map Prod.fst →
            (standing i s log').Excused) log := by
  induction ms generalizing log blocked with
  | nil => exact fun i before => before.resolve_right List.not_mem_nil
  | cons m ms ih =>
    obtain ⟨j, m⟩ := m
    rw [blockAll, keeps_bind, keeps_command]
    refine ⟨rfl, fun a _ => ?_⟩
    cases a with
    | ok u =>
      refine (ih (blocked ++ [(j, m)])).mono fun log' a after => ?_
      cases a with
      | ok v =>
        refine fun i before => after i ?_
        rcases before with before | told
        · exact .inl (blocked_after_block.2 (.inl before))
        · exact (List.mem_cons.1 told).imp_left fun here => blocked_after_block.2 (.inr here)
      | error e =>
        -- the member that has just blocked is one of those to be rolled back
        refine fun i before => after i ?_
        rw [List.map_append, List.mem_append]
        rcases before with before | listed
        · exact (excused_or_of_block before).imp_right fun here => .inr (List.mem_singleton.2 here)
        · exact .inr (.inl listed)
    | error e =>
      simp only [keeps_bind, keeps_report]
      refine (rollBack_keeps blocked).mono fun log' _ after i before => after i ?_
      exact before.imp_left fun before => by rwa [standing_of_refused]

theorem unblockAll_keeps (first : Option FleetError) (ms : List (Nat × Member)) :
    (unblockAll s first ms).Keeps (about s)
      (fun log' _ => ∀ i, (standing i s log).Excused ∨ i ∈ ms.map Prod.fst →
        (standing i s log').Excused) log := by
  induction ms generalizing log first with
  | nil =>
    cases first <;> exact fun i before => before.resolve_right List.not_mem_nil
  | cons m ms ih =>
    obtain ⟨j, m⟩ := m
    rw [unblockAll, keeps_bind, keeps_command]
    refine ⟨rfl, fun a _ => ?_⟩
    have rest (first : Option FleetError) : (unblockAll s first ms).Keeps (about s)
        (fun log' _ => ∀ i, (standing i s log).Excused ∨ i ∈ j :: ms.map Prod.fst →
          (standing i s log').Excused) (⟨⟨j, .unblock s⟩, a⟩ :: log) := by
      refine (ih first).mono fun log' _ after i before => after i ?_
      rcases before with before | told
      · exact .inl (excused_of_unblock (.inl before))
      · exact (List.mem_cons.1 told).imp_left fun here => excused_of_unblock (.inr here)
    cases a with
    | ok u => exact rest first
    | error e => exact rest (first.or (some e))

/-- A block of the set is done by all its members or taken back. -/
theorem block_keeps (set : FleetSet) (s : SpaceId) (log : Log members) :
    (set.block s).Keeps (about s) (fun log' a => set.AfterBlock s log log' a) log := by
  unfold block
  cases serving : set.servingSpace s with
  | nil => exact id
  | cons m ms =>
    refine (blockAll_keeps [] (m :: ms)).mono fun log' a after => ?_
    cases a with
    | ok u => exact fun n hn => after n.1 (.inr (List.mem_map_of_mem (serving ▸ hn)))
    | error e => exact fun before n hn => after n.1 (.inl (before n hn))

/-- An unblock of the set leaves its members excused. -/
theorem unblock_keeps (set : FleetSet) (s : SpaceId) (log : Log members) :
    (set.unblock s).Keeps (about s) (fun log' _ => set.Excused s log') log := by
  unfold unblock
  cases serving : set.servingSpace s with
  | nil =>
    intro n hn
    rw [serving] at hn
    cases hn
  | cons m ms =>
    refine (unblockAll_keeps none (m :: ms)).mono fun log' a after n hn => ?_
    exact after n.1 (.inr (List.mem_map_of_mem (serving ▸ hn)))

/-- Commands about one space leave the standing to the others. -/
theorem keeps_elsewhere {α : Type} {p : Program members α} {post : Log members → α → Prop}
    (h : p.Keeps (about s) post log) :
    p.Keeps (about s)
      (fun log' a => post log' a ∧ ∀ r, r ≠ s → ∀ i, standing i r log' = standing i r log) log := by
  refine h.and ((h.mono fun _ _ _ => trivial).appended.mono ?_)
  rintro _ a ⟨new, rfl, allowed⟩ r other i
  exact standing_append (fun e he => (allowed e he).choose_spec) other

end FleetSet

end Interlock.Fleet
