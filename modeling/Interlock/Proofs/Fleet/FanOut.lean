import Interlock.Proofs.Fleet.Standing
import Interlock.Proofs.Program.Quiet

/-!
What a command to a set of fleets comes to at its members. Blocks and unblocks go to the same
members, in the order of the set. A block stops at the first member that refuses it, and then those
before that member are told to unblock, whatever they answer. An unblock goes to all of them and
gives the first refusal. Both are said about the whole list of commands with their answers, so that
nobody else is told anything, and nobody is told twice. Specification, section 6: External
Interfaces.
-/
namespace Interlock.Fleet

namespace FleetSet

open Program

variable {set : FleetSet} {s : SpaceId} {i : Nat} {m : Member} {log : Log members}

/-! Who serves a space. -/

theorem mem_numbered : (i, m) ∈ set.numbered ↔ set[i]? = some m := by
  rw [numbered, List.mem_map]
  constructor
  · rintro ⟨⟨n, j⟩, listed, same⟩
    obtain ⟨rfl, rfl⟩ := Prod.mk.inj same
    exact List.mem_zipIdx_iff_getElem?.1 listed
  · exact fun found => ⟨(m, i), List.mem_zipIdx_iff_getElem?.2 found, rfl⟩

theorem pairwise_numbered (set : FleetSet) : set.numbered.Pairwise fun a b => a.1 < b.1 := by
  have places : (set.zipIdx.map Prod.snd).Pairwise (· < ·) := by
    rw [List.zipIdx_map_snd]
    exact List.pairwise_lt_range'
  exact List.pairwise_map.2 (List.pairwise_map.1 places)

/-- A space is served by the members that list it, or by those without a list if nobody does. -/
theorem mem_servingSpace :
    (i, m) ∈ set.servingSpace s ↔
      set[i]? = some m ∧ (s ∈ m.spaces ∨ m.spaces = [] ∧ ∀ n ∈ set, s ∉ n.spaces) := by
  have anywhere : set.numbered.filter (fun m => m.2.spaces.contains s) = [] ↔
      ∀ n ∈ set, s ∉ n.spaces := by
    simp only [List.filter_eq_nil_iff, List.contains_iff_mem, Prod.forall, mem_numbered]
    constructor
    · intro nobody n listed
      obtain ⟨j, found⟩ := List.mem_iff_getElem?.1 listed
      exact nobody j n found
    · exact fun nobody j n found => nobody n (List.mem_of_getElem? found)
  unfold servingSpace
  split
  · next nobody =>
    have none := anywhere.1 nobody
    rw [List.mem_filter, mem_numbered, List.isEmpty_iff]
    refine and_congr_right fun found => ⟨fun free => .inr ⟨free, none⟩, fun serves => ?_⟩
    exact (serves.resolve_left (none m (List.mem_of_getElem? found))).1
  · next explicit =>
    rw [List.mem_filter, mem_numbered, List.contains_iff_mem]
    exact and_congr_right fun _ => (or_iff_left fun free => explicit (anywhere.2 free.2)).symm

/-- Members serve in the order of the set, each once. -/
theorem pairwise_servingSpace (set : FleetSet) (s : SpaceId) :
    (set.servingSpace s).Pairwise fun a b => a.1 < b.1 := by
  unfold servingSpace
  split <;> exact (pairwise_numbered set).filter _

/-! What is done at the members. -/

def unblocking (s : SpaceId) (m : Nat × Member) : MemberCall := ⟨m.1, .unblock s⟩

def accepted (s : SpaceId) (m : Nat × Member) : (c : members.Call) × members.Answer c :=
  ⟨⟨m.1, .block s⟩, .ok ()⟩

def refused (s : SpaceId) (m : Nat × Member) (e : FleetError) :
    (c : members.Call) × members.Answer c :=
  ⟨⟨m.1, .block s⟩, .error e⟩

def failure? : (c : members.Call) × members.Answer c → Option FleetError
  | ⟨_, .error e⟩ => some e
  | ⟨_, .ok _⟩ => none

def answerOf : Option FleetError → Except FleetError Unit
  | some e => .error e
  | none => .ok ()

/-- The commands of a block with their answers, the earliest first, and what it answers. -/
inductive BlockRun (s : SpaceId) (serving : List (Nat × Member)) :
    Log members → Except FleetError Unit → Prop
  | unserved (nobody : serving = []) : BlockRun s serving [] (.error (.unknownSpace s))
  | done (somebody : serving ≠ []) : BlockRun s serving (serving.map (accepted s)) (.ok ())
  | rolledBack {front rest : List (Nat × Member)} {m : Nat × Member} {e : FleetError}
      {undone : Log members} (split : serving = front ++ m :: rest)
      (undo : undone.map Sigma.fst = front.map (unblocking s)) :
    BlockRun s serving (front.map (accepted s) ++ refused s m e :: undone) (.error e)

/-- The commands of an unblock with their answers, the earliest first, and what it answers. -/
inductive UnblockRun (s : SpaceId) (serving : List (Nat × Member)) :
    Log members → Except FleetError Unit → Prop
  | unserved (nobody : serving = []) : UnblockRun s serving [] (.error (.unknownSpace s))
  | told {trace : Log members} (somebody : serving ≠ [])
      (calls : trace.map Sigma.fst = serving.map (unblocking s)) :
    UnblockRun s serving trace (answerOf (trace.findSome? failure?))

/-- A roll back tells its members to unblock, one after the other. -/
theorem rollBack_calls (ms : List (Nat × Member)) :
    (rollBack s ms).Keeps (about s)
      (fun log' _ => ∃ undone : Log members, log' = List.reverse undone ++ log ∧
        undone.map Sigma.fst = ms.map (unblocking s)) log := by
  induction ms generalizing log with
  | nil => exact ⟨[], rfl, rfl⟩
  | cons m ms ih =>
    obtain ⟨j, m⟩ := m
    rw [rollBack, keeps_bind, keeps_command]
    refine ⟨rfl, fun a _ => ?_⟩
    have rest : (rollBack s ms).Keeps (about s)
        (fun log' _ => ∃ undone : Log members, log' = List.reverse undone ++ log ∧
          undone.map Sigma.fst = (unblocking s (j, m)) :: ms.map (unblocking s))
        (⟨⟨j, .unblock s⟩, a⟩ :: log) := by
      refine ih.mono ?_
      rintro log' _ ⟨undone, rfl, calls⟩
      exact ⟨⟨⟨j, .unblock s⟩, a⟩ :: undone, by simp, congrArg (unblocking s (j, m) :: ·) calls⟩
    cases a with
    | ok u => exact rest
    | error e => exact rest

/-- Members are blocked one after the other; with the first refusal the roll back begins, and it is
about those blocked before as well. -/
theorem blockAll_calls (blocked ms : List (Nat × Member)) :
    (blockAll s blocked ms).Keeps (about s)
      (fun log' a =>
        (a = .ok () ∧ log' = (ms.map (accepted s)).reverse ++ log) ∨
          ∃ front m rest e undone, ms = front ++ m :: rest ∧ a = .error e ∧
            log' = (front.map (accepted s) ++ refused s m e :: undone).reverse ++ log ∧
            undone.map Sigma.fst = (blocked ++ front).map (unblocking s)) log := by
  induction ms generalizing log blocked with
  | nil => exact .inl ⟨rfl, rfl⟩
  | cons m ms ih =>
    obtain ⟨j, m⟩ := m
    rw [blockAll, keeps_bind, keeps_command]
    refine ⟨rfl, fun a _ => ?_⟩
    cases a with
    | ok u =>
      refine (ih (blocked ++ [(j, m)])).mono fun log' a after => ?_
      rcases after with ⟨rfl, rfl⟩ | ⟨front, n, rest, e, undone, rfl, rfl, rfl, calls⟩
      · exact .inl ⟨rfl, by simp [accepted]⟩
      · refine .inr ⟨(j, m) :: front, n, rest, e, undone, rfl, rfl, by simp [accepted], ?_⟩
        rw [calls, List.append_assoc, List.singleton_append]
    | error e =>
      simp only [keeps_bind, keeps_report]
      refine (rollBack_calls blocked).mono ?_
      rintro log' _ ⟨undone, rfl, calls⟩
      refine .inr ⟨[], (j, m), ms, e, undone, rfl, rfl, by simp [refused], ?_⟩
      rw [calls, List.append_nil]

/-- Members are told to unblock one after the other, and the first failure is kept. -/
theorem unblockAll_calls (first : Option FleetError) (ms : List (Nat × Member)) :
    (unblockAll s first ms).Keeps (about s)
      (fun log' a => ∃ trace : Log members, log' = List.reverse trace ++ log ∧
        trace.map Sigma.fst = ms.map (unblocking s) ∧
        a = answerOf (first.or (trace.findSome? failure?))) log := by
  induction ms generalizing log first with
  | nil => cases first <;> exact ⟨[], rfl, rfl, rfl⟩
  | cons m ms ih =>
    obtain ⟨j, m⟩ := m
    rw [unblockAll, keeps_bind, keeps_command]
    refine ⟨rfl, fun a _ => ?_⟩
    cases a with
    | ok u =>
      refine (ih first).mono ?_
      rintro log' a ⟨trace, rfl, calls, rfl⟩
      exact ⟨⟨⟨j, .unblock s⟩, .ok u⟩ :: trace, by simp,
        congrArg (unblocking s (j, m) :: ·) calls, rfl⟩
    | error e =>
      simp only [keeps_bind, keeps_report]
      refine (ih (first.or (some e))).mono ?_
      rintro log' a ⟨trace, rfl, calls, rfl⟩
      refine ⟨⟨⟨j, .unblock s⟩, .error e⟩ :: trace, by simp,
        congrArg (unblocking s (j, m) :: ·) calls, ?_⟩
      cases first <;> rfl

theorem block_calls (set : FleetSet) (s : SpaceId) :
    (set.block s).Keeps (about s)
      (fun log a => BlockRun s (set.servingSpace s) (List.reverse log) a) [] := by
  unfold block
  cases serving : set.servingSpace s with
  | nil => exact .unserved rfl
  | cons m ms =>
    refine (blockAll_calls [] (m :: ms)).mono fun log a after => ?_
    rcases after with ⟨rfl, rfl⟩ | ⟨front, n, rest, e, undone, split, rfl, rfl, calls⟩
    · rw [List.append_nil, List.reverse_reverse]
      exact .done nofun
    · rw [List.append_nil, List.reverse_reverse]
      exact .rolledBack split calls

theorem unblock_calls (set : FleetSet) (s : SpaceId) :
    (set.unblock s).Keeps (about s)
      (fun log a => UnblockRun s (set.servingSpace s) (List.reverse log) a) [] := by
  unfold unblock
  cases serving : set.servingSpace s with
  | nil => exact .unserved rfl
  | cons m ms =>
    refine (unblockAll_calls none (m :: ms)).mono ?_
    rintro log a ⟨trace, rfl, calls, rfl⟩
    rw [List.append_nil, List.reverse_reverse]
    exact .told nofun calls

variable {σ : Type}

/-- For every set, whatever each member answers to each command: a block and an unblock go to the
members that serve the space, in the order of the set, and come to runs as described. -/
theorem fan_out (set : FleetSet) (s : SpaceId)
    (answer : (c : MemberCall) → σ → c.command.Answer × σ) (x : σ) :
    (∀ i m, (i, m) ∈ set.servingSpace s ↔
        set[i]? = some m ∧ (s ∈ m.spaces ∨ m.spaces = [] ∧ ∀ n ∈ set, s ∉ n.spaces)) ∧
      (set.servingSpace s).Pairwise (fun a b => a.1 < b.1) ∧
      (set.block s).Ends (recorded answer)
        (fun a y => BlockRun s (set.servingSpace s) y.1.reverse a) ([], x) ∧
      (set.unblock s).Ends (recorded answer)
        (fun a y => UnblockRun s (set.servingSpace s) y.1.reverse a) ([], x) :=
  ⟨fun _ _ => mem_servingSpace, pairwise_servingSpace set s, (block_calls set s).ends answer x,
    (unblock_calls set s).ends answer x⟩

/-- Of two members that list the space the second refuses it, and the first one is then told to
unblock, though it does not; the member without a list is not asked. -/
example :
    let set : FleetSet := [⟨"yard", [⟨"s-1"⟩], []⟩, ⟨"hall", [], []⟩, ⟨"dock", [⟨"s-1"⟩], []⟩]
    let answer : (c : MemberCall) → Unit → c.command.Answer × Unit
      | ⟨0, .block _⟩, b => (.ok (), b)
      | ⟨_, .block _⟩, b => (.error (.status .requestLock 503), b)
      | ⟨_, .unblock _⟩, b => (.error (.status .requestRelease 503), b)
      | ⟨_, .status w⟩, b | ⟨_, .location w⟩, b => (.error (.unknownWorker w), b)
    (set.block ⟨"s-1"⟩).runQuiet (recorded answer) ([], ()) =
      (.error (.status .requestLock 503),
        [⟨⟨0, .unblock ⟨"s-1"⟩⟩, .error (.status .requestRelease 503)⟩,
          refused ⟨"s-1"⟩ (2, ⟨"dock", [⟨"s-1"⟩], []⟩) (.status .requestLock 503),
          accepted ⟨"s-1"⟩ (0, ⟨"yard", [⟨"s-1"⟩], []⟩)], ()) := rfl

end FleetSet

end Interlock.Fleet
