import Interlock.Proofs.Evaluation.Failures
import Interlock.Proofs.Ordered

/-!
Spaces are evaluated in any order. With a store that works, a step of a space depends on little of
the table: on the holder of the space, on its first waiter and on what that waiter holds. A step of
another space with another first waiter touches none of it. So every space of a round has the
verdict it would have had alone, and the promotions of all verdicts make up the table at the end.
Specification, section 5: Concurrency & Resource Model.
-/
namespace Interlock

namespace Evaluation

open Coordinator Store Fleet Interlock.Sequential Program

/-- What a step of a space comes to. -/
structure Verdict where
  outcome : Outcome
  commands : List Command
  /-- The waiter that becomes the holder. -/
  promoted : Option Record
  deriving DecidableEq, Repr

/-- What the vendor answers to the block of each space. -/
abbrev Blocks : Type := (s : SpaceId) → Timed (Command.block s).Answer

/-- The verdict on a space, as the table and the vendor have it. -/
def verdict (l : Limits) (blocks : Blocks) (t : Table) (s : SpaceId) : Verdict :=
  match t.holder s with
  | some h => ⟨.occupied s h.worker, [], none⟩
  | none =>
    match t.nextWaiter s with
    | none => ⟨.idle s, [], none⟩
    | some r =>
      match (t.spacesOf r.worker).find? (· != s) with
      | some other => ⟨.deferred s r.worker other, [], none⟩
      | none =>
        match vendorAnswer l (.block s) (blocks s) with
        | .error e => ⟨.failedToBlock s r.worker e.message, [.block s], none⟩
        | .ok _ => ⟨.granted s r.worker, [.block s], some r⟩

/-- The table has changed by a promotion, if there is one. -/
def Promoted (r : Option Record) (t t' : Table) : Prop :=
  ∀ x, x ∈ t'.records ↔ r.map Record.toHolder = some x ∨ (x ∈ t.records ∧ r ≠ some x)

/-- The store never fails, and the vendor answers every block as said. -/
structure Reliable {ε : Type} (W : Hazards ε) (blocks : Blocks) : Prop where
  store : ∀ k b, (W.store k b).1 = .carriedOut
  vendor : ∀ s b, (W.vendor (.block s) b).1 = blocks s

variable {ε : Type} {W : Hazards ε} {c : Coordinator} {l : Limits} {blocks : Blocks}
  {s p : SpaceId} {t t' : Table} {r : Record} {log : Log actions} {o : Outcome}

namespace Reliable

theorem not_fails (reliable : Reliable W blocks) (k : Call) : ¬W.Fails k := by
  rintro ⟨b, fails⟩
  exact fails (reliable.store k b)

theorem answer_eq (reliable : Reliable W blocks) {a : Timed (Command.block s).Answer}
    (answers : W.Answers (.block s) a) : a = blocks s := by
  obtain ⟨b, rfl⟩ := answers
  exact reliable.vendor s b

end Reliable

theorem promoted_none (t : Table) : Promoted none t t := by
  simp [Promoted]

theorem promoted_of_swap (first : t.FirstWaiter s r) (swapped : t.swap r.toHolder r = .ok t') :
    Promoted (some r) t t' := by
  intro x
  rw [Table.mem_promoted first.stored swapped]
  simp [eq_comm]

theorem grantable_of_promoted (promoted : (verdict l blocks t s).promoted = some r) :
    t.Grantable s r := by
  unfold verdict at promoted
  split at promoted
  · cases promoted
  next free =>
    split at promoted
    · cases promoted
    next q next =>
      split at promoted
      · cases promoted
      next passed =>
        split at promoted
        · cases promoted
        · obtain rfl := Option.some.inj promoted
          exact ⟨free, Table.nextWaiter_eq_some_iff.1 next,
            Table.find?_spacesOf_eq_none_iff.1 passed⟩

/-- Where nothing fails a course comes to the verdict. -/
theorem Course.verdict (reliable : Reliable W blocks) (course : Course W l s t log o t') :
    let v := verdict l blocks t s
    o = v.outcome ∧ commands log = v.commands ∧ Promoted v.promoted t t' := by
  cases course with
  | holderUnread fault | waiterUnread _ fault | holdersUnread _ _ fault | kept _ _ fault
  | takenBack _ fault => exact absurd fault (reliable.not_fails _)
  | occupied held =>
    simp only [Evaluation.verdict, held]
    exact ⟨trivial, rfl, promoted_none t⟩
  | idle free nobody =>
    simp only [Evaluation.verdict, free, nobody]
    exact ⟨trivial, rfl, promoted_none t⟩
  | deferred free first elsewhere =>
    have next := Table.nextWaiter_eq_some_iff.2 first
    have other := Table.find?_spacesOf_eq_some_iff.2 elsewhere
    simp only [Evaluation.verdict, free, next, other]
    exact ⟨trivial, rfl, promoted_none t⟩
  | unblocked grantable answered fails =>
    have next := Table.nextWaiter_eq_some_iff.2 grantable.first
    have idle := Table.find?_spacesOf_eq_none_iff.2 grantable.idle
    simp only [Evaluation.verdict, grantable.free, next, idle, ← reliable.answer_eq answered, fails]
    exact ⟨trivial, rfl, promoted_none t⟩
  | granted grantable blocked swapped p =>
    have next := Table.nextWaiter_eq_some_iff.2 grantable.first
    have idle := Table.find?_spacesOf_eq_none_iff.2 grantable.idle
    simp only [Evaluation.verdict, grantable.free, next, idle, ← reliable.answer_eq blocked,
      vendorAnswer]
    exact ⟨trivial, rfl, promoted_of_swap grantable.first swapped⟩

/-- What a step of the space depends on is the same in both tables. -/
structure SameView (s : SpaceId) (t t' : Table) : Prop where
  holder : t'.holder s = t.holder s
  next : t'.nextWaiter s = t.nextWaiter s
  holds : ∀ r, t.nextWaiter s = some r → ∀ q, t'.Holds r.worker q ↔ t.Holds r.worker q

namespace SameView

theorem refl (s : SpaceId) (t : Table) : SameView s t t := ⟨rfl, rfl, fun _ _ _ => Iff.rfl⟩

theorem verdict (same : SameView s t t') :
    verdict l blocks t' s = Evaluation.verdict l blocks t s := by
  unfold Evaluation.verdict
  rw [same.holder, same.next]
  cases next : t.nextWaiter s with
  | none => rfl
  | some r =>
    simp only
    rw [Table.find?_spacesOf_congr (same.holds r next)]

/-- A promotion in another space, of another worker than the first one here, is not seen. -/
theorem of_promoted (elsewhere : r.space ≠ s)
    (different : ∀ q, t.nextWaiter s = some q → q.worker ≠ r.worker)
    (promoted : Promoted (some r) t t') : SameView s t t' := by
  have here {x : Record} (space : x.space = s) : x ∈ t'.records ↔ x ∈ t.records := by
    have new : r.toHolder ≠ x := by
      rintro rfl
      exact elsewhere space
    have old : r ≠ x := by
      rintro rfl
      exact elsewhere space
    simp [promoted x, new, old]
  have others {x : Record} (worker : x.worker ≠ r.worker) : x ∈ t'.holders ↔ x ∈ t.holders := by
    have new : r.toHolder ≠ x := by
      rintro rfl
      exact worker rfl
    have old : r ≠ x := by
      rintro rfl
      exact worker rfl
    simp [Table.mem_holders, promoted x, new, old]
  refine ⟨Table.holder_congr fun x _ => here, Table.nextWaiter_congr fun x _ => here,
    fun q next p => ?_⟩
  rw [Table.holds_iff, Table.holds_iff]
  refine exists_congr fun x => and_congr_left fun own => others ?_
  rw [own.2]
  exact different q next

end SameView

def candidates (t : Table) (ss : List SpaceId) : List WorkerId :=
  ss.filterMap fun s => (t.nextWaiter s).map Record.worker

/-- Evaluate spaces one after the other: what each of them came to, with its commands. -/
def round (W : Hazards ε) (c : Coordinator) :
    List SpaceId → Scene Table ε → List (SpaceId × Outcome × List Command) × Scene Table ε
  | [], x => ([], x)
  | s :: ss, x =>
    let (o, log, y) := (c.evaluate s).runQuiet (recorded W.answer) ([], x)
    let (rest, z) := round W c ss y
    ((s, o, commands log) :: rest, z)

theorem round_cons (W : Hazards ε) (c : Coordinator) (s : SpaceId) (ss : List SpaceId)
    (x : Scene Table ε) :
    round W c (s :: ss) x =
      let e := (c.evaluate s).runQuiet (recorded W.answer) ([], x)
      ((s, e.1, commands e.2.1) :: (round W c ss e.2.2).1, (round W c ss e.2.2).2) := rfl

/-- The table has changed by the promotions of these verdicts. -/
def AllPromoted (v : SpaceId → Verdict) (ss : List SpaceId) (t t' : Table) : Prop :=
  ∀ x, x ∈ t'.records ↔ (∃ s ∈ ss, (v s).promoted.map Record.toHolder = some x) ∨
    (x ∈ t.records ∧ ∀ s ∈ ss, (v s).promoted ≠ some x)

/-- A table is known by its records. -/
theorem table_ext (same : ∀ x, x ∈ t'.records ↔ x ∈ t.records) : t' = t := by
  cases t'
  cases t
  congr
  exact eq_of_mem_iff_of_pairwise_lt RecordKey.order Record.key ‹_› ‹_› same

theorem nodup_candidates (next : t.nextWaiter s = some r) {ss : List SpaceId}
    (different : (candidates t (s :: ss)).Nodup) {q : Record} (later : p ∈ ss)
    (next' : t.nextWaiter p = some q) : q.worker ≠ r.worker := by
  rw [candidates, List.filterMap_cons_some (by rw [next]; rfl), List.nodup_cons] at different
  intro same
  exact different.1 (List.mem_filterMap.2 ⟨p, later, by rw [next']; exact congrArg some same⟩)

/-- A verdict on one space leaves what the others depend on. -/
theorem sameView_of_verdict {ss : List SpaceId} (distinct : (s :: ss).Nodup)
    (different : (candidates t (s :: ss)).Nodup)
    (promoted : Promoted (verdict l blocks t s).promoted t t') (later : p ∈ ss) :
    SameView p t t' := by
  cases given : (verdict l blocks t s).promoted with
  | none =>
    rw [given] at promoted
    obtain rfl : t' = t := table_ext (by simpa [Promoted] using promoted)
    exact .refl p t'
  | some r =>
    rw [given] at promoted
    have first := (grantable_of_promoted given).first
    refine .of_promoted ?_ (fun q next' => ?_) promoted
    · rintro rfl
      exact (List.nodup_cons.1 distinct).1 (first.space ▸ later)
    · exact nodup_candidates (Table.nextWaiter_eq_some_iff.2 first) different later next'

theorem candidates_congr {ss : List SpaceId} (same : ∀ s ∈ ss, SameView s t t') :
    candidates t' ss = candidates t ss := by
  induction ss with
  | nil => rfl
  | cons s ss ih =>
    have rest := ih fun p later => same p (List.mem_cons_of_mem s later)
    rw [candidates] at rest ⊢
    simp [List.filterMap_cons, (same s List.mem_cons_self).next, rest]
    rfl

theorem AllPromoted.congr {v v' : SpaceId → Verdict} {ss : List SpaceId}
    (all : AllPromoted v ss t t') (same : ∀ s ∈ ss, v s = v' s) : AllPromoted v' ss t t' := by
  intro x
  rw [all x]
  refine or_congr (exists_congr fun s => and_congr_right fun hs => ?_)
    (and_congr_right fun _ => forall₂_congr fun s hs => ?_)
  · rw [same s hs]
  · rw [same s hs]

/-- The promotions of a round are that of its first space and those of the others. -/
theorem AllPromoted.cons {v : SpaceId → Verdict} {ss : List SpaceId} {t'' : Table}
    (waits : ∀ p q, (v p).promoted = some q → q.isHolder = false)
    (first : Promoted (v s).promoted t t') (rest : AllPromoted v ss t' t'') :
    AllPromoted v (s :: ss) t t'' := by
  intro x
  -- what is promoted waits, so nothing that was made a holder is promoted later
  have settled (new : (v s).promoted.map Record.toHolder = some x) :
      ∀ p ∈ ss, (v p).promoted ≠ some x := by
    intro p _ again
    obtain ⟨q, -, rfl⟩ := Option.map_eq_some_iff.1 new
    have waiting := waits p _ again
    cases waiting
  rw [rest x, first x, List.exists_mem_cons_iff, List.forall_mem_cons, or_and_right,
    and_iff_left_of_imp settled, and_assoc, or_left_comm, or_assoc]

/-- Every space of a round comes to its verdict on the table at the start. -/
theorem round_eq (reliable : Reliable W blocks) {ss : List SpaceId} {x : Scene Table ε}
    (distinct : ss.Nodup) (different : (candidates x.state ss).Nodup) :
    let v := verdict c.limits blocks x.state
    (round W c ss x).1 = ss.map (fun s => (s, (v s).outcome, (v s).commands)) ∧
      AllPromoted v ss x.state (round W c ss x).2.state := by
  induction ss generalizing x with
  | nil => exact ⟨rfl, by simp [AllPromoted, round]⟩
  | cons s ss ih =>
    rw [round_cons]
    have course := Hazards.evaluate_course W c s x
    rw [Ends] at course
    generalize (c.evaluate s).runQuiet (recorded W.answer) ([], x) = e at course
    obtain ⟨outcome, log, y⟩ := e
    obtain ⟨rfl, commanded, promoted⟩ := course.verdict reliable
    have same : ∀ p ∈ ss, SameView p x.state y.state := fun p later =>
      sameView_of_verdict distinct different promoted later
    have apart : (candidates y.state ss).Nodup := by
      rw [candidates_congr same]
      exact different.sublist ((List.sublist_cons_self s ss).filterMap _)
    have verdicts : ∀ p ∈ ss,
        verdict c.limits blocks y.state p = verdict c.limits blocks x.state p :=
      fun p later => (same p later).verdict
    obtain ⟨rest, others⟩ := ih (List.nodup_cons.1 distinct).2 apart
    constructor
    · dsimp only at commanded ⊢
      rw [List.map_cons, rest, commanded]
      congr 1
      exact List.map_congr_left fun p later => by rw [verdicts p later]
    · exact .cons (fun p q given => (grantable_of_promoted given).first.waits) promoted
        (others.congr verdicts)

/-- The order of a round makes no difference. When the first waiters of the spaces are different
workers and the vendor answers the block of each space in its own way, every space has the same
outcome and the same commands whichever order they are evaluated in, and the table at the end is
the same. -/
theorem round_perm (c : Coordinator) {ss ss' : List SpaceId} {x x' : Scene Table ε}
    (reliable : Reliable W blocks) (same : x'.state = x.state) (distinct : ss.Nodup)
    (different : (candidates x.state ss).Nodup) (perm : ss.Perm ss') :
    (round W c ss x).1.Perm (round W c ss' x').1 ∧
      (round W c ss x).2.state = (round W c ss' x').2.state := by
  have different' : (candidates x'.state ss').Nodup := by
    rw [same]
    exact (perm.filterMap _).nodup_iff.1 different
  obtain ⟨verdicts, all⟩ := round_eq (c := c) reliable distinct different
  obtain ⟨verdicts', all'⟩ := round_eq (c := c) reliable (perm.nodup_iff.1 distinct) different'
  constructor
  · rw [verdicts, verdicts', same]
    exact perm.map _
  · refine table_ext fun z => ?_
    rw [all z, all' z, same]
    simp only [perm.mem_iff]

/-- A world in which nothing fails but the block of the third space. -/
def thirdRefused : Hazards Unit where
  clock b := ((0, ⟨0, 0⟩), b)
  vendor
    | .block s, b =>
      (.inTime (if s = ⟨"s-3"⟩ then .error (.status .requestLock 503) else .ok ()), b)
    | .unblock _, b => (.inTime (.ok ()), b)
    | .status _, b | .location _, b => (.late, b)
  registry _ b := (.late, b)
  store _ b := (.carriedOut, b)

/-- The first space is held by a worker that waits for the second one, and others wait for the third
and the fourth. -/
def fourSpaces : Table :=
  (((Table.empty.insert (Record.waiting ⟨"s-1"⟩ ⟨"w-1"⟩ ⟨1⟩ default).toHolder (by rfl)).insert
    (.waiting ⟨"s-2"⟩ ⟨"w-1"⟩ ⟨2⟩ default) (by rfl)).insert
    (.waiting ⟨"s-3"⟩ ⟨"w-2"⟩ ⟨3⟩ default) (by rfl)).insert
    (.waiting ⟨"s-4"⟩ ⟨"w-3"⟩ ⟨4⟩ default) (by rfl)

theorem round_perm_fourSpaces :
    let there := round thirdRefused {} [⟨"s-1"⟩, ⟨"s-2"⟩, ⟨"s-3"⟩, ⟨"s-4"⟩] ⟨fourSpaces, {}, ()⟩
    let back := round thirdRefused {} [⟨"s-4"⟩, ⟨"s-3"⟩, ⟨"s-2"⟩, ⟨"s-1"⟩] ⟨fourSpaces, {}, ()⟩
    there.1.Perm back.1 ∧ there.2.state = back.2.state := by
  have reliable : Reliable thirdRefused fun s => (thirdRefused.vendor (.block s) ()).1 :=
    ⟨fun _ _ => rfl, fun _ _ => rfl⟩
  exact round_perm {} reliable rfl (by decide) (by decide) (List.reverse_perm _).symm

end Evaluation

end Interlock
