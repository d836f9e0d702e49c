import Interlock.Proofs.Concurrent.Moves
import Interlock.Proofs.Concurrent.Runs
import Interlock.Proofs.Store.Holders

/-!
Mutual exclusion. A space is a lock that at most one worker holds, and a worker is a lock that keeps
at most one space; both are the same argument. For each lock the marks in the history take turns:
a grant only when the lock is free, a vacation only of what was granted last. So the last mark says
whether the lock is taken and by which holder record, whatever the other coordinators looked at.
Specification, section 3: Data Model.
-/
namespace Interlock

open Coordinator Store

theorem Coordinator.Operation.Changes.addsWaiting {o : Operation} {c : Store.Call}
    (changes : o.Changes c) : c.AddsWaiting := by
  cases c with
  | add r => exact changes.2
  | addIfAbsent r => exact changes.2
  | _ => trivial

namespace Concurrent

/-- What can be held once: a space, or a worker that may hold one space only. -/
inductive Lock where
  | space (s : SpaceId)
  | worker (w : WorkerId)

def Lock.concerns : Lock → SpaceId → WorkerId → Bool
  | .space s', s, _ => s' == s
  | .worker w', _, w => w' == w

def Event.mark? (e : Event) : Option Mark := e.effect?.bind fun (_, c, t) => c.mark? t

def marks (l : Lock) (history : List Event) : List Mark :=
  (history.filterMap Event.mark?).filter fun m => l.concerns m.space m.worker

/-- Grants and vacations in turns, the latest first: a grant comes first or right after a vacation,
and a vacation right after the grant of the same space to the same worker. -/
inductive Turns : List Mark → Prop
  | nil : Turns []
  | granted {s : SpaceId} {w : WorkerId} {ms : List Mark} (turns : Turns ms)
      (free : ∀ s' w', ms.head? ≠ some (.granted s' w')) : Turns (.granted s w :: ms)
  | vacated {s : SpaceId} {w : WorkerId} {ms : List Mark} (turns : Turns (.granted s w :: ms)) :
    Turns (.vacated s w :: .granted s w :: ms)

/-- The marks of a lock take turns and the last one tells who holds it. -/
structure Lock.Kept (l : Lock) (history : List Event) (t : Table) : Prop where
  turns : Turns (marks l history)
  last : ∀ s w, (marks l history).head? = some (.granted s w) ↔
    ∃ r ∈ t.holders, r.space = s ∧ r.worker = w ∧ l.concerns s w = true

theorem marks_cons {l : Lock} {e : Event} {older : List Event} :
    marks l (e :: older) =
      (e.mark?.toList.filter fun m => l.concerns m.space m.worker) ++ marks l older := by
  cases mark : e.mark? <;> simp [marks, mark, List.filter_cons]
  split <;> rfl

namespace Lock

variable {l : Lock} {history : List Event} {t : Table}

/-- A lock is taken by one holder record only. -/
theorem Kept.unique (kept : l.Kept history t) {a b : Record} (ha : a ∈ t.holders)
    (hb : b ∈ t.holders) (ca : l.concerns a.space a.worker = true)
    (cb : l.concerns b.space b.worker = true) : a = b := by
  have taken := (kept.last a.space a.worker).2 ⟨a, ha, rfl, rfl, ca⟩
  rw [(kept.last b.space b.worker).2 ⟨b, hb, rfl, rfl, cb⟩] at taken
  simp only [Option.some.injEq, Mark.granted.injEq] at taken
  exact t.holders_eq_of_space ha hb taken.1.symm

/-- Where a swap may happen every lock it takes is free. -/
theorem concerns_eq_false_of_swappable {new old : Record} (may : t.Swappable new old)
    (concerned : l.concerns new.space new.worker = true) :
    ∀ r ∈ t.holders, l.concerns r.space r.worker = false := by
  intro r held
  rw [Table.mem_holders] at held
  cases l with
  | space s =>
    simp only [concerns, beq_iff_eq] at concerned
    have other := Table.holder_eq_none_iff.1 may.free r held.1 held.2
    simpa [concerns, concerned] using Ne.symm other
  | worker w =>
    simp only [concerns, beq_iff_eq] at concerned
    have other := Table.heldBy_eq_none_iff.1 may.idle r held.1 held.2
    simpa [concerns, concerned] using Ne.symm other

variable {e : Event} {t' : Table}

/-- A lock stays kept where nothing happens to it. -/
theorem Kept.of_same (kept : l.Kept history t) (same : marks l (e :: history) = marks l history)
    (holders : ∀ r, l.concerns r.space r.worker = true → (r ∈ t'.holders ↔ r ∈ t.holders)) :
    l.Kept (e :: history) t' := by
  refine ⟨same ▸ kept.turns, fun s w => ?_⟩
  rw [same, kept.last]
  constructor
  · rintro ⟨r, held, rfl, rfl, concerned⟩
    exact ⟨r, (holders r concerned).2 held, rfl, rfl, concerned⟩
  · rintro ⟨r, held, rfl, rfl, concerned⟩
    exact ⟨r, (holders r concerned).1 held, rfl, rfl, concerned⟩

/-- A lock stays kept when a swap grants a space. -/
theorem Kept.of_granted (kept : l.Kept history t) {new old : Record}
    (marked : e.mark? = some (.granted new.space new.worker)) (may : t.Swappable new old)
    (added : ∀ r, r ∈ t'.holders ↔ r = new ∨ r ∈ t.holders) : l.Kept (e :: history) t' := by
  by_cases concerned : l.concerns new.space new.worker = true
  · have free := concerns_eq_false_of_swappable may concerned
    have listed : marks l (e :: history) = .granted new.space new.worker :: marks l history := by
      simp [marks_cons, marked, Mark.space, Mark.worker, concerned]
    refine ⟨listed ▸ .granted kept.turns fun s w taken => ?_, fun s w => ?_⟩
    · obtain ⟨r, held, rfl, rfl, taken⟩ := (kept.last s w).1 taken
      rw [free r held] at taken
      cases taken
    · simp only [listed, List.head?_cons, Option.some.injEq, Mark.granted.injEq, added]
      constructor
      · rintro ⟨rfl, rfl⟩
        exact ⟨new, .inl rfl, rfl, rfl, concerned⟩
      · rintro ⟨r, rfl | held, rfl, rfl, taken⟩
        · exact ⟨rfl, rfl⟩
        · rw [free r held] at taken
          cases taken
  · refine kept.of_same (by simp [marks_cons, marked, Mark.space, Mark.worker, concerned])
      fun r taken => ?_
    rw [added, or_iff_right]
    rintro rfl
    exact concerned taken

/-- A lock stays kept when a deletion vacates a space. -/
theorem Kept.of_vacated (kept : l.Kept history t) {h : Record}
    (marked : e.mark? = some (.vacated h.space h.worker)) (held : h ∈ t.holders)
    (removed : ∀ r, r ∈ t'.holders ↔ r ∈ t.holders ∧ r ≠ h) : l.Kept (e :: history) t' := by
  by_cases concerned : l.concerns h.space h.worker = true
  · have listed : marks l (e :: history) = .vacated h.space h.worker :: marks l history := by
      simp [marks_cons, marked, Mark.space, Mark.worker, concerned]
    have taken := (kept.last h.space h.worker).2 ⟨h, held, rfl, rfl, concerned⟩
    obtain ⟨ms, before⟩ := List.head?_eq_some_iff.1 taken
    refine ⟨?_, fun s w => ?_⟩
    · rw [listed, before]
      exact .vacated (before ▸ kept.turns)
    · simp only [listed, List.head?_cons, Option.some.injEq, reduceCtorEq, removed, false_iff]
      rintro ⟨r, ⟨still, other⟩, rfl, rfl, concerned'⟩
      exact other (kept.unique still held concerned' concerned)
  · refine kept.of_same (by simp [marks_cons, marked, Mark.space, Mark.worker, concerned])
      fun r taken => ?_
    rw [removed, and_iff_left]
    rintro rfl
    exact concerned taken

end Lock

namespace System

variable {x y : System} {e : Event}

/-- What a step means for the holders: nothing, a grant of a free lock, or a vacation that a
release or an abandonment asked for. -/
inductive Turnover (x : System) (e : Event) (y : System) : Prop
  | none (unmarked : e.mark? = none) (same : ∀ r, r ∈ y.table.holders ↔ r ∈ x.table.holders)
  | granted {new old : Record} {o : Operation}
      (marked : e.mark? = some (.granted new.space new.worker))
      (effect : e.effect? = some (o, .swap new old, x.table)) (may : x.table.Swappable new old)
      (added : ∀ r, r ∈ y.table.holders ↔ r = new ∨ r ∈ x.table.holders)
  | vacated {h d : Record} {o : Operation} (marked : e.mark? = some (.vacated h.space h.worker))
      (effect : e.effect? = some (o, .delete d, x.table)) (held : h ∈ x.table.holders)
      (key : d.key = h.key) (own : d.worker = h.worker) (goes : o.LetsGo h.worker h.space)
      (removed : ∀ r, r ∈ y.table.holders ↔ r ∈ x.table.holders ∧ r ≠ h)

/-- Every step leaves the holders, grants or vacates. -/
theorem Step.turnover (step : Step x e y) (sound : Sound x) : Turnover x e y := by
  cases effect : e.effect? with
  | none =>
    refine .none (by rw [Event.mark?, effect]; rfl) fun r => ?_
    rw [step.table_of_none effect]
  | some made =>
    obtain ⟨o, c, t⟩ := made
    obtain ⟨rfl, after⟩ := step.table_of_effect effect
    have changes := (step.sound sound).orderly.changes
      (step.history ▸ List.mem_cons_self) effect
    have marked : e.mark? = c.mark? x.table := by rw [Event.mark?, effect]; rfl
    cases mark : c.mark? x.table with
    | none =>
      refine .none (marked.trans mark) fun r => ?_
      rw [after]
      exact Store.Call.mem_holders_of_unmarked changes.addsWaiting mark
    | some m =>
      cases m with
      | granted s w =>
        obtain ⟨new, old, rfl, may, rfl, rfl, added⟩ := Store.Call.of_mark?_granted mark
        exact .granted (marked.trans mark) effect may (after ▸ added)
      | vacated s w =>
        obtain ⟨d, h, rfl, held, key, own, rfl, rfl, removed⟩ := Store.Call.of_mark?_vacated mark
        have goes : o.LetsGo h.worker h.space := by
          rw [show h.space = d.space from congrArg RecordKey.space key, own]
          exact changes
        exact .vacated (marked.trans mark) effect held key.symm own.symm goes (after ▸ removed)

/-- Every lock stays kept. -/
theorem Step.kept (step : Step x e y) (sound : Sound x) {l : Lock}
    (kept : l.Kept x.history x.table) : l.Kept y.history y.table := by
  rw [step.history]
  cases step.turnover sound with
  | none unmarked same => exact kept.of_same (by simp [marks_cons, unmarked]) fun r _ => same r
  | granted marked effect may added => exact kept.of_granted marked may added
  | vacated marked effect held key own goes removed => exact kept.of_vacated marked held removed

theorem kept_opening (l : Lock) (minters : Nat → Minter) :
    l.Kept (opening .empty minters).history (opening .empty minters).table where
  turns := .nil
  last s w := by simp [opening, marks, Table.holders, Table.empty]

/-- In every run from an empty table every lock is kept. -/
theorem Run.kept {fits : Event → Prop} {minters : Nat → Minter}
    (run : Run fits (opening .empty minters) x) (l : Lock) : l.Kept x.history x.table := by
  induction run with
  | here => exact kept_opening l minters
  | step run step fit ih => exact step.kept run.sound ih

/-- What mutual exclusion says of a system: two holder records with one space or one worker are the
same; a step leaves a holder record exactly as it is, unless a release or an abandonment of its
worker deletes it; and for each space and for each worker grants and vacations alternate. -/
structure Exclusive (x : System) : Prop where
  unique : ∀ a ∈ x.table.holders, ∀ b ∈ x.table.holders,
    a.space = b.space ∨ a.worker = b.worker → a = b
  removed : ∀ e y, Step x e y → ∀ r ∈ x.table.holders, r ∉ y.table.holders →
    ∃ o d, e.effect? = some (o, .delete d, x.table) ∧ d.key = r.key ∧ d.worker = r.worker ∧
      (o = .release r.worker r.space ∨ o = .abandon r.worker)
  alternate : ∀ l : Lock, Turns (marks l x.history)

/-- Mutual exclusion over every interleaving of any operations from an empty table, whatever fails
and whenever a call that its caller gave up takes effect. -/
theorem mutual_exclusion {minters : Nat → Minter}
    (run : Run (fun _ => True) (opening .empty minters) x) : Exclusive x where
  unique a ha b hb same := by
    rcases same with space | worker
    · exact x.table.holders_eq_of_space ha hb space
    · exact (run.kept (.worker a.worker)).unique ha hb (by simp [Lock.concerns])
        (by simp [Lock.concerns, worker])
  removed e y step r held gone := by
    cases step.turnover run.sound with
    | none _ same => exact absurd ((same r).2 held) gone
    | granted _ _ _ added => exact absurd ((added r).2 (.inr held)) gone
    | vacated marked effect held' key own goes removed =>
      rename_i h d o
      by_cases other : r = h
      · subst other
        exact ⟨o, d, effect, key, own, goes⟩
      · exact absurd ((removed r).2 ⟨held, other⟩) gone
  alternate l := (run.kept l).turns

/-- Two workers enroll, the first is granted the space and is released, and the second follows. -/
def handover : List Move :=
  [.begin 0 .atOnce {} (.enroll ⟨"w-1"⟩ ⟨"s-1"⟩), .begin 1 .inTwoCalls {} (.enroll ⟨"w-2"⟩ ⟨"s-1"⟩),
    .begin 2 .atOnce {} (.evaluate ⟨"s-1"⟩), .begin 3 .atOnce {} (.release ⟨"w-1"⟩ ⟨"s-1"⟩)] ++
  List.replicate 2 (.go 0) ++ List.replicate 3 (.go 1) ++ List.replicate 6 (.go 2) ++
  List.replicate 11 (.go 3)

theorem mutual_exclusion_handover :
    ∃ x, Run (fun _ => True) (opening .empty fun _ => {}) x ∧ Exclusive x ∧
      x.table.holders.map Record.worker = [⟨"w-2"⟩] ∧
      marks (.space ⟨"s-1"⟩) x.history =
        [.granted ⟨"s-1"⟩ ⟨"w-2"⟩, .vacated ⟨"s-1"⟩ ⟨"w-1"⟩, .granted ⟨"s-1"⟩ ⟨"w-1"⟩] := by
  have ran : ((opening .empty fun _ => {}).follow handover).map
      (fun x => (x.table.holders.map Record.worker, marks (.space ⟨"s-1"⟩) x.history)) =
    some ([⟨"w-2"⟩],
      [.granted ⟨"s-1"⟩ ⟨"w-2"⟩, .vacated ⟨"s-1"⟩ ⟨"w-1"⟩, .granted ⟨"s-1"⟩ ⟨"w-1"⟩]) := by rfl
  obtain ⟨x, followed, seen⟩ := Option.map_eq_some_iff.1 ran
  have run : Run (fun _ => True) (opening .empty fun _ => {}) x :=
    (run_of_follow followed).imp fun _ _ => trivial
  obtain ⟨holders, marked⟩ := Prod.mk.inj seen
  exact ⟨x, run, mutual_exclusion run, holders, marked⟩

end System

end Concurrent

end Interlock
