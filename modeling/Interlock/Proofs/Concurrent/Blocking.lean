import Interlock.Proofs.Concurrent.Exclusion

/-!
What the vendor was told last about a held space. A swap comes right after a block of its space, so
a held space has been blocked. An unblock comes right after a look at the space; if the look already
showed the present holder, then the unblock is part of letting this holder go. What is left are
unblocks that rest on a look from before the swap: nothing stops them from coming too late.
Specification, section 4.3: Shared Space Coordinator.
-/
namespace Interlock.Concurrent

open Coordinator Store Fleet

def concernsSpace (s : SpaceId) (c : Command) : Bool := c == .block s || c == .unblock s

def commandsOn (s : SpaceId) (history : List Event) : List Command :=
  (history.filterMap Event.command?).filter (concernsSpace s)

/-- The last command on the space of a holder was an unblock, and the task that sent it had looked
at the space in the call before. If the look found this very holder, then the task releases or
abandons its worker. -/
inductive Excused (r : Record) : List Event → Prop
  | intro {late between early : List Event} {i : Nat} {o : Operation} {a : Action}
      {answer : a.Answer} {limit : Option Time.Duration}
      {done : Timed (Command.unblock r.space).Answer} {t seen : Table}
      (latest : commandsOn r.space late = []) (justBefore : logOf i between = [])
      (look : Look o r.space a answer)
      (own : r ∈ seen.holders → o = .release r.worker r.space ∨ o = .abandon r.worker) :
    Excused r
      (late ++ .call i o (.vendor limit (.unblock r.space)) done .done t ::
        (between ++ .call i o a answer .done seen :: early))

theorem commandsOn_cons {s : SpaceId} {e : Event} {older : List Event} :
    commandsOn s (e :: older) =
      e.command?.toList.filter (concernsSpace s) ++ commandsOn s older := by
  cases command : e.command? <;> simp [commandsOn, command, List.filter_cons]
  split <;> rfl

/-- The last command on a space was carried out at some time and there was none since. -/
theorem split_of_commandsOn {s : SpaceId} {history : List Event} {c : Command}
    (last : (commandsOn s history).head? = some c) :
    ∃ late i o l r t early, history = late ++ .call i o (.vendor l c) r .done t :: early ∧
      commandsOn s late = [] ∧ concernsSpace s c = true := by
  induction history with
  | nil => cases last
  | cons e older ih =>
    rw [commandsOn_cons] at last
    cases own : e.command?.toList.filter (concernsSpace s) with
    | nil =>
      rw [own, List.nil_append] at last
      obtain ⟨late, i, o, l, r, t, early, rfl, none, concerned⟩ := ih last
      refine ⟨e :: late, i, o, l, r, t, early, rfl, ?_, concerned⟩
      rw [commandsOn_cons, own, none]
      rfl
    | cons c' cs =>
      rw [own, List.cons_append, List.head?_cons, Option.some.injEq] at last
      subst last
      have listed : c' ∈ e.command?.toList.filter (concernsSpace s) := by
        rw [own]
        exact List.mem_cons_self
      obtain ⟨command, concerned⟩ := List.mem_filter.1 listed
      obtain ⟨i, o, l, r, t, rfl⟩ := Event.of_command?_eq_some (Option.mem_toList.1 command)
      exact ⟨[], i, o, l, r, t, older, rfl, rfl, concerned⟩

/-- A look that shows a holder calls for an unblock only to let this holder go. -/
theorem Look.letsGo {o : Operation} {r : Record} {a : Action} {answer : a.Answer}
    {t t' : Table} {minters minters' : Nat → Minter} (look : Look o r.space a answer)
    (effect : Effect t minters a answer t' minters') (seen : r ∈ t.holders) :
    o.LetsGo r.worker r.space := by
  cases look with
  | held goes holds =>
    have shown := effect.answer_eq
    simp only [Call.apply, Timed.inTime.injEq, Except.ok.injEq] at shown
    subst shown
    obtain ⟨h, found, isHolder⟩ := List.any_eq_true.1 holds
    obtain ⟨stored, space, worker⟩ := Table.mem_find.1 found
    have same : r = h :=
      t.holders_eq_of_space seen (Table.mem_holders.2 ⟨stored, isHolder⟩) space.symm
    rw [same, worker]
    exact same ▸ goes
  | free =>
    have shown := effect.answer_eq
    simp only [Call.apply, Timed.inTime.injEq, Except.ok.injEq] at shown
    obtain ⟨stored, isHolder⟩ := Table.mem_holders.1 seen
    exact absurd rfl (Table.holder_eq_none_iff.1 shown.symm r stored isHolder)

/-- A look is never a swap or a publication, so in a calm history it was carried out. -/
theorem Look.fate_eq {o o' : Operation} {s : SpaceId} {a : Action} {answer : a.Answer} {i : Nat}
    {fate : Fate} {t : Table} (look : Look o s a answer)
    (calm : (Event.call i o' a answer fate t).calm = true) : fate = .done := by
  cases look <;> exact Event.fate_eq_done_of_calm calm rfl

namespace System

variable {x y : System} {e : Event} {minters : Nat → Minter}

/-- A space is blocked before it is granted. -/
theorem Step.blocked {new old : Record} {o : Operation} {t : Table} (step : Step x e y)
    (sound : Sound x) (calm : ∀ e' ∈ y.history, e'.calm = true)
    (effect : e.effect? = some (o, .swap new old, t)) :
    .block new.space ∈ commandsOn new.space x.history := by
  have fit := calm e (by simp [step.history])
  rcases Event.of_effect?_eq_some effect with ⟨i, l, r, rfl⟩ | rfl
  · obtain ⟨rfl, had⟩ := step.allows sound
    obtain ⟨late, o', a, answer, fate, t', early, split, -, blocked⟩ := split_of_justHad had
    have fit' := calm (.call i o' a answer fate t') (by simp [step.history, split])
    cases blocked with
    | ok =>
      obtain rfl := Event.fate_eq_done_of_calm fit' rfl
      simp [commandsOn, split, Event.command?, concernsSpace]
  · cases fit

/-- Every held space has been blocked. -/
theorem Run.blocked (run : Run (·.calm = true) (opening .empty minters) x) :
    ∀ r ∈ x.table.holders, .block r.space ∈ commandsOn r.space x.history := by
  induction run with
  | here => exact fun r held => nomatch held
  | step run step fit ih =>
    rename_i y z e
    intro r held
    have earlier {s : SpaceId} (blocked : .block s ∈ commandsOn s y.history) :
        .block s ∈ commandsOn s z.history := by
      rw [step.history, commandsOn_cons]
      exact List.mem_append_right _ blocked
    cases step.turnover run.sound with
    | none unmarked same => exact earlier (ih r ((same r).1 held))
    | granted marked effect may added =>
      rcases (added r).1 held with rfl | held
      · exact earlier (step.blocked run.sound (run.step step fit).fits effect)
      · exact earlier (ih r held)
    | vacated marked effect held' key own goes removed =>
      exact earlier (ih r ((removed r).1 held).1)

/-- In a run without failures the last command on a held space is a block, unless it is an unblock
that lets this holder go or rests on a look from before it held the space. -/
theorem block_or_excused (run : Run (·.calm = true) (opening .empty minters) x) {r : Record}
    (held : r ∈ x.table.holders) :
    (commandsOn r.space x.history).head? = some (.block r.space) ∨ Excused r x.history := by
  have blocked := run.blocked r held
  cases last : (commandsOn r.space x.history).head? with
  | none =>
    rw [List.head?_eq_none_iff] at last
    rw [last] at blocked
    cases blocked
  | some c =>
    obtain ⟨late, i, o, l, answered, t, early, split, latest, concerned⟩ := split_of_commandsOn last
    simp only [concernsSpace, Bool.or_eq_true, beq_iff_eq] at concerned
    rcases concerned with rfl | rfl
    · exact .inl rfl
    · refine .inr ?_
      -- the unblock was allowed, so the task had just looked at the space
      have orderly := run.sound.orderly
      rw [split] at orderly
      obtain ⟨between, o', a, answer, fate, seen, early', rfl, justBefore, look⟩ :=
        split_of_justHad orderly.split
      have sent : Event.call i o (.vendor l (.unblock r.space)) answered .done t ∈ x.history := by
        simp [split]
      have looked : Event.call i o' a answer fate seen ∈ x.history := by simp [split]
      obtain rfl : o' = o := run.sound.operation_eq looked sent rfl rfl
      obtain rfl := look.fate_eq (run.fits _ looked)
      have faithful := run.faithful
      rw [split] at faithful
      obtain ⟨rfl, told⟩ := Throughout.split (faithful.tail.2)
      obtain ⟨minters, t', minters', effect⟩ := told rfl
      rw [split]
      exact .intro latest justBefore look fun seen => look.letsGo effect seen

/-- Two workers wait. An evaluation blocks the space for the first one, which withdraws before the
swap; the evaluation sees a free space and is going to take its block back. A second evaluation
grants the space to the second worker, and only then the unblock goes out. -/
def overtaken : List Move :=
  [.begin 0 .atOnce {} (.enroll ⟨"w-1"⟩ ⟨"s-1"⟩), .begin 1 .atOnce {} (.enroll ⟨"w-2"⟩ ⟨"s-1"⟩),
    .begin 2 .atOnce {} (.evaluate ⟨"s-1"⟩), .begin 3 .atOnce {} (.release ⟨"w-1"⟩ ⟨"s-1"⟩),
    .begin 4 .atOnce {} (.evaluate ⟨"s-1"⟩)] ++
  List.replicate 2 (.go 0) ++ List.replicate 2 (.go 1) ++ List.replicate 4 (.go 2) ++
  List.replicate 3 (.go 3) ++ List.replicate 2 (.go 2) ++ List.replicate 6 (.go 4) ++ [.go 2]

/-- What can be seen of a system: who holds which space, and the commands on a space. -/
def shownOf (s : SpaceId) (x : System) : List (SpaceId × WorkerId) × List Command :=
  (x.table.holders.map fun r => (r.space, r.worker), commandsOn s x.history)

theorem follow_overtaken :
    ∃ x, (opening .empty fun _ => {}).follow overtaken = some x ∧
      shownOf ⟨"s-1"⟩ x =
        ([(⟨"s-1"⟩, ⟨"w-2"⟩)], [.unblock ⟨"s-1"⟩, .block ⟨"s-1"⟩, .block ⟨"s-1"⟩]) ∧
      (List.range 5).all x.ended = true := by
  have ran : ((opening .empty fun _ => {}).follow overtaken).map
      (fun x => (shownOf ⟨"s-1"⟩ x, (List.range 5).all x.ended)) =
    some (([(⟨"s-1"⟩, ⟨"w-2"⟩)], [.unblock ⟨"s-1"⟩, .block ⟨"s-1"⟩, .block ⟨"s-1"⟩]), true) := by
    rfl
  obtain ⟨x, followed, seen⟩ := Option.map_eq_some_iff.1 ran
  exact ⟨x, followed, Prod.mk.inj seen⟩

theorem block_or_excused_overtaken :
    ∃ x r, Run (·.calm = true) (opening .empty fun _ => {}) x ∧ r ∈ x.table.holders ∧
      Excused r x.history := by
  obtain ⟨x, followed, seen, -⟩ := follow_overtaken
  obtain ⟨holders, commands⟩ := Prod.mk.inj seen
  obtain ⟨r, held, space⟩ : ∃ r ∈ x.table.holders, (r.space, r.worker) = (⟨"s-1"⟩, ⟨"w-2"⟩) := by
    rw [← List.mem_map, holders]
    exact List.mem_cons_self
  have run := run_of_follow followed
  refine ⟨x, r, run, held, (block_or_excused run held).resolve_left fun blocked => ?_⟩
  rw [(Prod.mk.inj space).1, commands] at blocked
  cases blocked

/-- A held space need not be blocked. It is not while its own holder is being released, between the
unblock and the deletion; and it may stay unblocked when every operation has come to its end. -/
theorem held_space_unblocked :
    (∃ x, Run (·.calm = true) (opening .empty fun _ => {}) x ∧
      shownOf ⟨"s-1"⟩ x =
        ([(⟨"s-1"⟩, ⟨"w-1"⟩)], [.unblock ⟨"s-1"⟩, .block ⟨"s-1"⟩])) ∧
    ∃ x, Run (·.calm = true) (opening .empty fun _ => {}) x ∧
      shownOf ⟨"s-1"⟩ x =
        ([(⟨"s-1"⟩, ⟨"w-2"⟩)], [.unblock ⟨"s-1"⟩, .block ⟨"s-1"⟩, .block ⟨"s-1"⟩]) ∧
      ∀ i < 5, x.ended i = true := by
  constructor
  · have ran : ((opening .empty fun _ => {}).follow (handover.take 17)).map (shownOf ⟨"s-1"⟩) =
      some ([(⟨"s-1"⟩, ⟨"w-1"⟩)], [.unblock ⟨"s-1"⟩, .block ⟨"s-1"⟩]) := by rfl
    obtain ⟨x, followed, seen⟩ := Option.map_eq_some_iff.1 ran
    exact ⟨x, run_of_follow followed, seen⟩
  · obtain ⟨x, followed, seen, ended⟩ := follow_overtaken
    refine ⟨x, run_of_follow followed, seen, fun i small => ?_⟩
    exact List.all_eq_true.1 ended i (List.mem_range.2 small)

end System

end Interlock.Concurrent
