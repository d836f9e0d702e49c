import Interlock.Proofs.Ordered
import Interlock.Proofs.Signals.Deeds
import Interlock.Schedule.Loops

/-!
Where workers were seen and where they have records. A watcher polls its workers and signals each
change of place once, a dispatcher deals with the signals in their order, and the spaces are
evaluated in between. A signal whose store calls fail is spent: nothing brings it back, and the
watcher, which knows the new place already, has no reason to signal it again. So the records follow
the signals that were carried out, the watcher follows all of them, and the two agree as far as
these two logs do. Specification, section 6: External Interfaces.
-/
namespace Interlock

open Coordinator Store Fleet Interlock.Sequential

/-- Whether a dispatcher that answered so has done what the signal asks for. -/
def Coordinator.Signal.carriedOut : Signal → Option SpaceId → Bool
  | .approaching .., woken => woken.isSome
  | _, woken => woken.isNone

def Coordinator.Signal.isMove : Signal → Bool
  | .approaching .. | .exited .. => true
  | _ => false

namespace Signals

variable {ε : Type}

/-- Whether the last signal about a worker and a space, the latest first, asks for an enrollment. -/
def wants (w : WorkerId) (s : SpaceId) : List Signal → Bool
  | [] => false
  | .approaching v r :: log => if w = v ∧ s = r then true else wants w s log
  | .exited v r :: log => if w = v ∧ s = r then false else wants w s log
  | _ :: log => wants w s log

/-- A watcher, its dispatcher and the coordinator the signals are for. -/
structure Watch (ε : Type) where
  watcher : Watcher
  /-- The signals that nobody has looked at yet, the oldest first. -/
  inbox : List Signal := []
  /-- The signals that have been dealt with, and whether they were carried out, the latest first. -/
  handled : List (Signal × Bool) := []
  scene : Scene Table ε

namespace Watch

def heard (x : Watch ε) : List Signal := x.handled.map Prod.fst

def carried (x : Watch ε) : List Signal := (x.handled.filter Prod.snd).map Prod.fst

def start (workers : List WorkerId) (beyond : ε) : Watch ε :=
  { watcher := ⟨workers, []⟩, scene := ⟨.empty, {}, beyond⟩ }

end Watch

/-- What happens next: a poll of all workers, the oldest signal, or a tick of a space. -/
inductive Turn where
  | poll
  | dispatch
  | tick (s : SpaceId)
  deriving DecidableEq, Repr

namespace Weather

/-- One turn. -/
def turn (W : Weather ε) (c : Coordinator) : Turn → Watch ε → Watch ε
  | .poll, x =>
    let ((signals, m), scene) := x.watcher.poll.runQuiet W.answer x.scene
    { x with watcher := m, inbox := x.inbox ++ signals, scene := scene }
  | .dispatch, x =>
    match x.inbox with
    | [] => x
    | signal :: rest =>
      let (woken, scene) := (c.dispatch signal).runQuiet W.answer x.scene
      { x with
        inbox := rest
        handled := (signal, signal.carriedOut woken) :: x.handled
        scene := scene }
  | .tick s, x =>
    { x with scene := ((Schedule.SpaceLoop.turn c s).runQuiet W.answer x.scene).2 }

def turns (W : Weather ε) (c : Coordinator) (ts : List Turn) (x : Watch ε) : Watch ε :=
  ts.foldl (fun x t => W.turn c t x) x

end Weather

variable {W : Weather ε} {c : Coordinator} {x : Watch ε}

/-! The watcher. -/

/-- The place the watcher knows is the one the signals say, where it has given all of them. -/
def Follows (m : Watcher) (log : List Signal) : Prop :=
  ∀ w s, m.lastSpace w = some s ↔ wants w s log = true

theorem lastSpace_take (m : Watcher) (w v : WorkerId) (now : Option SpaceId) :
    (m.take w (.ok now)).2.lastSpace v = if v = w then now else m.lastSpace v := by
  simp only [Watcher.take, Watcher.lastSpace, List.lookup_cons]
  by_cases own : v = w
  · simp [own]
  · have apart : (v == w) = false := by simpa using own
    rw [apart, if_neg own]
    exact congrArg Option.join (lookup_filter_ne m.last own)

theorem wants_approaching {w : WorkerId} {s t : SpaceId} {log : List Signal} :
    wants w s (.approaching w t :: log) = (decide (t = s) || wants w s log) := by
  by_cases place : s = t
  · simp [wants, place]
  · simp [wants, place, Ne.symm place]

theorem wants_exited {w : WorkerId} {s r : SpaceId} {log : List Signal} :
    wants w s (.exited w r :: log) = (!decide (r = s) && wants w s log) := by
  by_cases place : s = r
  · simp [wants, place]
  · simp [wants, place, Ne.symm place]

/-- The signals of a change of place, after those of all earlier ones, ask for the new place. -/
theorem wants_ofChange {w v : WorkerId} {before now : Option SpaceId} {s : SpaceId}
    {log : List Signal} (known : ∀ r, before = some r ↔ wants w r log = true) :
    wants v s ((Signal.ofChange w before now).reverse ++ log) =
      if v = w then decide (now = some s) else wants v s log := by
  by_cases own : v = w
  · subst own
    have placed : wants v s log = decide (before = some s) := by
      rw [Bool.eq_iff_iff, decide_eq_true_eq, known]
    rw [if_pos rfl]
    cases before with
    | none => cases now <;> simp [Signal.ofChange, wants_approaching, placed]
    | some r =>
      cases now with
      | none => simp [Signal.ofChange, wants_exited, placed]
      | some t =>
        by_cases moved : r = t
        · simpa [Signal.ofChange, moved] using placed
        · simp [Signal.ofChange, moved, wants_approaching, wants_exited, placed]
  · rw [if_neg own]
    have foreign {log : List Signal} {t : SpaceId} :
        wants v s (.approaching w t :: log) = wants v s log ∧
          wants v s (.exited w t :: log) = wants v s log := by
      simp [wants, own]
    cases before with
    | none => cases now <;> simp [Signal.ofChange, foreign]
    | some r =>
      cases now with
      | none => simp [Signal.ofChange, foreign]
      | some t => by_cases moved : r = t <;> simp [Signal.ofChange, moved, foreign]

/-- With the signals of a reading the watcher follows on. -/
theorem Follows.take {m : Watcher} {log : List Signal} (follows : Follows m log) (w : WorkerId)
    (reading : Except FleetError (Option SpaceId)) :
    Follows (m.take w reading).2 ((m.take w reading).1.reverse ++ log) := by
  cases reading with
  | error e => exact follows
  | ok now =>
    intro v s
    rw [lastSpace_take]
    have asks : wants v s ((Signal.ofChange w (m.lastSpace w) now).reverse ++ log) = _ :=
      wants_ofChange (follows w)
    refine Iff.trans ?_ (Bool.eq_iff_iff.1 asks).symm
    by_cases own : v = w
    · simp [own]
    · simpa [own] using follows v s

/-- A change of place is an exit from the old place, an approach to the new one, or both. -/
theorem eq_of_mem_ofChange {w : WorkerId} {before now : Option SpaceId} {signal : Signal}
    (given : signal ∈ Signal.ofChange w before now) :
    ∃ s, signal = .exited w s ∨ signal = .approaching w s := by
  cases before <;> cases now <;> simp only [Signal.ofChange] at given
  · cases given
  · exact ⟨_, .inr (List.mem_singleton.1 given)⟩
  · exact ⟨_, .inl (List.mem_singleton.1 given)⟩
  · split at given
    · cases given
    · rcases List.mem_cons.1 given with left | given
      · exact ⟨_, .inl left⟩
      · exact ⟨_, .inr (List.mem_singleton.1 given)⟩

theorem isMove_of_mem_take {m : Watcher} {w : WorkerId}
    {reading : Except FleetError (Option SpaceId)} {signal : Signal}
    (given : signal ∈ (m.take w reading).1) : signal.isMove = true := by
  cases reading with
  | error e => cases given
  | ok now =>
    obtain ⟨s, rfl | rfl⟩ := eq_of_mem_ofChange given
    · rfl
    · rfl

/-- A poll gives signals about places only, and with them the watcher follows on. -/
theorem pollEach_ends {m : Watcher} {signals log : List Signal} {ws : List WorkerId}
    {x : Scene Table ε} (follows : Follows m (signals.reverse ++ log))
    (moves : ∀ signal ∈ signals, signal.isMove = true) :
    (m.pollEach signals ws).Ends W.answer
      (fun a y => Follows a.2 (a.1.reverse ++ log) ∧ (∀ signal ∈ a.1, signal.isMove = true) ∧
        y.state = x.state) x := by
  induction ws generalizing m signals x with
  | nil => exact ⟨follows, moves, rfl⟩
  | cons w ws ih =>
    have next (reading : Except FleetError (Option SpaceId)) :
        Follows (m.take w reading).2 ((signals ++ (m.take w reading).1).reverse ++ log) ∧
          ∀ signal ∈ signals ++ (m.take w reading).1, signal.isMove = true := by
      refine ⟨?_, fun signal given => ?_⟩
      · rw [List.reverse_append, List.append_assoc]
        exact follows.take w reading
      · rcases List.mem_append.1 given with old | new
        · exact moves signal old
        · exact isMove_of_mem_take new
    unfold Watcher.pollEach robotLocation
    rw [Program.ends_bind]
    refine W.command_ends.mono fun a y same => ?_
    rw [← same]
    cases a with
    | ok location => exact ih (next (.ok location.space)).1 (next (.ok location.space)).2
    | error e =>
      rw [Program.ends_bind, Program.ends_report]
      exact ih (next (.error e)).1 (next (.error e)).2

/-- A poll of all workers, after signals that the watcher follows. -/
theorem poll_ends {m : Watcher} {log : List Signal} {x : Scene Table ε} (follows : Follows m log) :
    m.poll.Ends W.answer
      (fun a y => Follows a.2 (a.1.reverse ++ log) ∧ (∀ signal ∈ a.1, signal.isMove = true) ∧
        y.state = x.state) x :=
  pollEach_ends follows nofun

/-! The dispatcher. -/

theorem ends_reportOutcomes {os : List Outcome} {x : Scene Table ε}
    {post : Unit → Scene Table ε → Prop} :
    (reportOutcomes os).Ends W.answer post x ↔ post () x := by
  unfold reportOutcomes Program.Ends
  rw [Program.runQuiet_sayAll]

/-- What the dispatcher does about an approach succeeds or fails as its answer says. -/
theorem dispatch_approaching_ends {w : WorkerId} {s : SpaceId} {x : Scene Table ε} :
    (c.dispatch (.approaching w s)).Ends W.answer
      (fun woken y => Table.Settles w s True ((Signal.approaching w s).carriedOut woken)
        x.state y.state) x := by
  unfold Coordinator.dispatch
  rw [Program.ends_bind]
  refine Weather.enroll_ends.mono fun a y settles => ?_
  cases a with
  | ok outcome => exact Program.ends_bind.2 (ends_reportOutcomes.2 settles)
  | error e => exact Program.ends_bind.2 (Program.ends_report.2 settles)

/-- What the dispatcher does about an exit succeeds or fails as its answer says. -/
theorem dispatch_exited_ends {w : WorkerId} {s : SpaceId} {x : Scene Table ε} :
    (c.dispatch (.exited w s)).Ends W.answer
      (fun woken y => Table.Settles w s False ((Signal.exited w s).carriedOut woken)
        x.state y.state) x := by
  unfold Coordinator.dispatch
  rw [Program.ends_bind]
  refine Weather.release_ends.mono fun a y settles => ?_
  cases a with
  | ok outcomes => exact Program.ends_bind.2 (ends_reportOutcomes.2 settles)
  | error e => exact Program.ends_bind.2 (Program.ends_report.2 settles)

/-- A signal that is settled leaves the records as the log of what was carried out says. -/
theorem wants_of_settles {t t' : Table} {signal : Signal} {w : WorkerId} {s : SpaceId}
    (asks : Bool) {succeeds : Bool} {log : List Signal}
    (settles : Table.Settles w s (asks = true) succeeds t t')
    (records : ∀ v r, t.Has v r ↔ wants v r log = true)
    (here : wants w s (signal :: log) = asks)
    (elsewhere : ∀ v r, ¬ (v = w ∧ r = s) → wants v r (signal :: log) = wants v r log)
    (v : WorkerId) (r : SpaceId) :
    t'.Has v r ↔ wants v r (if succeeds then signal :: log else log) = true := by
  by_cases own : v = w ∧ r = s
  · obtain ⟨rfl, rfl⟩ := own
    cases succeeds with
    | true => rw [if_pos rfl, here, settles.done rfl]
    | false => rw [settles.failed rfl, records]; rfl
  · rw [settles.others v r own, records]
    cases succeeds with
    | true => rw [if_pos rfl, elsewhere v r own]
    | false => rfl

/-- After a signal the records are those that the log of what was carried out asks for. -/
theorem dispatch_ends {signal : Signal} (move : signal.isMove = true) {log : List Signal}
    {x : Scene Table ε} (records : ∀ w s, x.state.Has w s ↔ wants w s log = true) :
    (c.dispatch signal).Ends W.answer
      (fun woken y => ∀ w s, y.state.Has w s ↔
        wants w s (if signal.carriedOut woken then signal :: log else log) = true) x := by
  cases signal with
  | approaching w s =>
    have settled := dispatch_approaching_ends (W := W) (c := c) (w := w) (s := s) (x := x)
    refine settled.mono fun woken y settles =>
      wants_of_settles true (w := w) (s := s) ?_ records ?_ fun v r other => ?_
    · simpa using settles
    · exact if_pos ⟨rfl, rfl⟩
    · exact if_neg other
  | exited w s =>
    have settled := dispatch_exited_ends (W := W) (c := c) (w := w) (s := s) (x := x)
    refine settled.mono fun woken y settles =>
      wants_of_settles false (w := w) (s := s) ?_ records ?_ fun v r other => ?_
    · simpa using settles
    · exact if_pos ⟨rfl, rfl⟩
    · exact if_neg other
  | abandoned w => cases move
  | evaluate s => cases move

/-! Turns. -/

/-- What holds after any number of turns: the watcher follows all signals it has given, and the
records follow those that were carried out. -/
structure Sound (x : Watch ε) : Prop where
  follows : Follows x.watcher (x.inbox.reverse ++ x.heard)
  records : ∀ w s, x.scene.state.Has w s ↔ wants w s x.carried = true
  moves : ∀ signal ∈ x.inbox, signal.isMove = true

theorem sound_start (workers : List WorkerId) (beyond : ε) :
    Sound (Watch.start workers beyond) where
  follows _ _ := by simp [Watch.start, Watch.heard, Watcher.lastSpace, wants]
  records w s :=
    iff_of_false (Table.not_has_empty w s) (by simp [Watch.start, Watch.carried, wants])
  moves _ given := nomatch given

namespace Sound

theorem poll (sound : Sound x) : Sound (W.turn c .poll x) := by
  obtain ⟨follows, moves, same⟩ := poll_ends (W := W) (x := x.scene) sound.follows
  refine ⟨?_, fun w s => ?_, fun signal given => ?_⟩
  · simpa [Weather.turn, Watch.heard] using follows
  · exact (iff_of_eq (congrArg (Table.Has · w s) same)).trans (sound.records w s)
  · rcases List.mem_append.1 given with old | new
    · exact sound.moves signal old
    · exact moves signal new

theorem tick (sound : Sound x) (s : SpaceId) : Sound (W.turn c (.tick s) x) := by
  have same : (Schedule.SpaceLoop.turn c s).Ends W.answer
      (fun _ y => x.scene.state.SameHas y.state) x.scene := by
    unfold Schedule.SpaceLoop.turn
    rw [Program.ends_bind]
    exact Weather.evaluate_ends.mono fun o y same => ends_reportOutcomes.2 same
  exact ⟨sound.follows, fun w r => (same w r).trans (sound.records w r), sound.moves⟩

theorem dispatch (sound : Sound x) : Sound (W.turn c .dispatch x) := by
  cases inbox : x.inbox with
  | nil => simpa only [Weather.turn, inbox] using sound
  | cons signal rest =>
    have move : signal.isMove = true := sound.moves signal (inbox ▸ List.mem_cons_self)
    have records := dispatch_ends (W := W) (c := c) move sound.records
    have follows := sound.follows
    simp only [Weather.turn, inbox]
    refine ⟨?_, fun w s => (records w s).trans ?_, fun other waits => ?_⟩
    · simpa [inbox, Watch.heard] using follows
    · cases signal.carriedOut ((c.dispatch signal).runQuiet W.answer x.scene).1 <;>
        simp [Watch.carried]
    · exact sound.moves other (inbox ▸ List.mem_cons_of_mem signal waits)

theorem turn (sound : Sound x) (t : Turn) : Sound (W.turn c t x) := by
  cases t with
  | poll => exact sound.poll
  | dispatch => exact sound.dispatch
  | tick s => exact sound.tick s

theorem turns (sound : Sound x) (ts : List Turn) : Sound (W.turns c ts x) := by
  induction ts generalizing x with
  | nil => exact sound
  | cons t ts ih => exact ih (sound.turn t)

end Sound

/-- For every behaviour of the store, the vendor, the registry and the clock, after any number of
turns: a worker has a record in a space exactly if the last signal about the two that was carried
out asks for one. When no signal is left, a worker has its records where the watcher knows it to be,
and nowhere else, exactly if for every space the last signal that was carried out about the two asks
for the same as the last one that was dealt with. -/
theorem records_follow_carried (W : Weather ε) (c : Coordinator) (workers : List WorkerId)
    (beyond : ε) (ts : List Turn) (w : WorkerId) :
    let x := W.turns c ts (.start workers beyond)
    (∀ s, x.scene.state.Has w s ↔ wants w s x.carried = true) ∧
      (x.inbox = [] →
        ((∀ s, x.scene.state.Has w s ↔ x.watcher.lastSpace w = some s) ↔
          ∀ s, wants w s x.carried = wants w s x.heard)) := by
  intro x
  have sound : Sound x := (sound_start workers beyond).turns ts
  refine ⟨sound.records w, fun idle => forall_congr' fun s => ?_⟩
  have known := sound.follows w s
  rw [idle] at known
  exact (iff_congr (sound.records w s) known).trans Bool.eq_iff_iff.symm

/-- A world whose store answers every call but the first, and whose workers are at a space from the
start. -/
def stumbling : Weather Nat where
  clock n := ((1, ⟨0, 0⟩), n)
  vendor c n :=
    match c with
    | .location w => (.inTime (.ok ⟨w, "", 0, 0, some ⟨"s-1"⟩, ⟨0, 0⟩⟩), n)
    | .status _ => (.late, n)
    | .block _ | .unblock _ => (.inTime (.ok ()), n)
  registry _ n := (.inTime (.ok ()), n)
  store _ n := (if n = 0 then .late else .carriedOut, n + 1)

/-- The store fails once, under the only signal of a worker. The store works again, the worker is
polled again where it was, the space is evaluated twice, and the worker has no record there. -/
theorem records_follow_carried_lostApproach :
    let x := stumbling.turns {} [.poll, .dispatch, .poll, .tick ⟨"s-1"⟩, .poll, .tick ⟨"s-1"⟩]
      (.start [⟨"w-1"⟩] 0)
    x.inbox = [] ∧ x.heard = [.approaching ⟨"w-1"⟩ ⟨"s-1"⟩] ∧ x.carried = [] ∧
      ¬ ∀ s, x.scene.state.Has ⟨"w-1"⟩ s ↔ x.watcher.lastSpace ⟨"w-1"⟩ = some s := by
  intro x
  refine ⟨rfl, rfl, rfl, fun agrees => ?_⟩
  have asked := (records_follow_carried stumbling {} [⟨"w-1"⟩] 0
    [.poll, .dispatch, .poll, .tick ⟨"s-1"⟩, .poll, .tick ⟨"s-1"⟩] ⟨"w-1"⟩).2 rfl
  have same : wants ⟨"w-1"⟩ ⟨"s-1"⟩ [] = wants ⟨"w-1"⟩ ⟨"s-1"⟩ [.approaching ⟨"w-1"⟩ ⟨"s-1"⟩] :=
    asked.1 agrees ⟨"s-1"⟩
  exact absurd same (by decide)

end Signals

end Interlock
