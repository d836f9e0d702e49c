import Interlock.Proofs.Signals.Watch
import Mathlib.Data.List.Destutter

/-!
The story of a worker as a watcher tells it. Whatever the vendor answers, poll after poll, the
signals about a worker are its visits one after the other, each with its approach and its exit; only
the visit it is on has no exit yet. So the signals are the places the worker was read in, without
the readings that say nothing new. Specification, section 6: External Interfaces.
-/
namespace Interlock

open Coordinator Fleet Program

def Coordinator.Signal.worker? : Signal → Option WorkerId
  | .approaching w _ | .exited w _ | .abandoned w => some w
  | .evaluate _ => none

/-- Polls one after the other, with the signals of all of them. -/
def Coordinator.Watcher.polls (m : Watcher) (signals : List Signal) :
    Nat → Plan (List Signal × Watcher)
  | 0 => return (signals, m)
  | n + 1 => do
    let (new, m) ← m.poll
    m.polls (signals ++ new) n

namespace Signals

def about (w : WorkerId) (signals : List Signal) : List Signal :=
  signals.filter (·.worker? = some w)

abbrev Reading := WorkerId × Except FleetError (Option SpaceId)

/-- The reading a call to the vendor has led to. -/
def reading? : (a : Action) × a.Answer → Option Reading
  | ⟨.vendor l (.location w), r⟩ =>
    some (w, (vendorAnswer { command := l } (.location w) r).map RobotLocation.space)
  | _ => none

def readings (log : Log actions) : List Reading := log.reverse.filterMap reading?

/-- Where a worker was read, by the readings of it that succeeded. -/
def places (w : WorkerId) (rs : List Reading) : List (Option SpaceId) :=
  rs.filterMap fun r => if r.1 = w then r.2.toOption else none

def asking (w : WorkerId) : Action := .vendor none (.location w)

/-- The signals of a whole visit: the approach and the exit. -/
def visit (w : WorkerId) : Option SpaceId → List Signal
  | none => []
  | some s => [.approaching w s, .exited w s]

/-- The exit that is yet to come from a worker at this place. -/
def owed (w : WorkerId) : Option SpaceId → List Signal
  | none => []
  | some s => [.exited w s]

/-- Signals that tell a story of a worker: approach and exit in turns, the approach first and every
exit from the space of the approach before it. The place is the one that was not left yet. -/
inductive Story (w : WorkerId) : List Signal → Option SpaceId → Prop
  | begins : Story w [] none
  | comes {told : List Signal} (s : SpaceId) (before : Story w told none) :
    Story w (told ++ [.approaching w s]) (some s)
  | leaves {told : List Signal} {s : SpaceId} (before : Story w told (some s)) :
    Story w (told ++ [.exited w s]) none

namespace Story

variable {w : WorkerId} {told : List Signal} {place now : Option SpaceId}

/-- A story goes on with the signals of a change of place. -/
theorem change (story : Story w told place) (now : Option SpaceId) :
    Story w (told ++ Signal.ofChange w place now) now := by
  cases place with
  | none =>
    cases now with
    | none => simpa [Signal.ofChange] using story
    | some t => exact story.comes t
  | some s =>
    cases now with
    | none => exact story.leaves
    | some t =>
      by_cases same : s = t
      · subst same
        simpa [Signal.ofChange] using story
      · have moved := story.leaves.comes t
        simpa [Signal.ofChange, same] using moved

/-- The last signal of a story is an approach exactly if the worker has not left since. -/
theorem getLast?_eq (story : Story w told place) (s : SpaceId) :
    told.getLast? = some (.approaching w s) ↔ place = some s := by
  cases story <;> simp

end Story

/-! Signals and visits. -/

theorem about_append (w : WorkerId) (signals new : List Signal) :
    about w (signals ++ new) = about w signals ++ about w new := List.filter_append ..

theorem worker?_of_mem_ofChange {w : WorkerId} {before now : Option SpaceId} {signal : Signal}
    (given : signal ∈ Signal.ofChange w before now) : signal.worker? = some w := by
  obtain ⟨s, rfl | rfl⟩ := eq_of_mem_ofChange given
  · rfl
  · rfl

theorem worker?_of_mem_take {m : Watcher} {w : WorkerId}
    {reading : Except FleetError (Option SpaceId)} {signal : Signal}
    (given : signal ∈ (m.take w reading).1) : signal.worker? = some w := by
  cases reading with
  | error e => cases given
  | ok now => exact worker?_of_mem_ofChange given

theorem about_ofChange (v w : WorkerId) (before now : Option SpaceId) :
    about v (Signal.ofChange w before now) =
      if v = w then Signal.ofChange w before now else [] := by
  by_cases own : v = w
  · subst own
    rw [if_pos rfl]
    exact List.filter_eq_self.2 fun signal given => by simp [worker?_of_mem_ofChange given]
  · rw [if_neg own]
    refine List.filter_eq_nil_iff.2 fun signal given => ?_
    simp [worker?_of_mem_ofChange given, Ne.symm own]

/-- A change of place settles the exit that was owed, and adds a visit that still owes its own. -/
theorem ofChange_append_owed (w : WorkerId) (before now : Option SpaceId) :
    Signal.ofChange w before now ++ owed w now =
      owed w before ++ if before = now then [] else visit w now := by
  cases before with
  | none => cases now <;> simp [Signal.ofChange, owed, visit]
  | some s =>
    cases now with
    | none => simp [Signal.ofChange, owed, visit]
    | some t => by_cases same : s = t <;> simp [Signal.ofChange, owed, visit, same]

/-- One more element counts if it differs from the last. -/
theorem destutter_append_singleton {α : Type} [DecidableEq α] (l : List α) (b : α) :
    (l ++ [b]).destutter (· ≠ ·) =
      l.destutter (· ≠ ·) ++ if l.getLast? = some b then [] else [b] := by
  cases l with
  | nil => rfl
  | cons a l =>
    simp only [List.cons_append, List.destutter_cons']
    induction l generalizing a with
    | nil => by_cases same : a = b <;> simp [same]
    | cons c l ih =>
      rw [List.cons_append, List.getLast?_cons_cons]
      by_cases same : a = c
      · subst same
        simpa using ih a
      · rw [List.destutter'_cons_pos _ same, List.destutter'_cons_pos _ same, ih c]
        rfl

/-- One more place adds a visit if it is another place than the last. -/
theorem visits_append_singleton (w : WorkerId) (l : List (Option SpaceId)) (now : Option SpaceId) :
    ((l ++ [now]).destutter (· ≠ ·)).flatMap (visit w) =
      (l.destutter (· ≠ ·)).flatMap (visit w) ++
        if l.getLast?.join = now then [] else visit w now := by
  rw [destutter_append_singleton, List.flatMap_append]
  congr 1
  cases last : l.getLast? with
  | none => cases now <;> simp [visit]
  | some before => by_cases same : before = now <;> simp [same]

/-! Readings. -/

/-- What a watcher has told by the time of some readings: of every worker the whole story. -/
structure Told (rs : List Reading) (signals : List Signal) (m : Watcher) : Prop where
  known : ∀ w, m.lastSpace w = (places w rs).getLast?.join
  story : ∀ w, Story w (about w signals) (m.lastSpace w)
  visits : ∀ w, about w signals ++ owed w (m.lastSpace w) =
    ((places w rs).destutter (· ≠ ·)).flatMap (visit w)

theorem told_start (workers : List WorkerId) : Told [] [] ⟨workers, []⟩ where
  known _ := rfl
  story _ := .begins
  visits _ := rfl

variable {m : Watcher} {rs : List Reading} {signals : List Signal}

theorem places_append (v w : WorkerId) (rs : List Reading)
    (r : Except FleetError (Option SpaceId)) :
    places v (rs ++ [(w, r)]) = places v rs ++ if w = v then r.toOption.toList else [] := by
  by_cases own : w = v
  · subst own
    cases r <;> simp [places, Except.toOption]
  · simp [places, own]

/-- With the signals of one more reading the watcher has told all of it. -/
theorem Told.take (told : Told rs signals m) (w : WorkerId)
    (r : Except FleetError (Option SpaceId)) :
    Told (rs ++ [(w, r)]) (signals ++ (m.take w r).1) (m.take w r).2 := by
  cases r with
  | error e =>
    have same (v : WorkerId) : places v (rs ++ [(w, .error e)]) = places v rs := by
      simp [places_append, Except.toOption]
    have unchanged : m.take w (.error e) = ([], m) := rfl
    rw [unchanged, List.append_nil]
    refine ⟨fun v => ?_, told.story, fun v => ?_⟩
    · rw [same]
      exact told.known v
    · rw [same]
      exact told.visits v
  | ok now =>
    have given : (m.take w (.ok now)).1 = Signal.ofChange w (m.lastSpace w) now := rfl
    rw [given]
    have there (v : WorkerId) : places v (rs ++ [(w, .ok now)]) =
        places v rs ++ if w = v then [now] else [] := places_append ..
    have elsewhere {v : WorkerId} (other : v ≠ w) :
        (m.take w (.ok now)).2.lastSpace v = m.lastSpace v ∧
        places v (rs ++ [(w, .ok now)]) = places v rs ∧
        about v (signals ++ Signal.ofChange w (m.lastSpace w) now) = about v signals := by
      refine ⟨?_, ?_, ?_⟩
      · rw [lastSpace_take, if_neg other]
      · rw [there, if_neg (Ne.symm other), List.append_nil]
      · rw [about_append, about_ofChange, if_neg other, List.append_nil]
    have moved : (m.take w (.ok now)).2.lastSpace w = now := by rw [lastSpace_take, if_pos rfl]
    have grown : about w (signals ++ Signal.ofChange w (m.lastSpace w) now) =
        about w signals ++ Signal.ofChange w (m.lastSpace w) now := by
      rw [about_append, about_ofChange, if_pos rfl]
    refine ⟨fun v => ?_, fun v => ?_, fun v => ?_⟩
    · by_cases own : v = w
      · subst own
        simp [moved, there]
      · rw [(elsewhere own).1, (elsewhere own).2.1]
        exact told.known v
    · by_cases own : v = w
      · subst own
        rw [moved, grown]
        exact (told.story v).change now
      · rw [(elsewhere own).1, (elsewhere own).2.2]
        exact told.story v
    · by_cases own : v = w
      · subst own
        rw [moved, grown, there, if_pos rfl, visits_append_singleton, ← told.visits, ← told.known,
          List.append_assoc, List.append_assoc, ofChange_append_owed]
      · rw [(elsewhere own).1, (elsewhere own).2.1, (elsewhere own).2.2]
        exact told.visits v

/-! Polls. -/

/-- One more answer of the vendor is one more reading, which the watcher takes in. -/
theorem readings_cons (log : Log actions) (w : WorkerId) (r : (asking w).Answer) :
    readings (⟨asking w, r⟩ :: log) =
      readings log ++ [(w, (vendorAnswer {} (.location w) r).map RobotLocation.space)] := by
  simp [readings, asking, reading?]

/-- What a watcher has told by the end of a log, in which it has asked for these workers. -/
structure Kept (workers asked : List WorkerId) (log : Log actions) (signals : List Signal)
    (m : Watcher) : Prop where
  workers : m.workers = workers
  calls : log.reverse.map Sigma.fst = asked.map asking
  own : ∀ signal ∈ signals, ∃ w ∈ asked, signal.worker? = some w
  told : Told (readings log) signals m

theorem Kept.take {workers asked : List WorkerId} {log : Log actions}
    (kept : Kept workers asked log signals m) (w : WorkerId) {r : (asking w).Answer}
    {reading : Except FleetError (Option SpaceId)}
    (read : (vendorAnswer {} (.location w) r).map RobotLocation.space = reading) :
    Kept workers (asked ++ [w]) (⟨asking w, r⟩ :: log) (signals ++ (m.take w reading).1)
      (m.take w reading).2 := by
  refine ⟨?_, ?_, fun signal given => ?_, ?_⟩
  · rw [← kept.workers]
    cases reading <;> rfl
  · simp [kept.calls]
  · rcases List.mem_append.1 given with old | new
    · obtain ⟨v, mem, own⟩ := kept.own signal old
      exact ⟨v, List.mem_append_left _ mem, own⟩
    · exact ⟨w, by simp, worker?_of_mem_take new⟩
  · rw [readings_cons, read]
    exact kept.told.take w reading

/-- Questions to some of the workers, after older signals that are told already. -/
theorem Kept.pollEach {workers asked ws : List WorkerId} {log : Log actions} {old : List Signal}
    (kept : Kept workers asked log (old ++ signals) m) :
    (m.pollEach signals ws).Keeps ⟨fun _ _ => True, fun _ _ => True⟩
      (fun log a => Kept workers (asked ++ ws) log (old ++ a.1) a.2) log := by
  induction ws generalizing asked log signals m with
  | nil =>
    rw [List.append_nil]
    exact kept
  | cons w ws ih =>
    have next (r : (asking w).Answer) (reading : Except FleetError (Option SpaceId))
        (read : (vendorAnswer {} (.location w) r).map RobotLocation.space = reading) :
        ((m.take w reading).2.pollEach (signals ++ (m.take w reading).1) ws).Keeps
          ⟨fun _ _ => True, fun _ _ => True⟩
          (fun log a => Kept workers (asked ++ w :: ws) log (old ++ a.1) a.2)
          (⟨asking w, r⟩ :: log) := by
      have taken := kept.take w read
      rw [List.append_assoc] at taken
      have rest := ih taken
      rwa [List.append_assoc] at rest
    unfold Watcher.pollEach robotLocation
    refine keeps_bind.2 (keeps_command.2 ⟨trivial, fun a _ => ?_, fun _ => ?_⟩)
    · cases a with
      | ok location => exact next (.inTime (.ok location)) (.ok location.space) rfl
      | error e => exact keeps_bind.2 (keeps_report.2 (next (.inTime (.error e)) (.error e) rfl))
    · exact keeps_bind.2 (keeps_report.2 (next .late (.error _) rfl))

theorem Kept.polls {workers asked : List WorkerId} {log : Log actions}
    (kept : Kept workers asked log signals m) (n : Nat) :
    (m.polls signals n).Keeps ⟨fun _ _ => True, fun _ _ => True⟩
      (fun log a => Kept workers (asked ++ (List.replicate n workers).flatten) log a.1 a.2)
      log := by
  induction n generalizing asked log signals m with
  | zero => simpa [Watcher.polls] using kept
  | succ n ih =>
    have polled : m.poll.Keeps ⟨fun _ _ => True, fun _ _ => True⟩
        (fun log a => Kept workers (asked ++ workers) log (signals ++ a.1) a.2) log := by
      rw [← List.append_nil signals] at kept
      rw [Watcher.poll, kept.workers]
      exact kept.pollEach
    unfold Watcher.polls
    refine keeps_bind.2 (polled.mono fun log a kept => ?_)
    have rest := ih kept
    rwa [List.append_assoc, ← List.flatten_cons, ← List.replicate_succ] at rest

/-- For every vendor, however its answers come about, and for every list of workers: a watcher that
polls any number of times asks for its workers in their order, one poll after the other, and gives
signals about them alone. The signals about a worker tell a story, in which it is where the last
reading that succeeded has found it, and an approach without an exit is the last signal exactly if
that place is its space. With the exit that is yet to come they are the visits to all places the
worker was read in, where readings that failed do not count, nor those that repeat the place. -/
theorem story_told_once {σ : Type} (answer : (a : Action) → σ → a.Answer × σ) (x : σ)
    (workers : List WorkerId) (n : Nat) :
    (Watcher.polls ⟨workers, []⟩ [] n).Ends (recorded answer)
      (fun a y =>
        y.1.reverse.map Sigma.fst = (List.replicate n workers).flatten.map asking ∧
        (∀ signal ∈ a.1, ∃ w ∈ workers, signal.worker? = some w) ∧
        ∀ w,
          let read := places w (readings y.1)
          let told := about w a.1
          Story w told read.getLast?.join ∧
          (∀ s, told.getLast? = some (.approaching w s) ↔ read.getLast? = some (some s)) ∧
          told ++ owed w read.getLast?.join = (read.destutter (· ≠ ·)).flatMap (visit w))
      ([], x) := by
  have start : Kept workers [] [] [] ⟨workers, []⟩ := ⟨rfl, rfl, nofun, told_start workers⟩
  refine ((start.polls n).ends answer x).mono fun a y kept => ?_
  obtain ⟨-, calls, own, told⟩ := kept
  refine ⟨calls, fun signal given => ?_, fun w => ?_⟩
  · obtain ⟨w, asked, named⟩ := own signal given
    obtain ⟨poll, among, mem⟩ := List.mem_flatten.1 asked
    rw [List.eq_of_mem_replicate among] at mem
    exact ⟨w, mem, named⟩
  · have story := told.story w
    have visits := told.visits w
    rw [told.known] at story visits
    refine ⟨story, fun s => (story.getLast?_eq s).trans ?_, visits⟩
    rw [Option.join_eq_some_iff]

/-- A worker that is listed twice is seen in a space, cannot be read, is seen there again, moves to
another space directly, and leaves. -/
example :
    let there (s : Option SpaceId) : Timed (Except FleetError RobotLocation) :=
      .inTime (.ok ⟨⟨"w-1"⟩, "", 0, 0, s, ⟨0, 0⟩⟩)
    let answer : (a : Action) → List (Timed (Except FleetError RobotLocation)) →
        a.Answer × List (Timed (Except FleetError RobotLocation))
      | .vendor _ (.location _), rs => (rs.headD .late, rs.tail)
      | .vendor _ (.status _), rs | .vendor _ (.block _), rs | .vendor _ (.unblock _), rs =>
        (.late, rs)
      | .store .., rs | .publish .., rs => (.late, rs)
      | .stamp _, rs => (⟨⟨0⟩, ⟨0, 0⟩⟩, rs)
    (((Watcher.polls ⟨[⟨"w-1"⟩, ⟨"w-1"⟩], []⟩ [] 3).runQuiet answer
        [there (some ⟨"s-1"⟩), .late, there (some ⟨"s-1"⟩), there (some ⟨"s-2"⟩), there none,
          there none]).1).1 =
      [.approaching ⟨"w-1"⟩ ⟨"s-1"⟩, .exited ⟨"w-1"⟩ ⟨"s-1"⟩, .approaching ⟨"w-1"⟩ ⟨"s-2"⟩,
        .exited ⟨"w-1"⟩ ⟨"s-2"⟩] := by
  rfl

end Signals

end Interlock
