import Interlock.Proofs.Ordered
import Interlock.Proofs.Schedule.Wakeups
import Interlock.Proofs.Schedule.Work

/-!
Crews lose no wake-up. A crew at work is watched, and notes are taken: of every point that its
dispatcher comes to, and of the first call of every turn of one loop. What a crew does at one time
it does to its end or until it has to wait. So a dispatcher that has come to where a signal calls
for an evaluation has woken the loop at the same time, and the loop keeps the permit until its next
turn. Specification, section 5: Concurrency & Resource Model.
-/
namespace Interlock

namespace Program

variable {I : Interface} {α : Type} {p q : Program I α} {es log : Log I}

/-- The program makes these calls with these answers, the earliest first, and comes to what is left
of it then. -/
inductive Makes : Program I α → Log I → Program I α → Prop
  | here {p : Program I α} : Makes p [] p
  | goesOn {p q : Program I α} {c : I.Call} {next : I.Answer c → Program I α} {r : I.Answer c}
      {es : Log I} (calls : p.heed = .call c next) (rest : Makes (next r) es q) :
    Makes p (⟨c, r⟩ :: es) q

theorem Makes.reaches {first : Program I α} {x : Log I} (makes : p.Makes es q)
    (reaches : first.Reaches logged x p log) :
    first.Reaches logged x q (es.reverseAux log) := by
  induction makes generalizing log with
  | here => exact reaches
  | goesOn calls rest ih => exact ih (reaches.snoc _ calls)

theorem Makes.note (n : Trace.Note) (makes : p.Makes es q) :
    ∃ q', (Program.note n p).Makes es q' ∧ q'.heed = q.heed := by
  cases makes with
  | here => exact ⟨_, .here, rfl⟩
  | goesOn calls rest => exact ⟨q, .goesOn calls rest, rfl⟩

end Program

namespace Schedule

open Coordinator Program

variable {σ α : Type} {site : Site σ} {c : Coordinator} {s : SpaceId} {now period : Nat} {y y' : σ}

namespace Site

/-- The calls of a program that goes as far as it can without waiting, the earliest first. -/
def answered (site : Site σ) (now : Nat) (stack : List Trace.Span) : Plan α → σ → Log actions
  | .done _, _ => []
  | .note n rest, y => site.answered now (n.spans stack) rest (site.note n stack y)
  | .call a next, y =>
    match site.advanceBase now stack (site.expand a y).1 (site.expand a y).2 with
    | (.ended v, z) =>
      ⟨a, a.answer (some v)⟩ :: site.answered now stack (next (a.answer (some v))) z
    | (.waiting .., _) => []

/-- The calls of a suspended program that wakes, the earliest first. -/
def answeredOn (site : Site σ) (now : Nat) (t : site.Suspended α) (y : σ) : Log actions :=
  if t.due ≤ now then
    match site.advanceBase now t.innerStack (t.inner (site.finish t.call t.ticket y).1)
      (site.finish t.call t.ticket y).2 with
    | (.ended v, z) =>
      ⟨t.action, t.action.answer (some v)⟩ ::
        site.answered now t.stack (t.next (t.action.answer (some v))) z
    | (.waiting .., _) => []
  else
    ⟨t.action, t.action.answer none⟩ ::
      site.answered now t.stack (t.next (t.action.answer none)) y

/-- What is left of a program that has made some progress. -/
def Progress.Leaves : site.Progress α → Plan α → Prop
  | .ended a, rest => rest.heed = .done a
  | .suspended t, rest => rest.heed = .call t.action t.next

theorem Progress.Leaves.congr {progress : site.Progress α} {rest rest' : Plan α}
    (leaves : progress.Leaves rest) (same : rest'.heed = rest.heed) : progress.Leaves rest' := by
  cases progress with
  | ended a => exact same.trans leaves
  | suspended t => exact same.trans leaves

theorem advance_makes (site : Site σ) (now : Nat) (stack : List Trace.Span) (p : Plan α) (y : σ) :
    ∃ rest, p.Makes (site.answered now stack p y) rest ∧
      (site.advance now stack p y).1.Leaves rest := by
  induction p generalizing stack y with
  | done a => exact ⟨_, .here, rfl⟩
  | note n p ih =>
    obtain ⟨rest, makes, leaves⟩ := ih (n.spans stack) (site.note n stack y)
    obtain ⟨rest', makes, same⟩ := makes.note n
    exact ⟨rest', makes, leaves.congr same⟩
  | call a next ih =>
    rcases base : site.advanceBase now stack (site.expand a y).1 (site.expand a y).2 with ⟨_ | _, z⟩
    · next v =>
      obtain ⟨rest, makes, leaves⟩ := ih (a.answer (some v)) stack z
      simp only [Site.answered, Site.advance, base]
      exact ⟨rest, .goesOn rfl makes, leaves⟩
    · simp only [Site.answered, Site.advance, base]
      exact ⟨_, .here, rfl⟩

theorem resume_makes (now : Nat) (t : site.Suspended α) (y : σ) {p : Plan α}
    (calls : p.heed = .call t.action t.next) :
    ∃ rest, p.Makes (site.answeredOn now t y) rest ∧ (site.resume now t y).1.Leaves rest := by
  have answered (r : t.action.Answer) (z : σ) :
      ∃ rest, p.Makes (⟨t.action, r⟩ :: site.answered now t.stack (t.next r) z) rest ∧
        (site.advance now t.stack (t.next r) z).1.Leaves rest := by
    obtain ⟨rest, makes, leaves⟩ := site.advance_makes now t.stack (t.next r) z
    exact ⟨rest, .goesOn calls makes, leaves⟩
  by_cases due : t.due ≤ now
  · rcases base : site.advanceBase now t.innerStack
      (t.inner (site.finish t.call t.ticket y).1) (site.finish t.call t.ticket y).2 with ⟨v | _, z⟩
    · simpa only [Site.resume, Site.answeredOn, due, if_true, base] using
        answered (t.action.answer (some v)) z
    · refine ⟨p, ?_, ?_⟩
      · simp only [Site.answeredOn, due, if_true, base]
        exact .here
      · simp only [Site.resume, due, if_true, base]
        exact calls
  · simpa only [Site.resume, Site.answeredOn, due, if_false] using answered (t.action.answer none) y

end Site

/-! Notes about a crew. -/

/-- What has been noted: the signal that the dispatcher has taken last, with the calls made for it,
and all moments, the latest first. -/
structure Notes where
  signal : Option Signal := none
  log : Log actions := []
  history : List Moment := []

/-- The points the dispatcher comes to by these calls, the latest first. -/
def points (signal : Signal) : Log actions → Log actions → List Moment
  | _, [] => []
  | log, e :: es => points signal (e :: log) es ++ [.desk signal (e :: log)]

/-- The first call of a turn. -/
def beginning (turn : Plan Unit) : List Moment :=
  match turn.heed with
  | .call a _ => [.call [] a]
  | _ => []

namespace Notes

def takes (n : Notes) (signal : Signal) (es : Log actions) : Notes :=
  { n with
    signal := some signal
    log := es.reverseAux []
    history := points signal [] es ++ .desk signal [] :: n.history }

def goesOn (n : Notes) (signal : Signal) (es : Log actions) : Notes :=
  { n with log := es.reverseAux n.log, history := points signal n.log es ++ n.history }

def begins (n : Notes) (turn : Plan Unit) : Notes :=
  { n with history := beginning turn ++ n.history }

end Notes

/-- A crew that has not been closed since its start, with what has been noted of it: it is sent
signals, and does one piece of work after the other, at any time and with its site in any state. A
turn of the loop begins when the loop was parked, and has brought it where it is then. Of a poll
nothing is noted, whatever comes of it. -/
inductive Crew.Noted (s : SpaceId) (first : Crew site) : Crew site → Notes → Prop
  | start : Noted s first first {}
  | sent {crew : Crew site} {n : Notes} (noted : Noted s first crew n) (signals : List Signal) :
    Noted s first (crew.send signals) n
  | takes {crew : Crew site} {n : Notes} (noted : Noted s first crew n) {signal : Signal}
      {later : List Signal} (now : Nat) (y : σ) (idle : crew.dispatcher.phase = .idle)
      (front : crew.dispatcher.inbox = signal :: later) :
    Noted s first
      (settleSignal { crew with dispatcher := { crew.dispatcher with inbox := later } }
        (site.advance now [] (crew.coordinator.dispatch signal) y)).1
      (n.takes signal (site.answered now [] (crew.coordinator.dispatch signal) y))
  | goesOn {crew : Crew site} {n : Notes} (noted : Noted s first crew n) {signal : Signal}
      {t : site.Suspended (Option SpaceId)} (now : Nat) (y : σ)
      (busy : crew.dispatcher.phase = .handling t) (taken : n.signal = some signal) :
    Noted s first (crew.settleSignal (site.resume now t y)).1
      (n.goesOn signal (site.answeredOn now t y))
  | begins {crew : Crew site} {n : Notes} (noted : Noted s first crew n)
      {loops : List (SpaceLoop site)} {l : SpaceLoop site} (now : Nat) (y : σ) {y' : σ}
      (stepped : crew.stepLoops? now y crew.loops = some (loops, y'))
      (found : crew.loops.find? (fun l => l.space == s) = some l) (parked : l.phase = .parked)
      (turned : loops.find? (fun l => l.space == s) =
        some ((l.consume crew.period now).settle crew.closing
          (site.advance now [] (SpaceLoop.turn crew.coordinator s) y)).1) :
    Noted s first { crew with loops := loops } (n.begins (SpaceLoop.turn crew.coordinator s))
  | evaluates {crew : Crew site} {n : Notes} (noted : Noted s first crew n)
      {loops : List (SpaceLoop site)} (now : Nat) (y : σ) {y' : σ}
      (stepped : crew.stepLoops? now y crew.loops = some (loops, y'))
      (still : ∀ l, crew.loops.find? (fun l => l.space == s) = some l → l.phase = .parked →
        loops.find? (fun l => l.space == s) = some l) :
    Noted s first { crew with loops := loops } n
  | polls {crew : Crew site} {n : Notes} (noted : Noted s first crew n) (l : WatchLoop site)
      (p : site.Progress (List Signal × Watcher) × σ) :
    Noted s first (crew.settlePoll l p).1 n

variable {crew crew' : Crew site} {n : Notes} {signal : Signal} {log es : Log actions}
  {rest q : Plan (Option SpaceId)} {history : List Moment}

theorem isStart_points {m : Moment} (noted : m ∈ points signal log es) : m.isStart = false := by
  induction es generalizing log with
  | nil => cases noted
  | cons e es ih =>
    rcases List.mem_append.1 noted with later | here
    · exact ih later
    · rw [List.mem_singleton.1 here]
      rfl

theorem recent_append {ms : List Moment} (ordinary : ∀ m ∈ ms, m.isStart = false) :
    recent (ms ++ history) = ms ++ recent history :=
  List.takeWhile_append_of_pos fun m within => by simp [ordinary m within]

/-- Where a signal calls for an evaluation no more calls are made for it. -/
theorem ended_of_calls (reaches : (c.dispatch signal).Reaches logged [] rest log)
    (calls : Post.Calls c s signal log) (makes : rest.Makes es q) : q.heed = .done (some s) := by
  cases makes with
  | here => exact calls.heed_eq reaches
  | goesOn calls' rest => cases (calls.heed_eq reaches).symm.trans calls'

/-- A signal that calls for an evaluation at a point has been dealt with when the dispatcher comes
to rest. -/
theorem ended_of_points {signal' : Signal} {log' : Log actions}
    (reaches : (c.dispatch signal).Reaches logged [] rest log) (makes : rest.Makes es q)
    (noted : .desk signal' log' ∈ points signal log es) (calls : Post.Calls c s signal' log') :
    q.heed = .done (some s) := by
  induction makes generalizing log with
  | here => cases noted
  | goesOn calls' makes ih =>
    rcases List.mem_append.1 noted with later | here
    · exact ih (reaches.snoc _ calls') later
    · cases List.mem_singleton.1 here
      exact ended_of_calls (reaches.snoc _ calls') calls makes

theorem beginning_turn (c : Coordinator) (s : SpaceId) :
    beginning (SpaceLoop.turn c s) = [.call [] (look c s)] := rfl

/-! What a piece of work does to the loop of a space. -/

theorem space_of_find? {l : SpaceLoop site} {loops : List (SpaceLoop site)}
    (found : loops.find? (fun l => l.space == s) = some l) : l.space = s := by
  simpa using List.find?_some found

/-- Waking a space wakes the loop of that space. -/
theorem find?_wake {l : SpaceLoop site} (woken : SpaceId)
    (found : crew.loops.find? (fun l => l.space == s) = some l) :
    (crew.wake woken).loops.find? (fun l => l.space == s) =
      some (if l.space == woken then l.wake else l) := by
  have same : ((fun l : SpaceLoop site => l.space == s) ∘
      fun l => if l.space == woken then l.wake else l) = fun l => l.space == s := by
    funext l
    by_cases here : l.space = woken <;> simp [here, SpaceLoop.wake]
  rw [Crew.wake, List.find?_map, same, found]
  rfl

/-- One of the loops does a piece of work: that of the space, or another one. -/
theorem find?_stepLoops {l : SpaceLoop site} {loops loops' : List (SpaceLoop site)}
    (found : loops.find? (fun l => l.space == s) = some l)
    (step : crew.stepLoops? now y loops = some (loops', y')) :
    loops'.find? (fun l => l.space == s) = some l ∨
      ∃ l' z, l.step? crew.coordinator crew.period crew.closing now y = some (l', z) ∧
        loops'.find? (fun l => l.space == s) = some l' := by
  induction loops generalizing loops' with
  | nil => cases found
  | cons a rest ih =>
    unfold Crew.stepLoops? at step
    split at step
    next a' z stepped =>
      obtain ⟨rfl, rfl⟩ := Prod.mk.inj (Option.some.inj step)
      have space := SpaceLoop.step?_space stepped
      cases own : a.space == s with
      | true =>
        simp only [List.find?_cons, own] at found
        obtain rfl := Option.some.inj found
        exact .inr ⟨a', z, stepped, by simp [space, own]⟩
      | false =>
        simp only [List.find?_cons, own] at found
        exact .inl (by simp [space, own, found])
    next waits =>
      obtain ⟨⟨rest', z⟩, stepped, same⟩ := Option.map_eq_some_iff.1 step
      obtain ⟨rfl, rfl⟩ := Prod.mk.inj same
      cases own : a.space == s with
      | true =>
        simp only [List.find?_cons, own] at found
        obtain rfl := Option.some.inj found
        exact .inl (by simp [own])
      | false =>
        simp only [List.find?_cons, own] at found ⊢
        exact ih found stepped

namespace Crew

theorem settlePoll_frame (l : WatchLoop site) (p : site.Progress (List Signal × Watcher) × σ) :
    (crew.settlePoll l p).1.coordinator = crew.coordinator ∧
      (crew.settlePoll l p).1.loops = crew.loops ∧
        (crew.settlePoll l p).1.dispatcher.phase = crew.dispatcher.phase := by
  obtain ⟨⟨signals, m⟩ | t, y⟩ := p
  · simp only [settlePoll]
    split <;> exact ⟨rfl, rfl, rfl⟩
  · exact ⟨rfl, rfl, rfl⟩

/-- What holds of a crew and its notes at any time. The dispatcher waits where its log says; every
turn has begun with a look; and the loop has a permit if a signal has called for an evaluation since
its last turn. -/
structure Kept (c : Coordinator) (s : SpaceId) (crew : Crew site) (n : Notes) : Prop where
  coordinator : crew.coordinator = c
  isOpen : crew.closing = false
  desk : ∀ t, crew.dispatcher.phase = .handling t → ∃ signal rest, n.signal = some signal ∧
    (c.dispatch signal).Reaches logged [] rest n.log ∧ rest.heed = .call t.action t.next
  looks : ∀ a, .call [] a ∈ n.history → a = look c s
  loop : ∃ l, crew.loops.find? (fun l => l.space == s) = some l ∧ ∀ signal log,
    .desk signal log ∈ recent n.history → Post.Calls c s signal log → l.permit = true

namespace Kept

/-- The dispatcher comes to rest. If a signal has called for an evaluation on the way, it is done
and wakes the loop. -/
theorem settles (crew : Crew site) (log : Log actions) (history : List Moment)
    {p : site.Progress (Option SpaceId) × σ} (isOpen : crew.closing = false)
    (looks : ∀ a, .call [] a ∈ history → a = look crew.coordinator s) {l : SpaceLoop site}
    (found : crew.loops.find? (fun l => l.space == s) = some l)
    (reaches : (crew.coordinator.dispatch signal).Reaches logged [] q log) (leaves : p.1.Leaves q)
    (heard : ∀ signal' log', .desk signal' log' ∈ recent history →
      Post.Calls crew.coordinator s signal' log' → l.permit = true ∨ q.heed = .done (some s)) :
    Kept crew.coordinator s (crew.settleSignal p).1 ⟨some signal, log, history⟩ := by
  obtain ⟨woken | t, y⟩ := p
  · cases woken with
    | none =>
      refine ⟨rfl, isOpen, ?_, looks, l, found, fun signal' log' late calls => ?_⟩
      · simp [settleSignal, isOpen]
      · refine (heard signal' log' late calls).resolve_right fun ended => ?_
        cases ended.symm.trans leaves
    | some woken =>
      refine ⟨rfl, isOpen, ?_, looks, _, find?_wake woken found, fun signal' log' late calls => ?_⟩
      · simp [settleSignal, wake, isOpen]
      · rcases heard signal' log' late calls with permit | ended
        · split
          · rfl
          · exact permit
        · cases ended.symm.trans leaves
          simp [space_of_find? found, SpaceLoop.wake]
  · refine ⟨rfl, isOpen, ?_, looks, l, found, fun signal' log' late calls => ?_⟩
    · rintro t' handling
      cases handling
      exact ⟨signal, q, rfl, reaches, leaves⟩
    · refine (heard signal' log' late calls).resolve_right fun ended => ?_
      cases ended.symm.trans leaves

theorem takes (kept : Kept c s crew n) {later : List Signal} (now : Nat) (y : σ) :
    Kept c s
      (settleSignal { crew with dispatcher := { crew.dispatcher with inbox := later } }
        (site.advance now [] (crew.coordinator.dispatch signal) y)).1
      (n.takes signal (site.answered now [] (crew.coordinator.dispatch signal) y)) := by
  obtain ⟨rfl, isOpen, -, looks, l, found, permit⟩ := kept
  obtain ⟨q, makes, leaves⟩ := site.advance_makes now [] (crew.coordinator.dispatch signal) y
  refine settles { crew with dispatcher := { crew.dispatcher with inbox := later } } _ _ isOpen
    (fun a made => ?_) found (makes.reaches .here) leaves fun signal' log' late calls => ?_
  · rcases List.mem_append.1 made with point | made
    · cases isStart_points point
    · rcases List.mem_cons.1 made with same | made
      · cases same
      · exact looks a made
  · rw [recent_append fun m => isStart_points] at late
    rcases List.mem_append.1 late with point | late
    · exact .inr (ended_of_points .here makes point calls)
    · rcases List.mem_cons.1 late with same | late
      · cases same
        exact .inr (ended_of_calls .here calls makes)
      · exact .inl (permit signal' log' late calls)

theorem goesOn (kept : Kept c s crew n) {t : site.Suspended (Option SpaceId)} (now : Nat) (y : σ)
    (busy : crew.dispatcher.phase = .handling t) (taken : n.signal = some signal) :
    Kept c s (crew.settleSignal (site.resume now t y)).1
      (n.goesOn signal (site.answeredOn now t y)) := by
  obtain ⟨rfl, isOpen, desk, looks, l, found, permit⟩ := kept
  obtain ⟨_, rest, same, reaches, calls⟩ := desk t busy
  cases taken.symm.trans same
  obtain ⟨q, makes, leaves⟩ := Site.resume_makes now t y calls
  have further := settles crew ((site.answeredOn now t y).reverseAux n.log)
    (points signal n.log (site.answeredOn now t y) ++ n.history) isOpen (fun a made => ?_)
    found (makes.reaches reaches) leaves fun signal' log' late calls => ?_
  · rw [Notes.goesOn, taken]
    exact further
  · rcases List.mem_append.1 made with point | made
    · cases isStart_points point
    · exact looks a made
  · rw [recent_append fun m => isStart_points] at late
    rcases List.mem_append.1 late with point | late
    · exact .inr (ended_of_points reaches makes point calls)
    · exact .inl (permit signal' log' late calls)

theorem begins (kept : Kept c s crew n) {loops : List (SpaceLoop site)} {l' : SpaceLoop site}
    (found' : loops.find? (fun l => l.space == s) = some l') :
    Kept c s { crew with loops := loops } (n.begins (SpaceLoop.turn crew.coordinator s)) := by
  obtain ⟨rfl, isOpen, desk, looks, -⟩ := kept
  refine ⟨rfl, isOpen, desk, fun a made => ?_, l', found', fun signal log late => ?_⟩
  · rw [Notes.begins, beginning_turn] at made
    rcases List.mem_cons.1 made with same | made
    · cases same
      rfl
    · exact looks a made
  · rw [Notes.begins, beginning_turn] at late
    cases late

/-- A loop whose turn goes on has the permit it had. -/
theorem evaluates (kept : Kept c s crew n) {loops : List (SpaceLoop site)}
    (stepped : crew.stepLoops? now y crew.loops = some (loops, y'))
    (still : ∀ l, crew.loops.find? (fun l => l.space == s) = some l → l.phase = .parked →
      loops.find? (fun l => l.space == s) = some l) :
    Kept c s { crew with loops := loops } n := by
  obtain ⟨same, isOpen, desk, looks, l, found, permit⟩ := kept
  refine ⟨same, isOpen, desk, looks, ?_⟩
  rcases find?_stepLoops found stepped with found' | ⟨l', z, own, found'⟩
  · exact ⟨l, found', permit⟩
  · obtain ⟨parked, -⟩ | ⟨t, -, rfl⟩ := SpaceLoop.step?_cases own
    · exact ⟨l, still l found parked, permit⟩
    · exact ⟨_, found', by simpa using permit⟩

theorem polls (kept : Kept c s crew n) (l : WatchLoop site)
    (p : site.Progress (List Signal × Watcher) × σ) : Kept c s (crew.settlePoll l p).1 n := by
  obtain ⟨coordinator, loops, phase⟩ := crew.settlePoll_frame l p
  exact ⟨coordinator.trans kept.coordinator, (settlePoll_closing l p).trans kept.isOpen,
    by simpa only [phase] using kept.desk, kept.looks, by simpa only [loops] using kept.loop⟩

/-- A crew at its start has a new loop for each of its spaces. -/
theorem start (site : Site σ) (own : s ∈ c.spaces) (workers : List WorkerId) (now : Nat) :
    Kept c s (Crew.start c workers now : Crew site) {} where
  coordinator := rfl
  isOpen := rfl
  desk _ busy := nomatch busy
  looks _ made := nomatch made
  loop := by
    have listed : s ∈ Coordinator.distinctSpaces c.spaces := by
      simpa only [Coordinator.distinctSpaces, mem_eraseReps, List.mem_mergeSort] using own
    have there : ((Coordinator.distinctSpaces c.spaces).find? (· == s)).isSome :=
      List.find?_isSome.2 ⟨s, listed, beq_self_eq_true s⟩
    obtain ⟨a, found⟩ := Option.isSome_iff_exists.1 there
    exact ⟨_, List.find?_map.trans (congrArg _ found), fun _ _ late => nomatch late⟩

end Kept

/-- However a crew goes on, what holds at its start still holds. -/
theorem Noted.kept {first : Crew site} (noted : Noted s first crew n)
    (start : Kept c s first {}) : Kept c s crew n := by
  induction noted with
  | start => exact start
  | sent noted signals ih => exact ⟨ih.coordinator, ih.isOpen, ih.desk, ih.looks, ih.loop⟩
  | takes noted now y idle front ih => exact ih.takes now y
  | goesOn noted now y busy taken ih => exact ih.goesOn now y busy taken
  | begins noted now y stepped found parked turned ih => exact ih.begins turned
  | evaluates noted now y stepped still ih => exact ih.evaluates stepped still
  | polls noted l p ih => exact ih.polls l p

/-- Of a piece of work of one of the loops something or nothing is noted. -/
theorem Noted.stepLoops {first : Crew site} (noted : Noted s first crew n)
    (kept : Kept c s crew n) {loops : List (SpaceLoop site)}
    (stepped : crew.stepLoops? now y crew.loops = some (loops, y')) :
    ∃ n', Noted s first { crew with loops := loops } n' := by
  obtain ⟨l, found, -⟩ := kept.loop
  have other (still : l.phase = .parked → loops.find? (fun l => l.space == s) = some l) :
      ∃ n', Noted s first { crew with loops := loops } n' := by
    refine ⟨n, noted.evaluates now y stepped fun l' found' parked => ?_⟩
    cases found.symm.trans found'
    exact still parked
  rcases find?_stepLoops found stepped with found' | ⟨l', z, own, found'⟩
  · exact other fun _ => found'
  · obtain ⟨parked, rfl⟩ | ⟨t, busy, -⟩ := SpaceLoop.step?_cases own
    · obtain rfl := space_of_find? found
      exact ⟨_, noted.begins now y stepped found parked found'⟩
    · exact other fun parked => nomatch busy.symm.trans parked

/-- Notes can be taken of every crew that has not been closed. -/
theorem Reaches.noted {first : Crew site} (reaches : Reaches first crew)
    (start : Kept c s first {}) (isOpen : crew.closing = false) : ∃ n, Noted s first crew n := by
  induction reaches with
  | refl => exact ⟨_, .start⟩
  | tail _ move ih =>
    obtain ⟨n, noted⟩ := ih (move.isOpen isOpen)
    cases move with
    | sent signals => exact ⟨n, noted.sent signals⟩
    | closes => cases isOpen
    | works now step =>
      cases work_of_step step with
      | takes idle front => exact ⟨_, noted.takes now _ idle front⟩
      | goesOn busy =>
        obtain ⟨signal, -, taken, -⟩ := (noted.kept start).desk _ busy
        exact ⟨_, noted.goesOn now _ busy taken⟩
      | evaluates stepped => exact noted.stepLoops (noted.kept start) stepped
      | polls watched waiting => exact ⟨n, noted.polls _ _⟩
      | hears watched polling => exact ⟨n, noted.polls _ _⟩

end Crew

/-- A site with a table in memory, where everything happens at once and no space can be blocked. -/
def inMemory : Site Store.Table where
  base := ⟨Empty, nofun⟩
  Ticket := Unit
  expand
    | .store _ k, t => (.done (k.apply t).1, (k.apply t).2)
    | .vendor _ _, t => (.done (.error (.unknownSpace ⟨"s-1"⟩)), t)
    | .publish .., t => (.done (.ok ()), t)
    | .stamp _, t => (.done default, t)
  start k := nomatch k
  finish k := nomatch k
  hear _ t := t

/-- A coordinator with one space. -/
def single : Coordinator := { spaces := [⟨"s-1"⟩] }

end Schedule

end Interlock
