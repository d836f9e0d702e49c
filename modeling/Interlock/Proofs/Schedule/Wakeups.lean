import Interlock.Proofs.Program.Assured
import Interlock.Schedule.Loops
import Mathlib.Logic.Relation

/-!
No wake-up is lost. The loop of a space and the dispatcher work side by side: signals come in,
ticks come, evaluations take as long as they like, and all of this in any order. Both are followed
call by call, each through its own program. So it is known when an enrollment has succeeded or a
release has failed, and from there on the dispatcher has nothing left to do but to wake the loop.
And it is known when the loop looks into the store for the holder, with which every evaluation
begins. A loop that is woken keeps a permit, and uses it only for a turn. So a signal that calls for
an evaluation is still with the dispatcher, or it has left a permit, or the loop is about to begin,
or an evaluation has started since. Specification, section 5: Concurrency & Resource Model.
-/
namespace Interlock

namespace Program

variable {I : Interface} {α β : Type} {p q q' : Program I α} {x y : Log I}

def logged {I : Interface} (c : I.Call) (x : Log I) (r : I.Answer c) (y : Log I) : Prop :=
  y = ⟨c, r⟩ :: x

/-- The program has ended with a value after the calls and answers of the log. -/
def Comes (p : Program I α) (log : Log I) (a : α) : Prop :=
  ∃ q, p.Reaches logged [] q log ∧ q.heed = .done a

theorem Reaches.snoc {c : I.Call} {next : I.Answer c → Program I α} (r : I.Answer c)
    (reaches : p.Reaches logged x q y) (calls : q.heed = .call c next) :
    p.Reaches logged x (next r) (⟨c, r⟩ :: y) := by
  induction reaches with
  | here => exact .goesOn calls rfl .here
  | goesOn calls' done rest ih => exact .goesOn calls' done (ih calls)

/-- The log only grows. -/
theorem Reaches.suffix (reaches : p.Reaches logged x q y) : x <:+ y := by
  induction reaches with
  | here => exact List.suffix_refl _
  | goesOn calls done rest ih =>
    obtain rfl := done
    exact (List.suffix_cons _ _).trans ih

/-- After a call and its answer the log is not what it was. -/
theorem Reaches.ne_of_goesOn {e : (c : I.Call) × I.Answer c}
    (reaches : p.Reaches logged (e :: x) q y) : y ≠ x := by
  rintro rfl
  exact absurd reaches.suffix.length_le (by simp)

/-- The log shows the answer that the first call has had. -/
theorem Reaches.eq_of_goesOn {e e' : (c : I.Call) × I.Answer c} {p' : Program I α}
    (one : p.Reaches logged (e :: x) q y) (other : p'.Reaches logged (e' :: x) q' y) : e = e' := by
  have inside : e :: x <:+ e' :: x :=
    List.suffix_of_suffix_length_le one.suffix other.suffix (by simp)
  exact (List.cons.inj (inside.eq_of_length (by simp))).1

/-- What a program does next is known from the log. -/
theorem Reaches.heed_eq (one : p.Reaches logged x q y) (other : p.Reaches logged x q' y) :
    q.heed = q'.heed := by
  induction one generalizing q' with
  | here =>
    cases other with
    | here => rfl
    | goesOn calls done rest =>
      obtain rfl := done
      exact absurd rfl rest.ne_of_goesOn
  | goesOn calls done rest ih =>
    obtain rfl := done
    cases other with
    | here => exact absurd rfl rest.ne_of_goesOn
    | goesOn calls' done' rest' =>
      obtain rfl := done'
      rw [calls] at calls'
      cases calls'
      cases rest.eq_of_goesOn rest'
      exact ih rest'

/-- Two programs one after the other go on with the second once the first has ended. -/
theorem Reaches.bind {f : α → Program I β} (reaches : p.Reaches logged x q y) :
    (p >>= f).Reaches logged x (q >>= f) y := by
  induction reaches with
  | here => exact .here
  | goesOn calls done rest ih => exact .goesOn (by rw [heed_bind, calls]) done ih

theorem Comes.heed_eq {f : α → Program I β} {log : Log I} {a : α} {rest : Program I β}
    (comes : p.Comes log a) (reaches : (p >>= f).Reaches logged [] rest log) :
    rest.heed = (f a).heed := by
  obtain ⟨q, ended, done⟩ := comes
  rw [reaches.heed_eq ended.bind, heed_bind, done]

/-! Where the second of two programs makes no calls, all calls are those of the first. -/

section

variable {f : α → Program I β} {p₀ r : Program I β}

theorem call_of_bind {c : I.Call} {next : I.Answer c → Program I β}
    (silent : ∀ a, ∃ b, (f a).heed = .done b) (calls : (q >>= f).heed = .call c next) :
    ∃ next', q.heed = .call c next' ∧ next = fun r => next' r >>= f := by
  rw [heed_bind] at calls
  cases ahead : q.heed with
  | done a =>
    obtain ⟨b, ended⟩ := silent a
    rw [ahead] at calls
    cases ended.symm.trans calls
  | note n rest => exact absurd ahead (heed_ne_note q n rest)
  | call c' next' =>
    rw [ahead] at calls
    cases calls
    exact ⟨next', rfl, rfl⟩

theorem done_of_bind {b : β} (ended : (q >>= f).heed = .done b) : ∃ a, q.heed = .done a := by
  rw [heed_bind] at ended
  cases ahead : q.heed with
  | done a => exact ⟨a, rfl⟩
  | note n rest => exact absurd ahead (heed_ne_note q n rest)
  | call c next =>
    rw [ahead] at ended
    cases ended

theorem Reaches.of_bind (silent : ∀ a, ∃ b, (f a).heed = .done b)
    (reaches : p₀.Reaches logged x r y) (same : p₀.heed = (p >>= f).heed) :
    ∃ q, p.Reaches logged x q y ∧ r.heed = (q >>= f).heed := by
  induction reaches generalizing p with
  | here => exact ⟨p, .here, same⟩
  | goesOn calls done rest ih =>
    obtain ⟨next', calls', rfl⟩ := call_of_bind silent (same.symm.trans calls)
    obtain ⟨q, reaches', same'⟩ := ih rfl
    exact ⟨q, .goesOn calls' done reaches', same'⟩

end

end Program

namespace Schedule

open Coordinator Program

variable {c : Coordinator} {s : SpaceId} {log : Log actions}

/-- An evaluation begins with a look at who holds the space. -/
def look (c : Coordinator) (s : SpaceId) : Action := .store c.limits.store (.lockHolder s)

/-- An evaluation that has made some calls comes to make another one. -/
def Evaluates (c : Coordinator) (s : SpaceId) (log : Log actions) (a : Action) : Prop :=
  ∃ rest next, (c.evaluate s).Reaches logged [] rest log ∧ rest.heed = .call a next

/-! A turn is an evaluation, and begins with its first call. -/

section

variable {rest : Plan Unit} {a : Action} {next : a.Answer → Plan Unit}

theorem reportOutcomes_silent (o : Outcome) : ∃ u, (reportOutcomes [o]).heed = .done u := ⟨(), rfl⟩

theorem evaluates_of_turn (reaches : (SpaceLoop.turn c s).Reaches logged [] rest log)
    (calls : rest.heed = .call a next) :
    Evaluates c s log a := by
  obtain ⟨q, reaches', same⟩ := reaches.of_bind reportOutcomes_silent rfl
  obtain ⟨next', calls', -⟩ := call_of_bind reportOutcomes_silent (same.symm.trans calls)
  exact ⟨q, next', reaches', calls'⟩

theorem comes_of_turn (reaches : (SpaceLoop.turn c s).Reaches logged [] rest log)
    (ended : rest.heed = .done ()) :
    ∃ o, (c.evaluate s).Comes log o := by
  obtain ⟨q, reaches', same⟩ := reaches.of_bind reportOutcomes_silent rfl
  obtain ⟨o, ended'⟩ := done_of_bind (same.symm.trans ended)
  exact ⟨o, q, reaches', ended'⟩

theorem turn_calls (c : Coordinator) (s : SpaceId) :
    ∃ next, (SpaceLoop.turn c s).heed = .call (look c s) next := ⟨_, rfl⟩

end

/-- The dispatcher is idle, or has made some calls for a signal and has something left to do. -/
inductive Desk where
  | idle
  | handling (signal : Signal) (log : Log actions) (rest : Plan (Option SpaceId))

/-- The loop is parked, or it has made some calls and goes on, or waits for the answer to one. -/
inductive Turn where
  | parked
  | goesOn (log : Log actions) (rest : Plan Unit)
  | waits (log : Log actions) (rest : Plan Unit)

/-- What is remembered: every point the dispatcher comes to, every call that the loop makes, with
those of the same turn before it, and the calls of every turn that has ended. -/
inductive Moment where
  | desk (signal : Signal) (log : Log actions)
  | call (log : Log actions) (a : Action)
  | ended (log : Log actions)

def Moment.isStart : Moment → Bool
  | .call [] _ => true
  | _ => false

def recent (history : List Moment) : List Moment := history.takeWhile fun m => !m.isStart

/-- The loop of a space beside the dispatcher, with all moments, the latest first. -/
structure Post where
  inbox : List Signal := []
  desk : Desk := .idle
  permit : Bool := false
  turn : Turn := .parked
  history : List Moment := []

namespace Post

def comesTo (x : Post) (signal : Signal) (log : Log actions) (rest : Plan (Option SpaceId)) :
    Post :=
  { x with desk := .handling signal log rest, history := .desk signal log :: x.history }

/-- The dispatcher is done with a signal, and wakes the loop if that is the space it names. -/
def finishes (x : Post) (s : SpaceId) (woken : Option SpaceId) : Post :=
  { x with desk := .idle, permit := x.permit || decide (woken = some s) }

/-- One step: a signal comes in, the dispatcher takes it, is answered, or is done with it; or the
loop begins a turn because it was woken or because of a tick, makes a call, hears the answer, or is
done with the turn. A call may have any answer. A tick may come first where the loop was woken too,
and then the permit stays. -/
inductive Step (c : Coordinator) (s : SpaceId) : Post → Post → Prop
  | sent {x : Post} (signal : Signal) : Step c s x { x with inbox := x.inbox ++ [signal] }
  | takes {x : Post} {signal : Signal} {rest : List Signal} (idle : x.desk = .idle)
      (first : x.inbox = signal :: rest) :
    Step c s x (comesTo { x with inbox := rest } signal [] (c.dispatch signal))
  | answered {x : Post} {signal : Signal} {log : Log actions} {rest : Plan (Option SpaceId)}
      {a : Action} {next : a.Answer → Plan (Option SpaceId)} (r : a.Answer)
      (busy : x.desk = .handling signal log rest) (calls : rest.heed = .call a next) :
    Step c s x (x.comesTo signal (⟨a, r⟩ :: log) (next r))
  | done {x : Post} {signal : Signal} {log : Log actions} {rest : Plan (Option SpaceId)}
      {woken : Option SpaceId} (busy : x.desk = .handling signal log rest)
      (ended : rest.heed = .done woken) :
    Step c s x (x.finishes s woken)
  | woken {x : Post} (parked : x.turn = .parked) (permit : x.permit = true) :
    Step c s x { x with permit := false, turn := .goesOn [] (SpaceLoop.turn c s) }
  | ticked {x : Post} (parked : x.turn = .parked) :
    Step c s x { x with turn := .goesOn [] (SpaceLoop.turn c s) }
  | calls {x : Post} {log : Log actions} {rest : Plan Unit} {a : Action}
      {next : a.Answer → Plan Unit} (going : x.turn = .goesOn log rest)
      (calls : rest.heed = .call a next) :
    Step c s x { x with turn := .waits log rest, history := .call log a :: x.history }
  | hears {x : Post} {log : Log actions} {rest : Plan Unit} {a : Action}
      {next : a.Answer → Plan Unit} (r : a.Answer) (waiting : x.turn = .waits log rest)
      (calls : rest.heed = .call a next) :
    Step c s x { x with turn := .goesOn (⟨a, r⟩ :: log) (next r) }
  | parks {x : Post} {log : Log actions} {rest : Plan Unit} (going : x.turn = .goesOn log rest)
      (ended : rest.heed = .done ()) :
    Step c s x { x with turn := .parked, history := .ended log :: x.history }

abbrev Run (c : Coordinator) (s : SpaceId) : Post → Post → Prop := Relation.ReflTransGen (Step c s)

/-- The signal calls for an evaluation of the space from here on: an enrollment has succeeded, a
release has failed, or that is all it asks for. -/
inductive Calls (c : Coordinator) (s : SpaceId) : Signal → Log actions → Prop
  | enrolled {w : WorkerId} {log : Log actions} {o : Outcome}
      (succeeded : (c.enroll w s).Comes log (.ok o)) : Calls c s (.approaching w s) log
  | unreleased {w : WorkerId} {log : Log actions} {e : OperationError}
      (failed : (c.release w s).Comes log (.error e)) : Calls c s (.exited w s) log
  | asked : Calls c s (.evaluate s) []

variable {signal : Signal} {rest : Plan (Option SpaceId)} {x y : Post}

/-- Once a signal calls for an evaluation the dispatcher makes no more calls, and wakes the loop. -/
theorem Calls.heed_eq (calls : Calls c s signal log)
    (reaches : (c.dispatch signal).Reaches logged [] rest log) : rest.heed = .done (some s) := by
  cases calls with
  | enrolled succeeded => exact succeeded.heed_eq reaches
  | unreleased failed => exact failed.heed_eq reaches
  | asked => exact reaches.heed_eq .here

/-- What holds of the loop and the dispatcher at any time. A signal that calls for an evaluation and
has not had one since is with the dispatcher still, or the loop has a permit, or is about to look
into the store. -/
structure Attentive (c : Coordinator) (s : SpaceId) (x : Post) : Prop where
  desk : ∀ signal log rest, x.desk = .handling signal log rest →
    (c.dispatch signal).Reaches logged [] rest log
  turn : ∀ log rest, x.turn = .goesOn log rest ∨ x.turn = .waits log rest →
    (SpaceLoop.turn c s).Reaches logged [] rest log
  evaluates : ∀ log a, .call log a ∈ x.history → Evaluates c s log a
  ends : ∀ log, .ended log ∈ x.history → ∃ o, (c.evaluate s).Comes log o
  heard : ∀ signal log, .desk signal log ∈ recent x.history → Calls c s signal log →
    x.permit = true ∨ (∃ rest, x.desk = .handling signal log rest) ∨
      ∃ rest, x.turn = .goesOn [] rest

namespace Attentive

theorem new (c : Coordinator) (s : SpaceId) : Attentive c s {} where
  desk _ _ _ busy := nomatch busy
  turn _ _ busy := by rcases busy with busy | busy <;> cases busy
  evaluates _ _ made := nomatch made
  ends _ ended := nomatch ended
  heard _ _ late := nomatch late

/-- Unless the loop is about to begin, a signal that calls for an evaluation has left a permit or is
with the dispatcher. -/
theorem remains (attentive : Attentive c s x) (late : .desk signal log ∈ recent x.history)
    (calls : Calls c s signal log) (begun : ∀ rest, x.turn ≠ .goesOn [] rest) :
    x.permit = true ∨ ∃ rest, x.desk = .handling signal log rest :=
  (attentive.heard signal log late calls).imp_right fun left =>
    left.resolve_right fun ⟨rest, begins⟩ => begun rest begins

/-- The dispatcher comes to a point of a signal. Where it has been was not the end of a signal that
has called for an evaluation. -/
theorem comesTo (attentive : Attentive c s x)
    (reaches : (c.dispatch signal).Reaches logged [] rest log)
    (gone : ∀ signal' log' rest', x.desk = .handling signal' log' rest' →
      rest'.heed ≠ .done (some s)) :
    Attentive c s (x.comesTo signal log rest) where
  desk _ _ _ busy := by
    cases busy
    exact reaches
  turn := attentive.turn
  evaluates log' a made := attentive.evaluates log' a (by simpa [Post.comesTo] using made)
  ends log' ended := attentive.ends log' (by simpa [Post.comesTo] using ended)
  heard := by
    intro signal' log' late calls
    rcases List.mem_cons.1 late with same | late
    · cases same
      exact .inr (.inl ⟨rest, rfl⟩)
    · rcases attentive.heard signal' log' late calls with permit | ⟨rest', busy⟩ | begins
      · exact .inl permit
      · exact absurd (calls.heed_eq (attentive.desk _ _ _ busy)) (gone _ _ _ busy)
      · exact .inr (.inr begins)

theorem finishes {woken : Option SpaceId} (attentive : Attentive c s x)
    (busy : x.desk = .handling signal log rest) (ended : rest.heed = .done woken) :
    Attentive c s (x.finishes s woken) where
  desk _ _ _ busy := nomatch busy
  turn := attentive.turn
  evaluates := attentive.evaluates
  ends := attentive.ends
  heard := by
    intro signal' log' late calls
    rcases attentive.heard signal' log' late calls with permit | ⟨rest', here⟩ | begins
    · exact .inl (by simp [Post.finishes, permit])
    · cases busy.symm.trans here
      cases ended.symm.trans (calls.heed_eq (attentive.desk _ _ _ busy))
      exact .inl (by simp [Post.finishes])
    · exact .inr (.inr begins)

/-- A turn begins: the loop is about to look into the store. -/
theorem begins (attentive : Attentive c s x) (permit : Bool) :
    Attentive c s { x with permit := permit, turn := .goesOn [] (SpaceLoop.turn c s) } where
  desk := attentive.desk
  turn _ _ busy := by
    rcases busy with busy | busy <;> cases busy
    exact .here
  evaluates := attentive.evaluates
  ends := attentive.ends
  heard _ _ _ _ := .inr (.inr ⟨_, rfl⟩)

/-- The loop makes a call. If it is the first of its turn then nothing is left to be heard. -/
theorem calls {rest : Plan Unit} {a : Action} {next : a.Answer → Plan Unit}
    (attentive : Attentive c s x) (going : x.turn = .goesOn log rest)
    (calls : rest.heed = .call a next) :
    Attentive c s { x with turn := .waits log rest, history := .call log a :: x.history } where
  desk := attentive.desk
  turn _ _ busy := by
    rcases busy with busy | busy <;> cases busy
    exact attentive.turn _ _ (.inl going)
  evaluates log' a' made := by
    rcases List.mem_cons.1 made with same | made
    · cases same
      exact evaluates_of_turn (attentive.turn _ _ (.inl going)) calls
    · exact attentive.evaluates log' a' made
  ends log' ended := attentive.ends log' (by simpa using ended)
  heard := by
    intro signal' log' late wakes
    cases log with
    | nil => cases late
    | cons e log =>
      rcases List.mem_cons.1 late with same | late
      · cases same
      · exact (attentive.remains late wakes (by simp [going])).imp_right .inl

theorem hears {rest : Plan Unit} {a : Action} {next : a.Answer → Plan Unit} (r : a.Answer)
    (attentive : Attentive c s x) (waiting : x.turn = .waits log rest)
    (calls : rest.heed = .call a next) :
    Attentive c s { x with turn := .goesOn (⟨a, r⟩ :: log) (next r) } where
  desk := attentive.desk
  turn _ _ busy := by
    rcases busy with busy | busy <;> cases busy
    exact (attentive.turn _ _ (.inr waiting)).snoc r calls
  evaluates := attentive.evaluates
  ends := attentive.ends
  heard := by
    intro signal' log' late wakes
    exact (attentive.remains late wakes (by simp [waiting])).imp_right .inl

/-- A turn ends. It has made a call, as every evaluation does. -/
theorem parks {rest : Plan Unit} (attentive : Attentive c s x) (going : x.turn = .goesOn log rest)
    (ended : rest.heed = .done ()) :
    Attentive c s { x with turn := .parked, history := .ended log :: x.history } where
  desk := attentive.desk
  turn _ _ busy := by rcases busy with busy | busy <;> cases busy
  evaluates log' a made := attentive.evaluates log' a (by simpa using made)
  ends log' past := by
    rcases List.mem_cons.1 past with same | past
    · cases same
      exact comes_of_turn (attentive.turn _ _ (.inl going)) ended
    · exact attentive.ends log' past
  heard := by
    intro signal' log' late wakes
    rcases List.mem_cons.1 late with same | late
    · cases same
    · refine (attentive.remains late wakes fun rest' begins => ?_).imp_right .inl
      cases going.symm.trans begins
      obtain ⟨next, first⟩ := turn_calls c s
      have same := (attentive.turn _ _ (.inl going)).heed_eq .here
      cases (ended.symm.trans same).trans first

/-- Every step keeps it up. -/
theorem step (attentive : Attentive c s x) (step : Step c s x y) : Attentive c s y := by
  cases step with
  | sent signal =>
    exact ⟨attentive.desk, attentive.turn, attentive.evaluates, attentive.ends, attentive.heard⟩
  | takes idle first =>
    refine comesTo ⟨attentive.desk, attentive.turn, attentive.evaluates, attentive.ends,
      attentive.heard⟩ .here fun _ _ _ busy => ?_
    cases idle.symm.trans busy
  | answered r busy calls =>
    refine attentive.comesTo ((attentive.desk _ _ _ busy).snoc r calls) fun _ _ _ here => ?_
    cases busy.symm.trans here
    rw [calls]
    exact nofun
  | done busy ended => exact attentive.finishes busy ended
  | woken parked permit => exact attentive.begins false
  | ticked parked => exact attentive.begins x.permit
  | calls going calls => exact attentive.calls going calls
  | hears r waiting calls => exact attentive.hears r waiting calls
  | parks going ended => exact attentive.parks going ended

theorem run (attentive : Attentive c s x) (run : Run c s x y) : Attentive c s y := by
  induction run with
  | refl => exact attentive
  | tail _ step ih => exact ih.step step

end Attentive

end Post

end Schedule

end Interlock
