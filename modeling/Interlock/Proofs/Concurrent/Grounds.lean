import Interlock.Proofs.Concurrent.Runs

/-!
What a call rests on. A record is added once, with a priority that the enrollment has drawn before;
a swap is asked for a record that was shown as the next waiter of a space the operation is about. No
call takes effect unless a task asked for it, and none that was asked for once does so twice, however
long it was adrift.
-/
namespace Interlock

open Coordinator Store Fleet

def Store.Call.added? : Store.Call → Option Record
  | .add r | .addIfAbsent r => some r
  | _ => none

def Coordinator.Action.added? : Action → Option Record
  | .store _ c => c.added?
  | _ => none

/-- Whether the operation may grant the space to its next waiter. -/
def Coordinator.Operation.Serves (o : Operation) (s : SpaceId) : Prop :=
  o = .evaluate s ∨ ∃ w, o.LetsGo w s

namespace Program

variable {I J : Interface} {α β : Type} {carry : (c : I.Call) → Program J (I.Answer c)}

@[simp] theorem handle_done (a : α) : (done a : Program I α).handle carry = done a := rfl

@[simp] theorem handle_pure (a : α) : (pure a : Program I α).handle carry = pure a := rfl

/-- Calls are carried out one program after the other. -/
@[simp] theorem handle_bind (p : Program I β) (f : β → Program I α) :
    (p >>= f).handle carry = p.handle carry >>= fun b => (f b).handle carry := by
  change (p.bind f).handle carry = (p.handle carry).bind fun b => (f b).handle carry
  induction p with
  | done b => rfl
  | note n rest ih => exact congrArg (note n) ih
  | call c next ih =>
    have assoc (q : Program J (I.Answer c)) :
        (q.bind fun r => ((next r).bind f).handle carry) =
          (q.bind fun r => (next r).handle carry).bind fun b => (f b).handle carry := by
      induction q with
      | done r => exact ih r
      | note n rest ih' => exact congrArg (note n) ih'
      | call c' next' ih' => exact congrArg (call c') (funext ih')
    exact assoc (carry c)

@[simp] theorem handle_ask (c : I.Call) : (ask c).handle carry = carry c := by
  change (carry c).bind done = carry c
  induction carry c with
  | done r => rfl
  | note n rest ih => exact congrArg (note n) ih
  | call c' next ih => exact congrArg (call c') (funext ih)

@[simp] theorem handle_sayAll (ns : List Trace.Note) :
    (sayAll ns : Program I Unit).handle carry = sayAll ns := by
  induction ns with
  | nil => rfl
  | cons n ns ih => exact congrArg (note n) ih

end Program

namespace Concurrent

/-- A call that put the record into the table. -/
inductive Admits (r : Record) : (a : Action) → a.Answer → Prop
  | atOnce {limit : Option Time.Duration} :
    Admits r (.store limit (.addIfAbsent r)) (.inTime (.ok true))
  | inTwoCalls {limit : Option Time.Duration} :
    Admits r (.store limit (.add r)) (.inTime (.ok ()))

/-- The priority and the time of the record were drawn in the log. -/
def Drawn (log : Log actions) (r : Record) : Prop :=
  ∃ m stamp, (⟨.stamp m, stamp⟩ : (a : Action) × a.Answer) ∈ log ∧
    r = .waiting r.space r.worker stamp.priority stamp.time

/-- What an action of an operation rests on in its log. -/
def RestsOn (o : Operation) (log : Log actions) : Action → Prop
  | .store _ (.swap _ old) => o.Serves old.space ∧
    ∃ limit, (⟨.store limit (.nextWaiter old.space), .inTime (.ok (some old))⟩ :
      (a : Action) × a.Answer) ∈ log
  | .store _ c => ∀ r, c.added? = some r → Drawn log r ∧ ∀ entry ∈ log, entry.1.added? = none
  | _ => True

/-- The conduct of an operation whose calls rest on what it has seen. -/
def grounds (o : Operation) : Conduct actions := ⟨RestsOn o, MayAnswer⟩

/-- An enrollment that says so has drawn a record and put it into the table. -/
def Admitted : (o : Operation) → Log actions → o.Answer → Prop
  | .enroll w s, log, .ok (.enrolled _ _ p) => ∃ m time,
    (⟨.stamp m, ⟨p, time⟩⟩ : (a : Action) × a.Answer) ∈ log ∧
      ∃ entry ∈ log, Admits (.waiting s w p time) entry.1 entry.2
  | _, _, _ => True

/-- An action that adds nothing, draws nothing and swaps nothing. -/
def Plain : Action → Prop
  | .stamp _ | .store _ (.swap ..) => False
  | .store _ c => c.added? = none
  | _ => True

section Operations

open Program

variable {c : Coordinator} {l : Limits} {w : WorkerId} {s : SpaceId}

/-- A store call that is carried out by others counts as failed when those are late. -/
theorem keeps_handle_callStore {κ : Conduct actions} {log : Log actions}
    {carry : (a : Action) → Plan a.Answer} {call : Store.Call}
    {post : Log actions → call.Answer → Prop} :
    ((callStore l call).handle carry).Keeps κ post log ↔
      (carry (.store l.store call)).Keeps κ (fun log r => post log (match r with
        | .inTime a => a
        | .late => .error (.transaction (.timeout (shownLimit l.store))))) log := by
  have carried : (ask (I := actions) (.store l.store call)).handle carry =
      carry (.store l.store call) := handle_ask (I := actions) _
  simp only [callStore, handle_bind, handle_sayAll, keeps_bind, keeps_sayAll]
  rw [carried]
  constructor <;> refine fun keeps => keeps.mono fun log r after => ?_
  · cases r <;> simpa using after
  · cases r <;> simpa using after

/-- An enrollment in two calls that says it added a record has done so. -/
theorem lookThenAdd_grounds {o : Operation} {r : Record} {limit : Option Time.Duration}
    {log : Log actions} (rests : RestsOn o log (.store limit (.addIfAbsent r))) :
    (lookThenAdd limit r).Keeps (grounds o)
      (fun log' a => log ⊆ log' ∧ (a = .inTime (.ok true) →
        ⟨.store limit (.add r), .inTime (.ok ())⟩ ∈ log')) log := by
  unfold lookThenAdd
  split
  · exact ⟨fun _ h => h, by rintro ⟨⟩⟩
  · simp only [keeps_bind, ask, keeps_call, keeps_done]
    refine ⟨by rintro _ ⟨⟩, fun found _ => ?_⟩
    split
    · exact ⟨List.subset_cons_self _ _, by rintro ⟨⟩⟩
    · exact ⟨List.subset_cons_self _ _, by rintro ⟨⟩⟩
    · exact ⟨List.subset_cons_self _ _, by rintro ⟨⟩⟩
    · next found =>
      have drawn : RestsOn o (⟨.store limit (.find r.space r.worker), .inTime (.ok [])⟩ :: log)
          (.store limit (.add r)) := by
        rintro _ ⟨⟩
        obtain ⟨⟨m, stamp, seen, eq⟩, first⟩ := rests r rfl
        exact ⟨⟨m, stamp, List.mem_cons_of_mem _ seen, eq⟩, List.forall_mem_cons.2 ⟨rfl, first⟩⟩
      refine keeps_bind.2 ⟨drawn, fun added _ => ?_⟩
      have larger (added : Timed (Store.Call.add r).Answer) :
          log ⊆ ⟨.store limit (.add r), added⟩ ::
            ⟨.store limit (.find r.space r.worker), .inTime (.ok [])⟩ :: log :=
        fun _ h => List.mem_cons_of_mem _ (List.mem_cons_of_mem _ h)
      rcases added with (e | ⟨⟩) | _
      · exact ⟨larger _, by rintro ⟨⟩⟩
      · exact ⟨larger _, fun _ => List.mem_cons_self⟩
      · exact ⟨larger _, by rintro ⟨⟩⟩

theorem enroll_grounds (e : Enrolling) :
    (planAt e c (.enroll w s)).Keeps (grounds (.enroll w s)) (Admitted (.enroll w s)) [] := by
  have rests (stamp : Stamp) : RestsOn (.enroll w s) [⟨.stamp c.minter, stamp⟩]
      (.store c.limits.store (.addIfAbsent (.waiting s w stamp.priority stamp.time))) := by
    rintro r ⟨⟩
    exact ⟨⟨_, stamp, List.mem_singleton_self _, rfl⟩, fun entry he => by
      rw [List.mem_singleton.1 he]; rfl⟩
  cases e with
  | atOnce =>
    simp only [planAt, Coordinator.enroll]
    split
    · trivial
    · simp only [Queue.enroll, keeps_bind, ask, keeps_call, keeps_done]
      refine ⟨trivial, fun stamp _ => ?_⟩
      split
      · trivial
      · refine keeps_bind.2 (keeps_callStore.2 ⟨rests stamp, fun a _ => ?_, fun _ => trivial⟩)
        rcases a with e | _ | _
        · trivial
        · trivial
        · exact ⟨_, stamp.time, List.mem_cons_of_mem _ (List.mem_singleton_self _), _,
            List.mem_cons_self, .atOnce⟩
  | inTwoCalls =>
    simp only [planAt, Coordinator.enroll]
    split
    · trivial
    · simp only [Queue.enroll, handle_bind, keeps_bind]
      refine ⟨trivial, fun stamp _ => ?_⟩
      simp only [Program.bind, handle_done, keeps_done]
      split
      · trivial
      · rw [handle_bind, keeps_bind, keeps_handle_callStore]
        refine (lookThenAdd_grounds (rests stamp)).mono fun log a after => ?_
        obtain ⟨more, added⟩ := after
        rcases a with (e | _ | _) | _
        · trivial
        · trivial
        · exact ⟨_, stamp.time, more (List.mem_singleton_self _), _, added rfl, .inTwoCalls⟩
        · trivial

variable {o : Operation}

theorem restsOn_of_plain {a : Action} (plain : Plain a) (log : Log actions) : RestsOn o log a := by
  cases a with
  | store limit call =>
    cases call with
    | swap new old => cases plain
    | add r => cases plain
    | addIfAbsent r => cases plain
    | _ => exact nofun
  | _ => trivial

theorem grant_grounds {waiting : Record} {log : Log actions} (serves : o.Serves waiting.space)
    (shown : ∃ limit, (⟨.store limit (.nextWaiter waiting.space), .inTime (.ok (some waiting))⟩ :
      (a : Action) × a.Answer) ∈ log) :
    (c.grant s waiting).Keeps (grounds o) (fun _ _ => True) log := by
  have back (log : Log actions) :
      (c.takeBackBlock s waiting).Keeps (grounds o) (fun _ _ => True) log := by
    refine keeps_bind.2 (keeps_callStore.2 ⟨nofun, fun a _ => ?_, fun _ => trivial⟩)
    rcases a with e | holder | holder
    · trivial
    · exact keeps_bind.2 (keeps_command.2
        ⟨trivial, fun a _ => by cases a <;> trivial, fun _ => trivial⟩)
    · trivial
  obtain ⟨limit, shown⟩ := shown
  unfold grant
  refine keeps_bind.2 (keeps_command.2 ⟨trivial, fun a _ => ?_, fun _ => trivial⟩)
  rcases a with e | ⟨⟩
  · trivial
  · refine keeps_bind.2 (keeps_bind.2 (keeps_callStore.2
      ⟨⟨serves, limit, List.mem_cons_of_mem _ shown⟩, fun a _ => ?_, fun _ => ?_⟩))
    · cases a with
      | error e => exact Keeps.bind back fun _ _ => trivial
      | ok u =>
        simp only [keeps_pure, keeps_bind, keeps_report, keeps_publish]
        exact ⟨trivial, fun _ _ => trivial⟩
    · exact Keeps.bind back fun _ _ => trivial

theorem evaluate_grounds (serves : o.Serves s) (log : Log actions) :
    (c.evaluate s).Keeps (grounds o) (fun _ _ => True) log := by
  have attempts (log : Log actions) :
      (c.attempt s).Keeps (grounds o) (fun _ _ => True) log := by
    unfold attempt Queue.lockHolder Queue.nextWaiter Queue.heldBy Queue.lockHolders
    refine keeps_bind.2 (keeps_callStore.2 ⟨nofun, fun a _ => ?_, fun _ => trivial⟩)
    rcases a with e | holder | holder
    · trivial
    · refine keeps_bind.2 (keeps_callStore.2 ⟨nofun, fun a may => ?_, fun _ => trivial⟩)
      rcases a with e | waiting | waiting
      · trivial
      · trivial
      · obtain rfl := of_mayAnswer_nextWaiter (l := c.limits.store) may
        refine keeps_bind.2 (keeps_bind.2 (keeps_callStore.2
          ⟨nofun, fun a _ => ?_, fun _ => trivial⟩))
        cases a with
        | error e => trivial
        | ok holders =>
          simp only [keeps_pure]
          split
          · trivial
          · exact keeps_bind.2 (grant_grounds serves
            ⟨c.limits.store, List.mem_cons_of_mem _ List.mem_cons_self⟩)
    · trivial
  rw [evaluate, keeps_inSpan]
  exact Keeps.bind attempts fun a _ => by cases a <;> trivial

/-! A release or an abandonment makes plain calls and evaluates spaces, so it keeps every conduct
that allows plain actions and that its evaluations keep. -/

variable {κ : Conduct actions} (plain : ∀ log a, Plain a → κ.allows log a)

include plain

theorem remove_keeps (log : Log actions) :
    (Queue.remove l w s).Keeps κ (fun _ _ => True) log := by
  have deletes (rs : List Record) (sofar : Queue.Removal) (log : Log actions) :
      (Queue.deleteAll l sofar rs).Keeps κ (fun _ _ => True) log := by
    induction rs generalizing sofar log with
    | nil => trivial
    | cons r rest ih =>
      refine keeps_bind.2 (keeps_callStore.2 ⟨plain _ _ rfl, fun a _ => ?_, fun _ => trivial⟩)
      cases a with
      | error e => trivial
      | ok u => exact ih _ _
  unfold Queue.remove Queue.recordsOf
  refine keeps_bind.2 (keeps_callStore.2 ⟨plain _ _ rfl, fun a _ => ?_, fun _ => trivial⟩)
  cases a with
  | error e => trivial
  | ok rs => exact deletes rs _ _

theorem removeHolder_keeps (evaluates : ∀ log, (c.evaluate s).Keeps κ (fun _ _ => True) log)
    (unblocked : Bool) (log : Log actions) :
    (c.removeHolder w s unblocked).Keeps κ (fun _ _ => True) log := by
  unfold removeHolder
  refine Keeps.bind (remove_keeps plain) fun a log => ?_
  cases a with
  | error e => trivial
  | ok removal =>
    have finish (log : Log actions) : (do
        publish c.limits ⟨w, .sharedSpaceLock none⟩
        let next ← c.evaluate s
        return .ok [.released s w unblocked, next] :
        Plan (Except OperationError (List Outcome))).Keeps κ (fun _ _ => True) log :=
      keeps_bind.2 (keeps_publish.2 ⟨plain _ _ trivial, fun _ _ =>
        Keeps.bind evaluates fun _ _ => trivial⟩)
    cases removal with
    | holder r => exact finish log
    | waiting r => exact finish log
    | notEnrolled => exact finish log

theorem release_keeps (evaluates : ∀ log, (c.evaluate s).Keeps κ (fun _ _ => True) log)
    (log : Log actions) : (c.release w s).Keeps κ (fun _ _ => True) log := by
  unfold Coordinator.release Queue.recordsOf
  split
  · trivial
  · refine keeps_bind.2 (keeps_callStore.2 ⟨plain _ _ rfl, fun a _ => ?_, fun _ => trivial⟩)
    rcases a with e | _ | ⟨r, rs⟩
    · trivial
    · trivial
    · simp only
      split
      · refine keeps_bind.2 (keeps_command.2 ⟨plain _ _ trivial, fun a _ => ?_, fun _ => ?_⟩)
        · cases a with
          | error e => exact removeHolder_keeps plain evaluates false _
          | ok u => exact removeHolder_keeps plain evaluates true _
        · exact removeHolder_keeps plain evaluates false _
      · exact Keeps.bind (remove_keeps plain) fun a _ => by cases a <;> trivial

theorem abandon_keeps (evaluates : ∀ s log, (c.evaluate s).Keeps κ (fun _ _ => True) log)
    (log : Log actions) : (c.abandon w).Keeps κ (fun _ _ => True) log := by
  have releases (ss : List SpaceId) (sofar : List Outcome) (log : Log actions) :
      (c.releaseAll w sofar ss).Keeps κ (fun _ _ => True) log := by
    induction ss generalizing sofar log with
    | nil => trivial
    | cons s rest ih =>
      refine Keeps.bind (release_keeps plain (evaluates s)) fun a log => ?_
      cases a with
      | error e => trivial
      | ok outcomes => exact ih _ log
  unfold Coordinator.abandon Queue.heldBy Queue.lockHolders
  split
  · trivial
  · refine keeps_bind.2 (keeps_bind.2 (keeps_callStore.2
      ⟨plain _ _ rfl, fun a _ => ?_, fun _ => trivial⟩))
    cases a with
    | error e => trivial
    | ok holders => exact Keeps.bind (releases _ []) fun a _ => by cases a <;> trivial

end Operations

/-- Every operation acts on what it has seen, and an enrollment returns what it has done. -/
theorem planAt_grounds (e : Enrolling) (c : Coordinator) (o : Operation) :
    (planAt e c o).Keeps (grounds o) (Admitted o) [] := by
  have plain (o : Operation) (log : Log actions) (a : Action) (h : Plain a) :
      (grounds o).allows log a := restsOn_of_plain h log
  cases o with
  | enroll w s => exact enroll_grounds e
  | evaluate s => exact evaluate_grounds (.inl rfl) []
  | release w s =>
    exact release_keeps (plain _) (evaluate_grounds (.inr ⟨w, .inl rfl⟩)) []
  | abandon w =>
    exact abandon_keeps (plain _) (fun s => evaluate_grounds (.inr ⟨w, .inr rfl⟩)) []
  | lockHolders =>
    refine Program.keeps_bind.2 (keeps_callStore.2 ⟨plain _ _ _ rfl, fun a _ => ?_, fun _ => trivial⟩)
    cases a <;> trivial
  | queue s =>
    refine Program.keeps_bind.2 (keeps_callStore.2 ⟨plain _ _ _ rfl, fun a _ => ?_, fun _ => trivial⟩)
    cases a <;> trivial

def Event.asked? : Event → Option (Operation × Store.Call)
  | .call _ o (.store _ c) _ _ _ => some (o, c)
  | _ => none

def Event.carried? (e : Event) : Option (Operation × Store.Call) :=
  e.effect?.map fun (o, c, _) => (o, c)

/-- What stands behind something in a list stands in its tail. -/
theorem exists_append_of_cons_eq {α : Type} {a b : α} {as bs front : List α}
    (split : a :: as = front ++ b :: bs) : ∃ gap, as = gap ++ bs := by
  cases front with
  | nil => exact ⟨[], (List.cons.inj split).2⟩
  | cons c front => exact ⟨front ++ [b], by simp [(List.cons.inj split).2]⟩

namespace System

variable {x y : System} {kind : Event → Prop} {t : Table} {minters : Nat → Minter} {e : Event}

/-- In one step a call takes effect or goes adrift only if it is asked for or was adrift. -/
theorem Step.countP_le (step : Step x e y) (p : Operation × Store.Call → Bool) :
    e.carried?.toList.countP p + y.adrift.countP p ≤
      e.asked?.toList.countP p + x.adrift.countP p := by
  cases step with
  | begun => simp [Event.carried?, Event.effect?]
  | @done i o rest a next r t' minters' task calls effect =>
    cases effect <;> simp [Event.carried?, Event.effect?, Event.asked?, System.answered]
  | refused => simp [Event.carried?, Event.effect?, System.answered]
  | @adrift i o rest a next r task calls fails =>
    cases a <;> simp [Event.carried?, Event.effect?, Event.asked?, storeCall?, List.countP_cons,
      Nat.add_comm]
  | landed waits =>
    rw [waits]
    simp [Event.carried?, Event.effect?, List.countP_cons]
    omega

/-- No calls take effect more often than they were asked for. -/
theorem Run.countP_le (run : Run kind (opening t minters) x) (p : Operation × Store.Call → Bool) :
    (x.history.filterMap Event.carried?).countP p + x.adrift.countP p ≤
      (x.history.filterMap Event.asked?).countP p := by
  have cons {f : Event → Option (Operation × Store.Call)} (e : Event) (older : List Event) :
      ((e :: older).filterMap f).countP p =
        (f e).toList.countP p + (older.filterMap f).countP p := by
    cases made : f e <;> simp [made, List.countP_cons, Nat.add_comm]
  induction run with
  | here => exact Nat.le_refl _
  | step run step fit ih =>
    have now := step.countP_le p
    rw [step.history, cons, cons]
    omega

/-- What took effect was asked for by a task, at the latest in the same event. -/
theorem Run.asked_of_effect (run : Run kind (opening t minters) x) {o : Operation}
    {c : Store.Call} {found : Table} (happened : e ∈ x.history)
    (effect : e.effect? = some (o, c, found)) :
    ∃ i limit r fate found', .call i o (.store limit c) r fate found' ∈ x.history := by
  have carried : (o, c) ∈ x.history.filterMap Event.carried? :=
    List.mem_filterMap.2 ⟨e, happened, by rw [Event.carried?, effect]; rfl⟩
  have once : 0 < (x.history.filterMap Event.carried?).countP (· == (o, c)) :=
    List.countP_pos_iff.2 ⟨_, carried, beq_self_eq_true (o, c)⟩
  have often : 0 < (x.history.filterMap Event.asked?).countP (· == (o, c)) := by
    have := run.countP_le (· == (o, c))
    omega
  obtain ⟨p, found', same⟩ := List.countP_pos_iff.1 often
  obtain ⟨e', happened', asked⟩ := List.mem_filterMap.1 found'
  obtain rfl := eq_of_beq same
  unfold Event.asked? at asked
  split at asked
  · cases asked
    exact ⟨_, _, _, _, _, happened'⟩
  · cases asked

/-- What a call rests on was there before the call. -/
theorem Run.rests (run : Run kind (opening t minters) x) {late early : List Event} {i : Nat}
    {o : Operation} {a : Action} {r : a.Answer} {fate : Fate} {found : Table}
    (split : x.history = late ++ .call i o a r fate found :: early) :
    RestsOn o (logOf i early) a := by
  have grounded := run.conducted planAt_grounds fun step _ _ => step.of_call.2.1
  rw [split] at grounded
  exact grounded.split _ _ _ _ _ _ rfl

/-- A store call that answered without an error was done, and the answer is what the table it
found says. -/
theorem Run.of_ok (run : Run kind (opening t minters) x) {late early : List Event} {i : Nat}
    {o : Operation} {limit : Option Time.Duration} {c : Store.Call} {v : c.Value} {fate : Fate}
    {found : Table}
    (split : x.history = late ++ .call i o (.store limit c) (.inTime (.ok v)) fate found :: early) :
    fate = .done ∧ found = tableAfter t early ∧ (c.apply found).1 = .ok v := by
  have done : fate = .done := by
    rcases run.done_or_fails (split ▸ List.mem_append_right _ List.mem_cons_self) with done | fails
    · exact done
    · cases fails
  have faithful := run.faithful
  rw [split] at faithful
  obtain ⟨rfl, told⟩ := faithful.split
  obtain ⟨minters', t', minters'', effect⟩ := told done
  exact ⟨done, rfl, (Timed.inTime.inj effect.answer_eq).symm⟩

/-- The record of a swap that took effect was shown before as the first waiter of its space. -/
theorem Run.shown (run : Run kind (opening t minters) x) {late early : List Event} {o : Operation}
    {new old : Record} {found : Table} (split : x.history = late ++ e :: early)
    (effect : e.effect? = some (o, .swap new old, found)) :
    ∃ gap sooner, early = gap ++ sooner ∧ o.Serves old.space ∧
      (tableAfter t sooner).FirstWaiter old.space old := by
  obtain ⟨y, run', now⟩ := run.earlier split
  obtain ⟨i, limit, r, fate, found', asked⟩ :=
    run'.asked_of_effect (now ▸ List.mem_cons_self) effect
  obtain ⟨later, before, split'⟩ := List.append_of_mem asked
  obtain ⟨serves, limit', seen⟩ := run'.rests split'
  obtain ⟨o', fate', found'', seen⟩ := mem_logOf.1 seen
  obtain ⟨between, sooner, rfl⟩ := List.append_of_mem seen
  rw [← List.cons_append, ← List.append_assoc] at split'
  obtain ⟨-, rfl, answer⟩ := run'.of_ok split'
  have first := Table.nextWaiter_eq_some_iff.1 (Except.ok.inj answer)
  obtain ⟨gap, rfl⟩ := exists_append_of_cons_eq (now.symm.trans split')
  exact ⟨gap, sooner, rfl, serves, first⟩

end System

end Concurrent

end Interlock
