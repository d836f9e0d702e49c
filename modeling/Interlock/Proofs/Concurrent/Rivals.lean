import Interlock.Proofs.Concurrent.Grounds
import Interlock.Proofs.Concurrent.Moves
import Interlock.Proofs.Concurrent.Presence
import Interlock.Proofs.Store.Held

/-!
Rivals for one space. The space is free, its first waiter holds no other one, and any number of
coordinators evaluate it at once. Until the first swap everyone reads the same table, so the first
swap is for the first waiter and it happens; after it the space is held, so no other swap happens
and whoever looks again sees the holder and leaves the block alone. Specification, section 5:
Concurrency & Resource Model.
-/
namespace Interlock.Concurrent

open Coordinator Store Fleet Program

/-- Nothing failed in the event, unless it was a publication. -/
def Event.flawless : Event → Bool
  | .begun .. => true
  | .call _ _ _ _ .done _ => true
  | .call _ _ (.publish ..) _ _ _ => true
  | _ => false

def Rival (s : SpaceId) (e : Event) : Prop := e.operation = .evaluate s ∧ e.flawless = true

instance (s : SpaceId) (e : Event) : Decidable (Rival s e) := inferInstanceAs (Decidable (_ ∧ _))

/-- The answers to be reckoned with when nothing but a publication fails. -/
def Sure : (a : Action) → a.Answer → Prop
  | .store _ c, r => ∃ t : Table, r = .inTime (c.apply t).1
  | .vendor _ _, r => ∃ v, r = .inTime (.ok v)
  | _, _ => True

/-- Anything may be asked, and nothing but a publication fails. -/
def surely : Conduct actions := ⟨fun _ _ => True, Sure⟩

def heard (l : Limits) (c : Store.Call) (a : c.Answer) : (a : Action) × a.Answer :=
  ⟨.store l.store c, .inTime a⟩

def commanded (l : Limits) (c : Command) (v : c.Value) : (a : Action) × a.Answer :=
  ⟨.vendor l.command c, .inTime (.ok v)⟩

/-- The space was free, and this was its first waiter when those held. -/
def choice (l : Limits) (s : SpaceId) (q : Record) (holders : List Record) : Log actions :=
  [heard l .lockHolders (.ok holders), heard l (.nextWaiter s) (.ok (some q)),
    heard l (.lockHolder s) (.ok none)]

/-- The log of an evaluation in which nothing but the publication failed. -/
inductive Evaluated (s : SpaceId) : Log actions → Outcome → Prop
  | occupied {l : Limits} {h : Record} :
    Evaluated s [heard l (.lockHolder s) (.ok (some h))] (.occupied s h.worker)
  | idle {l : Limits} :
    Evaluated s [heard l (.nextWaiter s) (.ok none), heard l (.lockHolder s) (.ok none)] (.idle s)
  | deferred {l : Limits} {q h : Record} {holders : List Record} (held : h ∈ holders)
      (own : h.worker = q.worker) (other : h.space ≠ s) :
    Evaluated s (choice l s q holders) (.deferred s q.worker h.space)
  | granted {l : Limits} {q : Record} {holders : List Record} {p : Publication}
      {a : Timed Publication.Answer} :
    Evaluated s (⟨.publish l.command p, a⟩ :: heard l (.swap q.toHolder q) (.ok ()) ::
      commanded l (.block s) () :: choice l s q holders) (.granted s q.worker)
  | lost {l : Limits} {q h : Record} {holders : List Record} {e : StoreError} :
    Evaluated s (heard l (.lockHolder s) (.ok (some h)) :: heard l (.swap q.toHolder q) (.error e) ::
      commanded l (.block s) () :: choice l s q holders) (.failedToGrant s q.worker e.message)
  | takenBack {l : Limits} {q : Record} {holders : List Record} {e : StoreError} :
    Evaluated s (commanded l (.unblock s) () :: heard l (.lockHolder s) (.ok none) ::
      heard l (.swap q.toHolder q) (.error e) :: commanded l (.block s) () :: choice l s q holders)
      (.failedToGrant s q.worker e.message)

/-- Who was told that its swap happened has answered so. -/
theorem Evaluated.eq_granted {s : SpaceId} {log : Log actions} {v : Outcome}
    (evaluated : Evaluated s log v) {k : Option Time.Duration} {r : Record}
    (swapped : (⟨.store k (.swap r.toHolder r), .inTime (.ok ())⟩ : (a : Action) × a.Answer) ∈ log) :
    v = .granted s r.worker := by
  cases evaluated <;> simp [heard, commanded, choice] at swapped
  obtain ⟨-, -, rfl⟩ := swapped
  rfl

section Programs

variable {c : Coordinator} {s : SpaceId} {l : Limits} {log : Log actions}

theorem callStore_surely {call : Store.Call} {post : Log actions → call.Answer → Prop}
    (ends : ∀ t, post (heard l call (call.apply t).1 :: log) (call.apply t).1) :
    (callStore l call).Keeps surely post log := by
  refine keeps_callStore.2 ⟨trivial, fun a sure => ?_, fun sure => ?_⟩
  · obtain ⟨t, answer⟩ := sure
    obtain rfl := Timed.inTime.inj answer
    exact ends t
  · obtain ⟨t, answer⟩ := sure
    cases answer

theorem command_surely {call : Command} {post : Log actions → call.Answer → Prop}
    (ends : ∀ v, post (commanded l call v :: log) (.ok v)) :
    (command l call).Keeps surely post log := by
  refine keeps_command.2 ⟨trivial, fun a sure => ?_, fun sure => ?_⟩
  · obtain ⟨v, answer⟩ := sure
    obtain rfl := Timed.inTime.inj answer
    exact ends v
  · obtain ⟨v, answer⟩ := sure
    cases answer

theorem grant_surely {q : Record} {holders : List Record} :
    (c.grant s q).Keeps surely (Evaluated s) (choice c.limits s q holders) := by
  unfold grant
  refine keeps_bind.2 (command_surely fun _ => ?_)
  refine keeps_bind.2 (keeps_bind.2 (callStore_surely fun t => ?_))
  cases ((Store.Call.swap q.toHolder q).apply t).1 with
  | error e =>
    refine keeps_bind.2 (keeps_bind.2 (callStore_surely fun t => ?_))
    simp only [Store.Call.apply]
    cases t.holder s with
    | some h => exact .lost
    | none => exact keeps_bind.2 (command_surely fun _ => .takenBack)
  | ok u =>
    simp only [keeps_pure, keeps_bind, keeps_report, keeps_publish]
    exact ⟨trivial, fun _ _ => .granted⟩

/-- What the log of an evaluation looks like. -/
theorem evaluate_surely : (c.evaluate s).Keeps surely (Evaluated s) [] := by
  rw [evaluate, keeps_inSpan]
  unfold attempt Queue.lockHolder Queue.nextWaiter Queue.heldBy Queue.lockHolders
  refine keeps_bind.2 (keeps_bind.2 (callStore_surely fun t => ?_))
  simp only [Store.Call.apply]
  cases t.holder s with
  | some h => exact .occupied
  | none =>
    refine keeps_bind.2 (callStore_surely fun t => ?_)
    simp only [Store.Call.apply]
    cases t.nextWaiter s with
    | none => exact .idle
    | some q =>
      refine keeps_bind.2 (keeps_bind.2 (callStore_surely fun t => ?_))
      simp only [Store.Call.apply, keeps_pure]
      split
      · next other found =>
        obtain ⟨h, held, rfl⟩ := List.mem_map.1 (List.mem_of_find?_eq_some found)
        obtain ⟨held, own⟩ := List.mem_filter.1 held
        exact .deferred held (eq_of_beq own) (by simpa using List.find?_some found)
      · exact keeps_bind.2 (grant_surely.mono fun _ _ evaluated => evaluated)

/-- What holds of the log of an operation that has returned among rivals. -/
def Closed : (o : Operation) → Log actions → o.Answer → Prop
  | .evaluate s, log, v => Evaluated s log v
  | _, _, _ => True

theorem planAt_surely (e : Enrolling) (c : Coordinator) (o : Operation) :
    (planAt e c o).Keeps surely (Closed o) [] := by
  cases o with
  | evaluate s => exact evaluate_surely
  | _ => exact keeps_top _ []

end Programs

namespace System

variable {x y : System} {e : Event} {s : SpaceId} {t : Table} {minters : Nat → Minter}
  {r : Record} {late early : List Event}

theorem Step.sure {i : Nat} {o : Operation} {a : Action} {answer : a.Answer} {fate : Fate}
    {found : Table} (step : Step x (.call i o a answer fate found) y)
    (rival : Rival s (.call i o a answer fate found)) : Sure a answer := by
  cases a with
  | store limit c =>
    cases step with
    | done task calls effect => exact ⟨_, effect.answer_eq⟩
    | refused => cases rival.2
    | adrift => cases rival.2
  | vendor limit c =>
    cases step with
    | done task calls effect => cases effect; exact ⟨_, rfl⟩
    | refused => cases rival.2
    | adrift => cases rival.2
  | _ => trivial

/-- An evaluation that has returned has one of the logs. -/
theorem Run.evaluated (run : Run (Rival s) (opening t minters) x) {i : Nat} {v : Outcome}
    (returned : x.Returned i (.evaluate s) v) : Evaluated s (logOf i x.history) v :=
  run.of_returned planAt_surely (fun step fit _ => step.sure fit) returned

/-- Among rivals a store call is answered as the table tells at that moment. -/
theorem Run.of_heard (run : Run (Rival s) (opening t minters) x) {i : Nat} {l : Limits}
    {c : Store.Call} {a : c.Answer} (split : x.history = late ++ early)
    (logged : heard l c a ∈ logOf i early) :
    ∃ later o sooner, early = later ++ .call i o (.store l.store c) (.inTime a) .done
      (tableAfter t sooner) :: sooner ∧ a = (c.apply (tableAfter t sooner)).1 := by
  obtain ⟨o, fate, found, happened⟩ := mem_logOf.1 logged
  obtain ⟨later, sooner, rfl⟩ := List.append_of_mem happened
  have fit := run.fits _ (split ▸ List.mem_append_right late happened)
  have faithful := run.faithful
  rw [split] at faithful
  obtain ⟨rfl, done⟩ := faithful.tail.split
  cases fate with
  | done =>
    obtain ⟨minters', t', minters'', effect⟩ := done rfl
    exact ⟨later, o, sooner, rfl, Timed.inTime.inj effect.answer_eq⟩
  | refused => cases fit.2
  | adrift => cases fit.2

/-- What takes effect among rivals changes nothing, or is a swap for the first waiter of an earlier
table. -/
theorem Run.rival_effect (run : Run (Rival s) (opening t minters) x)
    (split : x.history = late ++ e :: early) :
    tableAfter t (e :: early) = tableAfter t early ∧ e.mark? = none ∨
      ∃ o q gap sooner, e.effect? = some (o, .swap q.toHolder q, tableAfter t early) ∧
        (tableAfter t early).swap q.toHolder q = .ok (tableAfter t (e :: early)) ∧
        early = gap ++ sooner ∧ (tableAfter t sooner).FirstWaiter s q := by
  have happened : e ∈ x.history := by simp [split]
  have faithful := run.faithful
  rw [split] at faithful
  have now : Faithful t (e :: early) := faithful.tail
  cases effect : e.effect? with
  | none => exact .inl ⟨tableAfter_cons_of_none effect, by rw [Event.mark?, effect]; rfl⟩
  | some made =>
    obtain ⟨o, c, found⟩ := made
    obtain rfl := now.found effect
    have changes := run.sound.orderly.changes happened effect
    have own : o = .evaluate s :=
      (Event.operation_of_effect? effect).symm.trans (run.fits e happened).1
    rw [tableAfter_cons effect, Event.mark?, effect]
    cases c with
    | add q => rw [own] at changes; cases changes.1
    | addIfAbsent q => rw [own] at changes; cases changes.1
    | delete q => rw [own] at changes; rcases changes with goes | goes <;> cases goes
    | swap new old =>
      obtain rfl : new = old.toHolder := changes
      cases swapped : (tableAfter t early).swap old.toHolder old with
      | error e =>
        exact .inl (by simp [Store.Call.apply, Store.Call.settle, Store.Call.mark?, swapped])
      | ok t' =>
        obtain ⟨gap, sooner, before, serves, first⟩ := run.shown split effect
        rw [own] at serves
        rcases serves with same | ⟨w, goes⟩
        · rw [← Operation.evaluate.inj same] at first
          exact .inr ⟨o, old, gap, sooner, rfl, by simp [Store.Call.apply, Store.Call.settle, swapped],
            before, first⟩
        · rcases goes with goes | goes <;> cases goes
    | _ => exact .inl ⟨rfl, rfl⟩

end System

/-- The space is free, and its first waiter holds no other one. -/
structure Due (t : Table) (s : SpaceId) (r : Record) : Prop where
  free : t.holder s = none
  first : t.FirstWaiter s r
  idle : ∀ h ∈ t.holders, h.worker = r.worker → h.space = s

/-- Where a race for the space stands: nothing has changed yet, or the first waiter was swapped in
and nothing else. -/
inductive Race (t : Table) (s : SpaceId) (r : Record) : List Event → Prop
  | running {history : List Event} (unmarked : ∀ e ∈ history, e.mark? = none)
    (same : ∀ early, early <:+ history → tableAfter t early = t) : Race t s r history
  | settled (late early : List Event) {e : Event} {o : Operation}
    (effect : e.effect? = some (o, .swap r.toHolder r, t))
    (before : ∀ e' ∈ early, e'.mark? = none) (after : ∀ e' ∈ late, e'.mark? = none)
    (swapped : t.swap r.toHolder r = .ok (tableAfter t (late ++ e :: early))) :
    Race t s r (late ++ e :: early)

namespace Due

variable {t t' : Table} {s : SpaceId} {r : Record}

theorem grantable (due : Due t s r) : t.Grantable s r where
  free := due.free
  first := due.first
  idle := by
    intro q holds
    obtain ⟨h, held, rfl, own⟩ := Table.holds_iff.1 holds
    exact due.idle h held own

/-- A swap for the first waiter happens. -/
theorem swappable (due : Due t s r) : t.Swappable r.toHolder r := due.grantable.swappable

/-- After the swap the space is held and only the record of the first waiter is another one. -/
theorem holder_swapped (due : Due t s r) (swapped : t.swap r.toHolder r = .ok t') :
    t'.holder s = some r.toHolder := by
  have held : t'.holder r.space = some r.toHolder := Table.holder_of_swap swapped
  rwa [due.first.space] at held

theorem mem_swapped (due : Due t s r) (swapped : t.swap r.toHolder r = .ok t') {q : Record} :
    q ∈ t'.records ↔ q = r.toHolder ∨ q ∈ t.records ∧ q ≠ r :=
  Table.mem_promoted due.first.stored swapped

end Due

namespace System

variable {x y : System} {e : Event} {s : SpaceId} {t : Table} {minters : Nat → Minter}
  {r : Record} {late early : List Event}

/-- At every moment the race is still on or settled. -/
theorem Run.race (run : Run (Rival s) (opening t minters) x) (due : Due t s r) :
    Race t s r x.history := by
  suffices every : ∀ early late, x.history = late ++ early → Race t s r early from
    every x.history [] (List.nil_append _).symm
  intro early
  induction early with
  | nil =>
    refine fun _ _ => .running (fun _ h => nomatch h) fun early suffix => ?_
    rw [List.suffix_nil.1 suffix]
    rfl
  | cons e early ih =>
    intro late split
    have sofar := ih (late ++ [e]) (by simp [split])
    have moves := run.rival_effect split
    cases sofar with
    | running unmarked same =>
      have now := same early List.suffix_rfl
      rcases moves with ⟨still, none⟩ | ⟨o, q, gap, sooner, effect, swapped, rfl, first⟩
      · refine .running (List.forall_mem_cons.2 ⟨none, unmarked⟩) fun early' suffix => ?_
        rcases List.suffix_cons_iff.1 suffix with rfl | older
        · exact still.trans now
        · exact same early' older
      · -- everyone has read the first table, so this is the first waiter
        rw [same sooner (List.suffix_append gap sooner)] at first
        have next := Table.nextWaiter_eq_some_iff.2 first
        rw [Table.nextWaiter_eq_some_iff.2 due.first] at next
        obtain rfl := Option.some.inj next
        rw [now] at effect swapped
        exact .settled [] _ effect unmarked (fun _ h => nomatch h) swapped
    | settled late' sooner effect before after swapped =>
      rcases moves with ⟨still, none⟩ | ⟨o', q, gap, past, -, again, -, first⟩
      · exact .settled (e :: late') _ effect before (List.forall_mem_cons.2 ⟨none, after⟩)
          (swapped.trans (congrArg Except.ok still.symm))
      · -- the space is held by now
        obtain ⟨may, -⟩ := Table.swap_eq_ok_iff.1 again
        have free := may.free
        rw [Record.toHolder_space, first.space, due.holder_swapped swapped] at free
        cases free

/-- As long as nothing has changed, the store tells of the first table. -/
theorem Run.told (run : Run (Rival s) (opening t minters) x) (split : x.history = late ++ early)
    (same : ∀ older, older <:+ early → tableAfter t older = t) {i : Nat} {l : Limits}
    {c : Store.Call} {a : c.Answer} (logged : heard l c a ∈ logOf i early) :
    a = (c.apply t).1 := by
  obtain ⟨later, o, sooner, rfl, answer⟩ := run.of_heard split logged
  rwa [same sooner ((List.suffix_cons _ _).trans (List.suffix_append _ _))] at answer

/-- As long as nothing has changed, no swap is lost. -/
theorem Run.not_lost (run : Run (Rival s) (opening t minters) x) (due : Due t s r)
    (split : x.history = late ++ early) (same : ∀ older, older <:+ early → tableAfter t older = t)
    {i : Nat} {l : Limits} {q : Record} {holders : List Record} {e : StoreError}
    (listed : heard l (.swap q.toHolder q) (.error e) :: commanded l (.block s) () ::
      choice l s q holders ⊆ logOf i early) : False := by
  have shown : heard l (.nextWaiter s) (.ok (some q)) ∈ logOf i early :=
    listed (by simp [choice])
  have first : some q = t.nextWaiter s := Except.ok.inj (run.told split same shown)
  rw [Table.nextWaiter_eq_some_iff.2 due.first] at first
  obtain rfl := Option.some.inj first
  have failed := run.told split same (listed List.mem_cons_self)
  have happens := Table.swap_eq_ok_iff.2 ⟨due.swappable, rfl⟩
  simp only [Store.Call.apply, Store.Call.settle, happens] at failed
  cases failed

/-- Who was told that its swap happened has made a grant. -/
theorem Run.marked (run : Run (Rival s) (opening t minters) x) {i : Nat} {l : Limits}
    {new old : Record} (logged : heard l (.swap new old) (.ok ()) ∈ logOf i x.history) :
    ∃ e ∈ x.history, e.task? = some i ∧ e.mark? = some (.granted new.space new.worker) := by
  obtain ⟨later, o, sooner, split, answer⟩ := run.of_heard (List.nil_append _).symm logged
  refine ⟨_, by rw [split]; exact List.mem_append_right _ List.mem_cons_self, rfl, ?_⟩
  cases swapped : (tableAfter t sooner).swap new old with
  | error e => simp [Store.Call.apply, Store.Call.settle, swapped] at answer
  | ok t' => simp [Event.mark?, Event.effect?, Store.Call.mark?, swapped]

/-- Whoever has come to an end knows of a change. -/
theorem Run.not_running (run : Run (Rival s) (opening t minters) x) (due : Due t s r)
    (unmarked : ∀ e ∈ x.history, e.mark? = none)
    (same : ∀ older, older <:+ x.history → tableAfter t older = t) {i : Nat} {v : Outcome} :
    ¬ x.Returned i (.evaluate s) v := by
  intro returned
  have whole : x.history = [] ++ x.history := rfl
  have evaluated := run.evaluated returned
  generalize logged : logOf i x.history = log at evaluated
  have told {l : Limits} {c : Store.Call} {a : c.Answer} (listed : heard l c a ∈ log) :
      a = (c.apply t).1 := run.told whole same (logged ▸ listed)
  cases evaluated with
  | occupied =>
    have holder := Except.ok.inj (told (List.mem_singleton_self _))
    rw [due.free] at holder
    cases holder
  | idle =>
    have next := Except.ok.inj (told List.mem_cons_self)
    rw [Table.nextWaiter_eq_some_iff.2 due.first] at next
    cases next
  | @deferred l q h holders held own other =>
    have looked : heard l (.nextWaiter s) (.ok (some q)) ∈ choice l s q holders := by simp [choice]
    have asked : heard l .lockHolders (.ok holders) ∈ choice l s q holders := by simp [choice]
    have next := Except.ok.inj (told looked)
    rw [Table.nextWaiter_eq_some_iff.2 due.first] at next
    obtain rfl := Option.some.inj next
    exact other (due.idle h (Except.ok.inj (told asked) ▸ held) own)
  | @granted l q holders p a =>
    have swapped : heard l (.swap q.toHolder q) (.ok ()) ∈ logOf i x.history := by
      rw [logged]
      simp
    obtain ⟨e, happened, -, mark⟩ := run.marked swapped
    rw [unmarked e happened] at mark
    cases mark
  | lost => exact run.not_lost due whole same (logged ▸ List.subset_cons_self _ _)
  | takenBack =>
    exact run.not_lost due whole same
      (logged ▸ List.subset_cons_of_subset _ (List.subset_cons_self _ _))

/-- What is left when all rivals for a space have returned: one of them, and no other, has been
told that the space is granted, and to the first waiter; its record is the only one that has
changed; and nobody has tried to unblock anything. -/
structure OneGrant (t : Table) (s : SpaceId) (r : Record) (x : System) : Prop where
  granted : ∃ i, x.Returned i (.evaluate s) (.granted s r.worker) ∧
    ∀ j s' w, x.Returned j (.evaluate s) (.granted s' w) → j = i
  held : x.table.holder s = some r.toHolder
  records : ∀ q, q ∈ x.table.records ↔ q = r.toHolder ∨ q ∈ t.records ∧ q ≠ r
  unblocks : ∀ i o limit s' a fate found,
    .call i o (.vendor limit (.unblock s')) a fate found ∉ x.history

/-- Among rivals every task evaluates the space. -/
theorem Run.rival_task (run : Run (Rival s) (opening t minters) x) {i : Nat} {task : Task}
    (under : x.tasks i = some task) : task.operation = .evaluate s := by
  obtain ⟨e, happened, mine⟩ := run.exists_of_task under
  obtain ⟨rest, own⟩ := run.sound.own i e happened mine
  rw [under] at own
  cases own
  exact (run.fits e happened).1

/-- Nobody finds the space free after its own swap was lost, so nobody unblocks it. -/
theorem Run.not_unblocked (run : Run (Rival s) (opening t minters) x) (due : Due t s r) {i : Nat}
    {l : Limits} {q : Record} {holders : List Record} {e : StoreError} :
    logOf i x.history ≠ commanded l (.unblock s) () :: heard l (.lockHolder s) (.ok none) ::
      heard l (.swap q.toHolder q) (.error e) :: commanded l (.block s) () ::
        choice l s q holders := by
  rw [← List.singleton_append]
  intro logged
  obtain ⟨late, o, fate, found, early, split, -, sofar⟩ := split_of_logOf logged
  obtain ⟨-, rfl, answer⟩ := run.of_ok split
  have free : (tableAfter t early).holder s = none := Except.ok.inj answer
  obtain ⟨y, run', rfl⟩ := run.earlier (split.trans (List.append_cons _ _ _))
  have race := run'.race due
  generalize now : y.history = history at race
  cases race with
  | running unmarked same =>
    rw [← now] at same
    have listed : heard l (.swap q.toHolder q) (.error e) :: commanded l (.block s) () ::
        choice l s q holders ⊆ logOf i y.history := by
      rw [sofar]
      exact List.Subset.refl _
    exact run'.not_lost due (List.nil_append _).symm same listed
  | settled late early effect before after swapped =>
    rw [now, due.holder_swapped swapped] at free
    cases free

/-- Who made the only grant answers that it did. -/
theorem Run.answers_granted (run : Run (Rival s) (opening t minters) x) {i : Nat} {o : Operation}
    (happened : e ∈ x.history) (mine : e.task? = some i)
    (effect : e.effect? = some (o, .swap r.toHolder r, t)) {t' : Table}
    (swapped : t.swap r.toHolder r = .ok t') {v : Outcome}
    (returned : x.Returned i (.evaluate s) v) : v = .granted s r.worker := by
  rcases Event.of_effect?_eq_some effect with ⟨j, k, a, rfl⟩ | rfl
  · cases mine
    obtain ⟨late, early, split⟩ := List.append_of_mem happened
    have faithful := run.faithful
    rw [split] at faithful
    obtain ⟨same, told⟩ := faithful.split
    obtain ⟨minters', t', minters'', done⟩ := told rfl
    have answer : a = .inTime (.ok ()) := by
      rw [done.answer_eq, ← same]
      simp only [Store.Call.apply, Store.Call.settle, swapped]
    exact (run.evaluated returned).eq_granted (mem_logOf.2 ⟨o, .done, t, answer ▸ happened⟩)
  · cases mine

/-- Who answers that it was granted the space has made a grant. -/
theorem Run.marked_of_granted (run : Run (Rival s) (opening t minters) x) {i : Nat} {s' : SpaceId}
    {w : WorkerId} (returned : x.Returned i (.evaluate s) (.granted s' w)) :
    ∃ e ∈ x.history, e.task? = some i ∧ e.mark? ≠ none := by
  have evaluated := run.evaluated returned
  generalize logged : logOf i x.history = log at evaluated
  cases evaluated with
  | @granted l q holders p a =>
    have heard : heard l (.swap q.toHolder q) (.ok ()) ∈ logOf i x.history := by
      rw [logged]
      simp
    obtain ⟨e, happened, mine, marked⟩ := run.marked heard
    exact ⟨e, happened, mine, by rw [marked]; nofun⟩

/-- Whoever has returned has unblocked nothing. -/
theorem Run.none_unblocked (run : Run (Rival s) (opening t minters) x) (due : Due t s r) {i : Nat}
    {v : Outcome} (returned : x.Returned i (.evaluate s) v) {limit : Option Time.Duration}
    {s' : SpaceId} {a : Timed (Except FleetError Unit)} :
    (⟨.vendor limit (.unblock s'), a⟩ : (a : Action) × a.Answer) ∉ logOf i x.history := by
  intro sent
  have evaluated := run.evaluated returned
  generalize logged : logOf i x.history = log at evaluated sent
  cases evaluated with
  | takenBack => exact run.not_unblocked due logged
  | _ => simp [heard, commanded, choice] at sent

/-- The only grant belongs to a task, and no other task answers that it was granted the space. -/
theorem Run.one_answer (run : Run (Rival s) (opening t minters) x)
    (ends : ∀ i task, x.tasks i = some task → ∃ v, x.Returned i (.evaluate s) v)
    (happened : e ∈ x.history) (only : ∀ e' ∈ x.history, e'.mark? ≠ none → e' = e) {o : Operation}
    (effect : e.effect? = some (o, .swap r.toHolder r, t)) {t' : Table}
    (swapped : t.swap r.toHolder r = .ok t') :
    ∃ i, x.Returned i (.evaluate s) (.granted s r.worker) ∧
      ∀ j s' w, x.Returned j (.evaluate s) (.granted s' w) → j = i := by
  cases mine : e.task? with
  | none =>
    rcases Event.of_effect?_eq_some effect with ⟨i, k, a, rfl⟩ | rfl
    · cases mine
    · cases (run.fits _ happened).2
  | some i =>
    obtain ⟨rest, under⟩ := run.sound.own i e happened mine
    obtain ⟨v, returned⟩ := ends i _ under
    obtain rfl := run.answers_granted happened mine effect swapped returned
    refine ⟨i, returned, fun j s' w returned' => ?_⟩
    obtain ⟨e', happened', mine', marked⟩ := run.marked_of_granted returned'
    obtain rfl := only e' happened' marked
    rw [mine] at mine'
    exact (Option.some.inj mine').symm

/-- Rivals for a space grant it exactly once, and to its first waiter, in whatever order their calls
come. -/
theorem one_grant (run : Run (Rival s) (opening t minters) x) (due : Due t s r)
    (begun : ∃ i task, x.tasks i = some task)
    (ended : ∀ i task, x.tasks i = some task → ∃ v, x.Returned i task.operation v) :
    OneGrant t s r x := by
  have ends (i : Nat) (task : Task) (under : x.tasks i = some task) :
      ∃ v, x.Returned i (.evaluate s) v := by
    have returned := ended i task under
    rwa [run.rival_task under] at returned
  have race := run.race due
  have table := run.table
  generalize now : x.history = history at race table
  cases race with
  | running unmarked same =>
    obtain ⟨i, task, under⟩ := begun
    obtain ⟨v, returned⟩ := ends i task under
    rw [← now] at unmarked same
    exact absurd returned (run.not_running due unmarked same)
  | @settled late early e o effect before after swapped =>
    rw [← table] at swapped
    have happened : e ∈ x.history := by simp [now]
    have only : ∀ e' ∈ x.history, e'.mark? ≠ none → e' = e := by
      intro e' happened marked
      rw [now] at happened
      rcases List.mem_append.1 happened with later | sooner
      · exact absurd (after e' later) marked
      · rcases List.mem_cons.1 sooner with same | sooner
        · exact same
        · exact absurd (before e' sooner) marked
    refine ⟨run.one_answer ends happened only effect swapped, due.holder_swapped swapped,
      fun q => due.mem_swapped swapped, fun j o' limit s' a fate found sent => ?_⟩
    obtain ⟨rest, under⟩ := run.sound.own j _ sent rfl
    obtain ⟨v, returned⟩ := ends j _ under
    exact run.none_unblocked due returned (mem_logOf.2 ⟨o', fate, found, sent⟩)

def waiter (w : WorkerId) (p : Priority) : Record := .waiting ⟨"s-1"⟩ w p default

def twoWaiters : Table :=
  (Table.empty.insert (waiter ⟨"w-1"⟩ ⟨1⟩) (by rfl)).insert (waiter ⟨"w-2"⟩ ⟨2⟩) (by rfl)

/-- Two coordinators choose the first waiter. A third has seen the space free as well, but looks for
the first waiter only after the swap. -/
def threeRivals : List Move :=
  [.begin 0 .atOnce {} (.evaluate ⟨"s-1"⟩), .begin 1 .atOnce {} (.evaluate ⟨"s-1"⟩),
    .begin 2 .inTwoCalls {} (.evaluate ⟨"s-1"⟩)] ++
  List.replicate 4 (.go 0) ++ List.replicate 4 (.go 1) ++ [.go 2, .go 0, .go 1] ++
  List.replicate 5 (.go 2) ++ [.go 1, .go 0]

theorem one_grant_threeRivals :
    ∃ x, OneGrant twoWaiters ⟨"s-1"⟩ (waiter ⟨"w-1"⟩ ⟨1⟩) x ∧
      x.Returned 0 (.evaluate ⟨"s-1"⟩) (.granted ⟨"s-1"⟩ ⟨"w-1"⟩) := by
  have ran : ((opening twoWaiters fun _ => {}).follow threeRivals).map (fun x =>
      (x.returned? 0, x.history.all (fun e => decide (Rival ⟨"s-1"⟩ e)),
        x.history.all fun e => e.task?.all fun i => (x.returned? i).isSome)) =
    some (some ⟨.evaluate ⟨"s-1"⟩, .granted ⟨"s-1"⟩ ⟨"w-1"⟩⟩, true, true) := by rfl
  obtain ⟨x, followed, seen⟩ := Option.map_eq_some_iff.1 ran
  simp only [Prod.mk.injEq] at seen
  obtain ⟨returned, rivals, ended⟩ := seen
  have run : Run (Rival ⟨"s-1"⟩) (opening twoWaiters fun _ => {}) x :=
    (run_of_follow followed).of_kind fun e he => of_decide_eq_true (List.all_eq_true.1 rivals e he)
  have due : Due twoWaiters ⟨"s-1"⟩ (waiter ⟨"w-1"⟩ ⟨1⟩) :=
    ⟨by rfl, Table.nextWaiter_eq_some_iff.1 (by rfl), fun h held => by cases held⟩
  have granted := returned_of_returned? returned
  have ⟨rest, under, _⟩ := granted
  refine ⟨x, one_grant run due ⟨0, _, under⟩ fun i task under => ?_, granted⟩
  obtain ⟨e, happened, mine⟩ := run.exists_of_task under
  have closed := List.all_eq_true.1 ended e happened
  rw [mine, Option.all_some] at closed
  obtain ⟨⟨o, v⟩, returned⟩ := Option.isSome_iff_exists.1 closed
  have ⟨rest, under', ended⟩ := returned_of_returned? returned
  rw [under] at under'
  cases under'
  exact ⟨v, rest, under, ended⟩

end System

end Interlock.Concurrent
