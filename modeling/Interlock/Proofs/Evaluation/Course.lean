import Interlock.Proofs.Sequential.Scene
import Interlock.Proofs.Store.Held

/-!
What a step of a space may come to. Nobody else is at work, but any store call may fail, and one
that fails may have taken effect before it did; vendor and registry answer as they like. The courses
a step can take are listed once, each with its calls and answers, its outcome and the table it
leaves, and whatever is to be said about a step is read off that list.
-/
namespace Interlock

namespace Evaluation

open Coordinator Store Fleet Interlock.Sequential

variable {ε : Type}

/-- What becomes of a store call. A call that fails, late or with an error, may have taken effect
all the same. -/
inductive CallFate where
  | carriedOut
  | failed (landed : Bool) (e : Option StoreError)
  deriving DecidableEq, Repr

/-- The answer of a store call that fails; without an error it is late. -/
def failure (c : Call) : Option StoreError → Timed c.Answer
  | none => .late
  | some e => .inTime (c.fail e)

/-- The world outside of a coordinator, where it is also said what becomes of each store call. -/
structure Hazards (ε : Type) where
  clock : ε → (Int64 × Time.Instant) × ε
  vendor : (c : Command) → ε → Timed c.Answer × ε
  registry : Publication → ε → Timed Publication.Answer × ε
  store : Call → ε → CallFate × ε

namespace Hazards

def steady (W : Hazards ε) : Surroundings ε :=
  ⟨W.clock, W.vendor, W.registry, fun b => (.carriedOut, b)⟩

/-- How every action of the coordinator is answered. -/
def answer (W : Hazards ε) : (a : Action) → Scene Table ε → a.Answer × Scene Table ε
  | .store _ c, x =>
    match W.store c x.beyond with
    | (.carriedOut, b) => Surroundings.call c { x with beyond := b }
    | (.failed landed e, b) =>
      (failure c e,
        { x with state := if landed then (c.apply x.state).2 else x.state, beyond := b })
  | a, x => W.steady.answer a x

def perform (W : Hazards ε) (c : Coordinator) (o : Operation) (x : Scene Table ε) :
    o.Answer × Scene Table ε :=
  (o.plan c).runQuiet W.answer x

/-- The store call fails at times. -/
def Fails (W : Hazards ε) (k : Call) : Prop := ∃ b, (W.store k b).1 ≠ .carriedOut

/-- The store call fails at times although it takes effect. -/
def Lands (W : Hazards ε) (k : Call) : Prop := ∃ b e, (W.store k b).1 = .failed true e

/-- The vendor answers the command so at times. -/
def Answers (W : Hazards ε) (k : Command) (a : Timed k.Answer) : Prop := ∃ b, (W.vendor k b).1 = a

end Hazards

/-! The log of a step. -/

abbrev asked (l : Limits) (c : Call) (a : Timed c.Answer) : (a : Action) × a.Answer :=
  ⟨.store l.store c, a⟩

abbrev told (l : Limits) (c : Command) (a : Timed c.Answer) : (a : Action) × a.Answer :=
  ⟨.vendor l.command c, a⟩

/-- The reads of a step that has found the space free and this waiter first. -/
def reads (l : Limits) (s : SpaceId) (t : Table) (r : Record) : Log actions :=
  [asked l .lockHolders (.inTime (.ok t.holders)), asked l (.nextWaiter s) (.inTime (.ok (some r))),
    asked l (.lockHolder s) (.inTime (.ok none))]

/-- The courses of a step of a space: its log, the latest first, its outcome and the table it
leaves. -/
inductive Course (W : Hazards ε) (l : Limits) (s : SpaceId) (t : Table) :
    Log actions → Outcome → Table → Prop
  | holderUnread {a : Timed (Call.lockHolder s).Answer} {e : StoreError}
      (fault : W.Fails (.lockHolder s)) (fails : storeAnswer l (.lockHolder s) a = .error e) :
    Course W l s t [asked l (.lockHolder s) a] (.unavailable s e.message) t
  | occupied {h : Record} (held : t.holder s = some h) :
    Course W l s t [asked l (.lockHolder s) (.inTime (.ok (some h)))] (.occupied s h.worker) t
  | waiterUnread (free : t.holder s = none) {a : Timed (Call.nextWaiter s).Answer} {e : StoreError}
      (fault : W.Fails (.nextWaiter s)) (fails : storeAnswer l (.nextWaiter s) a = .error e) :
    Course W l s t [asked l (.nextWaiter s) a, asked l (.lockHolder s) (.inTime (.ok none))]
      (.unavailable s e.message) t
  | idle (free : t.holder s = none) (nobody : t.nextWaiter s = none) :
    Course W l s t
      [asked l (.nextWaiter s) (.inTime (.ok none)), asked l (.lockHolder s) (.inTime (.ok none))]
      (.idle s) t
  | holdersUnread (free : t.holder s = none) {r : Record} (first : t.FirstWaiter s r)
      {a : Timed Call.lockHolders.Answer} {e : StoreError} (fault : W.Fails .lockHolders)
      (fails : storeAnswer l .lockHolders a = .error e) :
    Course W l s t
      [asked l .lockHolders a, asked l (.nextWaiter s) (.inTime (.ok (some r))),
        asked l (.lockHolder s) (.inTime (.ok none))]
      (.unavailable s e.message) t
  | deferred (free : t.holder s = none) {r : Record} (first : t.FirstWaiter s r) {other : SpaceId}
      (elsewhere : t.LeastOther r.worker s other) :
    Course W l s t (reads l s t r) (.deferred s r.worker other) t
  | unblocked {r : Record} (grantable : t.Grantable s r) {a : Timed (Command.block s).Answer}
      (answered : W.Answers (.block s) a) {e : FleetError}
      (fails : vendorAnswer l (.block s) a = .error e) :
    Course W l s t (told l (.block s) a :: reads l s t r)
      (.failedToBlock s r.worker e.message) t
  | granted {r : Record} (grantable : t.Grantable s r)
      (blocked : W.Answers (.block s) (.inTime (.ok ()))) {t' : Table}
      (swapped : t.swap r.toHolder r = .ok t') (p : Timed Publication.Answer) :
    Course W l s t
      (⟨.publish l.command ⟨r.worker, .sharedSpaceLock (some s)⟩, p⟩ ::
        asked l (.swap r.toHolder r) (.inTime (.ok ())) ::
        told l (.block s) (.inTime (.ok ())) :: reads l s t r)
      (.granted s r.worker) t'
  /-- The swap has failed, and it has landed or nobody can say that it has not. -/
  | kept {r : Record} (grantable : t.Grantable s r) {t' : Table}
      (landed : t' = t ∨ t.swap r.toHolder r = .ok t')
      {a : Timed (Call.swap r.toHolder r).Answer} {e : StoreError}
      (fault : W.Fails (.swap r.toHolder r))
      (fails : storeAnswer l (.swap r.toHolder r) a = .error e)
      {b : Timed (Call.lockHolder s).Answer} (unsure : b ≠ .inTime (.ok none)) :
    Course W l s t
      (asked l (.lockHolder s) b :: asked l (.swap r.toHolder r) a ::
        told l (.block s) (.inTime (.ok ())) :: reads l s t r)
      (.failedToGrant s r.worker e.message) t'
  /-- The swap has failed, and nobody holds the space. -/
  | takenBack {r : Record} (grantable : t.Grantable s r)
      {a : Timed (Call.swap r.toHolder r).Answer} {e : StoreError}
      (fault : W.Fails (.swap r.toHolder r))
      (fails : storeAnswer l (.swap r.toHolder r) a = .error e)
      (u : Timed (Command.unblock s).Answer) :
    Course W l s t
      (told l (.unblock s) u :: asked l (.lockHolder s) (.inTime (.ok none)) ::
        asked l (.swap r.toHolder r) a :: told l (.block s) (.inTime (.ok ())) :: reads l s t r)
      (.failedToGrant s r.worker e.message) t

theorem Course.leaving {W : Hazards ε} {l : Limits} {s : SpaceId} {t t' left : Table}
    {log : Log actions} {o : Outcome} (course : Course W l s t log o t') (same : left = t') :
    Course W l s t log o left :=
  same ▸ course

namespace Hazards

open Program

variable {W : Hazards ε} {c : Coordinator} {l : Limits} {s : SpaceId} {x : Scene Table ε}
  {log : Log actions} {t : Table} {r : Record}

/-- A store call is carried out on the table, or it fails, with or without its effect. -/
theorem store_ends {k : Call} {post : k.Answer → Log actions × Scene Table ε → Prop}
    (fails : ∀ a e y, W.Fails k → storeAnswer l k a = .error e →
      y.state = x.state ∨ W.Lands k ∧ y.state = (k.apply x.state).2 →
        post (.error e) (asked l k a :: log, y))
    (works : ∀ y, y.state = (k.apply x.state).2 →
      post (k.apply x.state).1 (asked l k (.inTime (k.apply x.state).1) :: log, y)) :
    (callStore l k).Ends (recorded W.answer) post (log, x) := by
  rw [ends_callStore]
  rcases fate : W.store k x.beyond with ⟨_ | ⟨landed, e⟩, b⟩
  · simp only [recorded, answer, fate]
    exact works _ rfl
  · simp only [recorded, answer, fate]
    have fault : W.Fails k := ⟨x.beyond, by simp [fate]⟩
    have effect : (if landed then (k.apply x.state).2 else x.state) = x.state ∨
        W.Lands k ∧ (if landed then (k.apply x.state).2 else x.state) = (k.apply x.state).2 := by
      cases landed with
      | false => exact .inl rfl
      | true => exact .inr ⟨⟨x.beyond, e, by simp [fate]⟩, rfl⟩
    cases e with
    | none => exact fails _ _ _ fault rfl effect
    | some e => exact fails _ _ _ fault rfl effect

/-- A read leaves the table, whether it fails or not. -/
theorem read_ends {k : Call} (reading : k.writes = false)
    {post : k.Answer → Log actions × Scene Table ε → Prop}
    (fails : ∀ a e y, W.Fails k → storeAnswer l k a = .error e → y.state = x.state →
      post (.error e) (asked l k a :: log, y))
    (works : ∀ y, y.state = x.state →
      post (k.apply x.state).1 (asked l k (.inTime (k.apply x.state).1) :: log, y)) :
    (callStore l k).Ends (recorded W.answer) post (log, x) := by
  have leaves : (k.apply x.state).2 = x.state := by
    cases k <;> first | rfl | cases reading
  refine store_ends (fun a e y fault failed same => ?_) fun y same => works y (same.trans leaves)
  rw [leaves] at same
  exact fails a e y fault failed (same.elim id And.right)

/-- A command is answered somehow. -/
theorem command_ends {k : Command} {post : k.Answer → Log actions × Scene Table ε → Prop}
    (ends : ∀ a y, W.Answers k a → y.state = x.state →
      post (vendorAnswer l k a) (told l k a :: log, y)) :
    (command l k).Ends (recorded W.answer) post (log, x) := by
  rw [ends_command]
  exact ends _ _ ⟨x.beyond, rfl⟩ rfl

/-- A command that worked was answered in time. -/
theorem vendorAnswer_eq_ok_iff {k : Command} {a : Timed k.Answer} {v : k.Value} :
    vendorAnswer l k a = .ok v ↔ a = .inTime (.ok v) := by
  cases a <;> simp [vendorAnswer]

/-- A failed swap is followed by another look at the holder, and the block is taken back if that
look finds none. -/
theorem takeBackBlock_ends {o : Outcome} {a : Timed (Call.swap r.toHolder r).Answer}
    {e : StoreError}
    (grantable : t.Grantable s r) (fault : W.Fails (.swap r.toHolder r))
    (fails : storeAnswer c.limits (.swap r.toHolder r) a = .error e)
    (landed : x.state = t ∨ t.swap r.toHolder r = .ok x.state)
    (failed : o = .failedToGrant s r.worker e.message) :
    (c.takeBackBlock s r).Ends (recorded W.answer)
      (fun _ y => Course W c.limits s t y.1 o y.2.state)
      (asked c.limits (.swap r.toHolder r) a :: told c.limits (.block s) (.inTime (.ok ())) ::
        reads c.limits s t r, x) := by
  subst failed
  unfold Coordinator.takeBackBlock Queue.lockHolder
  rw [ends_bind]
  refine read_ends rfl (fun b e' y _ unread same => ?_) fun y same => ?_
  · refine ends_report.2 (.kept grantable (same ▸ landed) fault fails fun found => ?_)
    rw [found] at unread
    cases unread
  · simp only [Call.apply]
    cases holder : x.state.holder s with
    | some h =>
      have taken : (.inTime (.ok (some h)) : Timed (Call.lockHolder s).Answer) ≠ .inTime (.ok none) :=
        by simp
      exact ends_report.2 (.kept grantable (same ▸ landed) fault fails taken)
    | none =>
      have stayed : x.state = t := by
        refine landed.resolve_right fun swapped => ?_
        have held := Table.holder_of_swap swapped
        rw [Record.toHolder_space, grantable.first.space, holder] at held
        cases held
      rw [ends_bind]
      refine command_ends fun u z _ same' => ?_
      have left : z.state = t := same'.trans (same.trans stayed)
      have course := (Course.takenBack grantable fault fails u).leaving left
      cases vendorAnswer c.limits (.unblock s) u with
      | ok v => exact course
      | error e' => exact course

/-- Granting a waiter that may have the space comes to one of the four last courses. -/
theorem grant_ends (grantable : x.state.Grantable s r) :
    (c.grant s r).Ends (recorded W.answer)
      (fun o y => Course W c.limits s x.state y.1 o y.2.state)
      (reads c.limits s x.state r, x) := by
  unfold Coordinator.grant
  rw [ends_bind]
  refine command_ends fun a y answered same => ?_
  cases blocked : vendorAnswer c.limits (.block s) a with
  | error e => exact ends_pure.2 ((Course.unblocked grantable answered blocked).leaving same)
  | ok v =>
    obtain rfl : a = .inTime (.ok ()) := vendorAnswer_eq_ok_iff.1 blocked
    obtain ⟨t', swapped⟩ := grantable.exists_swap
    have carried : (Call.swap r.toHolder r).apply x.state = (.ok (), t') := by
      simp [Call.apply, Call.settle, swapped]
    unfold Queue.promote
    simp only [ends_bind]
    refine store_ends (fun a e z fault failed landed => ?_) fun z left => ?_
    · rw [same, carried] at landed
      simp only [ends_pure, ends_bind]
      refine takeBackBlock_ends grantable fault failed (landed.imp id fun h => ?_) rfl
      rw [h.2, swapped]
    · rw [same, carried] at left ⊢
      simp only [ends_bind, ends_pure, ends_report, ends_publish]
      exact (Course.granted grantable answered swapped _).leaving left

/-- What a step comes to, before a store that could not be read is made an outcome. -/
def stepOutcome (s : SpaceId) : Except StoreError Outcome → Outcome
  | .ok o => o
  | .error e => .unavailable s e.message

/-- The reads of a step, and then the attempt to grant. -/
theorem attempt_ends (c : Coordinator) (s : SpaceId) (x : Scene Table ε) :
    (c.attempt s).Ends (recorded W.answer)
      (fun o y => Course W c.limits s x.state y.1 (stepOutcome s o) y.2.state) ([], x) := by
  unfold Coordinator.attempt Queue.lockHolder Queue.nextWaiter Queue.heldBy Queue.lockHolders
  rw [ends_bind]
  refine read_ends rfl (fun a e y fault fails same => ?_) fun y same => ?_
  · exact ends_pure.2 ((Course.holderUnread fault fails).leaving same)
  simp only [Call.apply]
  cases holder : x.state.holder s with
  | some h => exact ends_pure.2 ((Course.occupied holder).leaving same)
  | none =>
    rw [ends_bind]
    refine read_ends rfl (fun a e z fault fails same' => ?_) fun z same' => ?_
    · exact ends_pure.2 ((Course.waiterUnread holder fault fails).leaving (same'.trans same))
    simp only [Call.apply, same]
    cases next : x.state.nextWaiter s with
    | none => exact ends_pure.2 ((Course.idle holder next).leaving (same'.trans same))
    | some r =>
      have first := Table.nextWaiter_eq_some_iff.1 next
      simp only [ends_bind]
      refine read_ends rfl (fun a e u fault fails still => ?_) fun u still => ?_
      · have left : u.state = x.state := still.trans (same'.trans same)
        exact ends_pure.2 ((Course.holdersUnread holder first fault fails).leaving left)
      have left : u.state = x.state := still.trans (same'.trans same)
      simp only [Call.apply, same', same, ends_pure]
      cases elsewhere : (x.state.spacesOf r.worker).find? (· != s) with
      | some other =>
        rw [Table.spacesOf] at elsewhere
        simp only [elsewhere, ends_bind, ends_report, ends_pure]
        exact (Course.deferred holder first (Table.find?_spacesOf_eq_some_iff.1 elsewhere)).leaving
          left
      | none =>
        have grantable : x.state.Grantable s r :=
          ⟨holder, first, Table.find?_spacesOf_eq_none_iff.1 elsewhere⟩
        rw [Table.spacesOf] at elsewhere
        rw [← left] at grantable
        simp only [elsewhere, ends_bind, ends_pure, stepOutcome]
        rw [← left]
        exact grant_ends grantable

/-- Every evaluation of a space takes one of the courses. -/
theorem evaluate_course (W : Hazards ε) (c : Coordinator) (s : SpaceId) (x : Scene Table ε) :
    (c.evaluate s).Ends (recorded W.answer)
      (fun o y => Course W c.limits s x.state y.1 o y.2.state) ([], x) := by
  unfold Coordinator.evaluate
  rw [ends_inSpan, ends_bind]
  refine (attempt_ends c s x).mono fun o y course => ?_
  cases o with
  | ok o => exact course
  | error e => exact course

end Hazards

end Evaluation

end Interlock
