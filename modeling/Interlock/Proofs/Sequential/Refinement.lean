import Interlock.Proofs.Minting
import Interlock.Proofs.Sequential.Mirror

/-!
The operations of a coordinator are those of locks and queues. Scenes agree if the table of the one
mirrors the other; operations on scenes that agree answer the same and leave scenes that agree.
There is one such lemma for each program of the coordinator, and programs that call others use
theirs. Specification, section 4.3: Shared Space Coordinator.
-/
namespace Interlock.Sequential

open Coordinator Store Fleet

variable {ε α : Type}

/-- The table of a scene mirrors the locks and queues of the other, and the rest is the same; at
least `n` more priorities can be handed out. -/
structure Agree (n : Nat) (x : Scene Table ε) (y : Scene Fifo ε) : Prop where
  mirrors : Mirrors x.state y.state
  sound : y.state.Sound y.minter.last
  minter : x.minter = y.minter
  beyond : x.beyond = y.beyond
  room : y.minter.Room n

/-- The same answer, and scenes that agree. -/
structure SameEnd (n : Nat) (p : α × Scene Table ε) (q : α × Scene Fifo ε) : Prop where
  answer : p.1 = q.1
  agree : Agree n p.2 q.2

theorem agree_empty {n : Nat} (few : n < 2 ^ 63) (b : ε) : Agree n ⟨.empty, {}, b⟩ ⟨{}, {}, b⟩ where
  mirrors r := by simp [Table.empty, Fifo.row, Fifo.holder?]
  sound := Fifo.sound_empty
  minter := rfl
  beyond := rfl
  room := Minter.room_start few

/-- What becomes of a swap is said from outside, and only if it is carried out by the table. -/
theorem callSwap_eq {S : Surroundings ε} {l : Limits} {x : Scene Table ε} {f : SwapFate} {b : ε}
    (fate : S.swap x.beyond = (f, b)) (new old : Record) :
    (callStore l (.swap new old)).runQuiet S.answer x =
      match f with
      | .carriedOut =>
        (((Call.swap new old).apply x.state).1,
          { x with state := ((Call.swap new old).apply x.state).2, beyond := b })
      | .late => (.error (.transaction (.timeout (shownLimit l.store))), { x with beyond := b })
      | .turnedDown e => (.error e, { x with beyond := b }) := by
  refine (runQuiet_callStore _).trans ?_
  simp only [Surroundings.answer, fate]
  cases f <;> rfl

theorem Fifo.state_of_promote_error {S : Surroundings ε} {c : Coordinator} {s : SpaceId} {e : Entry}
    {y z : Scene Fifo ε} {err : StoreError} (refused : promote S c s e y = (.error err, z)) :
    z.state = y.state := by
  unfold promote Scene.outside at refused
  generalize S.swap y.beyond = answered at refused
  obtain ⟨_ | _ | _, b⟩ := answered <;> cases refused <;> rfl

namespace Surroundings

variable (S : Surroundings ε) {σ : Type} {x : Scene σ ε} {n : Nat}

def stamped (x : Scene σ ε) (w : WorkerId) : Entry :=
  ⟨w, (S.stamp x).1.priority, (S.stamp x).1.time⟩

theorem lt_stamp (room : x.minter.Room (n + 1)) :
    x.minter.last < (S.stamp x).2.minter.last := Minter.last_lt_next room _

theorem room_stamp (room : x.minter.Room (n + 1)) : (S.stamp x).2.minter.Room n :=
  room.next _

end Surroundings

theorem waits_valid {e : Entry} {s : SpaceId} (checked : checkIds e.worker s = .ok ()) :
    (e.waits s).validate = .ok () := by
  obtain ⟨placed, called⟩ := checkIds_eq_ok_iff.1 checked
  exact Record.validate_waiting placed called _ _

namespace Agree

variable {S : Surroundings ε} {c : Coordinator} {x : Scene Table ε} {y : Scene Fifo ε} {l : Limits}
  {n : Nat} {s : SpaceId} {w : WorkerId} {e : Entry}

theorem less (agree : Agree (n + 1) x y) : Agree n x y :=
  { agree with room := agree.room.mono (Nat.le_succ n) }

/-! What is read from the table. -/

theorem lockHolder_eq (agree : Agree n x y) (s : SpaceId) :
    (Queue.lockHolder l s).runQuiet S.answer x =
      (.ok ((y.state.holder? s).map fun e => e.holds s), x) := by
  rw [← agree.mirrors.holder_eq agree.sound s]
  exact runQuiet_callStore (.lockHolder s)

theorem nextWaiter_eq (agree : Agree n x y) (s : SpaceId) :
    (Queue.nextWaiter l s).runQuiet S.answer x =
      (.ok ((y.state.waiting s).head?.map fun e => e.waits s), x) := by
  rw [← agree.mirrors.nextWaiter_eq agree.sound s]
  exact runQuiet_callStore (.nextWaiter s)

theorem lockHolders_eq (agree : Agree n x y) :
    (Queue.lockHolders l).runQuiet S.answer x =
      (.ok (y.state.locks.map fun l => l.2.holds l.1), x) := by
  rw [← agree.mirrors.holders_eq agree.sound]
  exact runQuiet_callStore .lockHolders

theorem heldBy_eq (agree : Agree n x y) (w : WorkerId) :
    (Queue.heldBy l w).runQuiet S.answer x = (.ok (y.state.lockOf? w).toList, x) := by
  rw [← agree.mirrors.held_eq agree.sound w, agree.mirrors.holders_eq agree.sound]
  simp only [Queue.heldBy, Program.runQuiet_bind, agree.lockHolders_eq, Program.runQuiet_pure]

theorem records_eq (agree : Agree n x y) (s : SpaceId) :
    (Queue.records l s).runQuiet S.answer x = (.ok (y.state.row s), x) := by
  rw [← agree.mirrors.space_eq agree.sound s]
  exact runQuiet_callStore (.list s)

/-! What is asked of the outside. -/

theorem outside (agree : Agree n x y) (f : ε → α × ε) : SameEnd n (x.outside f) (y.outside f) := by
  unfold Scene.outside
  rw [agree.beyond]
  exact ⟨rfl, agree.mirrors, agree.sound, agree.minter, rfl, agree.room⟩

theorem command (agree : Agree n x y) (k : Command) :
    SameEnd n ((Coordinator.command c.limits k).runQuiet S.answer x) (Fifo.command S c k y) := by
  rw [runQuiet_command]
  have asked := agree.outside (S.vendor k)
  exact ⟨congrArg (vendorAnswer c.limits k) asked.answer, asked.agree⟩

theorem publish (agree : Agree n x y) (p : Publication) :
    Agree n ((Coordinator.publish c.limits p).runQuiet S.answer x).2 (Fifo.publish S p y) := by
  rw [runQuiet_publish]
  exact (agree.outside (S.registry p)).agree

/-! What a step of a space does. -/

/-- Nobody holds the space after a swap that had no effect, so the block is taken back. -/
theorem takeBackBlock (agree : Agree n x y) (free : y.state.holder? s = none) (r : Record) :
    Agree n ((c.takeBackBlock s r).runQuiet S.answer x).2 (Fifo.command S c (.unblock s) y).2 := by
  have unblocked := agree.command (S := S) (c := c) (.unblock s)
  simp only [Coordinator.takeBackBlock, Program.runQuiet_bind, agree.lockHolder_eq, free,
    Option.map_none]
  split <;> exact unblocked.agree

/-- Where the space is free and its head holds no other, the swap is refused only from outside. -/
theorem promote (agree : Agree n x y) {rest : List Entry} (head : y.state.waiting s = e :: rest)
    (free : y.state.holder? s = none) (idle : y.state.lockOf? e.worker = none) :
    SameEnd n ((Queue.promote c.limits (e.waits s)).runQuiet S.answer x)
      (Fifo.promote S c s e y) := by
  have queued : e ∈ y.state.waiting s := head ▸ List.mem_cons_self
  have may := agree.mirrors.swappable agree.sound queued free idle
  obtain ⟨t', swapped⟩ : ∃ t', x.state.swap (e.holds s) (e.waits s) = .ok t' :=
    ⟨_, Table.swap_eq_ok_iff.2 ⟨may, rfl⟩⟩
  have applied : (Call.swap (e.waits s).toHolder (e.waits s)).apply x.state = (.ok (), t') :=
    congrArg (Call.settle x.state ()) swapped
  unfold Queue.promote Fifo.promote Scene.outside
  rw [← agree.beyond]
  rcases fate : S.swap x.beyond with ⟨_ | _ | err, b⟩
  · rw [Program.runQuiet_bind, callSwap_eq fate]
    simp only [applied]
    exact ⟨rfl, agree.mirrors.grant agree.sound head free idle swapped,
      agree.sound.grant head free idle, agree.minter, rfl, agree.room⟩
  · rw [Program.runQuiet_bind, callSwap_eq fate]
    exact ⟨rfl, agree.mirrors, agree.sound, agree.minter, rfl, agree.room⟩
  · rw [Program.runQuiet_bind, callSwap_eq fate]
    exact ⟨rfl, agree.mirrors, agree.sound, agree.minter, rfl, agree.room⟩

/-- The head of a free queue is granted the space as far as vendor and swap allow. -/
theorem grant (agree : Agree n x y) {rest : List Entry} (head : y.state.waiting s = e :: rest)
    (free : y.state.holder? s = none) (idle : y.state.lockOf? e.worker = none) :
    SameEnd n ((c.grant s (e.waits s)).runQuiet S.answer x) (Fifo.tryGrant S c s e y) := by
  have blocked := agree.command (S := S) (c := c) (.block s)
  have same : (Fifo.command S c (.block s) y).2.state = y.state := rfl
  unfold Coordinator.grant Fifo.tryGrant
  rw [Program.runQuiet_bind, blocked.answer]
  generalize Fifo.command S c (.block s) y = asked at blocked same
  obtain ⟨_ | _, z⟩ := asked
  · exact ⟨rfl, blocked.agree⟩
  · simp only at same ⊢
    rw [← same] at head free idle
    have promoted := blocked.agree.promote (S := S) (c := c) head free idle
    rw [Program.runQuiet_bind, promoted.answer]
    cases result : Fifo.promote S c s e z with
    | mk a z' =>
      rw [result] at promoted
      cases a with
      | ok r =>
        simp only [Program.runQuiet_bind, Program.runQuiet_report]
        exact ⟨rfl, promoted.agree.publish _⟩
      | error err =>
        have free' : z'.state.holder? s = none := by
          rw [Fifo.state_of_promote_error result, free]
        simp only [Program.runQuiet_bind]
        exact ⟨rfl, promoted.agree.takeBackBlock free' _⟩

theorem attempt (agree : Agree n x y) (s : SpaceId) :
    ∃ x', (c.attempt s).runQuiet S.answer x = (.ok (Fifo.evaluate S c s y).1, x') ∧
      Agree n x' (Fifo.evaluate S c s y).2 := by
  unfold Coordinator.attempt Fifo.evaluate
  rw [Program.runQuiet_bind, agree.lockHolder_eq]
  cases free : y.state.holder? s with
  | some h => exact ⟨x, rfl, agree⟩
  | none =>
    simp only [Option.map_none, Program.runQuiet_bind, agree.nextWaiter_eq]
    cases head : y.state.waiting s with
    | nil => exact ⟨x, rfl, agree⟩
    | cons e rest =>
      simp only [List.head?_cons, Option.map_some, Program.runQuiet_bind, agree.heldBy_eq]
      cases idle : y.state.lockOf? e.worker with
      | some other =>
        have elsewhere : other ≠ s := by
          rintro rfl
          obtain ⟨h, locked, -⟩ := agree.sound.lockOf?_eq_some_iff.1 idle
          exact Fifo.holder?_eq_none_iff.1 free _ locked rfl
        have found : [other].find? (· != s) = some other :=
          List.find?_cons_of_pos (by simpa using elsewhere)
        simp only [Option.toList_some, found, Entry.waits_worker, idle, Program.runQuiet_bind,
          Program.runQuiet_report, Program.runQuiet_pure]
        exact ⟨x, rfl, agree⟩
      | none =>
        have granted := agree.grant (S := S) (c := c) head free idle
        simp only [Entry.waits_worker, idle, Option.toList_none, List.find?_nil,
          Program.runQuiet_bind, Program.runQuiet_pure, granted.answer]
        exact ⟨_, rfl, granted.agree⟩

theorem evaluate (agree : Agree n x y) (s : SpaceId) :
    SameEnd n ((c.evaluate s).runQuiet S.answer x) (Fifo.evaluate S c s y) := by
  obtain ⟨x', attempted, agree'⟩ := agree.attempt (S := S) (c := c) s
  unfold Coordinator.evaluate
  rw [Program.runQuiet_inSpan, Program.runQuiet_bind, attempted]
  exact ⟨rfl, agree'⟩

/-! What enrolling does. -/

theorem stamp (agree : Agree (n + 1) x y) : SameEnd n (S.stamp x) (S.stamp y) := by
  have later := UInt64.le_of_lt (S.lt_stamp agree.room)
  have left := S.room_stamp agree.room
  unfold Surroundings.stamp at later left ⊢
  rw [agree.minter, agree.beyond]
  exact ⟨rfl, agree.mirrors, agree.sound.mono later, rfl, rfl, left⟩

/-- A worker that is not in the queue is added with its fresh priority. -/
theorem queueEnroll_eq (agree : Agree (n + 1) x y)
    (k : Nat) (valid : ((S.stamped y w).waits s).validate = .ok ()) :
    (Queue.enroll l k w s).runQuiet S.answer x =
      if y.state.holdsIt w s || y.state.waitsFor w s then (.ok .alreadyEnrolled, (S.stamp x).2)
      else
        (.ok (.enrolled ((S.stamped y w).waits s)),
          { (S.stamp x).2 with state := x.state.insert ((S.stamped y w).waits s) valid }) := by
  let r := (S.stamped y w).waits s
  have asked : (Program.ask (I := actions) (.stamp k)).runQuiet S.answer x = S.stamp x := rfl
  have record : Record.waiting s w (S.stamp x).1.priority (S.stamp x).1.time = r := by
    rw [agree.stamp.answer]
    rfl
  have added : (callStore l (.addIfAbsent r)).runQuiet S.answer (S.stamp x).2 =
      (((Call.addIfAbsent r).apply x.state).1,
        { (S.stamp x).2 with state := ((Call.addIfAbsent r).apply x.state).2 }) :=
    runQuiet_callStore _
  have applied : (Call.addIfAbsent r).apply x.state =
      if y.state.holdsIt w s || y.state.waitsFor w s then (.ok false, x.state)
      else (.ok true, x.state.insert r valid) := agree.mirrors.addIfAbsent_eq agree.sound valid
  unfold Queue.enroll
  rw [Program.runQuiet_bind, asked, record]
  simp only [r, valid]
  rw [Program.runQuiet_bind, added, applied]
  cases y.state.holdsIt w s || y.state.waitsFor w s <;> rfl

theorem enroll (agree : Agree (n + 1) x y) (w : WorkerId) (s : SpaceId) :
    SameEnd n ((c.enroll w s).runQuiet S.answer x) (Fifo.enroll S w s y) := by
  unfold Coordinator.enroll Fifo.enroll
  cases checked : checkIds w s with
  | error err => exact ⟨rfl, agree.less⟩
  | ok _ =>
    have stamped := agree.stamp (S := S)
    have valid : ((S.stamped y w).waits s).validate = .ok () := waits_valid checked
    simp only [Program.runQuiet_bind, agree.queueEnroll_eq c.minter valid]
    cases there : y.state.holdsIt w s || y.state.waitsFor w s with
    | true => exact ⟨rfl, stamped.agree⟩
    | false =>
      obtain ⟨held, queued⟩ := Bool.or_eq_false_iff.1 there
      have later := S.lt_stamp agree.room
      exact ⟨rfl, agree.mirrors.join agree.sound valid held queued,
        agree.sound.join (e := S.stamped y w) later held queued, stamped.agree.minter,
        stamped.agree.beyond, stamped.agree.room⟩

/-! What leaving does. -/

theorem deleteAll_eq (x : Scene Table ε) (sofar : Queue.Removal) (rs : List Record) :
    ∃ removal, (Queue.deleteAll l sofar rs).runQuiet S.answer x =
      (.ok removal, { x with state := x.state.deleteAll rs }) := by
  induction rs generalizing x sofar with
  | nil => exact ⟨sofar, rfl⟩
  | cons r rs ih =>
    have deleted : (callStore l (.delete r)).runQuiet S.answer x =
        (.ok (), { x with state := (x.state.delete r).getD x.state }) := runQuiet_callStore _
    rw [Queue.deleteAll, Program.runQuiet_bind, deleted]
    exact ih _ _

/-- To remove a worker from a space is to delete its records there. -/
theorem remove_eq (agree : Agree n x y) (w : WorkerId) (s : SpaceId) :
    ∃ removal x', (Queue.remove l w s).runQuiet S.answer x = (.ok removal, x') ∧
      Agree n x' { y with state := y.state.leave w s } := by
  have found : (Queue.recordsOf l w s).runQuiet S.answer x = (.ok (x.state.find s w), x) :=
    runQuiet_callStore (.find s w)
  obtain ⟨removal, deleted⟩ :=
    deleteAll_eq (S := S) (l := l) x .notEnrolled (x.state.find s w)
  have mirrors : Mirrors (x.state.deleteAll (x.state.find s w)) (y.state.leave w s) :=
    agree.mirrors.leave agree.sound fun _ => Table.mem_deleteAll_find
  rw [Queue.remove, Program.runQuiet_bind, found]
  exact ⟨removal, _, deleted, mirrors, agree.sound.leave, agree.minter, agree.beyond, agree.room⟩

theorem withdraw (agree : Agree n x y) (w : WorkerId) (s : SpaceId) :
    SameEnd n ((c.withdraw w s).runQuiet S.answer x)
      (.ok [.withdrawn s w], { y with state := y.state.leave w s }) := by
  obtain ⟨removal, x', removed, left⟩ := agree.remove_eq (S := S) (l := c.limits) w s
  rw [Coordinator.withdraw, Program.runQuiet_bind, removed]
  exact ⟨rfl, left⟩

/-- Once a holder has left, its space is evaluated. -/
theorem removeHolder (agree : Agree n x y) (w : WorkerId) (s : SpaceId) (unblocked : Bool) :
    let z := Fifo.publish S ⟨w, .sharedSpaceLock none⟩ { y with state := y.state.leave w s }
    SameEnd n ((c.removeHolder w s unblocked).runQuiet S.answer x)
      (.ok [.released s w unblocked, (Fifo.evaluate S c s z).1], (Fifo.evaluate S c s z).2) := by
  obtain ⟨removal, x', removed, left⟩ := agree.remove_eq (S := S) (l := c.limits) w s
  have evaluated := (left.publish (S := S) (c := c) ⟨w, .sharedSpaceLock none⟩).evaluate
    (S := S) (c := c) s
  rw [Coordinator.removeHolder, Program.runQuiet_bind, removed]
  -- what was removed only makes a difference to the notes
  cases removal <;>
    simp only [Program.runQuiet_bind, Program.runQuiet_report, Program.runQuiet_pure,
      evaluated.answer] <;>
    exact ⟨rfl, evaluated.agree⟩

theorem releaseHolder (agree : Agree n x y) (holds : y.state.holdsIt w s = true) :
    SameEnd n ((c.releaseHolder w s).runQuiet S.answer x)
      (.ok (Fifo.letGo S c w s y).1, (Fifo.letGo S c w s y).2) := by
  have unblocked := agree.command (S := S) (c := c) (.unblock s)
  unfold Coordinator.releaseHolder Fifo.letGo
  rw [if_pos holds, Program.runQuiet_bind, unblocked.answer]
  generalize Fifo.command S c (.unblock s) y = asked at unblocked
  obtain ⟨_ | _, z⟩ := asked
  · exact unblocked.agree.removeHolder w s false
  · exact unblocked.agree.removeHolder w s true

theorem release (agree : Agree n x y) (w : WorkerId) (s : SpaceId) :
    SameEnd n ((c.release w s).runQuiet S.answer x) (Fifo.release S c w s y) := by
  have found : (Queue.recordsOf c.limits w s).runQuiet S.answer x =
      (.ok (x.state.find s w), x) := runQuiet_callStore (.find s w)
  have holder := agree.mirrors.any_find_eq (s := s) (w := w) agree.sound
  have nothing := agree.mirrors.find_eq_nil_iff (s := s) (w := w) agree.sound
  unfold Coordinator.release Fifo.release
  cases checked : checkIds w s with
  | error err => exact ⟨rfl, agree⟩
  | ok _ =>
    simp only [Program.runQuiet_bind, found]
    cases records : x.state.find s w with
    | nil =>
      obtain ⟨held, queued⟩ := nothing.1 records
      simp only [Fifo.letGo, held, queued, Bool.false_eq_true, ↓reduceIte]
      exact ⟨rfl, agree⟩
    | cons r rs =>
      rw [records] at holder
      simp only [holder]
      cases held : y.state.holdsIt w s with
      | true => exact agree.releaseHolder held
      | false =>
        have queued : y.state.waitsFor w s = true := by
          rw [← Bool.not_eq_false]
          intro queued
          rw [nothing.2 ⟨held, queued⟩] at records
          cases records
        simp only [Fifo.letGo, held, queued, Bool.false_eq_true, ↓reduceIte]
        exact agree.withdraw w s

theorem releaseAll (agree : Agree n x y) (named : w.isBlank = false) {ss : List SpaceId}
    (real : ∀ s ∈ ss, s.isBlank = false) (sofar : List Outcome) :
    SameEnd n ((c.releaseAll w sofar ss).runQuiet S.answer x)
      (.ok (sofar ++ (Fifo.letGoAll S c w ss y).1), (Fifo.letGoAll S c w ss y).2) := by
  induction ss generalizing x y sofar with
  | nil => exact ⟨congrArg Except.ok (List.append_nil sofar).symm, agree⟩
  | cons s ss ih =>
    have checked : checkIds w s = .ok () :=
      checkIds_eq_ok_iff.2 ⟨real s List.mem_cons_self, named⟩
    have released := agree.release (S := S) (c := c) w s
    rw [Fifo.release, checked] at released
    have later := ih released.agree (fun r hr => real r (List.mem_cons_of_mem s hr))
      (sofar ++ (Fifo.letGo S c w s y).1.filter isNews)
    rw [Coordinator.releaseAll, Program.runQuiet_bind, released.answer, Fifo.letGoAll,
      ← List.append_assoc]
    exact later

theorem abandon (agree : Agree n x y) (real : ∀ s ∈ c.spaces, s.isBlank = false) (w : WorkerId) :
    SameEnd n ((c.abandon w).runQuiet S.answer x) (Fifo.abandon S c w y) := by
  unfold Coordinator.abandon Fifo.abandon
  cases named : w.isBlank with
  | true => exact ⟨rfl, agree⟩
  | false =>
    have real' : ∀ s ∈ ascending ((y.state.lockOf? w).toList ++ c.spaces), s.isBlank = false := by
      intro s hs
      rcases List.mem_append.1 (mem_ascending.1 hs) with held | configured
      · obtain ⟨e, locked, -⟩ := agree.sound.lockOf?_eq_some_iff.1 (Option.mem_toList.1 held)
        have stored := agree.mirrors.mem_holds agree.sound locked
        exact ((Record.validate_eq_ok_iff _).1 (x.state.valid _ stored)).1
      · exact real s configured
    have released := agree.releaseAll (S := S) (c := c) named real' []
    rw [List.nil_append] at released
    simp only [Bool.false_eq_true, ↓reduceIte, Program.runQuiet_bind, agree.heldBy_eq,
      distinctSpaces_eq_ascending, released.answer, Program.runQuiet_report,
      Program.runQuiet_pure]
    exact ⟨rfl, released.agree⟩

/-! What is shown. -/

theorem lockHolders (agree : Agree n x y) :
    SameEnd n (c.lockHolders.runQuiet S.answer x)
      (.ok (y.state.locks.map fun l => (l.1, l.2.worker)), y) := by
  rw [Coordinator.lockHolders, Program.runQuiet_bind, agree.lockHolders_eq]
  refine ⟨congrArg Except.ok ?_, agree⟩
  rw [List.map_map]
  rfl

theorem queue (agree : Agree n x y) (s : SpaceId) :
    SameEnd n ((c.queue s).runQuiet S.answer x) (.ok (y.state.row s), y) := by
  rw [Coordinator.queue, Program.runQuiet_bind, agree.records_eq]
  exact ⟨rfl, agree⟩

/-- One operation. -/
theorem perform (real : ∀ s ∈ c.spaces, s.isBlank = false) (o : Operation)
    (agree : Agree (n + if o.enrolls then 1 else 0) x y) :
    SameEnd n (S.perform c o x) (Fifo.perform S c o y) := by
  cases o with
  | enroll w s => exact agree.enroll w s
  | evaluate s => exact agree.evaluate s
  | release w s => exact agree.release w s
  | abandon w => exact agree.abandon real w
  | lockHolders => exact agree.lockHolders
  | queue s => exact agree.queue s

/-- Many operations. -/
theorem trail (real : ∀ s ∈ c.spaces, s.isBlank = false) (os : List Operation)
    (agree : Agree (n + os.countP Operation.enrolls) x y) :
    SameEnd n (Sequential.trail (S.perform c) os x) (Sequential.trail (Fifo.perform S c) os y) := by
  induction os generalizing x y with
  | nil => exact ⟨rfl, agree⟩
  | cons o os ih =>
    rw [List.countP_cons, ← Nat.add_assoc] at agree
    have first := perform (S := S) real o agree
    have later := ih first.agree
    simp only [Sequential.trail, first.answer, later.answer]
    exact ⟨rfl, later.agree⟩

end Agree

/-- The coordinator is a lock with a queue in front of it: whatever the clock reads, whatever vendor
and registry answer and whichever swaps have no effect, the operations answer what locks and queues
answer, and ask the outside for the same. The questions for the queue of a space and for the lock
holders may stand anywhere among the operations. -/
theorem trail_eq_fifo (S : Surroundings ε) (c : Coordinator)
    (real : ∀ s ∈ c.spaces, s.isBlank = false) (os : List Operation)
    (few : os.countP Operation.enrolls < 2 ^ 63) (b : ε) :
    (trail (S.perform c) os ⟨.empty, {}, b⟩).1 = (trail (Fifo.perform S c) os ⟨{}, {}, b⟩).1 ∧
      (trail (S.perform c) os ⟨.empty, {}, b⟩).2.beyond =
        (trail (Fifo.perform S c) os ⟨{}, {}, b⟩).2.beyond := by
  have start := agree_empty few b
  rw [← Nat.zero_add (os.countP _)] at start
  have same := Agree.trail (S := S) real os start
  exact ⟨same.answer, same.agree.beyond⟩

/-- A clock that goes back from 1970, a vendor that blocks and unblocks in time, a registry that is
always late, and a store that turns down the first swap. -/
def restless : Surroundings Nat where
  clock b := ((-Int64.ofNat b, ⟨-b, 0⟩), b + 1)
  vendor
    | .block _, b | .unblock _, b => (.inTime (.ok ()), b)
    | .status _, b | .location _, b => (.late, b)
  registry _ b := (.late, b)
  swap b := (if b = 2 then .turnedDown (.backend "busy") else .carriedOut, b + 1)

def twoShifts : List Operation :=
  [.enroll ⟨"w-2"⟩ ⟨"s-1"⟩, .enroll ⟨"w-1"⟩ ⟨"s-1"⟩, .evaluate ⟨"s-1"⟩, .evaluate ⟨"s-1"⟩,
    .lockHolders, .abandon ⟨"w-2"⟩, .queue ⟨"s-1"⟩]

theorem trail_eq_fifo_twoShifts :
    (trail (restless.perform { spaces := [⟨"s-1"⟩] }) twoShifts ⟨.empty, {}, 0⟩).1 =
      [⟨.enroll ⟨"w-2"⟩ ⟨"s-1"⟩, .ok (.enrolled ⟨"s-1"⟩ ⟨"w-2"⟩ ⟨1⟩)⟩,
        ⟨.enroll ⟨"w-1"⟩ ⟨"s-1"⟩, .ok (.enrolled ⟨"s-1"⟩ ⟨"w-1"⟩ ⟨2⟩)⟩,
        ⟨.evaluate ⟨"s-1"⟩,
          .failedToGrant ⟨"s-1"⟩ ⟨"w-2"⟩ "transaction failed: storage backend error: busy"⟩,
        ⟨.evaluate ⟨"s-1"⟩, .granted ⟨"s-1"⟩ ⟨"w-2"⟩⟩,
        ⟨.lockHolders, .ok [(⟨"s-1"⟩, ⟨"w-2"⟩)]⟩,
        ⟨.abandon ⟨"w-2"⟩, .ok [.released ⟨"s-1"⟩ ⟨"w-2"⟩ true, .granted ⟨"s-1"⟩ ⟨"w-1"⟩]⟩,
        ⟨.queue ⟨"s-1"⟩, .ok [⟨⟨"s-1"⟩, .holder, ⟨"w-1"⟩, ⟨2⟩, ⟨-1, 0⟩⟩]⟩] :=
  (trail_eq_fifo restless _ (by decide) twoShifts (by decide) 0).1.trans rfl

end Interlock.Sequential
