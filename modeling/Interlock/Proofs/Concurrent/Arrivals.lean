import Interlock.Proofs.Concurrent.Grounds
import Interlock.Proofs.Concurrent.Presence
import Interlock.Proofs.Minting
import Mathlib.Data.List.Pairwise

/-!
The order of arrivals. When all enrollments for a space draw from one minter, each draws a larger
priority than those that drew before it, so over a whole run a priority belongs to one draw of one
task. The task adds its record by a single call. A waiting record of the space can therefore not be
taken for another one, however old the look is that showed it, and it never comes back.
-/
namespace Interlock.Concurrent

open Coordinator Store

namespace Event

def token? (m : Nat) : Event → Option Priority
  | .call _ _ (.stamp m') stamp _ _ => if m' = m then some stamp.priority else none
  | _ => none

/-- Whether an enrollment for the space draws from no other minter. -/
def drawsFrom (m : Nat) (s : SpaceId) : Event → Bool
  | .call _ (.enroll _ s') (.stamp m') _ _ _ => s' != s || m' == m
  | _ => true

def drawn? : Event → Option Record
  | .call _ (.enroll w s) (.stamp _) stamp _ _ => some (.waiting s w stamp.priority stamp.time)
  | _ => none

theorem token?_of_drawn? {m : Nat} {e : Event} {r : Record} (draws : e.drawsFrom m r.space = true)
    (drawn : e.drawn? = some r) : e.token? m = some r.priority := by
  unfold drawn? at drawn
  split at drawn
  · cases drawn
    simpa [drawsFrom, token?, Record.waiting] using draws
  · cases drawn

end Event

def tokens (m : Nat) (history : List Event) : List Priority := history.filterMap (Event.token? m)

def Drew (history : List Event) (i : Nat) (r : Record) : Prop :=
  ∃ e ∈ history, e.task? = some i ∧ e.drawn? = some r

theorem Drew.mono {older newer : List Event} {i : Nat} {r : Record} (drew : Drew older i r)
    (more : older ⊆ newer) : Drew newer i r := by
  obtain ⟨e, happened, draw⟩ := drew
  exact ⟨e, more happened, draw⟩

/-- What is drawn waits under the priority it was drawn with. -/
theorem Drew.sortKey {history : List Event} {i : Nat} {r : Record} (drew : Drew history i r) :
    r.sortKey = .waiting r.priority r.worker := by
  obtain ⟨e, -, -, drawn⟩ := drew
  unfold Event.drawn? at drawn
  split at drawn
  · cases drawn
    rfl
  · cases drawn

theorem Drew.waits {history : List Event} {i : Nat} {r : Record} (drew : Drew history i r) :
    r.isHolder = false := by
  rw [Record.isHolder, drew.sortKey]
  rfl

def Event.Adds (r : Record) (e : Event) : Prop :=
  ∃ o c found, e.effect? = some (o, c, found) ∧ c.added? = some r

theorem Event.of_asked?_eq_some {e : Event} {o : Operation} {c : Store.Call}
    (asked : e.asked? = some (o, c)) :
    ∃ i l a fate found, e = .call i o (.store l c) a fate found := by
  unfold asked? at asked
  split at asked
  · cases asked
    exact ⟨_, _, _, _, _, rfl⟩
  · cases asked

def adds (r : Record) (p : Operation × Store.Call) : Bool := p.2.added? == some r

/-- A minter that has handed out the tokens, each larger than those before it, and has some left. -/
structure Minted (n : Nat) (minter : Minter) (ps : List Priority) : Prop where
  room : minter.Room n
  below : ∀ p ∈ ps, p.value ≤ minter.last
  falling : ps.Pairwise fun late early => early.value < late.value

/-- The next token is larger than all before. -/
theorem Minted.next {n : Nat} {minter : Minter} {ps : List Priority}
    (minted : Minted (n + 1) minter ps) (reading : Int64) :
    Minted n (minter.mint reading.toInt).2 ((minter.mint reading.toInt).1 :: ps) where
  room := minted.room.next reading
  below p hp := by
    rcases List.mem_cons.1 hp with rfl | hp
    · exact UInt64.le_refl _
    · exact UInt64.le_trans (minted.below p hp)
        (UInt64.le_of_lt (Minter.last_lt_next minted.room reading))
  falling := List.pairwise_cons.2 ⟨fun p hp => UInt64.lt_of_le_of_lt (minted.below p hp)
    (Minter.last_lt_next minted.room reading), minted.falling⟩

namespace System

variable {x y : System} {e : Event} {m : Nat}

/-- A step draws the next token of the minter or leaves it alone. -/
theorem Step.minters (step : Step x e y) (m : Nat) :
    (e.token? m = none ∧ y.minters m = x.minters m) ∨
      ∃ reading : Int64, e.token? m = some ((x.minters m).mint reading.toInt).1 ∧
        y.minters m = ((x.minters m).mint reading.toInt).2 := by
  cases step with
  | begun => exact .inl ⟨rfl, rfl⟩
  | @done i o rest a next r t minters' task calls effect =>
    cases effect with
    | stamp m' reading time =>
      by_cases same : m' = m
      · subst same
        exact .inr ⟨reading, if_pos rfl, Function.update_self ..⟩
      · exact .inl ⟨if_neg same, Function.update_of_ne (Ne.symm same) ..⟩
    | _ => exact .inl ⟨rfl, rfl⟩
  | refused task calls fails => cases fails <;> exact .inl ⟨rfl, rfl⟩
  | adrift task calls fails => cases fails <;> exact .inl ⟨rfl, rfl⟩
  | landed => exact .inl ⟨rfl, rfl⟩

variable {kind : Event → Prop} {t : Table} {minters : Nat → Minter}

theorem Run.minted (run : Run kind (opening t minters) x) (fresh : minters m = {}) {n : Nat}
    (few : (tokens m x.history).length + n < 2 ^ 63) :
    Minted n (x.minters m) (tokens m x.history) := by
  induction run generalizing n with
  | here =>
    have room : (minters m).Room n := by
      rw [fresh]
      exact Minter.room_start (by simpa [tokens, opening] using few)
    exact ⟨room, fun _ drawn => absurd drawn List.not_mem_nil, .nil⟩
  | step run step fit ih =>
    rw [step.history, tokens] at few ⊢
    rcases step.minters m with ⟨none, same⟩ | ⟨reading, drawn, next⟩
    · rw [List.filterMap_cons_none none] at few ⊢
      rw [same]
      exact ih few
    · rw [List.filterMap_cons_some drawn] at few ⊢
      rw [next]
      rw [List.length_cons] at few
      exact (ih (n := n + 1) (by rw [tokens]; omega)).next reading

/-- A record is added by the task that drew it, which has not added anything before. -/
theorem Run.drew_of_asked (run : Run kind (opening t minters) x) {late early : List Event} {i : Nat}
    {o : Operation} {limit : Option Time.Duration} {c : Store.Call} {a : Timed c.Answer}
    {fate : Fate} {found : Table} {r : Record}
    (split : x.history = late ++ .call i o (.store limit c) a fate found :: early)
    (added : c.added? = some r) :
    Drew early i r ∧ r.isHolder = false ∧ ∀ entry ∈ logOf i early, entry.1.added? = none := by
  have orderly := run.sound.orderly
  rw [split] at orderly
  have allowed : Allows o (logOf i early) (.store limit c) := orderly.split
  have changes : o.Changes c := allowed.changes
  obtain ⟨rfl, waits⟩ : o = .enroll r.worker r.space ∧ r.isHolder = false := by
    cases c <;> cases added <;> exact changes
  obtain ⟨⟨m, stamp, seen, eq⟩, first⟩ : Drawn (logOf i early) r ∧
      ∀ entry ∈ logOf i early, entry.1.added? = none := by
    have rests := run.rests split
    cases c with
    | swap new old => cases added
    | _ => exact rests r added
  obtain ⟨o', fate', found', happened⟩ := mem_logOf.1 seen
  have drew : .call i o' (.stamp m) stamp fate' found' ∈ x.history := by simp [split, happened]
  have asked : .call i (.enroll r.worker r.space) (.store limit c) a fate found ∈ x.history := by
    simp [split]
  obtain rfl : o' = .enroll r.worker r.space := run.sound.operation_eq drew asked rfl rfl
  exact ⟨⟨_, happened, rfl, congrArg some eq.symm⟩, waits, first⟩

end System

/-- A run in which the records of a space all come from one minter that does not run out. -/
structure Lined (m : Nat) (s : SpaceId) (t : Table) (minters : Nat → Minter) (x : System) : Prop where
  run : System.Run (fun e => e.drawsFrom m s = true) (System.opening t minters) x
  vacant : ∀ r ∈ t.records, r.space ≠ s
  fresh : minters m = {}
  few : (tokens m x.history).length < 2 ^ 63

namespace Lined

variable {m : Nat} {s : SpaceId} {t : Table} {minters : Nat → Minter} {x : System}
  {late early : List Event} {r : Record}

theorem earlier (lined : Lined m s t minters x) (split : x.history = late ++ early) :
    ∃ y, Lined m s t minters y ∧ y.history = early := by
  obtain ⟨y, run, rfl⟩ := lined.run.earlier split
  refine ⟨y, ⟨run, lined.vacant, lined.fresh, Nat.lt_of_le_of_lt ?_ lined.few⟩, rfl⟩
  rw [split, tokens, tokens, List.filterMap_append, List.length_append]
  exact Nat.le_add_left _ _

theorem falling (lined : Lined m s t minters x) :
    (tokens m x.history).Pairwise fun late early => early.value < late.value :=
  (lined.run.minted (n := 0) lined.fresh lined.few).falling

theorem token_of_drawn (lined : Lined m s t minters x) {e : Event} (happened : e ∈ x.history)
    (drawn : e.drawn? = some r) (space : r.space = s) : e.token? m = some r.priority :=
  Event.token?_of_drawn? (space ▸ lined.run.fits e happened) drawn

/-- Who draws later draws a larger priority. -/
theorem priority_lt (lined : Lined m s t minters x) (split : x.history = late ++ early) {i j : Nat}
    {a b : Record} (first : Drew early i a) (second : Drew late j b) (spaceA : a.space = s)
    (spaceB : b.space = s) : a.priority.value < b.priority.value := by
  obtain ⟨e, he, -, drawn⟩ := first
  obtain ⟨e', he', -, drawn'⟩ := second
  have falling := lined.falling
  rw [split, tokens, List.filterMap_append] at falling
  refine (List.pairwise_append.1 falling).2.2 b.priority ?_ a.priority ?_
  · exact List.mem_filterMap.2 ⟨e', he', lined.token_of_drawn (by simp [split, he']) drawn' spaceB⟩
  · exact List.mem_filterMap.2 ⟨e, he, lined.token_of_drawn (by simp [split, he]) drawn spaceA⟩

/-- A priority was drawn once, by one task and for one record. -/
theorem draw_unique (lined : Lined m s t minters x) {i j : Nat} {a b : Record}
    (first : Drew x.history i a) (second : Drew x.history j b) (spaceA : a.space = s)
    (spaceB : b.space = s) (same : a.priority = b.priority) : i = j ∧ a = b := by
  obtain ⟨e, he, task, drawn⟩ := first
  obtain ⟨e', he', task', drawn'⟩ := second
  have symmetric : Std.Symm fun e e' : Event =>
      ∀ p, e.token? m = some p → e'.token? m ≠ some p :=
    ⟨fun _ _ apart p token' token => apart p token token'⟩
  have apart : x.history.Pairwise fun e e' =>
      ∀ p, e.token? m = some p → e'.token? m ≠ some p := by
    refine (List.pairwise_filterMap.1 lined.falling).imp fun {e e'} falls p token token' => ?_
    exact UInt64.lt_irrefl _ (falls p token p token')
  obtain rfl : e = e' := by
    by_contra differ
    refine apart.forall he he' differ a.priority (lined.token_of_drawn he drawn spaceA) ?_
    rw [same]
    exact lined.token_of_drawn he' drawn' spaceB
  rw [drawn] at drawn'
  rw [task] at task'
  exact ⟨Option.some.inj task', Option.some.inj drawn'⟩

/-- A call that is asked to add a record is the first one asked to. -/
theorem not_asked_before (lined : Lined m s t minters x) (space : r.space = s) {e e' : Event}
    {o o' : Operation} {c c' : Store.Call} (split : x.history = late ++ e :: early)
    (asked : e.asked? = some (o, c)) (added : c.added? = some r) (before : e' ∈ early)
    (asked' : e'.asked? = some (o', c')) : c'.added? ≠ some r := by
  intro added'
  obtain ⟨i, l, a, fate, found, rfl⟩ := Event.of_asked?_eq_some asked
  obtain ⟨j, l', a', fate', found', rfl⟩ := Event.of_asked?_eq_some asked'
  obtain ⟨drew, -, first⟩ := lined.run.drew_of_asked split added
  obtain ⟨later, sooner, split'⟩ := List.append_of_mem before
  have split'' : x.history = (late ++ .call i o (.store l c) a fate found :: later) ++
      .call j o' (.store l' c') a' fate' found' :: sooner := by simp [split, split']
  -- both tasks drew the record, so they are the same one
  have drawn : Drew x.history i r := drew.mono fun e h => by simp [split, h]
  have drawn' : Drew x.history j r :=
    (lined.run.drew_of_asked split'' added').1.mono fun e h => by simp [split'', h]
  obtain ⟨rfl, -⟩ := lined.draw_unique drawn drawn' space space rfl
  have silent := first ⟨.store l' c', a'⟩ (mem_logOf.2 ⟨o', fate', found', before⟩)
  rw [Action.added?, added'] at silent
  cases silent

/-- One call at most is asked to add a record. -/
theorem asked_once (lined : Lined m s t minters x) (space : r.space = s) :
    (x.history.filterMap Event.asked?).countP (adds r) ≤ 1 := by
  suffices once : ∀ early late, x.history = late ++ early →
      (early.filterMap Event.asked?).countP (adds r) ≤ 1 from once x.history [] rfl
  intro early
  induction early with
  | nil => exact fun _ _ => Nat.zero_le _
  | cons e early ih =>
    intro late split
    have rest := ih (late ++ [e]) (by simp [split])
    cases asked : e.asked? with
    | none => rwa [List.filterMap_cons_none asked]
    | some p =>
      rw [List.filterMap_cons_some asked, List.countP_cons]
      split
      · next added =>
        have none : (early.filterMap Event.asked?).countP (adds r) = 0 := by
          refine List.countP_eq_zero.2 fun p' hp' added' => ?_
          obtain ⟨e', before, asked'⟩ := List.mem_filterMap.1 hp'
          exact lined.not_asked_before space split asked (eq_of_beq added) before asked'
            (eq_of_beq added')
        omega
      · exact rest

/-- One event at most adds a record. -/
theorem not_added_twice (lined : Lined m s t minters x) (space : r.space = s)
    (split : x.history = late ++ early) {e e' : Event} (second : e ∈ late) (first : e' ∈ early)
    (adds : e.Adds r) : ¬ e'.Adds r := by
  intro adds'
  have positive {e : Event} {events : List Event} (happened : e ∈ events) (adds : e.Adds r) :
      0 < (events.filterMap Event.carried?).countP (Concurrent.adds r) := by
    obtain ⟨o, c, found, effect, added⟩ := adds
    refine List.countP_pos_iff.2 ⟨(o, c), List.mem_filterMap.2 ⟨e, happened, ?_⟩, ?_⟩
    · rw [Event.carried?, effect]; rfl
    · rw [Concurrent.adds, added, beq_self_eq_true]
  have late := positive second adds
  have early := positive first adds'
  have once := lined.asked_once space
  have carried := lined.run.countP_le (Concurrent.adds r)
  rw [split, List.filterMap_append, List.countP_append, ← split] at carried
  omega

end Lined

/-! The records in the table. -/

section Records

variable {t : Table} {late early : List Event} {r : Record}

/-- A waiting record that is in the table was there before or was added. -/
theorem mem_or_added (waits : r.isHolder = false)
    (there : r ∈ (tableAfter t (late ++ early)).records) :
    r ∈ (tableAfter t early).records ∨ ∃ e ∈ late, e.Adds r := by
  induction late with
  | nil => exact .inl there
  | cons e late ih =>
    have older (there : r ∈ (tableAfter t (late ++ early)).records) :
        r ∈ (tableAfter t early).records ∨ ∃ e' ∈ e :: late, e'.Adds r :=
      (ih there).imp_right fun ⟨e', he', adds⟩ => ⟨e', List.mem_cons_of_mem _ he', adds⟩
    rw [List.cons_append] at there
    cases effect : e.effect? with
    | none =>
      rw [tableAfter_cons_of_none effect] at there
      exact older there
    | some made =>
      obtain ⟨o, c, found⟩ := made
      rw [tableAfter_cons effect] at there
      rcases Store.Call.mem_of_mem_apply there with before | added | ⟨holds, -⟩
      · exact older before
      · refine .inr ⟨e, List.mem_cons_self, o, c, found, effect, ?_⟩
        rcases added with rfl | rfl <;> rfl
      · rw [waits] at holds
        cases holds

end Records

namespace Lined

variable {m : Nat} {s : SpaceId} {t : Table} {minters : Nat → Minter} {x : System}
  {late early : List Event} {r : Record}

/-- A record that was added was drawn. -/
theorem drew_of_adds (lined : Lined m s t minters x) {e : Event} (happened : e ∈ x.history)
    (adds : e.Adds r) : (∃ i, Drew x.history i r) ∧ r.isHolder = false := by
  obtain ⟨o, c, found, effect, added⟩ := adds
  obtain ⟨i, l, a, fate, found', asked⟩ := lined.run.asked_of_effect happened effect
  obtain ⟨late, early, split⟩ := List.append_of_mem asked
  obtain ⟨drew, waits, -⟩ := lined.run.drew_of_asked split added
  exact ⟨⟨i, drew.mono fun e h => by simp [split, h]⟩, waits⟩

/-- A waiting record that is in the space at some moment was drawn before. -/
theorem drew_of_mem (lined : Lined m s t minters x) (split : x.history = late ++ early)
    (space : r.space = s) (waits : r.isHolder = false)
    (there : r ∈ (tableAfter t early).records) : ∃ i, Drew early i r := by
  obtain ⟨y, lined', rfl⟩ := lined.earlier split
  rw [← List.append_nil y.history] at there
  rcases mem_or_added waits there with before | ⟨e, happened, adds⟩
  · exact absurd space (lined.vacant r before)
  · exact (lined'.drew_of_adds happened adds).1

/-- The records of the space that were drawn are told apart by their keys. -/
theorem eq_of_key (lined : Lined m s t minters x) {i j : Nat} {a b : Record}
    (drewA : Drew x.history i a) (drewB : Drew x.history j b) (space : a.space = s)
    (same : a.key = b.key) : a = b := by
  have keys : a.sortKey = b.sortKey := congrArg RecordKey.sortKey same
  rw [drewA.sortKey, drewB.sortKey, SortKey.waiting.injEq] at keys
  have spaces : a.space = b.space := congrArg RecordKey.space same
  exact (lined.draw_unique drewA drewB space (spaces ▸ space) keys.1).2

end Lined

end Interlock.Concurrent
