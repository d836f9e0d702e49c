import Interlock.Proofs.Minting
import Mathlib.Data.List.Nodup
import Mathlib.Data.List.Perm.Subperm
import Mathlib.Logic.Relation

/-!
Clones of one minter that are asked for tokens at the same time. What they share is the last token.
A call reads the clock, looks at the last token, and puts its own token in the place of that one if
it is still the last; else it looks again. What it hands out is computed once more from the token it
found. In whatever order the calls make these moves, the tokens are those of a single minter that is
asked in the order in which the last token was replaced, and as long as there are fewer than
`2 ^ 63` calls they go up by the rule of the minter alone: nothing is saturated. Specification,
section 4.2: Priority Queue.
-/
namespace Interlock.Minter

/-- How far a call for a token has come. -/
inductive Stage where
  /-- It has read the clock. -/
  | begun
  /-- It has looked at the last token. -/
  | looked (last : UInt64)
  /-- It has put its own token in the place of the last one. -/
  | replaced (last : UInt64)
  | returned (token : Priority)
  deriving DecidableEq, Repr

/-- A call for a token, with its reading of the clock. -/
structure Call where
  reading : Int64
  stage : Stage := .begun
  deriving DecidableEq, Repr

namespace Call

/-- The token that the call took for the last one and counted on from. -/
def found? (c : Call) : Option UInt64 :=
  match c.stage with
  | .looked last | .replaced last => some last
  | _ => none

/-- The token of a call that has replaced the last one. -/
def token? (c : Call) : Option Priority :=
  match c.stage with
  | .replaced last => some ⟨(Minter.mk last).next c.reading.toInt⟩
  | .returned token => some token
  | _ => none

end Call

/-- A replacement of the last token. -/
structure Update where
  /-- The number of the call that made it. -/
  call : Nat
  reading : Int64
  token : Priority
  deriving DecidableEq, Repr

/-- Clones of a minter and the calls for tokens they have had, in the order in which those began. -/
structure Clones where
  minter : Minter := {}
  calls : List Call := []
  /-- Every replacement of the last token, the oldest first. -/
  updates : List Update := []
  deriving DecidableEq, Repr

namespace Clones

def put (x : Clones) (i : Nat) (c : Call) : Clones := { x with calls := x.calls.set i c }

/-- A move of one of the calls. -/
inductive Step (x : Clones) : Clones → Prop
  | begun (reading : Int64) : Step x { x with calls := x.calls ++ [⟨reading, .begun⟩] }
  | looked {i : Nat} {r : Int64} (call : x.calls[i]? = some ⟨r, .begun⟩) :
    Step x (x.put i ⟨r, .looked x.minter.last⟩)
  /-- The exchange failed, be it because the last token is another by now or for no reason. -/
  | failed {i : Nat} {r : Int64} {last : UInt64} (call : x.calls[i]? = some ⟨r, .looked last⟩) :
    Step x (x.put i ⟨r, .looked x.minter.last⟩)
  | replaced {i : Nat} {r : Int64} {last : UInt64} (call : x.calls[i]? = some ⟨r, .looked last⟩)
    (same : x.minter.last = last) :
    Step x
      { x.put i ⟨r, .replaced last⟩ with
        minter := ⟨(Minter.mk last).next r.toInt⟩
        updates := x.updates ++ [⟨i, r, ⟨(Minter.mk last).next r.toInt⟩⟩] }
  | returned {i : Nat} {r : Int64} {last : UInt64} (call : x.calls[i]? = some ⟨r, .replaced last⟩) :
    Step x (x.put i ⟨r, .returned ⟨(Minter.mk last).next r.toInt⟩⟩)

abbrev Run : Clones → Clones → Prop := Relation.ReflTransGen Step

end Clones

/-! One call after the other. -/

/-- The tokens for readings of the clock, one after the other. -/
def mintAll (m : Minter) : List Int64 → List Priority × Minter
  | [] => ([], m)
  | r :: rs =>
    let (p, m) := m.mint r.toInt
    let (ps, m) := mintAll m rs
    (p :: ps, m)

theorem mintAll_append (m : Minter) (rs rs' : List Int64) :
    m.mintAll (rs ++ rs') =
      ((m.mintAll rs).1 ++ ((m.mintAll rs).2.mintAll rs').1, ((m.mintAll rs).2.mintAll rs').2) := by
  induction rs generalizing m with
  | nil => rfl
  | cons r rs ih => simp [mintAll, ih]

/-- The minter is left with the last of the tokens it handed out. -/
theorem last_mintAll (m : Minter) (rs : List Int64) :
    (m.mintAll rs).2 = m ∨ ∃ p ∈ (m.mintAll rs).1, (m.mintAll rs).2 = ⟨p.value⟩ := by
  induction rs generalizing m with
  | nil => exact .inl rfl
  | cons r rs ih =>
    right
    rcases ih (m.mint r.toInt).2 with same | ⟨p, mem, last⟩
    · exact ⟨(m.mint r.toInt).1, List.mem_cons_self, same⟩
    · exact ⟨p, List.mem_cons_of_mem _ mem, last⟩

theorem toNat_reading (r : Int64) : (reading r.toInt).toNat = r.toInt.toNat := by
  have bound := r.toInt_lt
  simp only [reading, Nat.toUInt64, UInt64.toNat_ofNat']
  omega

/-- Updates by the rule of the minter, the first of them after a last token: each token is at least
its reading of the clock, where every time before 1970 counts as zero, and it is this reading or the
number above the token before. -/
def Minted : Nat → List Update → Prop
  | _, [] => True
  | last, u :: us =>
    u.reading.toInt.toNat ≤ u.token.toNat ∧
      (u.token.toNat = u.reading.toInt.toNat ∨ u.token.toNat = last + 1) ∧ Minted u.token.toNat us

/-- While there is room, tokens handed out one after the other go up by the rule of the minter, and
below the largest number there is. -/
theorem minted_of_mintAll {m : Minter} {us : List Update} (room : m.Room (us.length + 1))
    (minted : (m.mintAll (us.map Update.reading)).1 = us.map Update.token) :
    Minted m.last.toNat us ∧
      us.Pairwise (fun u v => u.token.toNat < v.token.toNat) ∧
      ∀ u ∈ us, m.last.toNat < u.token.toNat ∧ u.token.toNat + 1 < 2 ^ 64 := by
  induction us generalizing m with
  | nil => exact ⟨trivial, List.Pairwise.nil, nofun⟩
  | cons u us ih =>
    simp only [List.map_cons, mintAll, List.cons.injEq] at minted
    obtain ⟨own, others⟩ := minted
    have next : m.next u.reading.toInt = u.token.value := congrArg Priority.value own
    have value : u.token.toNat = max u.reading.toInt.toNat (m.last.toNat + 1) := by
      rw [← toNat_reading, ← toNat_next room, next]
      rfl
    have left : (Minter.mk u.token.value).Room (us.length + 1) := next ▸ room.next u.reading
    have below : u.token.toNat + 1 < 2 ^ 64 := by
      have := left.last
      change u.token.toNat + (us.length + 1) < 2 ^ 64 at this
      omega
    have rest : ((Minter.mk u.token.value).mintAll (us.map Update.reading)).1 =
        us.map Update.token := by
      rw [← next]
      exact others
    obtain ⟨rule, ascending, above⟩ := ih left rest
    refine ⟨⟨by omega, by omega, rule⟩, ?_, ?_⟩
    · exact List.pairwise_cons.2 ⟨fun v mem => (above v mem).1, ascending⟩
    · intro v mem
      rcases List.mem_cons.1 mem with rfl | mem
      · exact ⟨by omega, below⟩
      · have : u.token.toNat < v.token.toNat := (above v mem).1
        exact ⟨by omega, (above v mem).2⟩

/-! Calls in any order. -/

namespace Clones

def Seen (x : Clones) (last : UInt64) : Prop :=
  last = 0 ∨ ∃ u ∈ x.updates, u.token.value = last

/-- What holds after any moves: the updates are those of one minter that was asked for one token
after the other, each of them belongs to the one call whose token it is, and every call counts on
from a token that has been the last one. -/
structure Sound (x : Clones) : Prop where
  linear : ({} : Minter).mintAll (x.updates.map Update.reading) =
    (x.updates.map Update.token, x.minter)
  owned : ∀ u, u ∈ x.updates ↔
    ∃ c, x.calls[u.call]? = some c ∧ c.reading = u.reading ∧ c.token? = some u.token
  once : (x.updates.map Update.call).Nodup
  found : ∀ (i : Nat) (c : Call) (last : UInt64), x.calls[i]? = some c → c.found? = some last →
    x.Seen last

theorem sound_start : Sound {} where
  linear := rfl
  owned u := by simp
  once := List.nodup_nil
  found := by simp

variable {x y : Clones}

theorem Sound.seen (sound : x.Sound) : x.Seen x.minter.last := by
  have left := last_mintAll {} (x.updates.map Update.reading)
  rw [sound.linear] at left
  rcases left with none | ⟨p, mem, last⟩
  · exact .inl (congrArg Minter.last none)
  · obtain ⟨u, there, token⟩ := List.mem_map.1 mem
    refine .inr ⟨u, there, ?_⟩
    rw [token]
    exact (congrArg Minter.last last).symm

theorem getElem?_put {i : Nat} {c : Call} (call : x.calls[i]? = some c) (d : Call) (j : Nat) :
    (x.put i d).calls[j]? = if i = j then some d else x.calls[j]? := by
  obtain ⟨inside, -⟩ := List.getElem?_eq_some_iff.1 call
  simp only [Clones.put, List.getElem?_set, inside, if_true]

/-- A call that comes to another stage with the token it had, if any, changes no update. -/
theorem Sound.put {i : Nat} {c d : Call} (sound : x.Sound) (call : x.calls[i]? = some c)
    (reading : d.reading = c.reading) (token : d.token? = c.token?)
    (found : ∀ last, d.found? = some last → x.Seen last) : (x.put i d).Sound where
  linear := sound.linear
  owned u := by
    refine (sound.owned u).trans ?_
    rw [getElem?_put call]
    by_cases own : i = u.call
    · simp [← own, call, reading, token]
    · simp [own]
  once := sound.once
  found j e last there looks := by
    rw [getElem?_put call] at there
    split at there
    · cases there
      exact found last looks
    · exact sound.found j e last there looks

/-- The only move that takes effect for all: a call replaces the last token. -/
theorem Sound.replaced {i : Nat} {r : Int64} {last : UInt64} (sound : x.Sound)
    (call : x.calls[i]? = some ⟨r, .looked last⟩) (same : x.minter.last = last) :
    Sound
      { x.put i ⟨r, .replaced last⟩ with
        minter := ⟨(Minter.mk last).next r.toInt⟩
        updates := x.updates ++ [⟨i, r, ⟨(Minter.mk last).next r.toInt⟩⟩] } := by
  have fresh : ∀ u ∈ x.updates, u.call ≠ i := by
    intro u mem own
    obtain ⟨c, there, -, token⟩ := (sound.owned u).1 mem
    rw [own, call] at there
    cases there
    cases token
  have keeps {found : UInt64} (seen : x.Seen found) (u : Update) :
      found = 0 ∨ ∃ v ∈ x.updates ++ [u], v.token.value = found :=
    seen.imp_right fun ⟨v, mem, token⟩ => ⟨v, List.mem_append_left _ mem, token⟩
  refine ⟨?_, fun u => ?_, ?_, fun j c found there looks => ?_⟩
  · rw [List.map_append, mintAll_append, sound.linear, List.map_append, ← same]
    rfl
  · obtain ⟨j, s, p⟩ := u
    change _ ↔ ∃ c, (x.put i _).calls[j]? = some c ∧ _
    rw [getElem?_put call, List.mem_append, List.mem_singleton]
    by_cases own : i = j
    · have other : ⟨j, s, p⟩ ∉ x.updates := fun mem => fresh _ mem own.symm
      simp [own, other, Call.token?, eq_comm]
    · have other : j ≠ i := fun same => own same.symm
      simp [own, other, sound.owned]
  · rw [List.map_append]
    refine List.nodup_append.2 ⟨sound.once, List.nodup_singleton i, ?_⟩
    intro a mem b new
    obtain ⟨u, there, rfl⟩ := List.mem_map.1 mem
    rw [List.mem_singleton.1 new]
    exact fresh u there
  · change (x.put i _).calls[j]? = some c at there
    rw [getElem?_put call] at there
    split at there
    · cases there
      cases looks
      exact keeps (same ▸ sound.seen) _
    · exact keeps (sound.found j c found there looks) _

theorem Sound.step (sound : x.Sound) (step : Step x y) : y.Sound := by
  cases step with
  | begun reading =>
    refine ⟨sound.linear, fun u => (sound.owned u).trans ?_, sound.once,
      fun i c last there looks => ?_⟩
    · simp only [List.getElem?_append]
      split
      · rfl
      · next out =>
        rw [List.getElem?_eq_none (Nat.not_lt.1 out)]
        constructor
        · rintro ⟨c, there, -⟩
          cases there
        · rintro ⟨c, there, -, token⟩
          rw [List.getElem?_singleton] at there
          split at there <;> cases there
          cases token
    · simp only [List.getElem?_append] at there
      split at there
      · exact sound.found i c last there looks
      · rw [List.getElem?_singleton] at there
        split at there <;> cases there
        cases looks
  | looked call =>
    refine sound.put call rfl rfl fun last looks => ?_
    cases looks
    exact sound.seen
  | failed call =>
    refine sound.put call rfl rfl fun last looks => ?_
    cases looks
    exact sound.seen
  | replaced call same => exact sound.replaced call same
  | returned call => exact sound.put call rfl rfl nofun

theorem Sound.run (sound : x.Sound) (run : Run x y) : y.Sound := by
  induction run with
  | refl => exact sound
  | tail _ step ih => exact ih.step step

/-- No call is forgotten, and updates come behind those that have been made. -/
theorem grows_of_step (step : Step x y) :
    x.calls.length ≤ y.calls.length ∧ x.updates <+: y.updates := by
  cases step with
  | begun reading => exact ⟨by simp, List.prefix_rfl⟩
  | looked call => exact ⟨by simp [Clones.put], List.prefix_rfl⟩
  | failed call => exact ⟨by simp [Clones.put], List.prefix_rfl⟩
  | replaced call same => exact ⟨by simp [Clones.put], List.prefix_append _ _⟩
  | returned call => exact ⟨by simp [Clones.put], List.prefix_rfl⟩

theorem grows_of_run (run : Run x y) :
    x.calls.length ≤ y.calls.length ∧ x.updates <+: y.updates := by
  induction run with
  | refl => exact ⟨Nat.le_refl _, List.prefix_rfl⟩
  | tail _ step ih =>
    have grows := grows_of_step step
    exact ⟨Nat.le_trans ih.1 grows.1, ih.2.trans grows.2⟩

/-- Every update has a call of its own. -/
theorem Sound.length_updates_le (sound : x.Sound) : x.updates.length ≤ x.calls.length := by
  have within : x.updates.map Update.call ⊆ List.range x.calls.length := by
    intro i mem
    obtain ⟨u, there, rfl⟩ := List.mem_map.1 mem
    obtain ⟨c, call, -⟩ := (sound.owned u).1 there
    exact List.mem_range.2 (List.getElem?_eq_some_iff.1 call).1
  simpa using (List.Nodup.subperm sound.once within).length_le

/-- How the tokens of clones go up, seen at some moment and at a later one. -/
structure InOrder (x y : Clones) : Prop where
  /-- From each replacement of the last token to the next. -/
  ascending : y.updates.Pairwise fun u v => u.token.toNat < v.token.toNat
  /-- By the rule of the minter, where zero stands before the first token. -/
  minted : Minted 0 y.updates
  /-- As if one minter had been asked for one token after the other. -/
  linear : ({} : Minter).mintAll (y.updates.map Update.reading) =
    (y.updates.map Update.token, y.minter)
  /-- Wherever a call counts on from a token there is a number above. -/
  unsaturated : ∀ (i : Nat) (c : Call) (last : UInt64), y.calls[i]? = some c →
    c.found? = some last → (successor last).toNat = last.toNat + 1
  /-- No call replaces the last token twice. -/
  once : (y.updates.map Update.call).Nodup
  /-- A call that has returned has handed out the token it put in the place of the last one. -/
  returned : ∀ (i : Nat) (r : Int64) (p : Priority), y.calls[i]? = some ⟨r, .returned p⟩ →
    ⟨i, r, p⟩ ∈ y.updates
  /-- A call that began after another had returned has handed out a larger token. -/
  later : ∀ (i j : Nat) (r s : Int64) (p q : Priority), x.calls[i]? = some ⟨r, .returned p⟩ →
    x.calls.length ≤ j → y.calls[j]? = some ⟨s, .returned q⟩ → p.toNat < q.toNat

/-- Clones of one minter that are asked for fewer than `2 ^ 63` tokens hand them out in order,
however their calls are interleaved and whatever the clock shows. -/
theorem tokens_in_order (run : Run {} x) (later : Run x y) (few : y.calls.length < 2 ^ 63) :
    InOrder x y := by
  have before : x.Sound := sound_start.run run
  have sound : y.Sound := before.run later
  have room : ({} : Minter).Room (y.updates.length + 1) := by
    have := sound.length_updates_le
    exact ⟨by simp; omega, by omega⟩
  obtain ⟨rule, ascending, bounds⟩ := minted_of_mintAll room (congrArg Prod.fst sound.linear)
  have returned {z : Clones} (sound : z.Sound) {i : Nat} {r : Int64} {p : Priority}
      (call : z.calls[i]? = some ⟨r, .returned p⟩) : ⟨i, r, p⟩ ∈ z.updates :=
    (sound.owned ⟨i, r, p⟩).2 ⟨_, call, rfl, rfl⟩
  refine ⟨ascending, rule, sound.linear, fun i c last call looks => ?_, sound.once,
    fun i r p call => returned sound call, fun i j r s p q first fresh second => ?_⟩
  · rcases sound.found i c last call looks with rfl | ⟨u, mem, rfl⟩
    · rfl
    · exact toNat_successor (bounds u mem).2
  · obtain ⟨new, updates⟩ := (grows_of_run later).2
    have old : ⟨i, r, p⟩ ∈ x.updates := returned before first
    have made : ⟨j, s, q⟩ ∈ new := by
      have mem := returned sound second
      rw [← updates] at mem
      refine (List.mem_append.1 mem).resolve_left fun early => ?_
      obtain ⟨c, call, -⟩ := (before.owned _).1 early
      exact absurd (List.getElem?_eq_some_iff.1 call).1 (Nat.not_lt.2 fresh)
    rw [← updates] at ascending
    exact (List.pairwise_append.1 ascending).2.2 _ old _ made

/-- Two calls have replaced the last token, the second in spite of the first; one has returned. -/
def crossed : Clones where
  minter := ⟨5⟩
  calls := [⟨5, .replaced 1⟩, ⟨-3, .returned ⟨1⟩⟩]
  updates := [⟨1, -3, ⟨1⟩⟩, ⟨0, 5, ⟨5⟩⟩]

/-- A third call has come and gone, and the first has returned as well. -/
def settled : Clones where
  minter := ⟨6⟩
  calls := [⟨5, .returned ⟨5⟩⟩, ⟨-3, .returned ⟨1⟩⟩, ⟨2, .returned ⟨6⟩⟩]
  updates := [⟨1, -3, ⟨1⟩⟩, ⟨0, 5, ⟨5⟩⟩, ⟨2, 2, ⟨6⟩⟩]

/-- A call before 1970 overtakes another, whose exchange fails at first; then the clock goes back,
and the call that begins after the first return counts on from a token above its reading. -/
theorem tokens_in_order_crossed :
    Run {} crossed ∧ Run crossed settled ∧ settled.calls.length < 2 ^ 63 ∧
      InOrder crossed settled := by
  have started : Run {} ⟨{}, [⟨5, .looked 0⟩, ⟨-3, .looked 0⟩], []⟩ :=
    .tail (.tail (.tail (.tail .refl (.begun 5)) (.begun (-3))) (.looked (i := 0) rfl))
      (.looked (i := 1) rfl)
  have overtaken : Run {} ⟨⟨1⟩, [⟨5, .looked 1⟩, ⟨-3, .replaced 0⟩], [⟨1, -3, ⟨1⟩⟩]⟩ :=
    .tail (.tail started (.replaced (i := 1) rfl rfl)) (.failed (i := 0) rfl)
  have replaced : Run {} { crossed with calls := [⟨5, .replaced 1⟩, ⟨-3, .replaced 0⟩] } :=
    .tail overtaken (.replaced (i := 0) (r := 5) rfl rfl)
  have run : Run {} crossed := .tail replaced (@Step.returned _ 1 (-3) 0 rfl)
  have begun : Run crossed { crossed with calls := crossed.calls ++ [⟨2, .looked 5⟩] } :=
    .tail (.tail .refl (.begun 2)) (.looked (i := 2) rfl)
  have minted : Run crossed { settled with
      calls := [⟨5, .replaced 1⟩, ⟨-3, .returned ⟨1⟩⟩, ⟨2, .replaced 5⟩] } :=
    .tail begun (.replaced (i := 2) (r := 2) rfl rfl)
  have given : Run crossed { settled with
      calls := [⟨5, .replaced 1⟩, ⟨-3, .returned ⟨1⟩⟩, ⟨2, .returned ⟨6⟩⟩] } :=
    .tail minted (@Step.returned _ 2 2 5 rfl)
  have later : Run crossed settled := .tail given (@Step.returned _ 0 5 1 rfl)
  have few : settled.calls.length < 2 ^ 63 := by decide
  exact ⟨run, later, few, tokens_in_order run later few⟩

end Clones

end Interlock.Minter
