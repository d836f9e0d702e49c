import Interlock.Priority
import Mathlib.Algebra.Group.Nat.Defs

/-!
A minter never runs out of priorities as long as it hands out fewer than `2 ^ 63`: a clock reading
is at most half of what a token can be, and beyond the readings the tokens go up one by one.
-/
namespace Interlock.Minter

/-- At least `n` more tokens can be handed out before they are used up. -/
structure Room (m : Minter) (n : Nat) : Prop where
  last : m.last.toNat + n < 2 ^ 64
  few : n ≤ 2 ^ 63

theorem room_start {n : Nat} (few : n < 2 ^ 63) : ({} : Minter).Room n where
  last := by simp; omega
  few := Nat.le_of_lt few

theorem Room.mono {n k : Nat} {m : Minter} (room : m.Room n) (le : k ≤ n) : m.Room k :=
  ⟨by have := room.last; omega, by have := room.few; omega⟩

theorem toNat_reading_lt (r : Int64) : (reading r.toInt).toNat < 2 ^ 63 := by
  have := r.toInt_lt
  simp only [reading, Nat.toUInt64, UInt64.toNat_ofNat']
  omega

theorem toNat_successor {n : UInt64} (below : n.toNat + 1 < 2 ^ 64) :
    (successor n).toNat = n.toNat + 1 := by
  have other : n ≠ 0xffffffffffffffff := by
    rintro rfl
    exact absurd below (by decide)
  rw [successor, if_neg other, UInt64.toNat_add]
  simp only [UInt64.toNat_one]
  omega

theorem toNat_max (a b : UInt64) : (max a b).toNat = max a.toNat b.toNat := by
  change (if a ≤ b then b else a).toNat = _
  split
  · next le => exact (Nat.max_eq_right (UInt64.le_iff_toNat_le.1 le)).symm
  · next gt => exact (Nat.max_eq_left (by rw [UInt64.le_iff_toNat_le] at gt; omega)).symm

/-- While there is room the next token is the reading or one more than the last token. -/
theorem toNat_next {m : Minter} {n : Nat} (room : m.Room (n + 1)) (r : Int64) :
    (m.next r.toInt).toNat = max (reading r.toInt).toNat (m.last.toNat + 1) := by
  rw [next, toNat_max, toNat_successor (by have := room.last; omega)]

theorem last_lt_next {m : Minter} {n : Nat} (room : m.Room (n + 1)) (r : Int64) :
    m.last < m.next r.toInt := by
  rw [UInt64.lt_iff_toNat_lt, toNat_next room]
  omega

theorem Room.next {m : Minter} {n : Nat} (room : m.Room (n + 1)) (r : Int64) :
    (Minter.mk (m.next r.toInt)).Room n where
  last := by
    have := room.last
    have := room.few
    have := toNat_reading_lt r
    rw [toNat_next room]
    omega
  few := Nat.le_of_succ_le room.few

end Interlock.Minter
