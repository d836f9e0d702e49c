import Interlock.Bytes
import Mathlib.Algebra.Group.Nat.Defs
import Mathlib.Tactic.Common

/-!
Texts and their bytes have the same order. UTF-8 spells a character by a first byte, which is greater
the more bytes follow, and by bytes of six bits each; so the bytes of a greater character are greater
at the first place where they differ, and the order of texts by characters is the order of their
bytes.
-/
namespace Interlock.Bytes

theorem ofText_eq_flatMap (s : String) : ofText s = s.toList.flatMap String.utf8EncodeChar := by
  have bytes : (String.ofList s.toList).toByteArray = s.toList.utf8Encode :=
    String.toByteArray_ofList
  rw [String.ofList_toList] at bytes
  simp [ofText, bytes, List.utf8Encode]

/-- A byte that is not smaller, and greater bytes behind it if it is the same. -/
theorem cons_lt_cons {m n : Nat} {xs ys : Bytes} (le : m ≤ n) (bound : n < 256)
    (behind : m = n → xs < ys) : UInt8.ofNat m :: xs < UInt8.ofNat n :: ys := by
  rcases Nat.lt_or_eq_of_le le with lt | rfl
  · refine List.Lex.rel (UInt8.lt_iff_toNat_lt.2 ?_)
    rwa [UInt8.toNat_ofNat_of_lt' (Nat.lt_trans lt bound), UInt8.toNat_ofNat_of_lt' bound]
  · exact List.cons_lt_cons_self.2 (behind rfl)

/-- The bytes that follow the first one: six bits of the character in each. -/
def following (v : Nat) : Nat → Bytes
  | 0 => []
  | n + 1 => UInt8.ofNat (v / 64 ^ n % 64 + 128) :: following v n

theorem following_lt {v w n : Nat} (lt : v % 64 ^ n < w % 64 ^ n) (xs ys : Bytes) :
    following v n ++ xs < following w n ++ ys := by
  induction n with
  | zero => omega
  | succ n ih =>
    have low : v % 64 ^ n < 64 ^ n := Nat.mod_lt _ (Nat.pow_pos (by decide))
    have low' : w % 64 ^ n < 64 ^ n := Nat.mod_lt _ (Nat.pow_pos (by decide))
    rw [Nat.mod_pow_succ, Nat.mod_pow_succ] at lt
    have le : v / 64 ^ n % 64 ≤ w / 64 ^ n % 64 := by
      by_contra gt
      have := Nat.mul_le_mul_left (64 ^ n) (Nat.succ_le_of_lt (Nat.lt_of_not_le gt))
      rw [Nat.succ_eq_add_one, Nat.mul_add] at this
      omega
    refine cons_lt_cons (Nat.add_le_add_right le _) (by omega) fun same => ih ?_
    rw [Nat.add_right_cancel same] at lt
    exact Nat.lt_of_add_lt_add_right lt

/-- How many bytes follow the first one of a character, and the number of the first one. -/
inductive Spelled (v : Nat) : Nat → Nat → Prop
  | one (high : v < 0x80) : Spelled v 0 v
  | two (low : 0x80 ≤ v) (high : v < 0x800) : Spelled v 1 (v / 64 + 192)
  | three (low : 0x800 ≤ v) (high : v < 0x10000) : Spelled v 2 (v / 4096 + 224)
  | four (low : 0x10000 ≤ v) (high : v < 0x110000) : Spelled v 3 (v / 262144 + 240)

theorem exists_spelled (c : Char) : ∃ n first, Spelled c.toNat n first ∧
    String.utf8EncodeChar c = UInt8.ofNat first :: following c.toNat n := by
  have bound : c.toNat < 0x110000 := by
    rcases c.valid with low | high
    · exact Nat.lt_trans low (by decide)
    · exact high.2
  have number : c.val.toNat = c.toNat := rfl
  unfold String.utf8EncodeChar
  simp only [number]
  split
  · exact ⟨_, _, .one (by omega), rfl⟩
  split
  · refine ⟨_, _, .two (by omega) (by omega), ?_⟩
    rw [Nat.mod_eq_of_lt (by omega)]
    simp [following]
  split
  · refine ⟨_, _, .three (by omega) (by omega), ?_⟩
    rw [Nat.mod_eq_of_lt (by omega : c.toNat / 4096 < 16)]
    simp [following]
  · refine ⟨_, _, .four (by omega) bound, ?_⟩
    rw [Nat.mod_eq_of_lt (by omega : c.toNat / 262144 < 8)]
    simp [following]

theorem Spelled.first_lt {v n first : Nat} (spelled : Spelled v n first) : first < 256 := by
  cases spelled <;> omega

/-- Of two characters the greater one has the greater first byte, or more in what follows. -/
theorem Spelled.lt {v w m n first first' : Nat} (one : Spelled v m first)
    (other : Spelled w n first') (lt : v < w) :
    first ≤ first' ∧ (first = first' → m = n ∧ v % 64 ^ m < w % 64 ^ m) := by
  cases one <;> cases other <;> omega

/-- The bytes of a greater character are greater, whatever stands behind them. -/
theorem encodeChar_lt {c d : Char} (lt : c < d) (xs ys : Bytes) :
    String.utf8EncodeChar c ++ xs < String.utf8EncodeChar d ++ ys := by
  obtain ⟨m, first, spelled, bytes⟩ := exists_spelled c
  obtain ⟨n, first', spelled', bytes'⟩ := exists_spelled d
  obtain ⟨le, behind⟩ := spelled.lt spelled' lt
  rw [bytes, bytes']
  refine cons_lt_cons le spelled'.first_lt fun same => ?_
  obtain ⟨rfl, lt⟩ := behind same
  exact following_lt lt xs ys

theorem flatMap_lt {cs ds : List Char} (lt : cs < ds) :
    cs.flatMap String.utf8EncodeChar < ds.flatMap String.utf8EncodeChar := by
  induction lt with
  | nil =>
    next d ds =>
    obtain ⟨n, first, -, bytes⟩ := exists_spelled d
    rw [List.flatMap_cons, bytes]
    exact List.Lex.nil
  | rel lt => exact encodeChar_lt lt _ _
  | cons _ ih => exact List.append_left_lt ih

/-- The order of texts is the order of their bytes. -/
theorem ofText_lt_iff {s t : String} : ofText s < ofText t ↔ s < t := by
  rw [ofText_eq_flatMap, ofText_eq_flatMap, String.lt_iff]
  refine ⟨fun lt => ?_, flatMap_lt⟩
  by_contra ge
  have same : s.toList = t.toList := Std.Trichotomous.trichotomous (r := (· < ·)) _ _ ge fun gt =>
    List.lt_asymm lt (flatMap_lt gt)
  exact List.lt_irrefl _ (same ▸ lt)

end Interlock.Bytes
