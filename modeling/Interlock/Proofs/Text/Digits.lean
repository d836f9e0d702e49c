import Interlock.Json.Basic
import Interlock.Time.Rfc3339

/-!
Written numbers: decimal digits, plain or with zeros in front. Whichever reader takes them up again
computes the number they were written for, and finds where they end.
-/
namespace Interlock

namespace Text

/-- The computation of the readers, in the words of the library. -/
theorem foldl_digits (ds : List Char) :
    ds.foldl (fun n c => n * 10 + (c.toNat - '0'.toNat)) 0 = Nat.ofDigitChars 10 ds 0 := by
  simp only [Nat.ofDigitChars_eq_foldl, Nat.mul_comm]

/-- What starts with no digit ends every run of digits before it. -/
def EndsDigits (rest : List Char) : Prop := ∀ c ∈ rest.head?, c.isDigit = false

theorem EndsDigits.cons {c : Char} {rest : List Char} (h : c.isDigit = false) :
    EndsDigits (c :: rest) := by
  intro d hd
  cases hd
  exact h

theorem EndsDigits.take {rest : List Char} (h : EndsDigits rest) (n : Nat) :
    EndsDigits (rest.take n) := by
  cases n with
  | zero => simp [EndsDigits]
  | succ n =>
    cases rest with
    | nil => simpa using h
    | cons c rest => exact .cons (h c rfl)

theorem EndsDigits.dropWhile {rest : List Char} (h : EndsDigits rest) :
    rest.dropWhile Char.isDigit = rest := by
  cases rest with
  | nil => rfl
  | cons c rest => simp [h c rfl]

theorem takeWhile_digits {ds rest : List Char} (hds : ∀ c ∈ ds, c.isDigit = true)
    (hrest : EndsDigits rest) : (ds ++ rest).takeWhile Char.isDigit = ds := by
  rw [List.takeWhile_append_of_pos hds]
  cases rest with
  | nil => simp
  | cons c rest => simp [hrest c rfl]

theorem dropWhile_digits {ds rest : List Char} (hds : ∀ c ∈ ds, c.isDigit = true)
    (hrest : EndsDigits rest) : (ds ++ rest).dropWhile Char.isDigit = rest := by
  rw [List.dropWhile_append_of_pos hds, hrest.dropWhile]

end Text

namespace Json

theorem isDigit_of_mem_digitsOf {n : Nat} {c : Char} (h : c ∈ digitsOf n) : c.isDigit = true :=
  Nat.isDigit_of_mem_toDigits (by decide) (by decide) h

theorem ofDigits_digitsOf (n : Nat) : ofDigits (digitsOf n) = n :=
  (Text.foldl_digits _).trans (Nat.ofDigitChars_toDigits (by decide) (by decide))

/-- Only the number zero is written with a zero in front. -/
theorem eq_zero_of_head?_digitsOf {n : Nat} (h : (digitsOf n).head? = some '0') : n = 0 := by
  induction n using Nat.strongRecOn with
  | ind n ih =>
    simp only [digitsOf] at h ih
    rw [Nat.toDigits_eq_if (by decide)] at h
    split at h
    · exact Nat.digitChar_eq_zero.1 (Option.some.inj h)
    · have hfront : ((Nat.toDigits 10 (n / 10)).head?) = some '0' := by
        rwa [List.head?_append, Option.or_eq_left_of_isSome (by simp)] at h
      have := ih (n / 10) (by omega) hfront
      omega

theorem digitsOf_eq_cons (n : Nat) : ∃ d ds, digitsOf n = d :: ds ∧ d.isDigit = true := by
  obtain ⟨d, ds, h⟩ := List.exists_cons_of_ne_nil (Nat.toDigits_ne_nil (n := n) (b := 10))
  exact ⟨d, ds, h, isDigit_of_mem_digitsOf (n := n) (List.mem_of_mem_head? (by simp [digitsOf, h]))⟩

theorem digitsOf_zero : digitsOf 0 = ['0'] := Nat.toDigits_zero 10

/-- A number is a lone zero or starts with another digit. -/
theorem digitsOf_cases (n : Nat) :
    digitsOf n = ['0'] ∨ ∃ d ds, digitsOf n = d :: ds ∧ d ≠ '0' := by
  obtain ⟨d, ds, hd, -⟩ := digitsOf_eq_cons n
  by_cases h0 : d = '0'
  · subst h0
    exact .inl (eq_zero_of_head?_digitsOf (congrArg List.head? hd) ▸ digitsOf_zero)
  · exact .inr ⟨d, ds, hd, h0⟩

end Json

namespace Time

theorem isDigit_of_mem_padded {width n : Nat} {c : Char} (h : c ∈ padded width n) :
    c.isDigit = true := by
  rcases List.mem_append.1 h with h | h
  · rw [(List.mem_replicate.1 h).2]
    rfl
  · exact Nat.isDigit_of_mem_toDigits (by decide) (by decide) h

theorem padded_ne_nil (width n : Nat) : padded width n ≠ [] := by
  simp [padded]

theorem ofDigitChars_padded (width n : Nat) : Nat.ofDigitChars 10 (padded width n) 0 = n := by
  simp only [padded, Nat.ofDigitChars_append, Nat.ofDigitChars_replicate_zero, Nat.mul_zero]
  exact Nat.ofDigitChars_toDigits (by decide) (by decide)

/-- A number that fits the width is written in exactly that many digits. -/
theorem length_padded {width n : Nat} (hw : 0 < width) (h : n < Nat.pow 10 width) :
    (padded width n).length = width := by
  have := (Nat.length_toDigits_le_iff (by decide) hw).2 h
  simp only [padded, List.length_append, List.length_replicate]
  omega

/-- Some digits are read as the number they denote, where at most so many are asked for as there
are, or as many more as one likes if the digits end there. -/
theorem readDigits_append {most : Nat} {ds rest : List Char} (hds : ∀ c ∈ ds, c.isDigit = true)
    (hne : ds ≠ [])
    (hend : ds.length = most ∨ ds.length ≤ most ∧ Text.EndsDigits rest) :
    readDigits most (ds ++ rest) = .ok (Nat.ofDigitChars 10 ds 0, rest) := by
  have htake : ((ds ++ rest).take most).takeWhile Char.isDigit = ds := by
    rcases hend with rfl | ⟨hle, hrest⟩
    · rw [List.take_left]
      have hnil : Text.EndsDigits [] := nofun
      simpa using Text.takeWhile_digits hds hnil
    · rw [List.take_append, List.take_of_length_le hle]
      exact Text.takeWhile_digits hds (hrest.take _)
  obtain ⟨d, ds, rfl⟩ := List.exists_cons_of_ne_nil hne
  unfold readDigits
  rw [htake]
  change Except.ok (_, ((d :: ds) ++ rest).drop (d :: ds).length) = _
  rw [Text.foldl_digits, List.drop_left]

end Time

end Interlock
