import Interlock.Proofs.Text.Digits
import Interlock.Proofs.Time.Calendar
import Interlock.Time.Rfc3339
import Mathlib.Tactic.Linarith

/-!
Written instants are read back. Every part of the text is read by itself, up to the mark behind it:
a year of any sign and length, numbers of two digits, a fraction of three, six or nine. What can be
written is said by `Instant.Representable`, and nothing else is ever read: an instant is
representable exactly if some text stands for it.
-/
namespace Interlock.Time

theorem toNat_of_isDigit {c : Char} (h : c.isDigit = true) : 48 ≤ c.toNat ∧ c.toNat ≤ 57 := by
  simpa [Char.isDigit, UInt32.le_iff_toNat_le] using h

theorem isBlank_of_isDigit {c : Char} (h : c.isDigit = true) : Text.isBlank c = false := by
  have hc := toNat_of_isDigit h
  simp only [Text.isBlank, Bool.or_eq_false_iff, Bool.and_eq_false_iff, decide_eq_false_iff_not,
    beq_eq_false_iff_ne]
  omega

theorem skipBlank_cons {c : Char} (h : Text.isBlank c = false) (cs : List Char) :
    Text.skipBlank (c :: cs) = c :: cs :=
  List.dropWhile_cons_of_neg (by simp [h])

theorem padded_eq_cons (width n : Nat) :
    ∃ d ds, padded width n = d :: ds ∧ d.isDigit = true := by
  obtain ⟨d, ds, h⟩ := List.exists_cons_of_ne_nil (padded_ne_nil width n)
  exact ⟨d, ds, h, isDigit_of_mem_padded (h ▸ List.mem_cons_self)⟩

theorem skipBlank_padded (width n : Nat) (rest : List Char) :
    Text.skipBlank (padded width n ++ rest) = padded width n ++ rest := by
  obtain ⟨d, ds, h, hd⟩ := padded_eq_cons width n
  rw [h, List.cons_append, skipBlank_cons (isBlank_of_isDigit hd)]

theorem readDigits_padded {most width n : Nat} {rest : List Char}
    (hend : (padded width n).length = most ∨
      (padded width n).length ≤ most ∧ Text.EndsDigits rest) :
    readDigits most (padded width n ++ rest) = .ok (n, rest) := by
  rw [readDigits_append (fun _ => isDigit_of_mem_padded) (padded_ne_nil _ _) hend,
    ofDigitChars_padded]

theorem readYear_yearChars {year : Int} (h : -0x80000000 ≤ year ∧ year < 0x80000000)
    {rest : List Char} (hrest : Text.EndsDigits rest) :
    readYear (yearChars year ++ rest) = .ok (year, rest) := by
  have hread : readDigits (padded 4 year.natAbs ++ rest).length (padded 4 year.natAbs ++ rest) =
      .ok (year.natAbs, rest) := readDigits_padded (.inr ⟨by simp, hrest⟩)
  rcases (by omega : year < 0 ∨ 0 ≤ year ∧ year ≤ 9999 ∨ 9999 < year) with hneg | hfour | hbig
  · have hchars : yearChars year = '-' :: padded 4 year.natAbs := if_pos hneg
    have hvalue : -1 * (year.natAbs : Int) = year := by omega
    unfold readYear
    rw [hchars, List.cons_append, skipBlank_cons rfl]
    simp only [hread, bind, Except.bind, hvalue, h, and_self, if_true]
    rfl
  · have hchars : yearChars year = padded 4 year.natAbs := by
      rw [yearChars, if_neg (by omega), if_pos hfour.2]
    have hvalue : (year.natAbs : Int) = year := by omega
    obtain ⟨d, ds, hds, hd⟩ := padded_eq_cons 4 year.natAbs
    have hfirst : readDigits 4 (padded 4 year.natAbs ++ rest) = .ok (year.natAbs, rest) :=
      readDigits_padded (.inl (length_padded (by decide) (show year.natAbs < 10000 by omega)))
    have hsign : d ≠ '-' ∧ d ≠ '+' := by
      constructor <;> rintro rfl <;> cases hd
    unfold readYear
    rw [hchars, skipBlank_padded]
    rw [hds, List.cons_append] at hfirst ⊢
    simp [hsign, hfirst, Except.map, hvalue]
  · have hchars : yearChars year = '+' :: padded 4 year.natAbs := by
      rw [yearChars, if_neg (by omega), if_neg (by omega)]
    have hvalue : 1 * (year.natAbs : Int) = year := by omega
    unfold readYear
    rw [hchars, List.cons_append, skipBlank_cons rfl]
    simp only [hread, bind, Except.bind, hvalue, h, and_self, if_true]
    rfl

theorem readTwo_padded {low high n : Nat} (hn : n < 100) (hlow : low ≤ n) (hhigh : n ≤ high)
    (rest : List Char) : readTwo low high (padded 2 n ++ rest) = .ok (n, rest) := by
  unfold readTwo
  rw [skipBlank_padded, readDigits_padded (.inl (length_padded (by decide) hn))]
  simp [within, hlow, hhigh, bind, Except.bind, pure, Except.pure]

theorem readMark_cons {mark : Char} (h : Text.isBlank mark = false) (rest : List Char) :
    readMark mark (mark :: rest) = .ok rest := by
  unfold readMark
  rw [skipBlank_cons h]
  simp

/-- A fraction of a given count of digits is read as that many units. -/
theorem readFraction_padded {width n : Nat} (hw : 0 < width) (hle : width ≤ 9)
    (h : n < 10 ^ width) {rest : List Char} (hrest : Text.EndsDigits rest) :
    readFraction ('.' :: (padded width n ++ rest)) = .ok (n * 10 ^ (9 - width), rest) := by
  have hlength := length_padded hw h
  have htake : ((padded width n ++ rest).take 9).takeWhile Char.isDigit = padded width n := by
    rw [List.take_append, List.take_of_length_le (by omega)]
    exact Text.takeWhile_digits (fun _ => isDigit_of_mem_padded) (hrest.take _)
  have hread : readDigits 9 (padded width n ++ rest) = .ok (n, rest) :=
    readDigits_padded (.inr ⟨by omega, hrest⟩)
  simp only [readFraction, htake, hread, bind, Except.bind, hrest.dropWhile, hlength]
  rfl

theorem readFraction_fractionChars {nanos : Nat} (h : nanos < 1000000000) (rest : List Char) :
    readFraction (fractionChars nanos ++ 'Z' :: rest) = .ok (nanos, 'Z' :: rest) := by
  have hrest : Text.EndsDigits ('Z' :: rest) := .cons rfl
  unfold fractionChars
  split
  · next h0 =>
    rw [eq_of_beq h0]
    rfl
  · split
    · next hmillis =>
      have hmillis := eq_of_beq hmillis
      rw [List.cons_append, readFraction_padded (by decide) (by decide) (by omega) hrest]
      simp only [Except.ok.injEq, Prod.mk.injEq, and_true]
      omega
    · split
      · next hmicros =>
        have hmicros := eq_of_beq hmicros
        rw [List.cons_append, readFraction_padded (by decide) (by decide) (by omega) hrest]
        simp only [Except.ok.injEq, Prod.mk.injEq, and_true]
        omega
      · rw [List.cons_append, readFraction_padded (by decide) (by decide) (by omega) hrest]
        simp

namespace Instant

/-- The instants that can be written: those within the bounds whose nanoseconds stay below a second,
or below two in the last second of a minute, which alone may be held longer. -/
def Representable (t : Instant) : Prop :=
  t.inRange = true ∧
    (t.nanos < 1000000000 ∨ t.nanos < 2000000000 ∧ t.seconds % 60 = 59)

instance (t : Instant) : Decidable t.Representable :=
  inferInstanceAs (Decidable (_ ∧ _))

/-- The year of a bounded instant fits 32 bits. -/
theorem year_bounds {t : Instant} (h : t.inRange = true) :
    -0x80000000 ≤ t.date.year ∧ t.date.year < 0x80000000 := by
  have hmin : minSeconds = -8334601228800 := by decide
  have hmax : maxSeconds = 8210266876799 := by decide
  simp only [inRange, Bool.and_eq_true, decide_eq_true_eq, hmin, hmax] at h
  have hday : Int.fdiv t.seconds 86400 = t.seconds / 86400 :=
    Int.fdiv_eq_ediv_of_nonneg _ (by decide)
  obtain ⟨era, e, hn, hdate⟩ := Date.ofDay_eq (t.seconds / 86400)
  have hyear := e.yearOfEra_bounds
  have hera := e.dayOfEra_bounds
  simp only [date, hday, hdate, Date.ofMarch]
  split <;> omega

theorem secondOfDay_eq (t : Instant) : (t.secondOfDay : Int) = t.seconds % 86400 := by
  have hmod : Int.fmod t.seconds 86400 = t.seconds % 86400 :=
    Int.fmod_eq_emod_of_nonneg _ (by decide)
  simp only [secondOfDay, hmod]
  omega

/-- What is written behind the minutes: a second from 0 to 60, which is 60 in a leap second alone,
and the nanoseconds within it. -/
theorem chars_eq {t : Instant} (h : t.Representable) : ∃ second nanos,
    t.chars = yearChars t.date.year ++ '-' :: (padded 2 t.date.month ++ '-' ::
      (padded 2 t.date.day ++ 'T' :: (padded 2 (t.secondOfDay / 3600) ++ ':' ::
        (padded 2 (t.secondOfDay / 60 % 60) ++ ':' :: (padded 2 second ++
          (fractionChars nanos ++ ['Z'])))))) ∧
    second ≤ 60 ∧ nanos < 1000000000 ∧ min second 59 = t.secondOfDay % 60 ∧
    (if second == 60 then nanos + 1000000000 else nanos) = t.nanos := by
  have hs := secondOfDay_eq t
  by_cases hleap : 1000000000 ≤ t.nanos
  · have hlast : t.secondOfDay % 60 = 59 := by
      have := h.2
      omega
    refine ⟨60, t.nanos - 1000000000, ?_, by omega, ?_, by omega, ?_⟩
    · simp [chars, hleap, hlast]
    · have := h.2
      omega
    · simp
      omega
  · refine ⟨t.secondOfDay % 60, t.nanos, ?_, by omega, by omega, by omega, ?_⟩
    · simp [chars, hleap]
    · rw [if_neg]
      simp
      omega

/-- A written instant is read as itself. -/
theorem ofText_display {t : Instant} (h : t.Representable) : ofText t.display = .ok t := by
  have hreal : t.date.isReal = true := Date.isReal_ofDay _
  obtain ⟨hmonth, hmonth', hdom, hdom'⟩ := Date.bounds_of_isReal hreal
  have hday : t.date.toDay = t.seconds / 86400 :=
    (Date.toDay_ofDay _).trans (Int.fdiv_eq_ediv_of_nonneg _ (by decide))
  have hs := secondOfDay_eq t
  obtain ⟨second, nanos, hchars, hsecond, hnanos, hmin, hsum⟩ := chars_eq h
  have hseconds : t.date.toDay * 86400 +
      ((t.secondOfDay / 3600 * 3600 + t.secondOfDay / 60 % 60 * 60 + min second 59 : Nat) : Int) =
        t.seconds := by
    rw [hday]
    omega
  have hblank : Text.skipBlank [] = [] := rfl
  have hoffset : readOffset (Text.skipBlank ['Z']) = .ok (0, []) := rfl
  have hyear (rest : List Char) :
      readYear (yearChars t.date.year ++ '-' :: rest) = .ok (t.date.year, '-' :: rest) :=
    readYear_yearChars (year_bounds h.1) (.cons rfl)
  have hclock : t.secondOfDay / 3600 ≤ 23 ∧ t.secondOfDay / 60 % 60 ≤ 59 := by omega
  have hdash (rest : List Char) : readMark '-' ('-' :: rest) = .ok rest := readMark_cons rfl rest
  have hcolon (rest : List Char) : readMark ':' (':' :: rest) = .ok rest := readMark_cons rfl rest
  have hmark (rest : List Char) : readTimeMark ('T' :: rest) = .ok rest := rfl
  rw [ofText, display, String.toList_ofList, hchars, ofChars]
  simp only [bind, Except.bind, hyear, hdash, hcolon, hmark,
    readTwo_padded (by omega) hmonth hmonth', readTwo_padded (by omega) hdom hdom',
    readTwo_padded (by omega) (Nat.zero_le _) hclock.1,
    readTwo_padded (by omega) (Nat.zero_le _) hclock.2,
    readTwo_padded (by omega) (Nat.zero_le _) hsecond, readFraction_fractionChars hnanos, hoffset,
    hseconds, hsum, hreal, hblank]
  simp [show (⟨t.seconds, t.nanos⟩ : Instant).inRange = true from h.1, pure, Except.pure]

end Instant

/-! Reading gives nothing that could not be written. -/

/-- Of two readings in a row that succeed, each succeeds. -/
theorem ok_of_bind {ε α β : Type} {x : Except ε α} {f : α → Except ε β} {b : β}
    (h : x >>= f = .ok b) : ∃ a, x = .ok a ∧ f a = .ok b := by
  cases x with
  | error e => cases h
  | ok a => exact ⟨a, rfl, h⟩

theorem ofDigitChars_lt {ds : List Char} (h : ∀ c ∈ ds, c.isDigit = true) :
    Nat.ofDigitChars 10 ds 0 < 10 ^ ds.length := by
  induction ds with
  | nil => decide
  | cons d ds ih =>
    have hd : d.toNat ≤ 57 := (toNat_of_isDigit (h d List.mem_cons_self)).2
    have hds := ih fun c hc => h c (List.mem_cons_of_mem _ hc)
    have hfirst : d.toNat - '0'.toNat ≤ 9 := by
      simp only [Char.reduceToNat]
      omega
    rw [Nat.ofDigitChars_cons, Nat.ofDigitChars_eq_ofDigitChars_zero, List.length_cons,
      Nat.pow_succ]
    nlinarith [Nat.mul_le_mul_left (10 ^ ds.length) hfirst]

theorem readTwo_le {low high n : Nat} {cs rest : List Char}
    (h : readTwo low high cs = .ok (n, rest)) : n ≤ high := by
  obtain ⟨⟨m, tail⟩, -, h⟩ := ok_of_bind h
  obtain ⟨k, hk, h⟩ := ok_of_bind h
  simp only [within] at hk
  split at hk
  · next hbounds =>
    cases hk
    cases h
    exact hbounds.2
  · cases hk

theorem readDigits_value {most n : Nat} {cs rest : List Char}
    (h : readDigits most cs = .ok (n, rest)) :
    n = Nat.ofDigitChars 10 ((cs.take most).takeWhile Char.isDigit) 0 := by
  unfold readDigits at h
  split at h
  · cases h
  · cases h
  · cases h
    exact Text.foldl_digits _

theorem readFraction_lt {nanos : Nat} {cs rest : List Char}
    (h : readFraction cs = .ok (nanos, rest)) : nanos < 1000000000 := by
  unfold readFraction at h
  split at h
  · next rest' =>
    obtain ⟨⟨n, tail⟩, hn, h⟩ := ok_of_bind h
    have hvalue := readDigits_value hn
    cases h
    generalize hds : (rest'.take 9).takeWhile Char.isDigit = ds at hvalue
    have hdigits : ∀ c ∈ ds, c.isDigit = true := fun c hc => by
      rw [← hds] at hc
      exact List.all_eq_true.1 List.all_takeWhile c hc
    have hlength : ds.length ≤ 9 := by
      rw [← hds]
      exact (List.takeWhile_prefix _).length_le.trans (List.length_take_le 9 rest')
    calc n * 10 ^ (9 - ds.length)
        < 10 ^ ds.length * 10 ^ (9 - ds.length) :=
          Nat.mul_lt_mul_of_pos_right (hvalue ▸ ofDigitChars_lt hdigits) (Nat.pow_pos (by decide))
      _ = 1000000000 := by rw [← Nat.pow_add, Nat.add_sub_cancel' hlength]
  · cases h
    decide

theorem readOffsetDigits_mod {p : Nat × List Char} {cs : List Char}
    (h : readOffsetDigits cs = .ok p) : p.1 % 60 = 0 := by
  obtain ⟨⟨⟨a, b⟩, rest⟩, -, h⟩ := ok_of_bind h
  obtain ⟨⟨⟨c, d⟩, rest⟩, -, h⟩ := ok_of_bind h
  dsimp only at h
  split at h
  · cases h
    simp only
    omega
  · cases h

/-- Offsets are whole minutes. -/
theorem readOffset_mod {offset : Int} {cs rest : List Char}
    (h : readOffset cs = .ok (offset, rest)) : offset % 60 = 0 := by
  have hdigits {sign : Int} {cs : List Char} (h : (readOffsetDigits cs).map (fun p =>
      (sign * (p.1 : Int), p.2)) = .ok (offset, rest)) : offset % 60 = 0 := by
    cases hn : readOffsetDigits cs with
    | error e =>
      rw [hn] at h
      cases h
    | ok n =>
      have := readOffsetDigits_mod hn
      rw [hn] at h
      cases h
      exact Int.emod_eq_zero_of_dvd (Dvd.dvd.mul_left (by omega) sign)
  unfold readOffset at h
  split at h
  · cases h
  · exact hdigits h
  · exact hdigits h
  · exact hdigits h
  · cases h
    rfl
  · cases h
    rfl
  · split at h
    · cases h
      rfl
    · cases h
  · cases h

namespace Instant

/-- The representable instants are those that some text stands for. -/
theorem representable_iff_ofText {t : Instant} : t.Representable ↔ ∃ s, ofText s = .ok t := by
  refine ⟨fun h => ⟨_, ofText_display h⟩, ?_⟩
  rintro ⟨s, h⟩
  obtain ⟨⟨year, cs₁⟩, -, h⟩ := ok_of_bind h
  obtain ⟨cs₂, -, h⟩ := ok_of_bind h
  obtain ⟨⟨month, cs₃⟩, -, h⟩ := ok_of_bind h
  obtain ⟨cs₄, -, h⟩ := ok_of_bind h
  obtain ⟨⟨day, cs₅⟩, -, h⟩ := ok_of_bind h
  obtain ⟨cs₆, -, h⟩ := ok_of_bind h
  obtain ⟨⟨hour, cs₇⟩, -, h⟩ := ok_of_bind h
  obtain ⟨cs₈, -, h⟩ := ok_of_bind h
  obtain ⟨⟨minute, cs₉⟩, -, h⟩ := ok_of_bind h
  obtain ⟨cs₁₀, -, h⟩ := ok_of_bind h
  obtain ⟨⟨second, cs₁₁⟩, hsecond, h⟩ := ok_of_bind h
  obtain ⟨⟨nanos, cs₁₂⟩, hnanos, h⟩ := ok_of_bind h
  obtain ⟨⟨offset, cs₁₃⟩, hoffset, h⟩ := ok_of_bind h
  dsimp only at h
  generalize hclock : (if second == 60 then nanos + 1000000000 else nanos) = clock at h
  split at h
  · cases h
  split at h
  · cases h
  split at h
  · next hrange =>
    cases h
    refine ⟨hrange, ?_⟩
    have := readTwo_le hsecond
    have := readFraction_lt hnanos
    have := readOffset_mod hoffset
    simp only [beq_iff_eq] at hclock
    dsimp only
    split at hclock <;> omega
  · cases h

end Instant

end Interlock.Time
