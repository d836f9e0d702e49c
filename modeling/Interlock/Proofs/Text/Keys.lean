import Interlock.Proofs.Text.ByteOrder
import Interlock.Proofs.Time.Written
import Interlock.SortKey
import Mathlib.Data.List.TakeDrop

/-!
Written sort keys. A text is a key exactly if it is `HOLDER`, or digits of a 64-bit number, `#` and
the identifier of a worker, which may hold anything and is not empty. Every key is read back from
the text it is written as, up to a worker without a name, and the bytes of two written waiters
compare as the waiters do: all tokens have the same number of digits, so the tokens decide if they
differ, and the workers behind them if they do not. Specification, section 3: Data Model.
-/
namespace Interlock

/-- A list that comes first in the lexicographic order compares as the smaller one. -/
theorem Bytes.compare_eq_lt {xs ys : Bytes} (lt : xs < ys) : compare xs ys = .lt := by
  change List.compareLex compare xs ys = .lt
  induction lt with
  | nil => exact List.compareLex_nil_cons
  | rel lt =>
    rw [List.compareLex_cons_cons, Std.compare_eq_lt.2 lt]
    rfl
  | @cons x _ _ _ ih =>
    have same : compare x x = .eq := Std.ReflCmp.compare_self
    rw [List.compareLex_cons_cons, same, Ordering.eq_then, ih]

namespace Text

/-- The digits of a number: at least one, and as many zeros in front as one likes. -/
structure Numeral (digits : List Char) (n : Nat) : Prop where
  nonempty : digits ≠ []
  decimal : ∀ c ∈ digits, c.isDigit = true
  value : Nat.ofDigitChars 10 digits 0 = n

variable {digits ds es : List Char} {n : Nat}

theorem Numeral.not_mark (numeral : Numeral digits n) : ∀ c ∈ digits, (c != '#') = true := by
  intro c hc
  have digit := numeral.decimal c hc
  rw [bne_iff_ne]
  rintro rfl
  cases digit

/-- Of two numerals of one length the one with the smaller number comes first, whatever stands
behind them. -/
theorem append_lt_append (hds : ∀ c ∈ ds, c.isDigit = true) (hes : ∀ c ∈ es, c.isDigit = true)
    (width : ds.length = es.length)
    (lt : Nat.ofDigitChars 10 ds 0 < Nat.ofDigitChars 10 es 0) (xs ys : List Char) :
    ds ++ xs < es ++ ys := by
  induction ds generalizing es with
  | nil =>
    obtain rfl := List.length_eq_zero_iff.1 width.symm
    exact absurd lt (Nat.lt_irrefl _)
  | cons d ds ih =>
    cases es with
    | nil => cases width
    | cons e es =>
      obtain ⟨-, restDs⟩ := List.forall_mem_cons.1 hds
      obtain ⟨he, restEs⟩ := List.forall_mem_cons.1 hes
      have widths : ds.length = es.length := Nat.succ.inj width
      have low := (Time.toNat_of_isDigit he).1
      have small := Time.ofDigitChars_lt restEs
      rw [Nat.ofDigitChars_cons, Nat.ofDigitChars_cons, Nat.ofDigitChars_eq_ofDigitChars_zero,
        Nat.ofDigitChars_eq_ofDigitChars_zero (l := es), widths] at lt
      -- a smaller number has no greater first digit, for all others together count less than one
      have le : d.toNat ≤ e.toNat := by
        by_contra gt
        have step : 10 ^ es.length * (e.toNat - 48 + 1) ≤ 10 ^ es.length * (d.toNat - 48) :=
          Nat.mul_le_mul_left _ (by omega)
        simp only [Nat.mul_zero, Nat.zero_add, Char.reduceToNat, Nat.mul_add, Nat.mul_one]
          at lt step
        omega
      rcases Nat.lt_or_eq_of_le le with first | same
      · exact List.Lex.rel first
      · obtain rfl : e = d := Char.toNat_inj.1 same.symm
        exact List.cons_lt_cons_self.2 (ih restDs restEs widths (Nat.lt_of_add_lt_add_left lt))

end Text

namespace Priority

variable {p q : Priority} {cs : List Char}

theorem ofNat_toNat (p : Priority) : ofNat p.toNat = p := by
  cases p
  simp [ofNat, toNat]

theorem toNat_ofNat {n : Nat} (h : n < UInt64.size) : (ofNat n).toNat = n :=
  UInt64.toNat_ofNat_of_lt' h

theorem toNat_lt (p : Priority) : p.toNat < UInt64.size := p.value.toNat_lt

/-- Priorities compare as numbers. -/
theorem compare_eq_lt_iff : compare p q = .lt ↔ p.toNat < q.toNat :=
  (Std.compare_eq_lt (a := p.value) (b := q.value)).trans UInt64.lt_iff_toNat_lt

/-- Exactly the numerals of 64-bit numbers are tokens. -/
theorem ofTokenChars?_eq_some_iff : ofTokenChars? cs = some p ↔ Text.Numeral cs p.toNat := by
  have value : digitsValue cs = Nat.ofDigitChars 10 cs 0 := Text.foldl_digits cs
  constructor
  · intro read
    unfold ofTokenChars? at read
    split at read
    · cases read
    next shape =>
    obtain ⟨nonempty, decimal⟩ : cs ≠ [] ∧ ∀ c ∈ cs, c.isDigit = true := by simpa using shape
    dsimp only at read
    split at read
    · next fits =>
      obtain rfl := Option.some.inj read
      exact ⟨nonempty, decimal, by rw [toNat_ofNat fits, value]⟩
    · cases read
  · intro numeral
    have nonempty : cs.isEmpty = false := List.isEmpty_eq_false_iff.2 numeral.nonempty
    have decimal : cs.all Char.isDigit = true := List.all_eq_true.2 numeral.decimal
    simp [ofTokenChars?, nonempty, decimal, value, numeral.value, p.toNat_lt, ofNat_toNat]

/-- A written token is the number in twenty digits. -/
theorem numeral_tokenChars (p : Priority) : Text.Numeral p.tokenChars p.toNat :=
  ⟨Time.padded_ne_nil _ _, fun _ => Time.isDigit_of_mem_padded, Time.ofDigitChars_padded _ _⟩

theorem length_tokenChars (p : Priority) : p.tokenChars.length = tokenWidth :=
  Time.length_padded (by decide) (Nat.lt_trans p.toNat_lt (by decide))

end Priority

/-- Workers compare by the bytes of their identifiers. -/
theorem WorkerId.compare_eq_lt_iff {v w : WorkerId} :
    compare v w = .lt ↔ Bytes.ofText v.text < Bytes.ofText w.text :=
  compareOfLessAndEq_eq_lt.trans Bytes.ofText_lt_iff.symm

namespace SortKey

variable {s : String} {k : SortKey} {p q : Priority} {v w : WorkerId}

/-- A key that names its worker, if it is that of a waiter. -/
def Named : SortKey → Prop
  | .holder => True
  | .waiting _ w => w.text ≠ ""

/-- The texts that are keys, and which keys they are. What stands behind the first `#` may hold
others. -/
inductive Spells : String → SortKey → Prop
  | holder : Spells "HOLDER" .holder
  | waiting {digits : List Char} {p : Priority} {rest : String}
      (number : Text.Numeral digits p.toNat) (named : rest ≠ "") :
      Spells (String.ofList digits ++ "#" ++ rest) (.waiting p ⟨rest⟩)

theorem display_waiting (p : Priority) (w : WorkerId) :
    (waiting p w).display = String.ofList p.tokenChars ++ "#" ++ w.text := by
  apply String.toList_injective
  simp [display, chars]

/-- The key of a waiter starts with a digit and is not taken for that of the holder. -/
theorem append_ne_holderChars {digits : List Char} {n : Nat} (numeral : Text.Numeral digits n)
    (cs : List Char) : digits ++ cs ≠ holderChars := by
  obtain ⟨d, ds, rfl⟩ := List.exists_cons_of_ne_nil numeral.nonempty
  have digit := numeral.decimal d List.mem_cons_self
  rintro same
  obtain rfl : d = 'H' := (List.cons.inj same).1
  cases digit

theorem spells_of_ofText? (read : ofText? s = some k) : Spells s k := by
  rw [ofText?, ofChars?] at read
  split at read
  · next same =>
    obtain rfl := Option.some.inj read
    obtain rfl : s = "HOLDER" := String.toList_injective same
    exact .holder
  · split at read
    · next token mark worker parts =>
      rw [List.span_eq_takeWhile_dropWhile, Prod.mk.injEq] at parts
      obtain ⟨front, behind⟩ := parts
      have isMark : mark = '#' := by
        have := List.head?_dropWhile_not (· != '#') s.toList
        simpa [behind] using this
      have whole : s = String.ofList token ++ "#" ++ String.ofList worker := by
        apply String.toList_injective
        rw [← List.takeWhile_append_dropWhile (p := (· != '#')) (l := s.toList), front, behind,
          isMark]
        simp
      split at read
      · cases read
      · next named =>
        obtain ⟨p, number, rfl⟩ := Option.map_eq_some_iff.1 read
        rw [whole]
        refine .waiting (Priority.ofTokenChars?_eq_some_iff.1 number) fun nobody => named ?_
        simpa using nobody
    · cases read

theorem ofText?_of_spells (spells : Spells s k) : ofText? s = some k := by
  cases spells with
  | holder => rfl
  | @waiting digits p rest number named =>
    have chars : (String.ofList digits ++ "#" ++ rest).toList = digits ++ '#' :: rest.toList := by
      simp
    have parts : (digits ++ '#' :: rest.toList).span (· != '#') = (digits, '#' :: rest.toList) := by
      rw [List.span_eq_takeWhile_dropWhile, List.takeWhile_append_of_pos number.not_mark,
        List.dropWhile_append_of_pos number.not_mark]
      simp
    have named : rest.toList.isEmpty = false := by simpa using named
    rw [ofText?, chars, ofChars?, if_neg (append_ne_holderChars number _), parts]
    simp [named, Priority.ofTokenChars?_eq_some_iff.2 number]

theorem ofText?_eq_some_iff : ofText? s = some k ↔ Spells s k :=
  ⟨spells_of_ofText?, ofText?_of_spells⟩

example : ofText? "007#w#1" = some (.waiting ⟨7⟩ ⟨"w#1"⟩) := by decide

/-- A written key is read as itself exactly if it names somebody. -/
theorem ofText?_display_iff : ofText? k.display = some k ↔ k.Named := by
  rw [ofText?_eq_some_iff]
  cases k with
  | holder => exact ⟨fun _ => trivial, fun _ => .holder⟩
  | waiting p w =>
    constructor
    · generalize (waiting p w).display = s
      rintro ⟨⟩
      assumption
    · intro named
      rw [display_waiting]
      exact .waiting p.numeral_tokenChars named

/-- A waiter that goes before another is written before it. -/
theorem display_lt (lt : compare (waiting p v) (waiting q w) = .lt) :
    (waiting p v).display < (waiting q w).display := by
  change (compare p q).then (compare v w) = .lt at lt
  rw [String.lt_iff, display, display, String.toList_ofList, String.toList_ofList]
  rcases Ordering.then_eq_lt.1 lt with first | ⟨same, second⟩
  · have width := p.length_tokenChars.trans q.length_tokenChars.symm
    have numbers := Priority.compare_eq_lt_iff.1 first
    have numeralP := p.numeral_tokenChars
    have numeralQ := q.numeral_tokenChars
    refine Text.append_lt_append numeralP.decimal numeralQ.decimal width ?_ _ _
    rwa [numeralP.value, numeralQ.value]
  · obtain rfl := Std.LawfulEqOrd.eq_of_compare same
    have texts := Bytes.ofText_lt_iff.1 (WorkerId.compare_eq_lt_iff.1 second)
    exact List.append_left_lt (List.cons_lt_cons_self.2 (String.lt_iff.1 texts))

/-- The bytes of written waiters compare as the waiters. -/
theorem compare_display (p q : Priority) (v w : WorkerId) :
    compare (Bytes.ofText (waiting p v).display) (Bytes.ofText (waiting q w).display) =
      compare (waiting p v) (waiting q w) := by
  have bytes_lt {p q : Priority} {v w : WorkerId}
      (lt : compare (waiting p v) (waiting q w) = .lt) :
      compare (Bytes.ofText (waiting p v).display) (Bytes.ofText (waiting q w).display) = .lt :=
    Bytes.compare_eq_lt (Bytes.ofText_lt_iff.2 (display_lt lt))
  cases order : compare (waiting p v) (waiting q w) with
  | lt => exact bytes_lt order
  | eq =>
    rw [Std.LawfulEqOrd.eq_of_compare order]
    exact Std.ReflCmp.compare_self
  | gt => exact Std.OrientedCmp.gt_of_lt (bytes_lt (Std.OrientedCmp.lt_of_gt order))

/-- The written form of keys says which key it is and in which order it stands. -/
theorem text_faithful :
    -- written keys are read back
    (∀ k : SortKey, ofText? k.display = some k ↔ k.Named) ∧
    -- waiters and their texts, byte by byte, have the same order
      (∀ p q v w,
        compare (Bytes.ofText (waiting p v).display) (Bytes.ofText (waiting q w).display) =
          compare (waiting p v) (waiting q w)) ∧
    -- what is read, and as what
      (∀ s k, ofText? s = some k ↔ Spells s k) ∧
      ∀ s, (ofText? s).isSome = true ↔ s = "HOLDER" ∨
        ∃ digits n rest, s = String.ofList digits ++ "#" ++ rest ∧ Text.Numeral digits n ∧
          n ≤ 2 ^ 64 - 1 ∧ rest ≠ "" := by
  refine ⟨fun k => ofText?_display_iff, compare_display, fun s k => ofText?_eq_some_iff, ?_⟩
  intro s
  rw [Option.isSome_iff_exists]
  constructor
  · rintro ⟨k, read⟩
    cases spells_of_ofText? read with
    | holder => exact .inl rfl
    | waiting number named =>
      exact .inr ⟨_, _, _, rfl, number, Nat.le_sub_one_of_lt (Priority.toNat_lt _), named⟩
  · rintro (rfl | ⟨digits, n, rest, rfl, number, fits, named⟩)
    · exact ⟨_, ofText?_of_spells .holder⟩
    · rw [← Priority.toNat_ofNat (Nat.lt_of_le_sub_one (by decide) fits)] at number
      exact ⟨_, ofText?_of_spells (.waiting number named)⟩

end SortKey

end Interlock
