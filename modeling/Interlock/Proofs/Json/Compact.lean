import Interlock.Json.Decode
import Interlock.Proofs.Json.Pretty

/-!
JSON that is printed without white space is read back. The trees are those of texts, truth values
and natural numbers, nested to some depth: a number literal ends where the bracket or comma behind
it stands, and the reader of the whole has more fuel than the printed text can use up. Such trees
may also be set aside by whoever reads a part of them first.
-/
namespace Interlock.Json

/-- Trees of texts, truth values and natural numbers of 64 bits, nested at most so deep. -/
inductive Plain : Nat → Value → Prop
  | bool {depth : Nat} (b : Bool) : Plain depth (.bool b)
  | nat {depth n : Nat} (small : n < UInt64.size) : Plain depth (.nat n)
  | text {depth : Nat} (s : String) : Plain depth (.text s)
  | array {depth : Nat} {items : List Value} (plain : ∀ v ∈ items, Plain depth v) :
    Plain (depth + 1) (.array items)
  | object {depth : Nat} {members : List (String × Value)}
      (plain : ∀ m ∈ members, Plain depth m.2) : Plain (depth + 1) (.object members)

/-! Setting aside. -/

theorem isKept_ofNat {n : Nat} (small : n < UInt64.size) : (Number.ofNat n).isKept = true := by
  simp [Number.isKept, Number.toWord?, Number.isInteger, Number.ofNat, ofDigits_digitsOf, small]

theorem settableItems_of_forall {depth : Nat} {items : List Value}
    (settable : ∀ v ∈ items, v.settable depth = .ok ()) : settableItems depth items = .ok () := by
  induction items with
  | nil => rfl
  | cons v vs ih =>
    rw [settableItems, settable v List.mem_cons_self]
    exact ih fun w mem => settable w (List.mem_cons_of_mem v mem)

theorem settableMembers_of_forall {depth : Nat} {members : List (String × Value)}
    (settable : ∀ m ∈ members, m.2.settable depth = .ok ()) :
    settableMembers depth members = .ok () := by
  induction members with
  | nil => rfl
  | cons m ms ih =>
    rw [settableMembers, settable m List.mem_cons_self]
    exact ih fun w mem => settable w (List.mem_cons_of_mem m mem)

/-- Plain trees may be set aside. -/
theorem Plain.settable {depth : Nat} {v : Value} (plain : Plain depth v) :
    v.settable depth = .ok () := by
  induction plain with
  | bool b => rfl
  | nat small => exact if_pos (isKept_ofNat small)
  | text s => rfl
  | array plain ih => exact settableItems_of_forall ih
  | object plain ih => exact settableMembers_of_forall ih

/-! Printing. -/

namespace Value

/-- What is printed behind an item of an array, the items after it included. -/
def afterItem : List Value → List Char
  | [] => [']']
  | v :: vs => ',' :: charsOfItems (v :: vs)

theorem charsOfItems_cons (v : Value) (vs : List Value) :
    charsOfItems (v :: vs) = v.chars ++ afterItem vs := by
  cases vs <;> rfl

/-- What is printed behind a member of an object, the members after it included. -/
def afterMember : List (String × Value) → List Char
  | [] => ['\x7d']
  | m :: ms => ',' :: charsOfMembers (m :: ms)

theorem charsOfMembers_cons (m : String × Value) (ms : List (String × Value)) :
    charsOfMembers (m :: ms) = renderText m.1 ++ ':' :: (m.2.chars ++ afterMember ms) := by
  cases ms <;> simp [charsOfMembers, afterMember]

theorem chars_nat (n : Nat) : (Value.nat n).chars = digitsOf n := by
  simp [Value.nat, chars, Number.render, Number.ofNat]

end Value

/-- A plain tree starts with a character that is neither white space nor a bracket that closes. -/
theorem Plain.starts {depth : Nat} {v : Value} (plain : Plain depth v) :
    ∃ c tail, v.chars = c :: tail ∧ isSpace c = false ∧ c ≠ ']' := by
  cases plain with
  | bool b => cases b <;> exact ⟨_, _, rfl, rfl, by decide⟩
  | nat small =>
    obtain ⟨d, ds, digits, isDigit⟩ := digitsOf_eq_cons _
    refine ⟨d, ds, (Value.chars_nat _).trans digits, isSpace_of_isDigit isDigit, ?_⟩
    rintro rfl
    cases isDigit
  | text s => exact ⟨_, _, rfl, rfl, by decide⟩
  | array plain => exact ⟨_, _, rfl, rfl, by decide⟩
  | object plain => exact ⟨_, _, rfl, rfl, by decide⟩

/-! Reading. -/

/-- A tree is read where it is printed, with fuel for two readers a character. -/
def ReadsBack (v : Value) : Prop :=
  ∀ fuel rest, 2 * v.chars.length ≤ fuel → EndsNumber rest →
    readValue fuel (v.chars ++ rest) = .ok (v, rest)

theorem readAnyText_renderText (s : String) (rest : List Char) :
    readAnyText (s.toList.flatMap escapedChar ++ '"' :: rest) = .ok (some s, rest) := by
  simp [readAnyText, readText_renderText]

theorem readsBack_text (s : String) : ReadsBack (.text s) := by
  intro fuel rest enough _
  obtain ⟨fuel, rfl⟩ : ∃ k, fuel = k + 1 := Nat.exists_eq_succ_of_ne_zero (by
    simp only [Value.chars, renderText, List.length_cons] at enough
    omega)
  simp [Value.chars, renderText, readValue, skipSpace_cons (c := '"') rfl, readAnyText_renderText]

theorem readsBack_bool (b : Bool) : ReadsBack (.bool b) := by
  intro fuel rest enough _
  obtain ⟨fuel, rfl⟩ : ∃ k, fuel = k + 1 := Nat.exists_eq_succ_of_ne_zero (by
    cases b <;> simp only [Value.chars, List.length_cons] at enough <;> omega)
  cases b with
  | true => simp [Value.chars, readValue, skipSpace_cons (c := 't') rfl, readWord, Except.map]
  | false => simp [Value.chars, readValue, skipSpace_cons (c := 'f') rfl, readWord, Except.map]

/-- What starts with a digit is a number. -/
theorem readValue_digit {d : Char} (isDigit : d.isDigit = true) {cs rest : List Char} {n : Number}
    (read : readNumber .badNumber false (d :: cs) = .ok (n, rest)) (fuel : Nat) :
    readValue (fuel + 1) (d :: cs) = .ok (.number n, rest) := by
  have other {c : Char} (no : c.isDigit = false) : d ≠ c := by
    rintro rfl
    rw [isDigit] at no
    cases no
  rw [readValue, skipSpace_cons (isSpace_of_isDigit isDigit)]
  simp [other (c := 'n') rfl, other (c := 't') rfl, other (c := 'f') rfl, other (c := '"') rfl,
    other (c := '[') rfl, other (c := '\x7b') rfl, other (c := '-') rfl, isDigit, read]

theorem readsBack_nat (n : Nat) : ReadsBack (.nat n) := by
  intro fuel rest enough ends
  obtain ⟨d, ds, digits, isDigit⟩ := digitsOf_eq_cons n
  have read := readNumber_digitsOf n ends .badNumber
  rw [Value.chars_nat, digits] at enough ⊢
  obtain ⟨fuel, rfl⟩ : ∃ k, fuel = k + 1 := Nat.exists_eq_succ_of_ne_zero (by
    simp only [List.length_cons] at enough
    omega)
  rw [digits] at read
  exact readValue_digit isDigit read fuel

/-- The items of an array are read from the next one on, behind those read already. -/
theorem readItems_chars {v : Value} {vs : List Value} (reads : ∀ w ∈ v :: vs, ReadsBack w)
    (rest : List Char) {fuel : Nat}
    (enough : 2 * (Value.charsOfItems (v :: vs)).length ≤ fuel) (seen : List Value) :
    readItems fuel seen (Value.charsOfItems (v :: vs) ++ rest) =
      .ok (.array (seen.reverse ++ v :: vs), rest) := by
  induction vs generalizing v fuel seen with
  | nil =>
    simp only [Value.charsOfItems, List.length_append, List.length_cons] at enough
    obtain ⟨fuel, rfl⟩ : ∃ k, fuel = k + 1 := Nat.exists_eq_succ_of_ne_zero (by omega)
    have first := reads v List.mem_cons_self fuel (']' :: rest) (by omega) (.cons (by decide))
    simp [Value.charsOfItems, readItems, first, skipSpace_cons (c := ']') rfl]
  | cons w ws ih =>
    simp only [Value.charsOfItems, List.length_append, List.length_cons] at enough
    obtain ⟨fuel, rfl⟩ : ∃ k, fuel = k + 1 := Nat.exists_eq_succ_of_ne_zero (by omega)
    have first := reads v List.mem_cons_self fuel
      (',' :: (Value.charsOfItems (w :: ws) ++ rest)) (by omega) (.cons (by decide))
    have later := ih (fun u mem => reads u (List.mem_cons_of_mem v mem))
      (show 2 * (Value.charsOfItems (w :: ws)).length ≤ fuel by omega) (v :: seen)
    simp only [Value.charsOfItems, List.append_assoc, List.cons_append, readItems, first,
      skipSpace_cons (c := ',') rfl, later, List.reverse_cons, List.nil_append]

theorem objectOf_some (members : List (String × Value)) :
    objectOf (members.map fun m => (some m.1, m.2)) = .object members := by
  have whole : (members.map fun m => (some m.1, m.2)).mapM
      (fun (m : Option String × Value) => m.1.map (·, m.2)) = some members := by
    induction members with
    | nil => rfl
    | cons m ms ih => simp [List.mapM_cons, ih]
  simp only [objectOf, whole]

/-- The members of an object are read from the next one on, behind those read already. -/
theorem readMembers_chars {m : String × Value} {ms : List (String × Value)}
    (reads : ∀ l ∈ m :: ms, ReadsBack l.2) (rest : List Char) {fuel : Nat}
    (enough : 2 * (Value.charsOfMembers (m :: ms)).length ≤ fuel) (seen : List (String × Value)) :
    readMembers fuel (seen.map fun m => (some m.1, m.2)) (Value.charsOfMembers (m :: ms) ++ rest) =
      .ok (.object (seen.reverse ++ m :: ms), rest) := by
  induction ms generalizing m fuel seen with
  | nil =>
    obtain ⟨key, v⟩ := m
    simp only [Value.charsOfMembers, List.length_append, List.length_cons] at enough
    obtain ⟨fuel, rfl⟩ : ∃ k, fuel = k + 1 := Nat.exists_eq_succ_of_ne_zero (by omega)
    have value : ReadsBack v := reads (key, v) List.mem_cons_self
    have first := value fuel ('\x7d' :: rest) (by omega) (.cons (by decide))
    have whole : objectOf ((some key, v) :: seen.map fun m => (some m.1, m.2)).reverse =
        .object (seen.reverse ++ [(key, v)]) := by
      rw [← objectOf_some]
      simp
    simp only [Value.charsOfMembers, renderText, List.append_assoc, List.cons_append,
      List.nil_append, readMembers, readAnyText_renderText, first, skipSpace_cons (c := ':') rfl,
      skipSpace_cons (c := '\x7d') rfl, whole]
  | cons l ls ih =>
    obtain ⟨key, v⟩ := m
    simp only [Value.charsOfMembers, List.length_append, List.length_cons] at enough
    obtain ⟨fuel, rfl⟩ : ∃ k, fuel = k + 1 := Nat.exists_eq_succ_of_ne_zero (by omega)
    obtain ⟨tail, quoted⟩ : ∃ tail, Value.charsOfMembers (l :: ls) ++ rest = '"' :: tail :=
      ⟨_, by rw [Value.charsOfMembers_cons]; rfl⟩
    have value : ReadsBack v := reads (key, v) List.mem_cons_self
    have first := value fuel (',' :: '"' :: tail) (by omega) (.cons (by decide))
    have later := ih (fun u mem => reads u (List.mem_cons_of_mem _ mem))
      (show 2 * (Value.charsOfMembers (l :: ls)).length ≤ fuel by omega) ((key, v) :: seen)
    rw [quoted, List.map_cons] at later
    simp only [Value.charsOfMembers, renderText, List.append_assoc, List.cons_append,
      List.nil_append, readMembers, readAnyText_renderText, quoted, first,
      skipSpace_cons (c := ':') rfl, skipSpace_cons (c := ',') rfl, skipSpace_cons (c := '"') rfl,
      later, List.reverse_cons]

theorem readsBack_array {depth : Nat} {items : List Value} (plain : ∀ v ∈ items, Plain depth v)
    (reads : ∀ v ∈ items, ReadsBack v) : ReadsBack (.array items) := by
  intro fuel rest enough _
  simp only [Value.chars, List.length_cons] at enough
  obtain ⟨fuel, rfl⟩ : ∃ k, fuel = k + 1 := Nat.exists_eq_succ_of_ne_zero (by omega)
  rw [Value.chars, List.cons_append, readValue, skipSpace_cons rfl]
  cases items with
  | nil => rfl
  | cons v vs =>
    have items := readItems_chars reads rest
      (show 2 * (Value.charsOfItems (v :: vs)).length ≤ fuel by omega) []
    -- the first item does not close the array
    obtain ⟨c, tail, starts, dark, opens⟩ := (plain v List.mem_cons_self).starts
    rw [Value.charsOfItems_cons, starts, List.cons_append, List.cons_append] at items ⊢
    simp only [skipSpace_cons dark]
    split
    · next closes =>
      cases closes
      exact absurd rfl opens
    · next none => cases none
    · exact items

theorem readsBack_object {members : List (String × Value)} (reads : ∀ m ∈ members, ReadsBack m.2) :
    ReadsBack (.object members) := by
  intro fuel rest enough _
  simp only [Value.chars, List.length_cons] at enough
  obtain ⟨fuel, rfl⟩ : ∃ k, fuel = k + 1 := Nat.exists_eq_succ_of_ne_zero (by omega)
  rw [Value.chars, List.cons_append, readValue, skipSpace_cons rfl]
  cases members with
  | nil => rfl
  | cons m ms =>
    have members := readMembers_chars reads rest
      (show 2 * (Value.charsOfMembers (m :: ms)).length ≤ fuel by omega) []
    obtain ⟨tail, quoted⟩ : ∃ tail, Value.charsOfMembers (m :: ms) ++ rest = '"' :: tail :=
      ⟨_, by rw [Value.charsOfMembers_cons]; rfl⟩
    rw [quoted] at members ⊢
    simp only [skipSpace_cons (c := '"') rfl]
    exact members

/-- Plain trees are read back. -/
theorem Plain.readsBack {depth : Nat} {v : Value} (plain : Plain depth v) : ReadsBack v := by
  induction plain with
  | bool b => exact readsBack_bool b
  | nat small => exact readsBack_nat _
  | text s => exact readsBack_text s
  | array plain ih => exact readsBack_array plain ih
  | object plain ih => exact readsBack_object ih

/-- A plain tree that is printed as a whole text is read as itself. -/
theorem Plain.read_render {depth : Nat} {v : Value} (plain : Plain depth v) :
    read v.render = .ok v := by
  have whole := plain.readsBack (fuelFor v.chars.length) [] (by simp only [fuelFor]; omega) .nil
  rw [List.append_nil] at whole
  rw [read, Value.render, String.toList_ofList, readChars, whole]
  rfl

end Interlock.Json
