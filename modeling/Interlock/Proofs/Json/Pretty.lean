import Interlock.Json.Printer
import Interlock.Json.Typed
import Interlock.Proofs.Text.Digits

/-!
Printed JSON is read back. A reader takes up a value where `renderPretty` has put it, behind any
white space, and stops right behind it: texts with all their escapes, natural numbers, arrays whose
items are read in turn, and objects whose members a layout takes up one by one.
-/
namespace Interlock.Json

/-! Texts. -/

theorem readText_quote (seen rest : List Char) :
    readText seen none ('"' :: rest) = .ok (String.ofList seen.reverse, rest) := by
  unfold readText
  rfl

theorem readText_short {e c : Char} (he : shortEscape? e = some c) (seen rest : List Char) :
    readText seen none ('\\' :: e :: rest) = readText (c :: seen) none rest := by
  have hu : e ≠ 'u' := by
    rintro rfl
    cases he
  rw [readText.eq_def]
  simp [hu, he]

theorem readText_plain {c : Char} (hq : c ≠ '"') (hb : c ≠ '\\') (hc : ¬ c.toNat < 0x20)
    (seen rest : List Char) :
    readText seen none (c :: rest) = readText (c :: seen) none rest := by
  rw [readText.eq_def]
  simp [hb, hc]

theorem hexValue4?_control {n : Nat} (h : n < 0x20) :
    hexValue4? '0' '0' (Text.hexDigit (n / 16)) (Text.hexDigit (n % 16)) = some n := by
  revert n
  decide

theorem readText_control {n : Nat} (h : n < 0x20) (seen rest : List Char) :
    readText seen none
        ('\\' :: 'u' :: '0' :: '0' :: Text.hexDigit (n / 16) :: Text.hexDigit (n % 16) :: rest) =
      readText (Char.ofNat n :: seen) none rest := by
  have ht : isTrailing n = false := by simp [isTrailing]; omega
  have hl : isLeading n = false := by simp [isLeading]; omega
  rw [readText.eq_def]
  simp [hexValue4?_control h, ht, hl]

theorem readText_escapedChar (c : Char) (seen rest : List Char) :
    readText seen none (escapedChar c ++ rest) = readText (c :: seen) none rest := by
  unfold escapedChar
  split
  · exact readText_short rfl seen rest
  · exact readText_short rfl seen rest
  · exact readText_short rfl seen rest
  · exact readText_short rfl seen rest
  · exact readText_short rfl seen rest
  · exact readText_short rfl seen rest
  · exact readText_short rfl seen rest
  · split
    · next h => simpa using readText_control h seen rest
    · next h => exact readText_plain ‹_› ‹_› h seen rest

theorem readText_flatMap (cs seen rest : List Char) :
    readText seen none (cs.flatMap escapedChar ++ rest) =
      readText (cs.reverse ++ seen) none rest := by
  induction cs generalizing seen with
  | nil => rfl
  | cons c cs ih =>
    rw [List.flatMap_cons, List.append_assoc, readText_escapedChar, ih]
    simp

/-- A printed text is read as itself. -/
theorem readText_renderText (s : String) (rest : List Char) :
    readText [] none (s.toList.flatMap escapedChar ++ '"' :: rest) = .ok (s, rest) := by
  rw [readText_flatMap, readText_quote]
  simp

/-! Numbers. -/

theorem isDigit_of_isSpace {c : Char} (h : isSpace c = true) : c.isDigit = false := by
  simp only [isSpace, Bool.or_eq_true, beq_iff_eq] at h
  rcases h with ((rfl | rfl) | rfl) | rfl <;> rfl

theorem isSpace_of_isDigit {c : Char} (h : c.isDigit = true) : isSpace c = false := by
  cases hs : isSpace c with
  | false => rfl
  | true => exact absurd h (by simp [isDigit_of_isSpace hs])

/-- What may stand behind a value that is printed: nothing, a comma or white space. -/
def Follows (rest : List Char) : Prop := ∀ c ∈ rest.head?, c = ',' ∨ isSpace c = true

/-- What ends a number literal without fraction and exponent: no further digit, and neither of the
two. -/
def EndsNumber (rest : List Char) : Prop :=
  ∀ c ∈ rest.head?, c.isDigit = false ∧ c ≠ '.' ∧ c ≠ 'e' ∧ c ≠ 'E'

theorem EndsNumber.cons {c : Char} {rest : List Char}
    (ends : c.isDigit = false ∧ c ≠ '.' ∧ c ≠ 'e' ∧ c ≠ 'E') : EndsNumber (c :: rest) := by
  rintro _ ⟨⟩
  exact ends

theorem EndsNumber.nil : EndsNumber [] := nofun

theorem EndsNumber.endsDigits {rest : List Char} (h : EndsNumber rest) : Text.EndsDigits rest :=
  fun c hc => (h c hc).1

theorem Follows.endsNumber {rest : List Char} (h : Follows rest) : EndsNumber rest := by
  intro c hc
  rcases h c hc with rfl | hs
  · decide
  · refine ⟨isDigit_of_isSpace hs, ?_⟩
    simp only [isSpace, Bool.or_eq_true, beq_iff_eq] at hs
    rcases hs with ((rfl | rfl) | rfl) | rfl <;> decide

theorem readNumber_digitsOf (n : Nat) {rest : List Char} (h : EndsNumber rest)
    (atEnd : FaultKind) :
    readNumber atEnd false (digitsOf n ++ rest) = .ok (.ofNat n, rest) := by
  have htake := Text.takeWhile_digits (fun _ => isDigit_of_mem_digitsOf (n := n)) h.endsDigits
  have hdrop := Text.dropWhile_digits (fun _ => isDigit_of_mem_digitsOf (n := n)) h.endsDigits
  have hhead : (rest.head?.map Char.isDigit).getD false = false := by
    cases rest with
    | nil => rfl
    | cons c rest => exact h.endsDigits c rfl
  unfold readNumber Number.ofNat
  -- Behind a lone zero no digit may stand; otherwise the reader takes all digits there are.
  rcases digitsOf_cases n with h0 | ⟨d, ds, hds, hd⟩
  · rw [h0]
    simp only [List.cons_append, List.nil_append, hhead, bind, Except.bind]
    cases rest with
    | nil => rfl
    | cons c rest =>
      obtain ⟨-, hdot, he, hE⟩ := h c rfl
      simp [hdot, he, hE]
  · generalize hcs : digitsOf n ++ rest = cs at htake hdrop ⊢
    split
    · rw [hds] at hcs
      cases hcs
      exact absurd rfl hd
    · simp only [htake, hdrop, hds, bind, Except.bind]
      cases rest with
      | nil => rfl
      | cons c rest =>
        obtain ⟨-, hdot, he, hE⟩ := h c rfl
        simp [hdot, he, hE]

/-! Readers. -/

/-- What starts a printed value that is not `null`. -/
def Opens (cs : List Char) : Prop :=
  ∃ c tail, cs = c :: tail ∧ isSpace c = false ∧ c ≠ 'n' ∧ c ≠ ']'

/-- A reader takes up a value where it is printed, with any white space in front of it, and stops
right behind it. -/
def Reads {α : Type} (r : Reader α) (cs : List Char) (a : α) : Prop :=
  ∀ space rest, (∀ c ∈ space, isSpace c = true) → Follows rest →
    r (space ++ (cs ++ rest)) = .ok (a, rest)

theorem skipSpace_append {space : List Char} (h : ∀ c ∈ space, isSpace c = true) (cs : List Char) :
    skipSpace (space ++ cs) = skipSpace cs :=
  List.dropWhile_append_of_pos h

theorem skipSpace_cons {c : Char} (h : isSpace c = false) (cs : List Char) :
    skipSpace (c :: cs) = c :: cs :=
  List.dropWhile_cons_of_neg (by simp [h])

theorem isSpace_of_mem_newLine (depth : Nat) : ∀ c ∈ Value.newLine depth, isSpace c = true := by
  intro c h
  rcases List.mem_cons.1 h with rfl | h
  · rfl
  · rw [(List.mem_replicate.1 h).2]
    rfl

theorem Follows.cons_comma (rest : List Char) : Follows (',' :: rest) := by
  rintro _ ⟨⟩
  exact .inl rfl

theorem Follows.newLine (depth : Nat) (rest : List Char) :
    Follows (Value.newLine depth ++ rest) := by
  rintro _ ⟨⟩
  exact .inr rfl

theorem opens_renderText (s : String) : Opens (renderText s) :=
  ⟨'"', _, rfl, rfl, by decide, by decide⟩

theorem Value.prettyChars_nat (depth n : Nat) : (Value.nat n).prettyChars depth = digitsOf n := by
  simp [Value.nat, Value.prettyChars, Number.render, Number.ofNat]

theorem opens_nat (depth n : Nat) : Opens ((Value.nat n).prettyChars depth) := by
  obtain ⟨d, ds, hds, hd⟩ := digitsOf_eq_cons n
  rw [Value.prettyChars_nat]
  refine ⟨d, ds, hds, isSpace_of_isDigit hd, ?_, ?_⟩ <;> rintro rfl <;> cases hd

namespace Reads

/-- What is read may be put into a place. -/
theorem map {α β : Type} {r : Reader α} {cs : List Char} {a : α} (h : Reads r cs a) (f : α → β) :
    Reads (fun cs => (r cs).map fun (a, rest) => (f a, rest)) cs (f a) := by
  intro space rest hspace hrest
  simp only [h space rest hspace hrest, Except.map]

/-- A text is read as it is printed. -/
theorem text (s : String) : Reads Reader.text (renderText s) s := by
  intro space rest hspace _
  unfold Reader.text
  rw [skipSpace_append hspace]
  simp only [renderText, List.cons_append, List.append_assoc, List.nil_append,
    skipSpace_cons (c := '"') rfl, readText_renderText]

/-- A natural number is read as it is printed, if it is below the bound asked for. -/
theorem natural {n bound : Nat} (kind : String) (depth : Nat) (hn : n < bound)
    (hb : bound ≤ UInt64.size) :
    Reads (Reader.natural bound kind) ((Value.nat n).prettyChars depth) n := by
  intro space rest hspace hrest
  obtain ⟨d, ds, hds, hd⟩ := digitsOf_eq_cons n
  have hminus : d ≠ '-' := by
    rintro rfl
    cases hd
  have hread := readNumber_digitsOf n hrest.endsNumber .endInValue
  have hnumeral : (Number.ofNat n).numeral? = some (.natural n) := by
    have hsize := Nat.lt_of_lt_of_le hn hb
    simp [Number.numeral?, Number.isInteger, Number.ofNat, ofDigits_digitsOf, hsize]
  rw [hds] at hread
  unfold Reader.natural readNumeral
  simp only [Value.prettyChars_nat, hds, skipSpace_append hspace, List.cons_append,
    skipSpace_cons (isSpace_of_isDigit hd)] at hread ⊢
  simp [startsNumber, hd, hminus, hread, hnumeral, bind, Except.bind, hn, pure, Except.pure]

theorem parsed {α : Type} {parse : String → Except String α} {s : String} {a : α}
    (h : parse s = .ok a) : Reads (Reader.parsed parse) (renderText s) a := by
  intro space rest hspace hrest
  simp only [Reader.parsed, text s space rest hspace hrest, h]

/-- An optional value that is there is no `null`. -/
theorem optional {α : Type} {r : Reader α} {cs : List Char} {a : α} (h : Reads r cs a)
    (ho : Opens cs) : Reads r.optional cs (some a) := by
  intro space rest hspace hrest
  obtain ⟨c, tail, rfl, hc, hn, -⟩ := ho
  have hread := h [] rest (by simp) hrest
  unfold Reader.optional
  rw [skipSpace_append hspace, List.cons_append, skipSpace_cons hc]
  simp only [List.nil_append, List.cons_append] at hread
  simp [hn, hread, Except.map]

end Reads

/-! Arrays and objects as they are printed. -/

namespace Value

/-- What is printed behind an item of an array, the items after it included. -/
def behindItem (depth : Nat) : List Value → List Char
  | [] => newLine depth ++ [']']
  | v :: vs => ',' :: prettyItems depth (v :: vs)

theorem prettyItems_cons (depth : Nat) (v : Value) (vs : List Value) :
    prettyItems depth (v :: vs) =
      newLine (depth + 1) ++ (prettyChars (depth + 1) v ++ behindItem depth vs) := by
  cases vs <;> simp [prettyItems, behindItem]

theorem prettyChars_array_cons (depth : Nat) (v : Value) (vs : List Value) :
    prettyChars depth (.array (v :: vs)) =
      '[' :: (newLine (depth + 1) ++ (prettyChars (depth + 1) v ++ behindItem depth vs)) := by
  rw [prettyChars, prettyItems_cons]
  simp

theorem behindItem_cons (depth : Nat) (v : Value) (vs : List Value) :
    behindItem depth (v :: vs) =
      ',' :: (newLine (depth + 1) ++ (prettyChars (depth + 1) v ++ behindItem depth vs)) :=
  congrArg _ (prettyItems_cons depth v vs)

/-- What is printed behind a member of an object, the members after it included. -/
def behindMember (depth : Nat) : List (String × Value) → List Char
  | [] => newLine depth ++ ['\x7d']
  | m :: ms => ',' :: prettyMembers depth (m :: ms)

theorem prettyMembers_cons (depth : Nat) (key : String) (v : Value)
    (ms : List (String × Value)) :
    prettyMembers depth ((key, v) :: ms) =
      newLine (depth + 1) ++
        (renderText key ++ ':' :: ' ' :: (prettyChars (depth + 1) v ++ behindMember depth ms)) := by
  cases ms <;> simp [prettyMembers, behindMember]

theorem prettyChars_object_cons (depth : Nat) (key : String) (v : Value)
    (ms : List (String × Value)) :
    prettyChars depth (.object ((key, v) :: ms)) =
      '\x7b' :: (newLine (depth + 1) ++ (renderText key ++
        ':' :: ' ' :: (prettyChars (depth + 1) v ++ behindMember depth ms))) := by
  rw [prettyChars, prettyMembers_cons]
  simp

theorem behindMember_cons (depth : Nat) (key : String) (v : Value) (ms : List (String × Value)) :
    behindMember depth ((key, v) :: ms) =
      ',' :: (newLine (depth + 1) ++ (renderText key ++
        ':' :: ' ' :: (prettyChars (depth + 1) v ++ behindMember depth ms))) :=
  congrArg _ (prettyMembers_cons depth key v ms)

theorem follows_behindItem (depth : Nat) (vs : List Value) (rest : List Char) :
    Follows (behindItem depth vs ++ rest) := by
  cases vs with
  | nil => simpa [behindItem] using Follows.newLine depth _
  | cons v vs => exact .cons_comma _

theorem follows_behindMember (depth : Nat) (ms : List (String × Value)) (rest : List Char) :
    Follows (behindMember depth ms ++ rest) := by
  cases ms with
  | nil => simpa [behindMember] using Follows.newLine depth _
  | cons m ms => exact .cons_comma _

theorem length_lt_behindItem (depth : Nat) (vs : List Value) :
    vs.length < (behindItem depth vs).length := by
  induction vs with
  | nil => simp [behindItem]
  | cons v vs ih =>
    rw [behindItem_cons]
    simp only [List.length_cons, List.length_append]
    omega

theorem length_lt_behindMember (depth : Nat) (ms : List (String × Value)) :
    ms.length < (behindMember depth ms).length := by
  induction ms with
  | nil => simp [behindMember]
  | cons m ms ih =>
    rw [behindMember_cons]
    simp only [List.length_cons, List.length_append]
    omega

end Value

/-! Arrays. -/

namespace Reader

variable {α : Type} {r : Reader α}

theorem nextItem_first {depth : Nat} {cs : List Char} (ho : Opens cs) (rest : List Char) :
    nextItem true (Value.newLine depth ++ (cs ++ rest)) = .ok (some (cs ++ rest)) := by
  obtain ⟨c, tail, rfl, hc, -, hb⟩ := ho
  unfold nextItem
  rw [skipSpace_append (isSpace_of_mem_newLine depth), List.cons_append, skipSpace_cons hc]
  simp

theorem nextItem_later {depth : Nat} {cs : List Char} (ho : Opens cs) (rest : List Char) :
    nextItem false (',' :: (Value.newLine depth ++ (cs ++ rest))) = .ok (some (cs ++ rest)) := by
  obtain ⟨c, tail, rfl, hc, -, hb⟩ := ho
  unfold nextItem
  rw [skipSpace_cons (c := ',') rfl]
  simp [skipSpace_append (isSpace_of_mem_newLine depth), skipSpace_cons hc, hb]

theorem items_close (fuel : Nat) (seen : List α) {space : List Char}
    (h : ∀ c ∈ space, isSpace c = true) (rest : List Char) :
    items r (fuel + 1) seen (space ++ ']' :: rest) = .ok (seen.reverse, rest) := by
  have hskip : skipSpace (space ++ ']' :: rest) = ']' :: rest :=
    (skipSpace_append h _).trans (skipSpace_cons rfl _)
  simp [items, nextItem, closeArray, hskip, Except.map]

/-- The items behind one that has been read are read one after the other. -/
theorem items_behindItem {write : α → Value} {depth : Nat} {as : List α}
    (h : ∀ a ∈ as, Reads r ((write a).prettyChars (depth + 1)) a ∧
      Opens ((write a).prettyChars (depth + 1))) (rest : List Char) {fuel : Nat} {seen : List α}
    (hseen : seen ≠ []) (hfuel : as.length < fuel) :
    items r fuel seen (Value.behindItem depth (as.map write) ++ rest) =
      .ok (seen.reverse ++ as, rest) := by
  induction as generalizing fuel seen with
  | nil =>
    obtain ⟨fuel, rfl⟩ := Nat.exists_eq_succ_of_ne_zero (Nat.ne_of_gt hfuel)
    simpa [Value.behindItem] using
      items_close fuel seen (isSpace_of_mem_newLine depth) rest
  | cons a as ih =>
    obtain ⟨fuel, rfl⟩ := Nat.exists_eq_add_of_lt hfuel
    obtain ⟨hread, hopen⟩ := h a List.mem_cons_self
    have hitem := hread [] (Value.behindItem depth (as.map write) ++ rest) (by simp)
      (Value.follows_behindItem _ _ _)
    have hrest : items r (as.length + 1 + fuel) (a :: seen) _ = .ok (_, rest) :=
      ih (fun b hb => h b (List.mem_cons_of_mem _ hb)) (by simp) (by omega)
    have hfirst : seen.isEmpty = false := by simpa using hseen
    simp only [List.nil_append] at hitem
    simp only [List.map_cons, Value.behindItem_cons, List.length_cons, List.cons_append,
      List.append_assoc, items, hfirst, nextItem_later hopen, hitem, hrest]
    simp

end Reader

/-- An array is read as the items it was written for, if each of them is. -/
theorem Reads.list {α : Type} {r : Reader α} {write : α → Value} {depth : Nat} {as : List α}
    (h : ∀ a ∈ as, Reads r ((write a).prettyChars (depth + 1)) a ∧
      Opens ((write a).prettyChars (depth + 1))) :
    Reads (Reader.list r) ((Value.array (as.map write)).prettyChars depth) as := by
  intro space rest hspace hrest
  cases as with
  | nil =>
    unfold Reader.list
    rw [skipSpace_append hspace]
    exact Reader.items_close _ [] (show ∀ c ∈ [], isSpace c = true from nofun) rest
  | cons a as =>
    obtain ⟨hread, hopen⟩ := h a List.mem_cons_self
    have hitem := hread [] (Value.behindItem depth (as.map write) ++ rest) (by simp)
      (Value.follows_behindItem _ _ _)
    simp only [List.nil_append] at hitem
    unfold Reader.list
    rw [skipSpace_append hspace, List.map_cons, Value.prettyChars_array_cons, List.cons_append,
      skipSpace_cons rfl]
    simp only [List.append_assoc]
    generalize hlen : (Value.newLine (depth + 1) ++ ((write a).prettyChars (depth + 1) ++
      (Value.behindItem depth (as.map write) ++ rest))).length = length
    have hshort : as.length < 2 * length + 1 := by
      have := Value.length_lt_behindItem depth (as.map write)
      simp only [List.length_append, List.length_map] at hlen this
      omega
    have hrest := Reader.items_behindItem (fun b hb => h b (List.mem_cons_of_mem _ hb)) rest
      (List.cons_ne_nil a []) hshort
    rw [show fuelFor length = 2 * length + 1 + 1 from rfl]
    generalize 2 * length + 1 = fuel at hrest ⊢
    simp only [Reader.items, List.isEmpty_nil, Reader.nextItem_first hopen, hitem, hrest]
    simp

/-! Records. -/

namespace Layout

variable {σ : Type} {l : Layout σ}

/-- A layout takes members up one by one: each has a field that no member before it has, and is
read into the record as it is printed; and in the end no field is missing that may not be left
out. -/
inductive Takes (l : Layout σ) (depth : Nat) :
    List String → σ → List (String × Value) → σ → Prop
  | nil {seen : List String} {s : σ}
      (complete : ∀ slot ∈ l.slots, slot.omissible = true ∨ slot.name ∈ seen) :
      Takes l depth seen s [] s
  | cons {seen : List String} {s s' t : σ} {key : String} {v : Value}
      {ms : List (String × Value)} {slot : Slot σ}
      (found : l.slots.find? (·.name == key) = some slot) (fresh : key ∉ seen)
      (read : Reads (slot.read s) (v.prettyChars (depth + 1)) s')
      (rest : Takes l depth (key :: seen) s' ms t) : Takes l depth seen s ((key, v) :: ms) t

theorem nextKey_first (depth : Nat) (cs : List Char) :
    nextKey true (Value.newLine depth ++ '"' :: cs) = .ok (some cs) := by
  unfold nextKey
  rw [skipSpace_append (isSpace_of_mem_newLine depth), skipSpace_cons rfl]
  rfl

theorem nextKey_later (depth : Nat) (cs : List Char) :
    nextKey false (',' :: (Value.newLine depth ++ '"' :: cs)) = .ok (some cs) := by
  unfold nextKey
  rw [skipSpace_cons (c := ',') rfl]
  simp [skipSpace_append (isSpace_of_mem_newLine depth),
    skipSpace_cons (c := '"') rfl]

theorem closeObject_of_complete {seen : List String}
    (h : ∀ slot ∈ l.slots, slot.omissible = true ∨ slot.name ∈ seen) (cs : List Char) :
    l.closeObject seen cs = .ok ((skipSpace cs).drop 1) := by
  have : (l.slots.find? fun slot => !slot.omissible && !seen.contains slot.name) = none := by
    rw [List.find?_eq_none]
    intro slot hslot
    rcases h slot hslot with h | h <;> simp [h]
  simp only [closeObject, this]

theorem readMembers_close {seen : List String}
    (h : ∀ slot ∈ l.slots, slot.omissible = true ∨ slot.name ∈ seen) (fuel : Nat) (s : σ)
    {space : List Char} (hspace : ∀ c ∈ space, isSpace c = true) (rest : List Char) :
    l.readMembers (fuel + 1) seen s (space ++ '\x7d' :: rest) = .ok (s, rest) := by
  have hskip : skipSpace (space ++ '\x7d' :: rest) = '\x7d' :: rest :=
    (skipSpace_append hspace _).trans (skipSpace_cons rfl _)
  simp [readMembers, nextKey, closeObject_of_complete h, hskip, Except.map]

theorem readMember_printed {seen : List String} {s s' : σ} {key : String} {cs : List Char}
    {slot : Slot σ} (found : l.slots.find? (·.name == key) = some slot) (fresh : key ∉ seen)
    (read : Reads (slot.read s) cs s') {rest : List Char} (hrest : Follows rest) :
    l.readMember seen key s (':' :: ' ' :: (cs ++ rest)) = .ok (s', rest) := by
  have hread := read [' '] rest (by simp [isSpace]) hrest
  simp only [List.cons_append, List.nil_append] at hread
  simp [readMember, found, fresh, skipColon, skipSpace_cons (c := ':') rfl, hread, bind,
    Except.bind]

/-- The members behind one that has been read are read one after the other. -/
theorem Takes.readMembers_behindMember {depth : Nat} {seen : List String} {s t : σ}
    {ms : List (String × Value)} (h : l.Takes depth seen s ms t) (rest : List Char) {fuel : Nat}
    (hseen : seen ≠ []) (hfuel : ms.length < fuel) :
    l.readMembers fuel seen s (Value.behindMember depth ms ++ rest) = .ok (t, rest) := by
  induction h generalizing fuel with
  | nil complete =>
    obtain ⟨fuel, rfl⟩ := Nat.exists_eq_succ_of_ne_zero (Nat.ne_of_gt hfuel)
    simpa [Value.behindMember] using
      readMembers_close complete fuel _ (isSpace_of_mem_newLine depth) rest
  | @cons seen s s' t key v ms slot found fresh read _ ih =>
    obtain ⟨fuel, rfl⟩ := Nat.exists_eq_add_of_lt hfuel
    have hfirst : seen.isEmpty = false := by simpa using hseen
    have hmember := readMember_printed found fresh read (Value.follows_behindMember depth ms rest)
    have hrest := ih (by simp) (show ms.length < ms.length + 1 + fuel by omega)
    simp only [Value.behindMember_cons, List.length_cons, List.cons_append, List.append_assoc,
      renderText, List.nil_append, readMembers, hfirst, nextKey_later, readText_renderText, hmember,
      hrest]

end Layout

/-- An object is read as the record its members make. -/
theorem Reads.object {σ : Type} {l : Layout σ} {depth : Nat} {blank t : σ}
    {ms : List (String × Value)} (h : l.Takes depth [] blank ms t) :
    Reads (l.read blank) ((Value.object ms).prettyChars depth) t := by
  intro space rest hspace hrest
  cases h with
  | nil complete =>
    unfold Layout.read
    rw [skipSpace_append hspace]
    exact Layout.readMembers_close complete _ _ (show ∀ c ∈ [], isSpace c = true from nofun) rest
  | @cons _ _ s' _ key v ms slot found fresh read htakes =>
    have hmember :=
      Layout.readMember_printed found fresh read (Value.follows_behindMember depth ms rest)
    unfold Layout.read
    rw [skipSpace_append hspace, Value.prettyChars_object_cons, List.cons_append,
      skipSpace_cons rfl]
    simp only [List.append_assoc, renderText, List.cons_append, List.nil_append]
    generalize hlen : (Value.newLine (depth + 1) ++ '"' :: (key.toList.flatMap escapedChar ++
      '"' :: ':' :: ' ' :: (v.prettyChars (depth + 1) ++
        (Value.behindMember depth ms ++ rest)))).length = length
    have hshort : ms.length < 2 * length + 1 := by
      have := Value.length_lt_behindMember depth ms
      simp only [List.length_append, List.length_cons] at hlen
      omega
    have hrest := htakes.readMembers_behindMember rest (by simp) hshort
    rw [show fuelFor length = 2 * length + 1 + 1 from rfl]
    generalize 2 * length + 1 = fuel at hrest ⊢
    simp only [Layout.readMembers, List.isEmpty_nil, Layout.nextKey_first, readText_renderText,
      hmember, hrest]

end Interlock.Json
