import Interlock.Proofs.Store.Entries
import Interlock.Proofs.Time.Written
import Interlock.Store.File

/-!
The times in a document are in the calendar, whoever has written it. What a reader gives is settled
part by part, without a look at the text: a value that is parsed is one that parsing gives, and a
record keeps what each of its fields keeps. So whatever table is made of a document, its times can
be written again.
-/
namespace Interlock

namespace Json

theorem ok_of_map {ε α β : Type} {x : Except ε α} {f : α → β} {b : β} (done : x.map f = .ok b) :
    ∃ a, x = .ok a ∧ f a = b := by
  cases x with
  | error e => cases done
  | ok a => exact ⟨a, rfl, Except.ok.inj done⟩

/-- Every item of a list that was made item by item was made of some item. -/
theorem mem_of_mapM {ε α β : Type} {f : α → Except ε β} {as : List α} {bs : List β}
    (made : as.mapM f = .ok bs) {b : β} (mem : b ∈ bs) : ∃ a ∈ as, f a = .ok b := by
  induction as generalizing bs with
  | nil =>
    cases made
    cases mem
  | cons a as ih =>
    rw [List.mapM_cons] at made
    obtain ⟨b', first, made⟩ := Time.ok_of_bind made
    obtain ⟨bs', others, made⟩ := Time.ok_of_bind made
    cases made
    rcases List.mem_cons.1 mem with rfl | later
    · exact ⟨a, List.mem_cons_self, first⟩
    · obtain ⟨a', mem', same⟩ := ih others later
      exact ⟨a', List.mem_cons_of_mem a mem', same⟩

namespace Reader

variable {α β : Type} {P : α → Prop}

/-- Whatever the reader reads is as described. -/
def Gives (r : Reader α) (P : α → Prop) : Prop := ∀ cs a rest, r cs = .ok (a, rest) → P a

theorem Gives.map {r : Reader α} (gives : r.Gives P) {f : α → β} {Q : β → Prop}
    (next : ∀ a, P a → Q (f a)) :
    Gives (fun cs => (r cs).map fun (a, rest) => (f a, rest)) Q := by
  intro cs b rest read
  obtain ⟨⟨a, left⟩, got, same⟩ := ok_of_map read
  cases same
  exact next a (gives cs a _ got)

theorem gives_parsed {parse : String → Except String α} (sound : ∀ s a, parse s = .ok a → P a) :
    (parsed parse).Gives P := by
  intro cs a rest read
  unfold parsed at read
  split at read
  · cases read
  · split at read
    · next parsed =>
      cases read
      exact sound _ _ parsed
    · cases read

/-- What may be `null` is as described where it is not. -/
theorem Gives.optional {r : Reader α} (gives : r.Gives P) :
    r.optional.Gives fun o => ∀ a ∈ o, P a := by
  intro cs o rest read
  unfold Reader.optional at read
  split at read
  · obtain ⟨left, -, same⟩ := ok_of_map read
    cases same
    exact nofun
  · have some : ∀ a, P a → ∀ b ∈ some a, P b := by simp
    exact gives.map (Q := fun o => ∀ a ∈ o, P a) some _ _ _ read

theorem Gives.items {r : Reader α} (gives : r.Gives P) (fuel : Nat) {seen : List α}
    (before : ∀ a ∈ seen, P a) : (items r fuel seen).Gives fun as => ∀ a ∈ as, P a := by
  induction fuel generalizing seen with
  | zero =>
    intro cs as rest read
    cases read
  | succ fuel ih =>
    intro cs as rest read
    unfold Reader.items at read
    split at read
    · cases read
    · obtain ⟨left, -, same⟩ := ok_of_map read
      cases same
      exact fun a mem => before a (List.mem_reverse.1 mem)
    · split at read
      · cases read
      · next got => exact ih (List.forall_mem_cons.2 ⟨gives _ _ _ got, before⟩) _ _ _ read

theorem Gives.list {r : Reader α} (gives : r.Gives P) : (list r).Gives fun as => ∀ a ∈ as, P a := by
  intro cs as rest read
  unfold Reader.list at read
  split at read
  · have none : ∀ a ∈ ([] : List α), P a := nofun
    exact gives.items _ none _ _ _ read
  · cases read

theorem Gives.whole {r : Reader α} (gives : r.Gives P) {s : String} {a : α}
    (read : r.whole s = .ok a) : P a := by
  unfold Reader.whole at read
  split at read
  · cases read
  · next got =>
    split at read
    · cases read
      exact gives _ _ _ got
    · cases read

end Reader

namespace Layout

variable {σ : Type} {l : Layout σ} {P : σ → Prop}

/-- Whatever is read into a record of which something holds, it still holds. -/
def Keeps (slots : List (Slot σ)) (P : σ → Prop) : Prop :=
  ∀ slot ∈ slots, ∀ s, P s → (slot.read s).Gives P

theorem Keeps.readItems {slots : List (Slot σ)} (keeps : Keeps slots P) {index : Nat} {s : σ}
    (start : P s) : Reader.Gives (l.readItems slots index s) P := by
  induction slots generalizing index s with
  | nil =>
    intro cs s' rest read
    obtain ⟨left, -, same⟩ := ok_of_map read
    cases same
    exact start
  | cons slot slots ih =>
    intro cs s' rest read
    unfold Layout.readItems at read
    split at read
    · cases read
    · split at read
      · obtain ⟨left, -, same⟩ := ok_of_map read
        cases same
        exact start
      · split at read
        · cases read
        · cases read
    · split at read
      · cases read
      · next got =>
        have first := keeps slot List.mem_cons_self s start _ _ _ got
        exact ih (fun slot mem => keeps slot (List.mem_cons_of_mem _ mem)) first _ _ _ read

theorem Keeps.readMember (keeps : Keeps l.slots P) {seen : List String} {key : String} {s : σ}
    (start : P s) : Reader.Gives (l.readMember seen key s) P := by
  intro cs s' rest read
  unfold Layout.readMember at read
  split at read
  · next slot known =>
    split at read
    · cases read
    · obtain ⟨cs', -, read⟩ := Time.ok_of_bind read
      exact keeps slot (List.mem_of_find?_eq_some known) s start _ _ _ read
  · obtain ⟨cs', -, read⟩ := Time.ok_of_bind read
    obtain ⟨⟨v, rest'⟩, -, read⟩ := Time.ok_of_bind read
    cases read
    exact start

theorem Keeps.readMembers (keeps : Keeps l.slots P) (fuel : Nat) {seen : List String} {s : σ}
    (start : P s) : Reader.Gives (l.readMembers fuel seen s) P := by
  induction fuel generalizing seen s with
  | zero =>
    intro cs s' rest read
    cases read
  | succ fuel ih =>
    intro cs s' rest read
    unfold Layout.readMembers at read
    split at read
    · cases read
    · obtain ⟨left, -, same⟩ := ok_of_map read
      cases same
      exact start
    · split at read
      · cases read
      · split at read
        · cases read
        · next got => exact ih (keeps.readMember start _ _ _ got) _ _ _ read

/-- What every field keeps holds of the record that is read. -/
theorem Keeps.read (keeps : Keeps l.slots P) {blank : σ} (start : P blank) :
    Reader.Gives (l.read blank) P := by
  intro cs s rest read
  unfold Layout.read at read
  split at read
  · exact keeps.readItems start _ _ _ read
  · exact keeps.readMembers _ start _ _ _ read
  · cases read

end Layout

end Json

namespace Store

namespace StoredRecord

def Dated (s : StoredRecord) : Prop := ∀ t ∈ s.enqueuedAt, t.Representable

theorem gives_instant : instant.Gives Time.Instant.Representable := by
  refine Json.Reader.gives_parsed fun s t parsed => Time.Instant.representable_iff_ofText.2 ⟨s, ?_⟩
  cases text : Time.Instant.ofText s with
  | error e => simp [text, Except.mapError] at parsed
  | ok t' => simpa [text, Except.mapError] using parsed

/-- A field that is not the time leaves it. -/
theorem dated_slot {α : Type} {f : RecordField} {r : Json.Reader α}
    {put : StoredRecord → Option α → StoredRecord}
    (same : ∀ s a, (put s a).enqueuedAt = s.enqueuedAt) (s : StoredRecord) (dated : s.Dated) :
    ((slot f r put).read s).Gives Dated := by
  have any : r.optional.Gives fun _ => True := fun _ _ _ _ => trivial
  refine any.map fun a _ => ?_
  unfold Dated
  rwa [same]

theorem dated_read : Json.Reader.Gives (layout.read blank) Dated := by
  have keeps : Json.Layout.Keeps layout.slots Dated := by
    simp only [Json.Layout.Keeps, layout, List.forall_mem_cons]
    refine ⟨dated_slot fun _ _ => rfl, dated_slot fun _ _ => rfl, dated_slot fun _ _ => rfl,
      dated_slot fun _ _ => rfl, fun s _ => ?_, nofun⟩
    exact gives_instant.optional.map fun t dated => dated
  exact keeps.read nofun

theorem enqueuedAt_toRecord {s : StoredRecord} {r : Record} (made : s.toRecord = .ok r) :
    s.enqueuedAt = some r.enqueuedAt := by
  obtain ⟨space, -, made⟩ := Time.ok_of_bind made
  obtain ⟨worker, -, made⟩ := Time.ok_of_bind made
  obtain ⟨priority, -, made⟩ := Time.ok_of_bind made
  obtain ⟨text, -, made⟩ := Time.ok_of_bind made
  cases key : SortKey.ofText? text with
  | none =>
    simp only [key] at made
    cases made
  | some sortKey =>
    simp only [key] at made
    obtain ⟨sortKey, -, made⟩ := Time.ok_of_bind made
    obtain ⟨enqueuedAt, time, made⟩ := Time.ok_of_bind made
    obtain ⟨u, -, made⟩ := Time.ok_of_bind made
    cases made
    cases there : s.enqueuedAt with
    | none => simp [there, need] at time
    | some t => simpa [there, need] using time

end StoredRecord

/-- What is there once records have been stored was there before or is among them. -/
theorem Table.mem_of_foldlM_put {rs : List Record} {s t : Table} (made : rs.foldlM put s = .ok t)
    {r : Record} (there : r ∈ t.records) : r ∈ s.records ∨ r ∈ rs := by
  induction rs generalizing s with
  | nil =>
    cases made
    exact .inl there
  | cons x rs ih =>
    rw [List.foldlM_cons] at made
    obtain ⟨s', stored, made⟩ := Time.ok_of_bind made
    obtain ⟨valid, rfl⟩ := put_eq_ok_iff.1 stored
    rcases ih made with old | new
    · rcases mem_of_mem_insertRecord old with rfl | old
      · exact .inr List.mem_cons_self
      · exact .inl old
    · exact .inr (List.mem_cons_of_mem x new)

namespace Document

def Dated (d : Document) : Prop := ∀ r ∈ d.records, r.Dated

theorem dated_read {s : String} {d : Document} (read : Document.read s = .ok d) : d.Dated := by
  have keeps : Json.Layout.Keeps layout.slots Dated := by
    simp only [Json.Layout.Keeps, layout, List.forall_mem_cons]
    refine ⟨fun d dated => ?_, fun d _ => ?_, nofun⟩
    · have any : Json.Reader.word32.Gives fun _ => True := fun _ _ _ _ => trivial
      exact any.map (f := fun n => { d with version := n }) (Q := Dated) fun _ _ => dated
    · exact StoredRecord.dated_read.list.map (Q := Dated) fun _ dated => dated
  have start : empty.Dated := nofun
  exact (keeps.read start).whole read

theorem Dated.toTable {d : Document} (dated : d.Dated) {t : Table} (made : d.toTable = .ok t) :
    ∀ r ∈ t.records, r.enqueuedAt.Representable := by
  unfold Document.toTable at made
  cases records : d.records.mapM StoredRecord.toRecord with
  | error e =>
    rw [records] at made
    cases made
  | ok rs =>
    rw [records] at made
    intro r there
    rcases Table.mem_of_foldlM_put made there with old | new
    · cases old
    · obtain ⟨s, stored, read⟩ := Json.mem_of_mapM records new
      exact dated s stored _ (StoredRecord.enqueuedAt_toRecord read)

theorem Dated.tableUnder {path : String} {d : Document} (dated : d.Dated) {t : Table}
    (made : d.tableUnder path = .ok t) : ∀ r ∈ t.records, r.enqueuedAt.Representable := by
  unfold Document.tableUnder at made
  split at made
  · exact dated.toTable made
  · cases made

/-- Whatever the document at a path has in it, the times of the table that is made of it are in the
calendar. -/
theorem representable_of_tableOf {path : Disk.Pathname} {content : Option Bytes} {t : Table}
    (made : tableOf path content = .ok t) : ∀ r ∈ t.records, r.enqueuedAt.Representable := by
  unfold tableOf at made
  split at made
  · cases made
    exact nofun
  · split at made
    · next text _ =>
      unfold tableOfText at made
      split at made
      · cases made
      · next d read => exact (dated_read read).tableUnder made
    · split at made
      · next d read => exact (dated_read read).tableUnder made
      · cases made

end Document

end Store

end Interlock
