import Interlock.Proofs.Json.Pretty
import Interlock.Proofs.Store.Entries
import Interlock.Proofs.Text.Keys
import Interlock.Store.File
import Mathlib.Data.List.TakeDrop

/-!
Written documents are read as the tables they were written for. A record goes through its sort key,
its time and its JSON object and comes back; the records of a table come in order, so that storing
them one by one puts each behind those before it. Specification, section 3: Data Model.
-/
namespace Interlock

/-- The written key of a valid record is read as itself. -/
theorem Record.ofText?_sortKey {r : Record} (valid : r.validate = .ok ()) :
    SortKey.ofText? r.sortKey.display = some r.sortKey := by
  obtain ⟨-, hworker, hmatches⟩ := (Record.validate_eq_ok_iff r).1 valid
  rw [SortKey.ofText?_display_iff]
  obtain ⟨space, sortKey, worker, priority, enqueuedAt⟩ := r
  cases sortKey with
  | holder => trivial
  | waiting p w =>
    obtain ⟨-, rfl⟩ : p = priority ∧ w = worker := by simpa [Record.keyMatches] using hmatches
    intro nameless
    simp [WorkerId.isBlank, Text.blank, nameless] at hworker

namespace Store

namespace StoredRecord

/-- A valid record comes back from its stored form. -/
theorem toRecord_ofRecord {r : Record} (valid : r.validate = .ok ()) :
    (ofRecord r).toRecord = .ok r := by
  simp only [toRecord, ofRecord, need, Record.ofText?_sortKey valid, Priority.ofNat_toNat, bind,
    Except.bind, valid]
  rfl

theorem mapM_toRecord {rs : List Record} (valid : ∀ r ∈ rs, r.validate = .ok ()) :
    (rs.map ofRecord).mapM toRecord = .ok rs := by
  induction rs with
  | nil => rfl
  | cons r rs ih =>
    rw [List.map_cons, List.mapM_cons, toRecord_ofRecord (valid r List.mem_cons_self),
      ih fun x hx => valid x (List.mem_cons_of_mem _ hx)]
    rfl

/-- A field that is there is read into its place. -/
theorem reads_slot {α : Type} {r : Json.Reader α} {cs : List Char} {a : α} (h : Json.Reads r cs a)
    (ho : Json.Opens cs) (f : RecordField) (put : StoredRecord → Option α → StoredRecord)
    (s : StoredRecord) : Json.Reads ((slot f r put).read s) cs (put s (some a)) :=
  (h.optional ho).map (put s)

theorem reads_instant {t : Time.Instant} (h : t.Representable) :
    Json.Reads instant (Json.renderText t.display) t :=
  .parsed (by rw [Time.Instant.ofText_display h]; rfl)

theorem reads_ofRecord {r : Record} (h : r.enqueuedAt.Representable) (depth : Nat) :
    Json.Reads (layout.read blank) ((ofRecord r).toJson.prettyChars depth) (ofRecord r) := by
  have htext (s : String) := Json.opens_renderText s
  refine .object ?_
  refine .cons rfl (by simp) (reads_slot (.text r.space.text) (htext _) _ _ _) ?_
  refine .cons rfl (by decide) (reads_slot (.text r.sortKey.display) (htext _) _ _ _) ?_
  refine .cons rfl (by decide) (reads_slot (.text r.worker.text) (htext _) _ _ _) ?_
  refine .cons rfl (by decide) (reads_slot
    (.natural "u64" (depth + 1) r.priority.value.toNat_lt (Nat.le_refl _))
    (Json.opens_nat _ _) _ _ _) ?_
  refine .cons rfl (by decide) (reads_slot (reads_instant h) (htext _) _ _ _) ?_
  exact .nil (by decide)

theorem opens_ofRecord (r : Record) (depth : Nat) :
    Json.Opens ((ofRecord r).toJson.prettyChars depth) :=
  ⟨'\x7b', _, rfl, rfl, by decide, by decide⟩

end StoredRecord

namespace Document

/-- The text of a document is read as the document. -/
theorem read_render {t : Table} (h : ∀ r ∈ t.records, r.enqueuedAt.Representable) :
    read (ofTable t).render = .ok (ofTable t) := by
  have hrecords : Json.Reads (Json.Reader.list (StoredRecord.layout.read .blank))
      ((Json.Value.array ((ofTable t).records.map StoredRecord.toJson)).prettyChars 1)
      (ofTable t).records := by
    refine .list ?_
    intro s hs
    obtain ⟨r, hr, rfl⟩ := List.mem_map.1 hs
    exact ⟨StoredRecord.reads_ofRecord (h r hr) _, StoredRecord.opens_ofRecord r _⟩
  have hversion : Json.Reads Json.Reader.word32 ((Json.Value.nat currentVersion).prettyChars 1)
      currentVersion := .natural "u32" 1 (by decide) (by decide)
  have hdocument :
      Json.Reads (layout.read empty) ((ofTable t).toJson.prettyChars 0) (ofTable t) := by
    refine .object (.cons rfl (by simp) (hversion.map fun n => { empty with version := n }) ?_)
    refine .cons rfl (by decide) (hrecords.map fun rs => { empty with records := rs }) ?_
    exact .nil (by decide)
  have hread := hdocument [] ['\n'] (by simp) (by simp [Json.Follows, Json.isSpace])
  have hchars : (ofTable t).render.toList = (ofTable t).toJson.prettyChars 0 ++ ['\n'] := by
    simp [render, Json.Value.renderPretty]
  simp only [List.nil_append] at hread
  rw [read, Json.Reader.whole, hchars, hread]
  rfl

end Document

/-- A record above all others is stored behind them. -/
theorem insertRecord_of_above {r : Record} {rs : List Record}
    (above : ∀ x ∈ rs, RecordKey.order x.key r.key = .lt) : insertRecord r rs = rs ++ [r] := by
  induction rs with
  | nil => rfl
  | cons x xs ih =>
    have hgt : RecordKey.order r.key x.key = .gt :=
      Std.OrientedCmp.gt_of_lt (above x List.mem_cons_self)
    simp only [insertRecord, hgt, ih fun y hy => above y (List.mem_cons_of_mem _ hy),
      List.cons_append]

namespace Table

/-- Storing the records of a table in their order makes that table: each comes to stand behind those
stored before it. -/
theorem foldlM_put (t : Table) : ∀ (rest : List Record) (s : Table),
    s.records ++ rest = t.records → rest.foldlM put s = .ok t
  | [], s, h => by
    have hs : s = t := by
      cases s
      cases t
      simpa using h
    rw [hs]
    rfl
  | r :: rest, s, h => by
    have hmem : r ∈ t.records := by simp [← h]
    have above : ∀ x ∈ s.records, RecordKey.order x.key r.key = .lt := by
      have := t.increasing
      rw [← h] at this
      exact fun x hx => (List.pairwise_append.1 this).2.2 x hx r List.mem_cons_self
    have hput : s.put r = .ok (s.insert r (t.valid r hmem)) :=
      put_eq_ok_iff.2 ⟨t.valid r hmem, rfl⟩
    rw [List.foldlM_cons, hput]
    exact foldlM_put t rest _ (by simp [insert, insertRecord_of_above above, h])

theorem ofRecords_records (t : Table) : ofRecords t.records = .ok t :=
  foldlM_put t t.records empty rfl

end Table

namespace Document

/-- A document makes the table it was made from. -/
theorem toTable_ofTable (t : Table) : (ofTable t).toTable = .ok t := by
  rw [toTable, ofTable, StoredRecord.mapM_toRecord t.valid]
  exact Table.ofRecords_records t

/-- The text of a document has the version that is read, and makes the table again. -/
theorem tableOfText_render (path : String) {t : Table}
    (h : ∀ r ∈ t.records, r.enqueuedAt.Representable) :
    tableOfText path (ofTable t).render = .ok t := by
  have hversion : (ofTable t).version = currentVersion := rfl
  simp only [tableOfText, read_render h, tableUnder, hversion, if_true, toTable_ofTable]

/-- A table that has been written as a document, under whatever path, is read back as it was. -/
theorem tableOf_bytesOf (path : Disk.Pathname) {t : Table}
    (h : ∀ r ∈ t.records, r.enqueuedAt.Representable) :
    tableOf path (some (bytesOf t)) = .ok t := by
  rw [bytesOf, tableOf, Bytes.toText?_ofText]
  exact tableOfText_render path.text h

/-- A holder and a waiter that every codec on the way could stumble over: separators, quotes, a
backslash, a control character and characters beyond the first plane in the identifiers, the
smallest and the largest token, a leap second before the year zero and nanoseconds after the year
9999. -/
def stumbling : Table where
  records :=
    [⟨⟨"#\"\\\u0001"⟩, .holder, ⟨"HOLDER"⟩, ⟨0⟩,
        ⟨Time.Date.toDay ⟨-44, 3, 15⟩ * 86400 + 86399, 1500000000⟩⟩,
      .waiting ⟨"😀/\n"⟩ ⟨"00000000000000000000#w#"⟩ ⟨0xffffffffffffffff⟩
        ⟨Time.Date.toDay ⟨12016, 2, 29⟩ * 86400, 1⟩]
  increasing := by
    unfold Increasing
    decide +kernel
  valid := by decide +kernel

theorem tableOf_bytesOf_stumbling :
    (∀ r ∈ stumbling.records, r.enqueuedAt.Representable) ∧
      tableOf ⟨"records.json"⟩ (some (bytesOf stumbling)) = .ok stumbling :=
  have representable : ∀ r ∈ stumbling.records, r.enqueuedAt.Representable := by decide
  ⟨representable, tableOf_bytesOf ⟨"records.json"⟩ representable⟩

end Document

end Store

end Interlock
