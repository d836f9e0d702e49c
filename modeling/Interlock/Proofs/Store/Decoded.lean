import Interlock.Proofs.Store.Entries
import Interlock.Store.Document
import Mathlib.Data.List.Forall2

/-!
Which documents become tables. Stored records may come from anywhere, so each of their fields may be
missing, blank, malformed or at odds with the others. The conditions on a stored record stand in an
order. A document becomes a table exactly if all conditions are met by all of its records, and then
the table has the last record of the document under each key. Else the error is that of the first
record that is no good, and of the first condition that this one does not meet. Specification,
section 3: Data Model.
-/
namespace Interlock.Store

/-- The conditions on a stored record, in the order in which they count. -/
inductive RecordCondition where
  | present (field : RecordField)
  /-- The sort key can be read. -/
  | readable
  | spaceNamed
  | workerNamed
  /-- The key of a waiter names the priority and the worker of its own record. -/
  | ownKey
  deriving DecidableEq, Repr

namespace StoredRecord

/-- Whether a field is there. -/
def has (s : StoredRecord) : RecordField → Bool
  | .sharedSpaceId => s.space.isSome
  | .workerId => s.worker.isSome
  | .priority => s.priority.isSome
  | .sortKey => s.sortKey.isSome
  | .enqueuedAt => s.enqueuedAt.isSome

/-- The fields of the stored record are those of the record. -/
structure Stores (s : StoredRecord) (r : Record) : Prop where
  space : s.space = some r.space.text
  worker : s.worker = some r.worker.text
  priority : s.priority.map Priority.ofNat = some r.priority
  sortKey : s.sortKey.bind SortKey.ofText? = some r.sortKey
  enqueuedAt : s.enqueuedAt = some r.enqueuedAt

end StoredRecord

namespace RecordCondition

/-- The conditions under which there is a record that is stored. -/
def ofFields : List RecordCondition :=
  [present .sharedSpaceId, present .workerId, present .priority, present .sortKey, readable,
    present .enqueuedAt]

def all : List RecordCondition := ofFields ++ [spaceNamed, workerNamed, ownKey]

theorem mem_all (q : RecordCondition) : q ∈ all := by
  rcases q with (_ | _) | _ <;> decide

variable (s : StoredRecord)

/-- The condition is met by the stored record. Nothing is asked of a field that is not there, but by
the condition that it is. -/
def Met : RecordCondition → Prop
  | present f => s.has f = true
  | readable => ∀ text, s.sortKey = some text → (SortKey.ofText? text).isSome = true
  | spaceNamed => ∀ text, s.space = some text → Text.blank text = false
  | workerNamed => ∀ text, s.worker = some text → Text.blank text = false
  | ownKey => ∀ p w, s.sortKey.bind SortKey.ofText? = some (.waiting p w) →
      (∀ n, s.priority = some n → p = .ofNat n) ∧ ∀ text, s.worker = some text → w = ⟨text⟩

/-- The error says that the condition is not met. A blank identifier counts as a missing one, and a
key is shown as it would be written. -/
def Reports (e : RecordError) : RecordCondition → Prop
  | present f => e = .missingField f
  | readable => ∃ text, s.sortKey = some text ∧ e = .malformedSortKey text
  | spaceNamed => e = .missingField .sharedSpaceId
  | workerNamed => e = .missingField .workerId
  | ownKey => ∃ r, s.Stores r ∧ e = .sortKeyMismatch r.sortKey.display r.priority r.worker

/-- The conditions in front of this one are met, and it is not. -/
def FirstUnmet (q : RecordCondition) : Prop :=
  ∃ front back, all = front ++ q :: back ∧ (∀ p ∈ front, p.Met s) ∧ ¬q.Met s

end RecordCondition

namespace StoredRecord

open RecordCondition

variable {s : StoredRecord} {r : Record} {e : RecordError}

theorem keyMatches_iff (r : Record) :
    r.keyMatches = true ↔ ∀ p w, r.sortKey = .waiting p w → p = r.priority ∧ w = r.worker := by
  unfold Record.keyMatches
  split
  · next holds => simp [holds]
  · next p w waits => simp [waits]

/-- A record that is stored is valid if its identifiers have names and its key is its own. -/
theorem Stores.validate_iff (stores : s.Stores r) :
    r.validate = .ok () ↔ spaceNamed.Met s ∧ workerNamed.Met s ∧ ownKey.Met s := by
  obtain ⟨n, number, priority⟩ := Option.map_eq_some_iff.1 stores.priority
  rw [Record.validate_eq_ok_iff, keyMatches_iff]
  simp [Met, stores.space, stores.worker, stores.sortKey, number, priority, SpaceId.isBlank,
    WorkerId.isBlank]

/-- A record of which all fields are there and the key can be read is taken if it is valid. -/
theorem Stores.toRecord_eq (stores : s.Stores r) : s.toRecord = r.validate.map fun _ => r := by
  obtain ⟨n, number, priority⟩ := Option.map_eq_some_iff.1 stores.priority
  obtain ⟨text, written, read⟩ := Option.bind_eq_some_iff.1 stores.sortKey
  simp only [toRecord, stores.space, stores.worker, number, priority, written, stores.enqueuedAt,
    need, read, bind, Except.bind]
  cases r.validate <;> rfl

/-- The condition is the first one that is not met, and the error says so. -/
def Refuses (s : StoredRecord) (e : RecordError) (q : RecordCondition) : Prop :=
  q.FirstUnmet s ∧ q.Reports s e

/-- A stored record stores a record, or one of the conditions on its fields is the first that is not
met. -/
theorem stores_or_refuses (s : StoredRecord) :
    (∃ r, s.Stores r) ∨ ∃ e q, s.toRecord = .error e ∧ s.Refuses e q := by
  obtain ⟨space, sortKey, worker, priority, enqueuedAt⟩ := s
  cases space with
  | none => exact .inr ⟨_, .present .sharedSpaceId, rfl, ⟨[], _, rfl, nofun, nofun⟩, rfl⟩
  | some space =>
  cases worker with
  | none =>
    exact .inr ⟨_, .present .workerId, rfl,
      ⟨[.present .sharedSpaceId], _, rfl, by simp [Met, has], nofun⟩, rfl⟩
  | some worker =>
  cases priority with
  | none =>
    exact .inr ⟨_, .present .priority, rfl,
      ⟨[.present .sharedSpaceId, .present .workerId], _, rfl, by simp [Met, has], nofun⟩, rfl⟩
  | some n =>
  cases sortKey with
  | none =>
    exact .inr ⟨_, .present .sortKey, rfl,
      ⟨[.present .sharedSpaceId, .present .workerId, .present .priority], _, rfl,
        by simp [Met, has], nofun⟩, rfl⟩
  | some text =>
  cases read : SortKey.ofText? text with
  | none =>
    refine .inr ⟨.malformedSortKey text, .readable, ?_,
      ⟨[.present .sharedSpaceId, .present .workerId, .present .priority, .present .sortKey], _, rfl,
        by simp [Met, has], by simp [Met, read]⟩, text, rfl, rfl⟩
    simp only [toRecord, need, read, bind, Except.bind]
  | some key =>
  cases enqueuedAt with
  | none =>
    refine .inr ⟨.missingField .enqueuedAt, .present .enqueuedAt, ?_,
      ⟨[.present .sharedSpaceId, .present .workerId, .present .priority, .present .sortKey,
        .readable], _, rfl, by simp [Met, has, read], nofun⟩, rfl⟩
    simp only [toRecord, need, read, bind, Except.bind]
  | some time => exact .inl ⟨⟨⟨space⟩, key, ⟨worker⟩, .ofNat n, time⟩, rfl, rfl, rfl, read, rfl⟩

/-- The fields of a stored record are all there and its key can be read. -/
theorem Stores.met (stores : s.Stores r) : ∀ p ∈ ofFields, p.Met s := by
  obtain ⟨n, number, -⟩ := Option.map_eq_some_iff.1 stores.priority
  obtain ⟨text, written, read⟩ := Option.bind_eq_some_iff.1 stores.sortKey
  simp [ofFields, Met, has, stores.space, stores.worker, number, written, read, stores.enqueuedAt]

/-- A record that is stored and not valid is refused because of its first condition that is not met.
-/
theorem Stores.refuses (stores : s.Stores r) (invalid : r.validate = .error e) :
    ∃ q, s.Refuses e q := by
  have spaced : spaceNamed.Met s ↔ r.space.isBlank = false := by
    simp [Met, stores.space, SpaceId.isBlank]
  have called : workerNamed.Met s ↔ r.worker.isBlank = false := by
    simp [Met, stores.worker, WorkerId.isBlank]
  unfold Record.validate at invalid
  split at invalid
  next blank =>
    obtain rfl := Except.error.inj invalid
    refine ⟨.spaceNamed, ⟨_, [workerNamed, ownKey], rfl, stores.met, ?_⟩, rfl⟩
    simp [spaced, blank]
  next space =>
  have space := spaced.2 (Bool.eq_false_iff.2 space)
  split at invalid
  next blank =>
    obtain rfl := Except.error.inj invalid
    refine ⟨.workerNamed, ⟨ofFields ++ [spaceNamed], [ownKey], rfl, ?_, ?_⟩, rfl⟩
    · exact List.forall_mem_append.2 ⟨stores.met, List.forall_mem_singleton.2 space⟩
    · simp [called, blank]
  next worker =>
  have worker := called.2 (Bool.eq_false_iff.2 worker)
  split at invalid
  · cases invalid
  next foreign =>
    obtain rfl := Except.error.inj invalid
    refine ⟨.ownKey, ⟨ofFields ++ [spaceNamed, workerNamed], [], rfl, ?_, fun own => foreign ?_⟩, r,
      stores, rfl⟩
    · exact List.forall_mem_append.2
        ⟨stores.met, List.forall_mem_cons.2 ⟨space, List.forall_mem_singleton.2 worker⟩⟩
    · have valid := stores.validate_iff.2 ⟨space, worker, own⟩
      exact ((Record.validate_eq_ok_iff r).1 valid).2.2

/-- A stored record is taken for the record it stores, if all conditions are met. -/
theorem toRecord_eq_ok_iff : s.toRecord = .ok r ↔ s.Stores r ∧ ∀ q : RecordCondition, q.Met s := by
  constructor
  · intro taken
    rcases s.stores_or_refuses with ⟨r', stores⟩ | ⟨e, q, refused, -⟩
    · have valid := stores.toRecord_eq.symm.trans taken
      cases checked : r'.validate with
      | error e =>
        rw [checked] at valid
        cases valid
      | ok u =>
        rw [checked] at valid
        obtain rfl : r' = r := Except.ok.inj valid
        have values : ∀ q ∈ [spaceNamed, workerNamed, ownKey], q.Met s := by
          simpa using stores.validate_iff.1 checked
        exact ⟨stores, fun q => List.forall_mem_append.2 ⟨stores.met, values⟩ q q.mem_all⟩
    · rw [refused] at taken
      cases taken
  · rintro ⟨stores, met⟩
    have valid := stores.validate_iff.2 ⟨met .spaceNamed, met .workerNamed, met .ownKey⟩
    rw [stores.toRecord_eq, valid]
    rfl

/-- A stored record that is not taken is refused because of its first condition that is not met. -/
theorem refuses_of_toRecord (refused : s.toRecord = .error e) : ∃ q, s.Refuses e q := by
  rcases s.stores_or_refuses with ⟨r, stores⟩ | ⟨e', q, refused', refuses⟩
  · have invalid := stores.toRecord_eq.symm.trans refused
    cases checked : r.validate with
    | ok u =>
      rw [checked] at invalid
      cases invalid
    | error e' =>
      rw [checked] at invalid
      obtain rfl : e' = e := Except.error.inj invalid
      exact stores.refuses checked
  · obtain rfl := Except.error.inj (refused'.symm.trans refused)
    exact ⟨q, refuses⟩

theorem valid_of_toRecord (taken : s.toRecord = .ok r) : r.validate = .ok () := by
  obtain ⟨stores, met⟩ := toRecord_eq_ok_iff.1 taken
  exact stores.validate_iff.2 ⟨met .spaceNamed, met .workerNamed, met .ownKey⟩

/-- Stored records are taken one by one, up to the first that is refused. -/
theorem mapM_toRecord_cases (stored : List StoredRecord) :
    match stored.mapM toRecord with
    | .ok rs => List.Forall₂ (fun s r => s.toRecord = .ok r) stored rs
    | .error e => ∃ front bad back, stored = front ++ bad :: back ∧
        (∀ s ∈ front, ∃ r, s.toRecord = .ok r) ∧ bad.toRecord = .error e := by
  induction stored with
  | nil => exact .nil
  | cons s rest ih =>
    rw [List.mapM_cons]
    cases taken : s.toRecord with
    | error e => exact ⟨[], s, rest, rfl, nofun, taken⟩
    | ok r =>
      cases others : rest.mapM toRecord with
      | ok rs =>
        rw [others] at ih
        exact .cons taken ih
      | error e =>
        rw [others] at ih
        obtain ⟨front, bad, back, rfl, before, refused⟩ := ih
        exact ⟨s :: front, bad, back, rfl, List.forall_mem_cons.2 ⟨⟨r, taken⟩, before⟩, refused⟩

end StoredRecord

namespace Table

variable {t : Table} {r : Record}

theorem get?_insert (valid : r.validate = .ok ()) (k : RecordKey) :
    (t.insert r valid).get? k = if r.key = k then some r else t.get? k := by
  refine Option.ext fun x => ?_
  rw [get?_eq_some_iff, mem_insert]
  split
  · next here =>
    rw [Option.some.injEq]
    constructor
    · rintro ⟨rfl | ⟨-, other⟩, key⟩
      · rfl
      · exact absurd (key.trans here.symm) other
    · rintro rfl
      exact ⟨.inl rfl, here⟩
  · next there =>
    rw [get?_eq_some_iff]
    constructor
    · rintro ⟨rfl | ⟨stored, -⟩, key⟩
      · exact absurd key there
      · exact ⟨stored, key⟩
    · rintro ⟨stored, rfl⟩
      exact ⟨.inr ⟨stored, Ne.symm there⟩, rfl⟩

/-- Valid records can be stored one after the other, and the last one under a key stays. -/
theorem exists_foldlM_put {rs : List Record} (valid : ∀ r ∈ rs, r.validate = .ok ()) (t : Table) :
    ∃ t', rs.foldlM put t = .ok t' ∧
      ∀ k, t'.get? k = (rs.reverse.find? fun r => r.key == k).or (t.get? k) := by
  induction rs generalizing t with
  | nil => exact ⟨t, rfl, fun k => rfl⟩
  | cons r rs ih =>
    obtain ⟨first, rest⟩ := List.forall_mem_cons.1 valid
    obtain ⟨t', stored, found⟩ := ih rest (t.insert r first)
    refine ⟨t', ?_, fun k => ?_⟩
    · rw [List.foldlM_cons, put_eq_ok_iff.2 ⟨first, rfl⟩]
      exact stored
    · rw [found, get?_insert, List.reverse_cons, List.find?_append, Option.or_assoc,
        List.find?_singleton]
      by_cases own : r.key = k <;> simp [own]

end Table

namespace Document

open StoredRecord

/-- The records are those of the document, and the table has the last one of them under each key. -/
structure Decodes (d : Document) (rs : List Record) (t : Table) : Prop where
  stores : List.Forall₂ Stores d.records rs
  last : ∀ k, t.get? k = rs.reverse.find? fun r => r.key == k

/-- The error is that of the first record that does not meet all conditions, because of the first
one that it does not meet. -/
def Refuses (d : Document) (e : StoreError) : Prop :=
  ∃ front bad back q reason, d.records = front ++ bad :: back ∧
    (∀ s ∈ front, ∀ p : RecordCondition, p.Met s) ∧ bad.Refuses reason q ∧
    e = .invalidRecord reason

/-- All records of a document are taken. -/
theorem exists_toTable {d : Document} {rs : List Record}
    (taken : List.Forall₂ (fun s r => s.toRecord = .ok r) d.records rs)
    (read : d.records.mapM toRecord = .ok rs) : ∃ t, d.toTable = .ok t ∧ d.Decodes rs t := by
  have valid : ∀ r ∈ rs, r.validate = .ok () := by
    have flipped : List.Forall₂ (fun r s => s.toRecord = .ok r) rs d.records := .flip taken
    exact ((List.forall₂_and_left _ _).1 (flipped.imp fun r s ok => ⟨valid_of_toRecord ok, ok⟩)).1
  obtain ⟨t, made, found⟩ := Table.exists_foldlM_put valid .empty
  refine ⟨t, ?_, taken.imp fun s r ok => (toRecord_eq_ok_iff.1 ok).1, fun k => ?_⟩
  · rw [toTable, read]
    exact made
  · rw [found k]
    exact Option.or_none

/-- Every document becomes a table or is refused, and it becomes one exactly if all conditions are
met by all of its records. -/
theorem toTable_classified (d : Document) :
    ((∃ t, d.toTable = .ok t) ↔ ∀ s ∈ d.records, ∀ q : RecordCondition, q.Met s) ∧
      match d.toTable with
      | .ok t => (∃ rs, d.Decodes rs t) ∧
          ∀ k r, t.get? k = some r → r.key = k ∧ r.validate = .ok ()
      | .error e => d.Refuses e := by
  have taken := mapM_toRecord_cases d.records
  cases read : d.records.mapM toRecord with
  | ok rs =>
    rw [read] at taken
    have met := ((List.forall₂_and_left _ _).1
      (taken.imp fun s r ok => ⟨(toRecord_eq_ok_iff.1 ok).2, ok⟩)).1
    obtain ⟨t, made, decodes⟩ := exists_toTable taken read
    rw [made]
    refine ⟨iff_of_true ⟨t, rfl⟩ met, ⟨rs, decodes⟩, fun k r found => ?_⟩
    obtain ⟨stored, key⟩ := Table.get?_eq_some_iff.1 found
    exact ⟨key, t.valid r stored⟩
  | error e =>
    rw [read] at taken
    obtain ⟨front, bad, back, records, before, refused⟩ := taken
    obtain ⟨q, refuses⟩ := refuses_of_toRecord refused
    have made : d.toTable = .error (.invalidRecord e) := by rw [toTable, read]
    rw [made]
    refine ⟨iff_of_false nofun fun met => ?_, front, bad, back, q, e, records, ?_, refuses, rfl⟩
    · obtain ⟨⟨_, _, -, -, unmet⟩, -⟩ := refuses
      exact unmet (met bad (by simp [records]) q)
    · intro s ahead
      obtain ⟨r, ok⟩ := before s ahead
      exact (toRecord_eq_ok_iff.1 ok).2

end Document

end Interlock.Store
