import Interlock.Proofs.Locked.OnDisk

/-!
A document is never damaged. Whatever was there before, whichever step of a call fails, and at
whichever point its process dies, reading the document gives what it gave before, or the whole of
the table that the call has made. A call that fails leaves the document, and so does one that has
nothing to change; and what cannot be read as a table is never replaced. Specification, section 4.1:
Lock Record Store.
-/
namespace Interlock.Locked

open Store FileStore

variable {f : FileStore} {c : Call} {d d' : Disk}

/-- What reading a document gives. -/
abbrev Read : Type := Except DocumentRefusal (Option Bytes)

/-- What a call answers and what the document is then, if it was as given: the call has failed and
left it, or it has been carried out on the table in it. -/
inductive Settled (f : FileStore) (c : Call) (old : Read) : c.Answer → Read → Prop
  | failed (e : StoreError) : Settled f c old (c.fail e) old
  | applied {found : Option Bytes} {t : Table} (reads : old = .ok found)
      (table : Document.tableOf f.path found = .ok t) :
    Settled f c old (c.apply t).1
      (if c.changes t (c.apply t).1 then .ok (some (Document.bytesOf (c.apply t).2)) else old)

theorem settled_of_outcome {fault : Option StoreError} {found left : Option Bytes} {v : c.Answer}
    (outcome : (v, left) = f.outcome c fault found) : Settled f c (.ok found) v (.ok left) := by
  cases fault with
  | some e =>
    cases outcome
    exact .failed e
  | none =>
    simp only [FileStore.outcome, FileStore.applied] at outcome
    cases table : Document.tableOf f.path found with
    | error e =>
      rw [table] at outcome
      cases outcome
      exact .failed e
    | ok t =>
      rw [table] at outcome
      obtain ⟨rfl, rfl⟩ := Prod.mk.inj outcome
      have applied := Settled.applied (c := c) rfl table
      split
      · next dirty => rwa [if_pos dirty] at applied
      · next clean => rwa [if_neg clean] at applied

/-- Under the lock nothing happens to the document before it is replaced, and that is the end. -/
theorem underLock_settles (beside : f.temporaryPath.Beside f.path) :
    (f.underLock c).Assures f.MayDo (fun _ d' => f.documentOn d' = f.documentOn d)
      (fun v d' => Settled f c (f.documentOn d) v (f.documentOn d')) d := by
  cases reads : f.documentOn d with
  | ok found =>
    refine ((underLock_onDisk beside reads).of_simulates (R := fun d y => d = y.1) rfl ?_).imp ?_ ?_
    · rintro s d y r d' rfl - done
      exact ⟨(d', _), ⟨done, rfl⟩, rfl⟩
    · rintro s d ⟨y, rfl, same⟩
      exact same
    · rintro v d ⟨y, rfl, left, outcome, reads⟩
      exact reads ▸ settled_of_outcome outcome
  | error e =>
    refine ⟨reads, fun r d' done => ?_⟩
    have fails : (∃ e', r = .error e') ∧ d' = d := by
      cases done with
      | performed =>
        rw [perform_readDocument]
        exact ⟨⟨e, reads⟩, rfl⟩
      | refused refused =>
        cases r with
        | error e' => exact ⟨⟨e', rfl⟩, rfl⟩
        | ok content => cases refused
    obtain ⟨⟨e', rfl⟩, rfl⟩ := fails
    exact reads ▸ .failed _

/-- A step that only a refusal can keep from going on, and that leaves the document. -/
theorem document_of_stepAside (beside : f.lockPath.Beside f.path) {s : FileStep} {r : s.Answer}
    (aside : s.handles = false) (done : f.MayDo s d r d') : f.documentOn d' = f.documentOn d := by
  cases done with
  | refused => rfl
  | halfWritten => cases aside
  | gaveUp => rfl
  | performed =>
    cases s with
    | takeLock | checkAbandoned | releaseLock => rfl
    | openLock =>
      simp only [perform]
      cases opened : d.openToWrite f.lockPath with
      | error e => rfl
      | ok d' => exact documentOn_congr (Disk.find_of_openToWrite opened beside)
    | _ => cases aside

/-- At any point of a transaction the document is as some answer would leave it, and when the
transaction returns, as its own answer leaves it. -/
theorem transact_settles (apart : f.lockPath.parts ≠ f.path.parts) :
    (f.transact c).Assures f.MayDo
      (fun _ d' => ∃ v, Settled f c (f.documentOn d) v (f.documentOn d'))
      (fun v d' => Settled f c (f.documentOn d) v (f.documentOn d')) d := by
  obtain ⟨besideLock, beside⟩ := FileStore.beside apart
  have aside {s : FileStep} {r : s.Answer} {d d' : Disk} (aside : s.handles = false)
      (done : f.MayDo s d r d') : f.documentOn d' = f.documentOn d :=
    document_of_stepAside besideLock aside done
  -- whoever fails before the document leaves it
  have fails {d' : Disk} (same : f.documentOn d' = f.documentOn d) (e : StoreError) :
      Settled f c (f.documentOn d) (c.fail e) (f.documentOn d') := same ▸ .failed e
  have leaves {v : c.Answer} {d' : Disk}
      (settled : Settled f c (f.documentOn d) v (f.documentOn d')) :
      (leaving v).Assures f.MayDo
        (fun _ d' => ∃ v, Settled f c (f.documentOn d) v (f.documentOn d'))
        (fun v d' => Settled f c (f.documentOn d) v (f.documentOn d')) d' :=
    ⟨⟨v, settled⟩, fun r d'' done =>
      show Settled f c (f.documentOn d) v (f.documentOn d'') from (aside rfl done).symm ▸ settled⟩
  rw [transact_eq]
  cases c.precheck with
  | error e => exact fails rfl e
  | ok u =>
    refine ⟨⟨_, fails rfl abandoned⟩, fun r d₁ opened => ?_⟩
    have same₁ := aside rfl opened
    cases r with
    | error e => exact fails same₁ _
    | ok u =>
      refine ⟨⟨_, fails same₁ abandoned⟩, fun r d₂ taken => ?_⟩
      have same₂ := (aside rfl taken).trans same₁
      cases r with
      | error e => exact fails same₂ _
      | ok u =>
        refine ⟨⟨_, fails same₂ abandoned⟩, fun r d₃ checked => ?_⟩
        have same₃ := (aside rfl checked).trans same₂
        cases r with
        | true => exact leaves (fails same₃ _)
        | false =>
          change Program.Assures f.MayDo _ (f.underLock c >>= leaving) _ d₃
          refine Program.assures_bind.2 ((underLock_settles beside).imp ?_ ?_)
          · intro s d' same
            exact ⟨_, fails (same.trans same₃) abandoned⟩
          · intro v d' settled
            exact leaves (same₃ ▸ settled)

/-! Calls that leave the table. -/

theorem changes_fail (c : Call) (t : Table) (e : StoreError) : c.changes t (c.fail e) = false := by
  cases c <;> rfl

theorem changes_of_reading {t : Table} (reads : c.writes = false) (v : c.Answer) :
    c.changes t v = false := by
  cases c <;> first | rfl | cases reads

theorem changes_of_missed {t : Table} {r : Record} (missed : t.delete r = none)
    (v : (Call.delete r).Answer) : (Call.delete r).changes t v = false := by
  cases v with
  | error e => rfl
  | ok u => simp [Call.changes, missed]

theorem changes_of_found {t : Table} {r : Record} (found : t.find r.space r.worker ≠ []) :
    (Call.addIfAbsent r).changes t ((Call.addIfAbsent r).apply t).1 = false := by
  have there : (t.find r.space r.worker).isEmpty = false := by simpa using found
  simp only [Call.apply]
  cases r.validate with
  | error e => rfl
  | ok u => simp [there, Call.changes]

/-- The document at some point of a call, and before it. -/
structure Undamaged (f : FileStore) (c : Call) (old : Read) (rest : Program fileSteps c.Answer)
    (now : Read) : Prop where
  /-- It is what it was, or the whole of the table that the call makes of the one that was there. -/
  whole : now = old ∨ ∃ found t, old = .ok found ∧ Document.tableOf f.path found = .ok t ∧
    now = .ok (some (Document.bytesOf (c.apply t).2))
  /-- When the call has failed it is what it was. -/
  failed : ∀ e, rest.heed = .done (c.fail e) → now = old
  /-- When the call has succeeded it has been carried out on the table that was there, and if that
  makes a difference the document is the new table. -/
  done : ∀ v, rest.heed = .done (.ok v) → ∃ found t, old = .ok found ∧
    Document.tableOf f.path found = .ok t ∧ (c.apply t).1 = .ok v ∧
      now = if c.changes t (.ok v) then .ok (some (Document.bytesOf (c.apply t).2)) else old
  /-- If it brings no time beyond the calendar the document then makes the table that the call
  makes. -/
  carried : ∀ v, rest.heed = .done (.ok v) → c.Dated → ∃ found left t, old = .ok found ∧
    Document.tableOf f.path found = .ok t ∧ now = .ok left ∧
      Document.tableOf f.path left = .ok (c.apply t).2
  reading : c.writes = false → now = old
  /-- A deletion that has nothing to delete leaves it. -/
  missed : ∀ found t r, old = .ok found → Document.tableOf f.path found = .ok t → c = .delete r →
    t.delete r = none → now = old
  /-- An addition that finds a record leaves it. -/
  found : ∀ found t r, old = .ok found → Document.tableOf f.path found = .ok t →
    c = .addIfAbsent r → t.find r.space r.worker ≠ [] → now = old
  /-- What is no table is left, and the call fails. -/
  unreadable : (∀ found t, old = .ok found → Document.tableOf f.path found ≠ .ok t) →
    now = old ∧ ∀ v, rest.heed = .done v → ∃ e, v = c.fail e

/-- Where no table was read the call has failed. -/
theorem Settled.failed_of_unreadable {old now : Read} {v : c.Answer}
    (settled : Settled f c old v now)
    (unreadable : ∀ found t, old = .ok found → Document.tableOf f.path found ≠ .ok t) :
    now = old ∧ ∃ e, v = c.fail e := by
  cases settled with
  | failed e => exact ⟨rfl, e, rfl⟩
  | applied reads table => exact absurd table (unreadable _ _ reads)

/-- A call that has succeeded has been applied to what the document held. -/
theorem Settled.applied_of_ok {old now : Read} {v : c.Value} (settled : Settled f c old (.ok v) now) :
    ∃ found t, old = .ok found ∧ Document.tableOf f.path found = .ok t ∧
      now = .ok (f.applied c found).2 := by
  generalize same : (Except.ok v : c.Answer) = a at settled
  cases settled with
  | failed e => cases same
  | @applied found t reads table =>
    refine ⟨found, t, reads, table, ?_⟩
    simp only [FileStore.applied, table]
    split
    · rfl
    · exact reads

/-- A call without a difference to write leaves the document. -/
theorem Settled.same {old now : Read} {v : c.Answer} (settled : Settled f c old v now)
    (clean : ∀ found t, old = .ok found → Document.tableOf f.path found = .ok t →
      v = (c.apply t).1 → c.changes t v = false) : now = old := by
  cases settled with
  | failed e => rfl
  | applied reads table => exact if_neg (by simp [clean _ _ reads table rfl])

theorem undamaged_of_settled {old now : Read} {v : c.Answer} {rest : Program fileSteps c.Answer}
    (settled : Settled f c old v now) (mine : ∀ v', rest.heed = .done v' → v' = v) :
    Undamaged f c old rest now where
  whole := by
    cases settled with
    | failed e => exact .inl rfl
    | applied reads table =>
      split
      · exact .inr ⟨_, _, reads, table, rfl⟩
      · exact .inl rfl
  failed e returned := by
    cases mine _ returned
    exact settled.same fun _ t _ _ _ => changes_fail c t e
  done v returned := by
    cases mine _ returned
    generalize same : (Except.ok v : c.Answer) = a at settled
    cases settled with
    | failed e => cases same
    | applied reads table => exact ⟨_, _, reads, table, rfl, rfl⟩
  carried v returned dated := by
    cases mine _ returned
    obtain ⟨found, t, reads, table, left⟩ := settled.applied_of_ok
    have made := (FileStore.applied_of_dated table dated).2
    exact ⟨found, _, t, reads, table, left, made⟩
  reading reads := settled.same fun _ _ _ _ _ => changes_of_reading reads v
  missed found t r reads table mine none := by
    subst mine
    refine settled.same fun found' t' reads' table' _ => ?_
    cases reads.symm.trans reads'
    cases table.symm.trans table'
    exact changes_of_missed none v
  found found t r reads table mine there := by
    subst mine
    refine settled.same fun found' t' reads' table' own => ?_
    cases reads.symm.trans reads'
    cases table.symm.trans table'
    exact own ▸ changes_of_found there
  unreadable none :=
    ⟨(settled.failed_of_unreadable none).1, fun v' returned =>
      mine v' returned ▸ (settled.failed_of_unreadable none).2⟩

/-- Whatever is on a disk, whatever call is made, whichever of its steps is refused or gets stuck
half way, and at whichever point it comes to an end: the document is undamaged, as long as it is not
the file of its own lock. -/
theorem undamaged (apart : f.lockPath.parts ≠ f.path.parts) {rest : Program fileSteps c.Answer}
    (reached : Program.Reaches f.MayDo (f.transact c) d rest d') :
    Undamaged f c (f.documentOn d) rest (f.documentOn d') := by
  have still := ((transact_settles apart).reaches reached).heed
  cases todo : rest.heed with
  | done v =>
    rw [todo] at still
    have settled : Settled f c (f.documentOn d) v (f.documentOn d') := still
    exact undamaged_of_settled settled fun v' returned => by
      cases todo.symm.trans returned
      rfl
  | note n q => exact absurd todo (Program.heed_ne_note rest n q)
  | call s next =>
    rw [todo] at still
    obtain ⟨⟨v, settled⟩, -⟩ := still
    exact undamaged_of_settled settled fun v' returned => by cases todo.symm.trans returned

def queueFile : FileStore := ⟨⟨"queue.json"⟩⟩

def enrollOne : Call := .addIfAbsent (.waiting ⟨"s-1"⟩ ⟨"w-1"⟩ ⟨1⟩ ⟨0, 0⟩)

def firstDocument : Bytes := Document.bytesOf (enrollOne.apply .empty).2

set_option maxRecDepth 2000 in
/-- An enrollment dies in the middle of writing. The bytes it has written stay in the temporary
file, and there is no document, as there was none. -/
theorem undamaged_torn : ∃ rest d',
    Program.Reaches queueFile.MayDo (queueFile.transact enrollOne) {} rest d' ∧
      queueFile.temporaryOn d' = some (firstDocument.take 10) ∧
      queueFile.documentOn d' = .ok none ∧
      Undamaged queueFile enrollOne (queueFile.documentOn {}) rest (queueFile.documentOn d') := by
  have apart : queueFile.lockPath.parts ≠ queueFile.path.parts := by decide +kernel
  have reached : Program.Reaches queueFile.MayDo (queueFile.transact enrollOne) {} _ _ :=
    .goesOn rfl (.performed .openLock _) <| .goesOn rfl (.performed .takeLock _) <|
    .goesOn rfl (.performed .checkAbandoned _) <| .goesOn rfl (.performed .readDocument _) <|
    .goesOn rfl (.performed .createTemporary _) <|
    .goesOn rfl (.halfWritten (List.take_prefix 10 firstDocument) rfl .noDevice) .here
  exact ⟨_, _, reached, rfl, rfl, undamaged apart reached⟩

end Interlock.Locked
