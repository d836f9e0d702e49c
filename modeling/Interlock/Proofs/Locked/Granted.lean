import Interlock.Proofs.Locked.Undamaged

/-!
Calls of a file store whose steps are all granted. The document is read as the table it was written
for, so that each call finds the table that the one before it has left: the file store then does
what the table does.
-/
namespace Interlock

namespace Store.FileStore

variable {f : FileStore} {c : Call} {d d' : Disk} {t : Table}

def tableOn (f : FileStore) (d : Disk) : Except StoreError Table :=
  match f.documentOn d with
  | .error e => .error (.ofDocumentRefusal e)
  | .ok found => Document.tableOf f.path found

theorem tableOn_eq_ok_iff :
    f.tableOn d = .ok t ↔
      ∃ found, f.documentOn d = .ok found ∧ Document.tableOf f.path found = .ok t := by
  unfold tableOn
  cases f.documentOn d with
  | error e => simp
  | ok found => simp

/-- None of the steps of a call on a disk is refused. -/
def Grants (f : FileStore) (c : Call) (d : Disk) : Prop :=
  (f.transact c).Permitted (I := fileSteps) (fun s d => f.perform s d)
    (fun (s : FileStep) d => s.refusal? (f.perform s d).1 = none) d

/-- A step that is performed and not refused. -/
def granting (f : FileStore) :
    (s : fileSteps.Call) → Disk → fileSteps.Answer s → Disk → Prop :=
  fun (s : FileStep) d (r : s.Answer) d' => (r, d') = f.perform s d ∧ s.refusal? r = none

theorem granting.mayDo {s : FileStep} {r : s.Answer} (granted : f.granting s d r d') :
    f.MayDo s d r d' := by
  obtain ⟨rfl, rfl⟩ := Prod.ext_iff.1 granted.1
  exact .performed s d

end Store.FileStore

namespace Locked

open Store FileStore

variable {f : FileStore} {c : Call} {d d' : Disk} {t : Table}

/-- What a call answers and leaves when it has been carried out on the table in the document. -/
def Carried (f : FileStore) (c : Call) (t : Table) (v : c.Answer) (d : Disk) : Prop :=
  v = (c.apply t).1 ∧ f.tableOn d = .ok (c.apply t).2

/-- Under the lock the call is carried out on the table that is read. -/
theorem underLock_carried (beside : f.temporaryPath.Beside f.path) (reads : f.tableOn d = .ok t)
    (written : ∀ r ∈ (c.apply t).2.records, r.enqueuedAt.Representable) :
    (f.underLock c).Assures f.granting (fun _ _ => True) (Carried f c t) d := by
  obtain ⟨found, there, table⟩ := tableOn_eq_ok_iff.1 reads
  refine ((underLock_onDisk beside there).of_simulates
    (R := fun d y => y = (d, none)) rfl ?_).imp (fun _ _ _ => trivial) ?_
  · rintro s d y r d' rfl - granted
    exact ⟨(d', none), ⟨granted.mayDo, granted.2.symm⟩, rfl⟩
  · rintro v d ⟨y, rfl, left, outcome, shown⟩
    have answer : v = (c.apply t).1 := by
      simpa only [FileStore.outcome, FileStore.applied, table] using congrArg Prod.fst outcome
    obtain rfl : left = (f.applied c found).2 := congrArg Prod.snd outcome
    exact ⟨answer, tableOn_eq_ok_iff.2 ⟨_, shown, tableOf_applied table written⟩⟩

/-- A transaction whose steps are granted carries its call out. -/
theorem transact_carried (apart : f.lockPath.parts ≠ f.path.parts) (reads : f.tableOn d = .ok t)
    (written : ∀ r ∈ (c.apply t).2.records, r.enqueuedAt.Representable) :
    (f.transact c).Assures f.granting (fun _ _ => True) (Carried f c t) d := by
  obtain ⟨besideLock, beside⟩ := FileStore.beside apart
  have aside {s : FileStep} {r : s.Answer} {d d' : Disk} (aside : s.handles = false)
      (granted : f.granting s d r d') : f.tableOn d' = f.tableOn d := by
    rw [tableOn, tableOn, document_of_stepAside besideLock aside granted.mayDo]
  rw [transact_eq]
  cases checked : c.precheck with
  | error e =>
    have left := Call.apply_of_precheck (t := t) checked
    exact ⟨(congrArg Prod.fst left).symm, reads.trans (congrArg (Except.ok ·.2) left).symm⟩
  | ok u =>
    refine ⟨trivial, fun r d₁ opened => ?_⟩
    cases r with
    | error e => cases opened.2
    | ok u =>
      refine ⟨trivial, fun r d₂ taken => ?_⟩
      cases r with
      | error e => cases taken.2
      | ok u =>
        refine ⟨trivial, fun r d₃ waits => ?_⟩
        have reads₃ := (aside rfl waits).trans <| (aside rfl taken).trans <|
          (aside rfl opened).trans reads
        cases waits.1
        change Program.Assures f.granting _ (f.underLock c >>= leaving) _ d₂
        refine Program.assures_bind.2 ((underLock_carried beside reads₃ written).mono ?_)
        rintro v d ⟨answer, left⟩
        exact ⟨trivial, fun r d' released => ⟨answer, (aside rfl released).trans left⟩⟩

/-- A call whose steps are granted answers as the table does, and leaves the table that is left. -/
theorem call_carried (apart : f.lockPath.parts ≠ f.path.parts) (granted : f.Grants c d)
    (reads : f.tableOn d = .ok t)
    (written : ∀ r ∈ (c.apply t).2.records, r.enqueuedAt.Representable) :
    Carried f c t (f.call c d).1 (f.call c d).2 :=
  (transact_carried apart reads written).ends granted fun _ _ granted => ⟨rfl, granted⟩

/-- A call that has nothing to write is granted where the lock can be opened. -/
theorem grants_of_clean (opens : d.openToWrite f.lockPath = .ok d') (reads : f.tableOn d' = .ok t)
    (clean : c.changes t (c.apply t).1 = false) : f.Grants c d := by
  obtain ⟨found, there, table⟩ := tableOn_eq_ok_iff.1 reads
  have opened : f.perform .openLock d = (.ok (), d') := by simp only [perform, opens, settle]
  have read : f.perform .readDocument d' = (.ok found, d') := by rw [perform_readDocument, there]
  rw [Grants, transact_eq]
  cases c.precheck with
  | error e => trivial
  | ok u =>
    refine Program.permitted_ask opened (by rw [opened]; rfl) ?_
    refine Program.permitted_ask (r := .ok ()) (y := d') rfl rfl ?_
    refine Program.permitted_ask (r := false) (y := d') rfl rfl ?_
    refine Program.permitted_bind.2 ⟨?_, rfl, trivial⟩
    refine Program.permitted_ask read (by rw [read]; rfl) ?_
    simp only [table, clean]
    trivial

/-- Whatever is called, a file store whose steps are granted replies as the store in memory that has
its table. -/
theorem transcript_call (apart : f.lockPath.parts ≠ f.path.parts) (reads : f.tableOn d = .ok t)
    (written : ∀ r ∈ t.records, r.enqueuedAt.Representable) {cs : List Call}
    (dated : ∀ c ∈ cs, c.Dated) (granted : InTurn f.call f.Grants cs d) :
    transcript f.call f.tableOn cs d = transcript inMemory .ok cs t := by
  refine transcript_eq
    (R := fun d (t : Table) => f.tableOn d = .ok t ∧ ∀ r ∈ t.records, r.enqueuedAt.Representable)
    (fun _ _ same => same.1) ?_ ⟨reads, written⟩ granted
  rintro c mem d t ⟨reads, written⟩ granted
  have written' := (dated c mem).apply written
  obtain ⟨answer, left⟩ := call_carried apart granted reads written'
  rw [inMemory_eq]
  exact ⟨answer, left, written'⟩

end Locked

end Interlock
