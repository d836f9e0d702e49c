import Interlock.Proofs.Program.Assured
import Interlock.Proofs.Store.Dated
import Interlock.Proofs.Store.InTurn
import Interlock.Proofs.Store.Written
import Interlock.Store.File
import Mathlib.Logic.Function.Basic
import Mathlib.Logic.Relation

/-!
Transactions on one document, a single step at a time. Any number of them is under way, of any
number of stores that lead to the same three files; whichever goes on takes its next step, which may
be refused. The lock is given to one owner at a time, and the owner may also be somebody else, who
writes what he likes as long as he has it. Callers may stop waiting at any moment, and their
transactions go on without them. Specification, section 4.1: Lock Record Store.
-/
namespace Interlock

namespace Store

open Disk (Refusal)

namespace FileStep

/-- Why a step was refused, as the store says it. -/
def refusal? : (s : FileStep) → s.Answer → Option StoreError
  | .readDocument, .error e => some (.ofDocumentRefusal e)
  | .openLock, .error e | .takeLock, .error e | .createTemporary, .error e
  | .writeTemporary _, .error e | .syncTemporary, .error e | .replaceDocument, .error e =>
    some (.ofRefusal e)
  | _, _ => none

/-- Whether a transaction goes on to the document after this answer. -/
def passes : (s : FileStep) → s.Answer → Bool
  | .checkAbandoned, gone => !gone
  | _, _ => false

/-- A step on the document or the temporary file. -/
def handles : FileStep → Bool
  | .openLock | .takeLock | .checkAbandoned | .releaseLock => false
  | _ => true

end FileStep

/-- A call applied to the content of a document: what it answers and what it leaves. -/
def FileStore.applied (f : FileStore) (c : Call) (d : Option Bytes) : c.Answer × Option Bytes :=
  match Document.tableOf f.path d with
  | .error e => (c.fail e, d)
  | .ok t =>
    ((c.apply t).1,
      if c.changes t (c.apply t).1 then some (Document.bytesOf (c.apply t).2) else d)

section

variable {f : FileStore} {c : Call} {d : Option Bytes} {t : Table}

/-- What is left makes the table that the call makes, whether or not it had to be written. -/
theorem FileStore.tableOf_applied (table : Document.tableOf f.path d = .ok t)
    (written : ∀ r ∈ (c.apply t).2.records, r.enqueuedAt.Representable) :
    Document.tableOf f.path (f.applied c d).2 = .ok (c.apply t).2 := by
  simp only [applied, table]
  split
  · exact Document.tableOf_bytesOf f.path written
  · next clean =>
    rw [Call.apply_of_clean (Bool.eq_false_iff.2 clean)]
    exact table

/-- A call that brings no other times is carried out on the table in the document. -/
theorem FileStore.applied_of_dated (table : Document.tableOf f.path d = .ok t) (dated : c.Dated) :
    (f.applied c d).1 = (c.apply t).1 ∧
      Document.tableOf f.path (f.applied c d).2 = .ok (c.apply t).2 := by
  have written := dated.apply (Document.representable_of_tableOf table)
  refine ⟨?_, tableOf_applied table written⟩
  simp only [applied, table]

end

/-- What a call answers and leaves when it was refused a step, or none. One that was refused a step
fails and leaves the document. -/
def FileStore.outcome (f : FileStore) (c : Call) (fault : Option StoreError) (d : Option Bytes) :
    c.Answer × Option Bytes :=
  match fault with
  | some e => (c.fail e, d)
  | none => f.applied c d

end Store

namespace Locked

open Store

inductive Owner where
  | transaction (i : Nat)
  | stranger
  deriving DecidableEq, Repr

/-- The three files of a document: itself, the one that is to replace it, and the lock. -/
structure Files where
  document : Option Bytes := none
  temporary : Option Bytes := none
  lock : Option Owner := none
  deriving DecidableEq

/-- What a step of a transaction answers and leaves. A refused step leaves everything, only a
refused write may have got as far as some of its bytes. -/
inductive Effect (i : Nat) (waits : Bool) (x : Files) : (s : FileStep) → s.Answer → Files → Prop
  | openLock : Effect i waits x .openLock (.ok ()) x
  | takeLock (free : x.lock = none) :
    Effect i waits x .takeLock (.ok ()) { x with lock := some (.transaction i) }
  | checkAbandoned : Effect i waits x .checkAbandoned (!waits) x
  | readDocument : Effect i waits x .readDocument (.ok x.document) x
  | createTemporary : Effect i waits x .createTemporary (.ok ()) { x with temporary := some [] }
  | writeTemporary {old : Bytes} (there : x.temporary = some old) (bytes : Bytes) :
    Effect i waits x (.writeTemporary bytes) (.ok ()) { x with temporary := some (old ++ bytes) }
  | syncTemporary : Effect i waits x .syncTemporary (.ok ()) x
  | replaceDocument {new : Bytes} (there : x.temporary = some new) :
    Effect i waits x .replaceDocument (.ok ()) { x with document := some new, temporary := none }
  | releaseLock : Effect i waits x .releaseLock () { x with lock := none }
  | refused {s : FileStep} {r : s.Answer} (refused : (s.refusal? r).isSome = true) :
    Effect i waits x s r x
  | halfWritten {old bytes written : Bytes} (there : x.temporary = some old)
      (half : written <+: bytes) (e : Disk.Refusal) :
    Effect i waits x (.writeTemporary bytes) (.error e)
      { x with temporary := some (old ++ written) }

/-- Whether nothing is missing for a step: the lock is free, or there is a temporary file. -/
def Files.ready (x : Files) : FileStep → Bool
  | .takeLock => x.lock.isNone
  | .writeTemporary _ | .replaceDocument => x.temporary.isSome
  | _ => true

/-- A step for which nothing is missing can be taken without being refused. -/
theorem Files.effect_of_ready {x : Files} {s : FileStep} (i : Nat) (waits : Bool)
    (ready : x.ready s = true) : ∃ r y, Effect i waits x s r y ∧ s.refusal? r = none := by
  cases s with
  | openLock => exact ⟨_, _, .openLock, rfl⟩
  | takeLock => exact ⟨_, _, .takeLock (Option.isNone_iff_eq_none.1 ready), rfl⟩
  | checkAbandoned => exact ⟨_, _, .checkAbandoned, rfl⟩
  | readDocument => exact ⟨_, _, .readDocument, rfl⟩
  | createTemporary => exact ⟨_, _, .createTemporary, rfl⟩
  | writeTemporary bytes =>
    obtain ⟨old, there⟩ := Option.isSome_iff_exists.1 ready
    exact ⟨_, _, .writeTemporary there bytes, rfl⟩
  | syncTemporary => exact ⟨_, _, .syncTemporary, rfl⟩
  | replaceDocument =>
    obtain ⟨new, there⟩ := Option.isSome_iff_exists.1 ready
    exact ⟨_, _, .replaceDocument there, rfl⟩
  | releaseLock => exact ⟨_, _, .releaseLock, rfl⟩

/-- A transaction and what is left of its program. -/
structure Transaction where
  store : FileStore
  call : Call
  rest : Program fileSteps call.Answer
  /-- Whether its caller has not given up. -/
  waits : Bool := true
  /-- Why the first of its steps that was refused was refused. -/
  fault : Option StoreError := none

namespace Transaction

def new (f : FileStore) (c : Call) : Transaction := { store := f, call := c, rest := f.transact c }

/-- The transaction applied to the content of the document. -/
def outcome (t : Transaction) (d : Option Bytes) : t.call.Answer × Option Bytes :=
  t.store.outcome t.call t.fault d

def answered (t : Transaction) {s : FileStep} (next : s.Answer → Program fileSteps t.call.Answer)
    (r : s.Answer) : Transaction :=
  { t with rest := next r, fault := t.fault <|> s.refusal? r }

def Returned (t : Transaction) (v : t.call.Answer) : Prop := t.rest.heed = .done v

end Transaction

/-- Something that is done to the document under the lock: a transaction that has found its caller
waiting, or what somebody else has written. -/
inductive Change where
  | transaction (i : Nat)
  | stranger (left : Option Bytes)
  deriving DecidableEq

/-- The files, all transactions there have ever been, and the changes in the order of the lock, the
latest first. -/
structure System where
  files : Files := {}
  transactions : Nat → Option Transaction := fun _ => none
  changes : List Change := []

namespace System

def opening (d : Option Bytes) : System := { files := { document := d } }

/-- The content that a change leaves of the content it finds. -/
def left (x : System) (d : Option Bytes) : Change → Option Bytes
  | .stranger left => left
  | .transaction i =>
    match x.transactions i with
    | some t => (t.outcome d).2
    | none => d

/-- The content after changes one after the other, the latest first. -/
def content (x : System) (d : Option Bytes) : List Change → Option Bytes
  | [] => d
  | change :: earlier => x.left (x.content d earlier) change

def put (x : System) (i : Nat) (t : Transaction) : System :=
  { x with transactions := Function.update x.transactions i (some t) }

def moved (x : System) (i : Nat) (t : Transaction) (files : Files) (changes : List Change) :
    System :=
  { x.put i t with files := files, changes := changes }

/-- What happens to the files: a transaction takes a step, or somebody else locks them, writes and
leaves. -/
inductive Works (strangers : Option Bytes → Option Bytes → Prop) : System → System → Prop
  | moved {x : System} {i : Nat} {t : Transaction} {s : FileStep} {r : s.Answer} {files : Files}
      {next : s.Answer → Program fileSteps t.call.Answer}
      (there : x.transactions i = some t) (calls : t.rest.heed = .call s next)
      (effect : Effect i t.waits x.files s r files) :
    Works strangers x
      (x.moved i (t.answered next r) files
        (if s.passes r then .transaction i :: x.changes else x.changes))
  | strangerLocks {x : System} (free : x.files.lock = none) :
    Works strangers x { x with files := { x.files with lock := some .stranger } }
  | strangerWrites {x : System} {document temporary : Option Bytes}
      (owns : x.files.lock = some .stranger) (may : strangers x.files.document document) :
    Works strangers x
      { x with
        files := { x.files with document := document, temporary := temporary }
        changes := .stranger document :: x.changes }
  | strangerLeaves {x : System} (owns : x.files.lock = some .stranger) :
    Works strangers x { x with files := { x.files with lock := none } }

/-- One step of the system: a call comes in, a caller gives up, or the files are worked on. -/
inductive Step (strangers : Option Bytes → Option Bytes → Prop) : System → System → Prop
  | begun {x : System} {i : Nat} (free : x.transactions i = none) (f : FileStore) (c : Call) :
    Step strangers x (x.put i (.new f c))
  | gaveUp {x : System} {i : Nat} {t : Transaction} (there : x.transactions i = some t) :
    Step strangers x (x.put i { t with waits := false })
  | works {x z : System} (works : Works strangers x z) : Step strangers x z

abbrev Run (strangers : Option Bytes → Option Bytes → Prop) : System → System → Prop :=
  Relation.ReflTransGen (Step strangers)

end System

/-! Steps that nobody refuses can be computed. -/

/-- What a step answers and leaves that is not refused, if it can be taken. -/
def Files.perform? (x : Files) (i : Nat) (waits : Bool) : (s : FileStep) → Option (s.Answer × Files)
  | .openLock => some (.ok (), x)
  | .takeLock =>
    if x.lock = none then some (.ok (), { x with lock := some (.transaction i) }) else none
  | .checkAbandoned => some (!waits, x)
  | .readDocument => some (.ok x.document, x)
  | .createTemporary => some (.ok (), { x with temporary := some [] })
  | .writeTemporary bytes =>
    match x.temporary with
    | some old => some (.ok (), { x with temporary := some (old ++ bytes) })
    | none => none
  | .syncTemporary => some (.ok (), x)
  | .replaceDocument =>
    match x.temporary with
    | some new => some (.ok (), { x with document := some new, temporary := none })
    | none => none
  | .releaseLock => some ((), { x with lock := none })

theorem effect_of_perform? {x y : Files} {i : Nat} {waits : Bool} {s : FileStep} {r : s.Answer}
    (performed : x.perform? i waits s = some (r, y)) : Effect i waits x s r y := by
  cases s with
  | openLock => cases performed; exact .openLock
  | takeLock =>
    simp only [Files.perform?] at performed
    split at performed
    · next free => cases performed; exact .takeLock free
    · cases performed
  | checkAbandoned => cases performed; exact .checkAbandoned
  | readDocument => cases performed; exact .readDocument
  | createTemporary => cases performed; exact .createTemporary
  | writeTemporary bytes =>
    cases there : x.temporary with
    | none => simp [Files.perform?, there] at performed
    | some old =>
      simp only [Files.perform?, there] at performed
      cases performed
      exact .writeTemporary there bytes
  | syncTemporary => cases performed; exact .syncTemporary
  | replaceDocument =>
    cases there : x.temporary with
    | none => simp [Files.perform?, there] at performed
    | some new =>
      simp only [Files.perform?, there] at performed
      cases performed
      exact .replaceDocument there
  | releaseLock => cases performed; exact .releaseLock

namespace System

/-- The system after the next step of a transaction, if it can take one. -/
def advance? (x : System) (i : Nat) : Option System :=
  match x.transactions i with
  | none => none
  | some t =>
    match t.rest.heed with
    | .call s next =>
      (x.files.perform? i t.waits s).map fun (r, files) =>
        x.moved i (t.answered next r) files
          (if FileStep.passes s r then .transaction i :: x.changes else x.changes)
    | _ => none

/-- The system after steps of these transactions, without those that cannot take one. -/
def drive (x : System) (is : List Nat) : System := is.foldl (fun x i => (x.advance? i).getD x) x

theorem works_of_advance? {strangers : Option Bytes → Option Bytes → Prop} {x z : System} {i : Nat}
    (advanced : x.advance? i = some z) : Works strangers x z := by
  unfold advance? at advanced
  cases there : x.transactions i with
  | none => simp [there] at advanced
  | some t =>
    simp only [there] at advanced
    cases calls : t.rest.heed with
    | done v => simp [calls] at advanced
    | note n rest => simp [calls] at advanced
    | call s next =>
      simp only [calls, Option.map_eq_some_iff] at advanced
      obtain ⟨⟨r, files⟩, performed, rfl⟩ := advanced
      exact .moved there calls (effect_of_perform? performed)

theorem run_drive {strangers : Option Bytes → Option Bytes → Prop} (x : System) (is : List Nat) :
    Run strangers x (x.drive is) := by
  induction is generalizing x with
  | nil => exact .refl
  | cons i is ih =>
    refine .trans ?_ (ih ((x.advance? i).getD x))
    cases advanced : x.advance? i with
    | none => exact .refl
    | some y => exact .single (.works (works_of_advance? advanced))

end System

end Locked

end Interlock
