import Interlock.Disk.Basic
import Interlock.Program
import Interlock.Store.Call
import Interlock.Store.Document

/-!
A record store kept in a document file. Every call is a transaction: it takes the lock of a file
beside the document, reads the document, changes the table and, if that made a difference, writes
the whole document to a temporary file that then takes its place. The transaction is a program of
single steps, so that others may work, and any step may fail, between two of them; only the last
step of writing touches the document. Specification, section 4.1: Lock Record Store.
-/
namespace Interlock.Store

open Disk (Pathname Refusal)

/-- Why a document could not be read: it could not be opened, or opened but not read. -/
inductive DocumentRefusal where
  | notOpened (e : Refusal)
  | notRead (e : Refusal)
  deriving DecidableEq, Repr

/-- A refusal as a store error. -/
def StoreError.ofRefusal (e : Refusal) : StoreError := .backend ("io: " ++ e.message)

/-- A refused document as a store error; what cannot be read counts as no JSON. -/
def StoreError.ofDocumentRefusal : DocumentRefusal → StoreError
  | .notOpened e => .ofRefusal e
  | .notRead e => .backend ("json: " ++ e.message)

/-- A step of a transaction. -/
inductive FileStep where
  | openLock
  /-- Wait until the lock is free and take it. -/
  | takeLock
  /-- Ask whether the caller has given up waiting. -/
  | checkAbandoned
  | readDocument
  | createTemporary
  | writeTemporary (bytes : Bytes)
  | syncTemporary
  /-- Put the temporary file in the place of the document. -/
  | replaceDocument
  | releaseLock
  deriving DecidableEq

namespace FileStep

/-- What a step answers. No document is no error. -/
@[reducible]
def Answer : FileStep → Type
  | .checkAbandoned => Bool
  | .readDocument => Except DocumentRefusal (Option Bytes)
  | .releaseLock => Unit
  | _ => Except Refusal Unit

end FileStep

/-- Programs of transaction steps. -/
def fileSteps : Interface := ⟨FileStep, FileStep.Answer⟩

/-- A store kept in the document at a path. -/
structure FileStore where
  path : Pathname
  deriving DecidableEq, Repr, Inhabited

/-- The table in the content of the document at a path; without a document it is empty. Bytes that
are no text are let pass in members that are skipped. -/
def Document.tableOf (path : Pathname) : Option Bytes → Except StoreError Table
  | none => .ok .empty
  | some bytes =>
    match bytes.toText? with
    | some text => Document.tableOfText path.text text
    | none =>
      match Document.read (String.ofList (bytes.mendFrom Json.brokenByte 0)) with
      | .ok d => d.tableUnder path.text
      | .error _ => .error (.backend "json: invalid unicode code point")

/-- The content of the document of a table. -/
def Document.bytesOf (t : Table) : Bytes := .ofText (Document.ofTable t).render

namespace FileStore

/-- The file whose lock keeps transactions apart. -/
def lockPath (f : FileStore) : Pathname := f.path.withExtension "lock"

/-- The file a document is written to before it takes its place. -/
def temporaryPath (f : FileStore) : Pathname := f.path.withExtension "json.tmp"

/-- Open a store: make the directory of its document. The document is made by the first change. -/
def openOn (f : FileStore) (d : Disk) : Except StoreError Disk :=
  match f.path.parent? with
  | none => .ok d
  | some parent =>
    match d.makeDirectories parent with
    | .ok d => .ok d
    | .error e => .error (.ofRefusal e)

/-- One step, as a program. -/
def step (s : FileStep) : Program fileSteps s.Answer := Program.ask (I := fileSteps) s

/-- Write a table: all of it to the temporary file, and then that file in the place of the
document. -/
def replaceWith (t : Table) : Program fileSteps (Except Refusal Unit) := do
  match ← step .createTemporary with
  | .error e => return .error e
  | .ok _ =>
    match ← step (.writeTemporary (Document.bytesOf t)) with
    | .error e => return .error e
    | .ok _ =>
      match ← step .syncTemporary with
      | .error e => return .error e
      | .ok _ => step .replaceDocument

/-- The part of a transaction under the lock. -/
def underLock (f : FileStore) (c : Call) : Program fileSteps c.Answer := do
  match ← step .readDocument with
  | .error e => return c.fail (.ofDocumentRefusal e)
  | .ok content =>
    match Document.tableOf f.path content with
    | .error e => return c.fail e
    | .ok t =>
      let (answer, changed) := c.apply t
      if c.changes t answer then
        match ← replaceWith changed with
        | .error e => return c.fail (.ofRefusal e)
        | .ok _ => return answer
      else return answer

/-- What a transaction answers whose caller has given up before it had the lock. -/
def abandoned : StoreError := .backend "transaction abandoned before taking the lock"

/-- A store call as a transaction. A record that does not validate never gets that far. -/
def transact (f : FileStore) (c : Call) : Program fileSteps c.Answer :=
  match c.precheck with
  | .error e => .done (c.fail e)
  | .ok () => do
    match ← step .openLock with
    | .error e => return c.fail (.ofRefusal e)
    | .ok _ =>
      match ← step .takeLock with
      | .error e => return c.fail (.ofRefusal e)
      | .ok _ =>
        if ← step .checkAbandoned then
          step .releaseLock
          return c.fail abandoned
        else
          let answer ← f.underLock c
          step .releaseLock
          return answer

/-- The disk after a call that changes it, and whether it was refused. -/
def settle (d : Disk) : Except Refusal Disk → Except Refusal Unit × Disk
  | .ok d => (.ok (), d)
  | .error e => (.error e, d)

/-- A step on a disk where nobody else is and nobody gives up. -/
def perform (f : FileStore) (s : FileStep) (d : Disk) : s.Answer × Disk :=
  match s with
  | .openLock => settle d (d.openToWrite f.lockPath)
  | .takeLock => (.ok (), d)
  | .checkAbandoned => (false, d)
  | .readDocument =>
    match d.open? f.path with
    | .error .notFound => (.ok none, d)
    | .error e => (.error (.notOpened e), d)
    | .ok n =>
      match n.content with
      | .ok bytes => (.ok (some bytes), d)
      | .error e => (.error (.notRead e), d)
  | .createTemporary => settle d (d.create f.temporaryPath)
  | .writeTemporary bytes => settle d (d.append f.temporaryPath bytes)
  | .syncTemporary => (.ok (), d)
  | .replaceDocument => settle d (d.rename f.temporaryPath f.path)
  | .releaseLock => ((), d)

/-- A whole call on a disk where nobody else is. -/
def call (f : FileStore) (c : Call) (d : Disk) : c.Answer × Disk :=
  (f.transact c).runQuiet (fun s d => f.perform s d) d

end FileStore

/-- The stores to choose from: a table in memory, or a document file. -/
inductive Backend where
  | memory (t : Table)
  | file (f : FileStore)
  deriving DecidableEq

/-- The name of a kind of store. -/
def Backend.kind : Backend → String
  | .memory _ => "memory"
  | .file _ => "file"

end Interlock.Store
