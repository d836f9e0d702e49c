import Interlock.Proofs.Disk.Places
import Interlock.Proofs.Locked.Standing

/-!
The files of a transaction on a disk. The document, the temporary file and the lock are three names
in one directory, so a step at one of them leaves the others. As long as the document can be read,
the steps on the disk look like those on three files by themselves, and what is assured there is
assured on the disk.
-/
namespace Interlock

namespace Store.FileStore

open Disk (Refusal Pathname)

variable {f : FileStore} {d d' : Disk}

def documentOn (f : FileStore) (d : Disk) : Except DocumentRefusal (Option Bytes) :=
  (f.perform .readDocument d).1

def temporaryOn (f : FileStore) (d : Disk) : Option Bytes :=
  match d.find f.temporaryPath with
  | .ok (some (.file content _)) => some content
  | _ => none

/-- What a step of a transaction may answer and leave on a disk: it is performed, or refused and
leaves the disk as it was, only a refused write may have got as far as some of its bytes. The caller
may have given up. -/
inductive MayDo (f : FileStore) : (s : FileStep) → Disk → s.Answer → Disk → Prop
  | performed (s : FileStep) (d : Disk) : MayDo f s d (f.perform s d).1 (f.perform s d).2
  | refused {s : FileStep} {r : s.Answer} (refused : (s.refusal? r).isSome = true) (d : Disk) :
    MayDo f s d r d
  | halfWritten {bytes written : Bytes} {d d' : Disk} (half : written <+: bytes)
      (wrote : d.append f.temporaryPath written = .ok d') (e : Refusal) :
    MayDo f (.writeTemporary bytes) d (.error e) d'
  | gaveUp (d : Disk) : MayDo f .checkAbandoned d true d

theorem documentOn_congr (same : d'.find f.path = d.find f.path) :
    f.documentOn d' = f.documentOn d := by
  simp only [documentOn, perform, Disk.open?, same]
  cases d.find f.path with
  | error e => cases e <;> rfl
  | ok n? =>
    cases n? with
    | none => rfl
    | some n => cases n <;> rfl

theorem documentOn_of_find {content : Bytes} {locked : Bool}
    (there : d.find f.path = .ok (some (.file content locked))) :
    f.documentOn d = .ok (some content) := by
  simp only [documentOn, perform, Disk.open?, there]
  rfl

theorem perform_readDocument : f.perform .readDocument d = (f.documentOn d, d) := by
  refine Prod.ext rfl ?_
  simp only [perform]
  split
  · rfl
  · rfl
  · split <;> rfl

theorem temporaryOn_eq_some_iff {content : Bytes} :
    f.temporaryOn d = some content ↔
      ∃ locked, d.find f.temporaryPath = .ok (some (.file content locked)) := by
  unfold temporaryOn
  split
  · next found =>
    rw [found]
    simp
  · next other =>
    simp only [reduceCtorEq, false_iff, not_exists]
    exact fun locked found => other _ _ found

end Store.FileStore

namespace Locked

open Store FileStore

/-- A disk shows these files: the document can be read and has this content, and so does the
temporary file. -/
structure Shows (f : FileStore) (d : Disk) (x : Files) : Prop where
  document : f.documentOn d = .ok x.document
  temporary : f.temporaryOn d = x.temporary

variable {f : FileStore} {d d' : Disk} {x : Files} {s : FileStep} {r : s.Answer} {i : Nat}

/-- A new content of the temporary file leaves the document. -/
theorem Shows.write (shows : Shows f d x) (beside : f.temporaryPath.Beside f.path)
    {change : Bytes → Bytes} (wrote : d.modify f.temporaryPath change = .ok d') {new : Bytes}
    (same : ∀ old, x.temporary = some old ∨ x.temporary = none ∧ old = [] → change old = new) :
    Shows f d' { x with temporary := some new } := by
  obtain ⟨old, locked, there, before⟩ := Disk.find_of_modify wrote
  refine ⟨?_, ?_⟩
  · rw [documentOn_congr (Disk.find_beside_of_modify wrote beside), shows.document]
  · refine temporaryOn_eq_some_iff.2 ⟨locked, ?_⟩
    rw [there, same old ?_]
    rw [← shows.temporary]
    rcases before with found | ⟨none, empty⟩
    · exact .inl (temporaryOn_eq_some_iff.2 ⟨locked, found⟩)
    · exact .inr ⟨by simp only [temporaryOn, none], empty⟩

theorem Shows.append (shows : Shows f d x) (beside : f.temporaryPath.Beside f.path)
    {old bytes : Bytes} (there : x.temporary = some old)
    (wrote : d.append f.temporaryPath bytes = .ok d') :
    Shows f d' { x with temporary := some (old ++ bytes) } := by
  refine shows.write beside wrote fun content known => ?_
  rw [there] at known
  rcases known with same | ⟨none, -⟩
  · rw [Option.some.inj same]
  · cases none

theorem Shows.replace (shows : Shows f d x) (beside : f.temporaryPath.Beside f.path) {new : Bytes}
    (there : x.temporary = some new) (renamed : d.rename f.temporaryPath f.path = .ok d') :
    Shows f d' { x with document := some new, temporary := none } := by
  obtain ⟨locked, found⟩ := temporaryOn_eq_some_iff.1 (shows.temporary.trans there)
  obtain ⟨moved, gone⟩ := Disk.find_of_rename beside found renamed
  exact ⟨documentOn_of_find moved, by simp only [temporaryOn, gone]⟩

/-- A step that can be taken on a disk is one that can be taken on the files it shows. -/
theorem Shows.step (shows : Shows f d x) (beside : f.temporaryPath.Beside f.path)
    (handles : s.handles = true) (ready : x.ready s = true) (done : f.MayDo s d r d') :
    ∃ y, Effect i true x s r y ∧ Shows f d' y := by
  cases done with
  | refused refused => exact ⟨x, .refused refused, shows⟩
  | halfWritten half wrote e =>
    obtain ⟨old, there⟩ := Option.isSome_iff_exists.1 ready
    exact ⟨_, .halfWritten there half e, shows.append beside there wrote⟩
  | gaveUp => cases handles
  | performed =>
    cases s with
    | openLock | takeLock | checkAbandoned | releaseLock => cases handles
    | readDocument =>
      rw [perform_readDocument, shows.document]
      exact ⟨x, .readDocument, shows⟩
    | createTemporary =>
      simp only [perform]
      cases created : d.create f.temporaryPath with
      | error e => exact ⟨x, .refused rfl, shows⟩
      | ok d' => exact ⟨_, .createTemporary, shows.write beside created fun _ _ => rfl⟩
    | writeTemporary bytes =>
      obtain ⟨old, there⟩ := Option.isSome_iff_exists.1 ready
      simp only [perform]
      cases wrote : d.append f.temporaryPath bytes with
      | error e => exact ⟨x, .refused rfl, shows⟩
      | ok d' => exact ⟨_, .writeTemporary there bytes, shows.append beside there wrote⟩
    | syncTemporary => exact ⟨x, .syncTemporary, shows⟩
    | replaceDocument =>
      obtain ⟨new, there⟩ := Option.isSome_iff_exists.1 ready
      simp only [perform]
      cases renamed : d.rename f.temporaryPath f.path with
      | error e => exact ⟨x, .refused rfl, shows⟩
      | ok d' => exact ⟨_, .replaceDocument there, shows.replace beside there renamed⟩

/-- A step of a transaction on a disk, with the reason of the first refusal. -/
def doing (f : FileStore) : (s : fileSteps.Call) → Disk × Option StoreError → fileSteps.Answer s →
    Disk × Option StoreError → Prop :=
  fun (s : FileStep) x (r : s.Answer) y => f.MayDo s x.1 r y.1 ∧ y.2 = (x.2 <|> s.refusal? r)

/-- The part of a transaction under the lock, on a disk where the document can be read. -/
theorem underLock_onDisk (beside : f.temporaryPath.Beside f.path) {c : Call}
    {found : Option Bytes} (there : f.documentOn d = .ok found) :
    (f.underLock c).Assures (doing f) (fun _ y => f.documentOn y.1 = .ok found)
      (fun v y => ∃ left, (v, left) = f.outcome c y.2 found ∧ f.documentOn y.1 = .ok left)
      (d, none) := by
  have shows : Shows f d { document := found, temporary := f.temporaryOn d } := ⟨there, rfl⟩
  have assured := underLock_assures (i := 0) (f := f) (c := c)
    (x := { document := found, temporary := f.temporaryOn d })
  have onDisk : (f.underLock c).Assures (doing f) _ _ (d, none) :=
    assured.of_simulates (R := fun y z => Shows f y.1 z.1 ∧ y.2 = z.2) ⟨shows, rfl⟩ ?_
  · refine onDisk.imp ?_ ?_
    · rintro s y ⟨z, ⟨shows, -⟩, -, same, -⟩
      rw [shows.document, same]
    · rintro v y ⟨z, ⟨shows, fault⟩, outcome⟩
      exact ⟨z.1.document, fault ▸ outcome, shows.document⟩
  · rintro s y z r y' ⟨shows, fault⟩ ⟨handles, -, -, ready⟩ ⟨done, refusal⟩
    obtain ⟨x', effect, shows'⟩ := shows.step (i := 0) beside handles ready done
    exact ⟨(x', y'.2), ⟨⟨true, effect⟩, fault ▸ refusal⟩, shows', rfl⟩

end Locked

end Interlock
