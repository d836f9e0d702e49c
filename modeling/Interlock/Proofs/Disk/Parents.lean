import Interlock.Proofs.Disk.Places
import Interlock.Proofs.Text.ByteOrder
import Mathlib.Data.List.Flatten

/-!
The directory a file stands in. It is named by the parts of the path before the last one, and where
the path of a file leads somewhere that directory is there; so to make it, for this file or for
another one beside it, changes nothing.
-/
namespace Interlock

namespace Disk.Pathname

def Proper (part : List Char) : Prop := '/' ∉ part ∧ isPart part = true

/-- What stands between slashes has none in it. -/
theorem slash_notMem_of_mem_splitOn {part cs : List Char} (mem : part ∈ cs.splitOn '/') :
    '/' ∉ part := by
  induction cs generalizing part with
  | nil =>
    rw [List.splitOn_nil, List.mem_singleton] at mem
    exact mem ▸ List.not_mem_nil
  | cons c cs ih =>
    rw [List.splitOn_cons_eq_if_modifyHead] at mem
    split at mem
    · rcases List.mem_cons.1 mem with rfl | mem
      · exact List.not_mem_nil
      · exact ih mem
    · next other =>
      have apart : '/' ≠ c := fun same => other (beq_iff_eq.2 same.symm)
      cases rest : cs.splitOn '/' with
      | nil => exact absurd rest (List.splitOn_ne_nil _ _)
      | cons first rest' =>
        rw [rest] at mem ih
        rcases List.mem_cons.1 mem with rfl | mem
        · exact List.not_mem_cons_of_ne_of_not_mem apart (ih List.mem_cons_self)
        · exact ih (List.mem_cons_of_mem _ mem)

theorem proper_of_mem_partsIn {part cs : List Char} (mem : part ∈ partsIn cs) : Proper part :=
  ⟨slash_notMem_of_mem_splitOn (List.mem_filter.1 mem).1, (List.mem_filter.1 mem).2⟩

/-- Parts with slashes between them are found again. -/
theorem partsIn_intercalate {parts : List (List Char)} (proper : ∀ part ∈ parts, Proper part) :
    partsIn (['/'].intercalate parts) = parts := by
  induction parts with
  | nil => rfl
  | cons part parts ih =>
    obtain ⟨⟨whole, own⟩, others⟩ := List.forall_mem_cons.1 proper
    cases parts with
    | nil => rw [List.intercalate_singleton, partsIn_of_not_mem whole own]
    | cons next parts =>
      rw [List.intercalate_cons_cons, List.append_assoc, List.singleton_append, partsIn_append,
        partsIn_of_not_mem whole own, ih others]
      rfl

theorem intercalate_sublist {xs ys : List (List Char)} (sub : xs.Sublist ys) :
    (['/'].intercalate xs).Sublist (['/'].intercalate ys) := by
  induction sub with
  | slnil => exact List.Sublist.refl _
  | @cons xs ys y sub ih =>
    cases ys with
    | nil =>
      obtain rfl := List.sublist_nil.1 sub
      exact List.nil_sublist _
    | cons y' ys =>
      rw [List.intercalate_cons_cons]
      exact ih.trans (List.sublist_append_right _ _)
  | @cons_cons xs ys x sub ih =>
    cases xs with
    | nil =>
      cases ys with
      | nil => exact List.Sublist.refl _
      | cons y ys =>
        rw [List.intercalate_singleton, List.intercalate_cons_cons, List.append_assoc]
        exact List.sublist_append_left _ _
    | cons x' xs =>
      cases ys with
      | nil => cases sub
      | cons y ys =>
        rw [List.intercalate_cons_cons, List.intercalate_cons_cons]
        exact ih.append_left _

/-- Written with single slashes and without single dots a path becomes no longer. -/
theorem intercalate_partsIn_sublist (cs : List Char) :
    (['/'].intercalate (partsIn cs)).Sublist cs := by
  have sub := intercalate_sublist (List.filter_sublist (p := isPart) (l := cs.splitOn '/'))
  rwa [List.intercalate_splitOn] at sub

theorem partsIn_cons_slash (cs : List Char) : partsIn ('/' :: cs) = partsIn cs :=
  partsIn_append [] cs

/-! The path of the directory of a file. -/

variable {p q : Pathname} {front : List String} {a b : String} {absolute : Bool}

def ofParts (absolute : Bool) (front : List String) : Pathname :=
  ⟨if absolute then "/" ++ "/".intercalate front else "/".intercalate front⟩

/-- Without its last part a path is the path of the others. -/
theorem parent?_eq (parts : p.parts = front ++ [a]) :
    p.parent? = some (ofParts p.isAbsolute front) := by
  simp [parent?, parts, ofParts]

theorem toList_ofParts (absolute : Bool) (front : List String) :
    (ofParts absolute front).text.toList =
      (if absolute then ['/'] else []) ++ ['/'].intercalate (front.map String.toList) := by
  have slash : "/".toList = ['/'] := rfl
  cases absolute <;> simp [ofParts, String.toList_intercalate, slash]

theorem proper_of_mem_parts {part : String} (mem : part ∈ p.parts) : Proper part.toList := by
  rw [parts_eq] at mem
  obtain ⟨cs, inside, rfl⟩ := List.mem_map.1 mem
  rw [String.toList_ofList]
  exact proper_of_mem_partsIn inside

theorem map_toList_parts (p : Pathname) : p.parts.map String.toList = partsIn p.text.toList := by
  rw [parts_eq, List.map_map]
  exact List.map_id'' (fun _ => String.toList_ofList) _

/-- The path of proper parts has those parts. -/
theorem parts_ofParts (proper : ∀ part ∈ front, Proper part.toList) :
    (ofParts absolute front).parts = front := by
  have kept : partsIn (ofParts absolute front).text.toList = front.map String.toList := by
    have own := partsIn_intercalate (List.forall_mem_map.2 proper)
    rw [toList_ofParts]
    cases absolute with
    | false => exact own
    | true => exact (partsIn_cons_slash _).trans own
  rw [parts_eq, kept, List.map_map]
  exact List.map_id'' (fun _ => String.ofList_toList) _

theorem head?_intercalate {part : List Char} (proper : Proper part) (parts : List (List Char)) :
    (['/'].intercalate (part :: parts)).head? ≠ some '/' := by
  obtain ⟨whole, own⟩ := proper
  cases part with
  | nil => cases own
  | cons c cs =>
    have apart : c ≠ '/' := (List.ne_of_not_mem_cons whole).symm
    cases parts with
    | nil => simpa using apart
    | cons next parts => simpa using apart

theorem isAbsolute_ofParts (proper : ∀ part ∈ front, Proper part.toList) :
    (ofParts absolute front).isAbsolute = absolute := by
  rw [isAbsolute, toList_ofParts]
  cases absolute with
  | true => rfl
  | false =>
    cases front with
    | nil => rfl
    | cons part front =>
      simpa using head?_intercalate (proper part List.mem_cons_self) (front.map String.toList)

/-- The path of the directory of a file is made of characters of the path of the file. -/
theorem ofParts_sublist (parts : q.parts = front ++ [b]) :
    (ofParts q.isAbsolute front).text.toList.Sublist q.text.toList := by
  have shorter (cs : List Char) (same : partsIn cs = partsIn q.text.toList) :
      (['/'].intercalate (front.map String.toList)).Sublist cs := by
    refine .trans (intercalate_sublist ?_) (intercalate_partsIn_sublist cs)
    rw [same, ← map_toList_parts, parts, List.map_append]
    exact List.sublist_append_left _ _
  rw [toList_ofParts]
  cases absolute : q.isAbsolute with
  | false => exact shorter _ rfl
  | true =>
    obtain ⟨cs, text⟩ : ∃ cs, q.text.toList = '/' :: cs := by
      simpa [isAbsolute, List.head?_eq_some_iff] using absolute
    rw [text]
    exact (shorter cs (text ▸ (partsIn_cons_slash cs).symm)).cons_cons '/'

end Disk.Pathname

namespace Disk

open Pathname

variable {d : Disk} {p q : Pathname} {front : List String} {a b : String} {place home : Place}

/-- A text with some of the characters of another has no more bytes. -/
theorem utf8ByteSize_le_of_sublist {s t : String} (sub : s.toList.Sublist t.toList) :
    s.utf8ByteSize ≤ t.utf8ByteSize := by
  have bytes := (sub.flatMap String.utf8EncodeChar).length_le
  rw [← Bytes.ofText_eq_flatMap, ← Bytes.ofText_eq_flatMap] at bytes
  simpa [Bytes.ofText] using bytes

theorem resolve_eq_ok_iff :
    d.resolve p = .ok place ↔
      p.text.isEmpty = false ∧ p.text.toList.contains '\x00' = false ∧
        ¬ pathLimit < p.text.utf8ByteSize ∧
        d.follow (if p.isAbsolute then [] else d.workingDirectory) p.parts = .ok place := by
  unfold resolve
  cases p.text.isEmpty <;> cases p.text.toList.contains '\x00' <;>
    by_cases long : pathLimit < p.text.utf8ByteSize <;> simp [long]

/-- Where the path of a file leads somewhere, its directory is there. -/
theorem resolve_ofParts (parts : q.parts = front ++ [b]) (resolved : d.resolve q = .ok place)
    (below : (ofParts q.isAbsolute front).text.isEmpty = false) :
    ∃ home, d.resolve (ofParts q.isAbsolute front) = .ok home ∧
      d.node? home = some .directory := by
  obtain ⟨-, plain, short, followed⟩ := resolve_eq_ok_iff.1 resolved
  have proper : ∀ part ∈ front, Proper part.toList := fun part mem =>
    proper_of_mem_parts (p := q) (parts ▸ List.mem_append_left _ mem)
  have sub := ofParts_sublist parts
  rw [parts, follow_append] at followed
  cases way : d.follow (if q.isAbsolute then [] else d.workingDirectory) front with
  | error e =>
    rw [way] at followed
    cases followed
  | ok home =>
    rw [way] at followed
    refine ⟨home, resolve_eq_ok_iff.2 ⟨below, ?_, ?_, ?_⟩, (follow_cons_eq_ok_iff.1 followed).1⟩
    · rw [List.contains_eq_mem, decide_eq_false_iff_not] at plain ⊢
      exact mt sub.mem plain
    · exact Nat.not_lt.2 ((utf8ByteSize_le_of_sublist sub).trans (Nat.not_lt.1 short))
    · rw [isAbsolute_ofParts proper, parts_ofParts proper, way]

theorem makeDirectory_eq (d : Disk) (p : Pathname) :
    d.makeDirectory p = (d.resolve p).bind fun place =>
      match d.node? place with
      | some _ => .error .alreadyExists
      | none => d.place place .directory := rfl

/-- To make a directory that is there changes nothing. -/
theorem makeDirectories_of_directory (resolved : d.resolve p = .ok home)
    (directory : d.node? home = some .directory) : d.makeDirectories p = .ok d := by
  have written := (resolve_eq_ok_iff.1 resolved).1
  have there : d.makeDirectory p = .error .alreadyExists := by
    rw [makeDirectory_eq, resolved]
    simp only [Except.bind, directory]
  have found : d.isDirectory p = true := by
    simp [isDirectory, lookup?, find_eq, resolved, directory]
  simp [makeDirectories, makeDirectoriesUpTo, written, there, found]

/-- To make the directory of a file changes nothing where the path of another file in the same
directory leads somewhere. -/
theorem makeDirectories_parent (parts : p.parts = front ++ [a]) (beside : q.parts = front ++ [b])
    (absolute : p.isAbsolute = q.isAbsolute) (resolved : d.resolve q = .ok place)
    {parent : Pathname} (called : p.parent? = some parent) : d.makeDirectories parent = .ok d := by
  rw [parent?_eq parts, absolute] at called
  obtain rfl := Option.some.inj called
  cases below : (ofParts q.isAbsolute front).text.isEmpty with
  | true => simp [makeDirectories, makeDirectoriesUpTo, below]
  | false =>
    obtain ⟨home, way, directory⟩ := resolve_ofParts beside resolved below
    exact makeDirectories_of_directory way directory

/-- The same for a file that differs from the other one in its extension. -/
theorem makeDirectories_parent_of_extension {extension : String} {parent : Pathname}
    (whole : '/' ∉ extension.toList) (resolved : d.resolve (p.withExtension extension) = .ok place)
    (called : p.parent? = some parent) : d.makeDirectories parent = .ok d := by
  by_cases named : isName p.splitLast.1 = true
  · exact makeDirectories_parent (parts_of_name named) (parts_withExtension named whole)
      (isAbsolute_withExtension named).symm resolved called
  · have same : p.withExtension extension = p := by
      unfold withExtension
      simp only [named, Bool.false_eq_true, if_false]
    rw [same] at resolved
    rcases List.eq_nil_or_concat p.parts with none | ⟨front, last, parts⟩
    · simp [parent?, none] at called
    · rw [List.concat_eq_append] at parts
      exact makeDirectories_parent parts parts rfl resolved called

end Disk

end Interlock
