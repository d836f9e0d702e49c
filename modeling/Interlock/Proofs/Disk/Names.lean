import Interlock.Store.File
import Mathlib.Tactic.Common

/-!
Names in one directory. A path with a name leads to the directory that is written in front of it and
there to the name; with another extension it leads to the same directory and another name. So the
files beside a document lie in its directory, and the document is none of them unless it bears the
extension of one.
-/
namespace Interlock

namespace Disk.Pathname

/-! Parts. -/

def partsIn (cs : List Char) : List (List Char) := (cs.splitOn '/').filter isPart

theorem parts_eq (p : Pathname) : p.parts = (partsIn p.text.toList).map String.ofList := rfl

theorem partsIn_nil : partsIn [] = [] := rfl

theorem partsIn_append (xs ys : List Char) :
    partsIn (xs ++ '/' :: ys) = partsIn xs ++ partsIn ys := by
  simp [partsIn, List.splitOn_append_cons_self]

/-- Something without slashes is one part, if it is any. -/
theorem partsIn_of_not_mem {cs : List Char} (whole : '/' ∉ cs) (part : isPart cs = true) :
    partsIn cs = [cs] := by
  simp [partsIn, List.splitOn_eq_singleton whole, part]

theorem partsIn_slash (cs : List Char) : partsIn (cs ++ ['/']) = partsIn cs := by
  rw [partsIn_append, partsIn_nil, List.append_nil]

theorem partsIn_slashDot (cs : List Char) : partsIn (cs ++ ['/', '.']) = partsIn cs := by
  rw [partsIn_append, show partsIn ['.'] = [] from rfl, List.append_nil]

/-- What is left out at the end holds no part. -/
theorem partsIn_dropEmptyEnd (cs : List Char) :
    partsIn (dropEmptyEnd cs).reverse = partsIn cs.reverse := by
  induction cs using dropEmptyEnd.induct with
  | case1 rest ih => rw [dropEmptyEnd, ih, List.reverse_cons, partsIn_slash]
  | case2 rest ih =>
    rw [dropEmptyEnd, ih, List.reverse_cons, partsIn_slash, List.reverse_cons, List.reverse_cons,
      List.append_assoc]
    exact (partsIn_slashDot rest.reverse).symm
  | case3 cs noSlash noDot => rw [dropEmptyEnd.eq_3 cs noSlash noDot]

theorem dropEmptyEnd_suffix (cs : List Char) : dropEmptyEnd cs <:+ cs := by
  induction cs using dropEmptyEnd.induct with
  | case1 rest ih =>
    rw [dropEmptyEnd]
    exact ih.trans (List.suffix_cons _ _)
  | case2 rest ih =>
    rw [dropEmptyEnd]
    exact ih.trans (List.suffix_cons _ _)
  | case3 cs noSlash noDot => exact ⟨[], dropEmptyEnd.eq_3 cs noSlash noDot⟩

/-- What stands before the last name is nothing or ends in a slash. -/
def Leads (before : List Char) : Prop := before = [] ∨ ∃ rest, before = '/' :: rest

theorem partsIn_of_leads {before : List Char} (leads : Leads before) (name : List Char) :
    partsIn (before.reverse ++ name) = partsIn before.reverse ++ partsIn name := by
  rcases leads with rfl | ⟨rest, rfl⟩
  · rfl
  · rw [List.reverse_cons, partsIn_slash, List.append_assoc]
    exact partsIn_append _ _

/-! The last name. -/

variable {p : Pathname}

theorem splitLast_append (p : Pathname) :
    p.splitLast.1 ++ p.splitLast.2 = dropEmptyEnd p.text.toList.reverse :=
  List.takeWhile_append_dropWhile

theorem slash_notMem_name (p : Pathname) : '/' ∉ p.splitLast.1 := fun there => by
  have other := List.all_eq_true.1 (List.all_takeWhile (p := (· != '/'))) '/' there
  cases other

theorem leads_before (p : Pathname) : Leads p.splitLast.2 := by
  cases rest : p.splitLast.2 with
  | nil => exact .inl rfl
  | cons c cs =>
    have first := List.head?_dropWhile_not (· != '/') (dropEmptyEnd p.text.toList.reverse)
    rw [show (dropEmptyEnd p.text.toList.reverse).dropWhile (· != '/') = c :: cs from rest] at first
    refine .inr ⟨cs, ?_⟩
    simp only [List.head?_cons] at first
    simpa using first

/-- The parts of a path with a name are those before it and the name. -/
theorem parts_of_name (named : isName p.splitLast.1 = true) :
    p.parts = (partsIn p.splitLast.2.reverse).map String.ofList ++
      [String.ofList p.splitLast.1.reverse] := by
  have part : isPart p.splitLast.1.reverse = true := by
    simp only [isName, Bool.and_eq_true, bne_iff_ne, ne_eq, Bool.not_eq_true'] at named
    have nonempty : p.splitLast.1.reverse.isEmpty = false := by simpa using named.1.1
    have other : p.splitLast.1.reverse ≠ ['.'] := fun dot =>
      named.1.2 (List.reverse_eq_iff.1 dot)
    simp [isPart, nonempty, other]
  have whole : '/' ∉ p.splitLast.1.reverse := mt List.mem_reverse.1 (slash_notMem_name p)
  have kept : partsIn p.text.toList = partsIn p.splitLast.2.reverse ++ [p.splitLast.1.reverse] := by
    rw [← List.reverse_reverse p.text.toList, ← partsIn_dropEmptyEnd, ← splitLast_append,
      List.reverse_append, partsIn_of_leads (leads_before p), partsIn_of_not_mem whole part]
  rw [parts_eq, kept, List.map_append, List.map_singleton]

theorem stem_suffix (name : List Char) : stem name <:+ name := by
  unfold stem
  split
  · next rest =>
    exact (List.suffix_cons _ _).trans (rest ▸ List.dropWhile_suffix _)
  · exact List.suffix_rfl

theorem stem_ne_nil {name : List Char} (nonempty : name ≠ []) : stem name ≠ [] := by
  unfold stem
  split
  · exact List.cons_ne_nil _ _
  · exact nonempty

theorem ne_nil_of_isName {name : List Char} (named : isName name = true) : name ≠ [] := by
  rintro rfl
  cases named

def renamed (name extension : List Char) : List Char := (stem name).reverse ++ '.' :: extension

variable {extension : String}

theorem text_withExtension (named : isName p.splitLast.1 = true) :
    (p.withExtension extension).text.toList =
      p.splitLast.2.reverse ++ renamed p.splitLast.1 extension.toList := by
  unfold withExtension
  simp only [named, if_true, String.toList_ofList, List.reverse_append, List.append_assoc, renamed]

/-- With another extension the parts before the name stay. -/
theorem parts_withExtension (named : isName p.splitLast.1 = true) (whole : '/' ∉ extension.toList) :
    (p.withExtension extension).parts = (partsIn p.splitLast.2.reverse).map String.ofList ++
      [String.ofList (renamed p.splitLast.1 extension.toList)] := by
  have nonempty := ne_nil_of_isName named
  have part : isPart (renamed p.splitLast.1 extension.toList) = true := by
    have other : renamed p.splitLast.1 extension.toList ≠ ['.'] := by
      intro dot
      have length := congrArg List.length dot
      have stem := List.length_pos_iff.2 (stem_ne_nil nonempty)
      simp only [renamed, List.length_append, List.length_reverse, List.length_cons,
        List.length_nil] at length
      omega
    simp [isPart, renamed] at other ⊢
    exact other
  have none : '/' ∉ renamed p.splitLast.1 extension.toList := by
    have front := mt ((stem_suffix p.splitLast.1).mem) (slash_notMem_name p)
    simp [renamed, front, whole]
  rw [parts_eq, text_withExtension named, partsIn_of_leads (leads_before p),
    partsIn_of_not_mem none part, List.map_append, List.map_singleton]

theorem isAbsolute_withExtension (named : isName p.splitLast.1 = true) :
    (p.withExtension extension).isAbsolute = p.isAbsolute := by
  have nonempty : stem p.splitLast.1 ++ p.splitLast.2 ≠ [] :=
    List.append_ne_nil_of_left_ne_nil (stem_ne_nil (ne_nil_of_isName named)) _
  -- what stays of the text has its beginning
  have kept : stem p.splitLast.1 ++ p.splitLast.2 <:+ p.text.toList.reverse := by
    obtain ⟨left, name⟩ := stem_suffix p.splitLast.1
    refine .trans ⟨left, ?_⟩ (dropEmptyEnd_suffix _)
    rw [← List.append_assoc, name, splitLast_append]
  obtain ⟨left, text⟩ := kept
  have first : p.text.toList.head? = (stem p.splitLast.1 ++ p.splitLast.2).getLast? := by
    rw [← List.getLast?_reverse, ← text, List.getLast?_append,
      List.getLast?_eq_some_getLast nonempty, Option.some_or]
  have first' : (p.withExtension extension).text.toList.head? =
      (stem p.splitLast.1 ++ p.splitLast.2).getLast? := by
    unfold withExtension
    simp only [named, if_true, String.toList_ofList]
    rw [List.head?_append, List.head?_reverse, List.getLast?_eq_some_getLast nonempty,
      Option.some_or]
  rw [isAbsolute, isAbsolute, first, first']

/-! Files side by side. -/

/-- Paths of two names in one directory. -/
structure Beside (p q : Pathname) : Prop where
  absolute : p.isAbsolute = q.isAbsolute
  names : ∃ front a b, p.parts = front ++ [a] ∧ q.parts = front ++ [b] ∧
    a ≠ b ∧ a ≠ ".." ∧ b ≠ ".."

/-- A path with another extension lies beside the first, unless the two are the same. -/
theorem beside_withExtension (whole : '/' ∉ extension.toList)
    (proper : extension.toList ≠ []) (apart : (p.withExtension extension).parts ≠ p.parts) :
    (p.withExtension extension).Beside p := by
  by_cases named : isName p.splitLast.1 = true
  · have parts := parts_of_name named
    have parts' := parts_withExtension named whole
    refine ⟨isAbsolute_withExtension named, _, _, _, parts', parts, ?_, ?_, ?_⟩
    · intro same
      exact apart (parts'.trans (same ▸ parts.symm))
    · intro dots
      have length := congrArg (List.length ∘ String.toList) dots
      have stem := List.length_pos_iff.2 (stem_ne_nil (ne_nil_of_isName named))
      have behind := List.length_pos_iff.2 proper
      have two : "..".toList.length = 2 := rfl
      simp only [Function.comp_apply, String.toList_ofList, renamed, List.length_append,
        List.length_reverse, List.length_cons, two] at length
      omega
    · intro dots
      have chars := congrArg String.toList dots
      rw [String.toList_ofList, List.reverse_eq_iff] at chars
      rw [chars] at named
      cases named
  · refine absurd ?_ apart
    unfold withExtension
    simp only [named, Bool.false_eq_true, if_false]

end Disk.Pathname

namespace Store.FileStore

open Disk Pathname

variable {f : FileStore}

/-- No document is written to itself: its name has no extension that is behind itself. -/
theorem temporaryPath_ne (named : isName f.path.splitLast.1 = true) :
    f.temporaryPath.parts ≠ f.path.parts := by
  intro same
  rw [temporaryPath, parts_withExtension named (by decide), parts_of_name named] at same
  have chars := congrArg String.toList (List.cons.inj (List.append_cancel_left same)).1
  simp only [String.toList_ofList] at chars
  have name : f.path.splitLast.1 =
      ['p', 'm', 't', '.', 'n', 'o', 's', 'j', '.'] ++ stem f.path.splitLast.1 := by
    have reversed := congrArg List.reverse chars
    simpa [renamed] using reversed.symm
  have stem_eq : stem f.path.splitLast.1 =
      ['n', 'o', 's', 'j', '.'] ++ stem f.path.splitLast.1 :=
    (congrArg stem name).trans rfl
  have length := congrArg List.length stem_eq
  simp only [List.length_append, List.length_cons] at length
  omega

/-- If the lock is another file than the document, so is the temporary file. -/
theorem beside (apart : f.lockPath.parts ≠ f.path.parts) :
    f.lockPath.Beside f.path ∧ f.temporaryPath.Beside f.path := by
  refine ⟨beside_withExtension (by decide) (by decide) apart, ?_⟩
  refine beside_withExtension (by decide) (by decide) (temporaryPath_ne ?_)
  by_contra unnamed
  refine apart ?_
  unfold lockPath withExtension
  simp only [unnamed, if_false]

end Store.FileStore

end Interlock
