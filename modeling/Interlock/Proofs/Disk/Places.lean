import Interlock.Proofs.Disk.Names
import Interlock.Proofs.Ordered

/-!
What a call changes on a disk. A change to a file leaves everything that stands at other places, and
all ways through directories; so a path beside the file leads where it led, and to what was there.
-/
namespace Interlock.Disk

open Pathname

variable {d d' : Disk} {place other start goal : Place} {n : Node} {p q : Pathname}

/-! Places. -/

theorem node?_set_self (below : place ≠ []) : (d.set place n).node? place = some n := by
  have notRoot : place.isEmpty = false := List.isEmpty_eq_false_iff.2 below
  simp [node?, set, notRoot]

theorem node?_set_of_ne (apart : other ≠ place) : (d.set place n).node? other = d.node? other := by
  have skipped : (other == place) = false := by simpa using apart
  simp only [node?, set, List.lookup_cons, skipped, lookup_filter_ne _ apart]

theorem node?_unset_of_ne (apart : other ≠ place) :
    (d.unset place).node? other = d.node? other := by
  simp only [node?, unset, lookup_filter_ne _ apart]

theorem node?_unset_self (below : place ≠ []) : (d.unset place).node? place = none := by
  have notRoot : place.isEmpty = false := List.isEmpty_eq_false_iff.2 below
  simp only [node?, notRoot, Bool.false_eq_true, if_false, unset, List.lookup_eq_none_iff]
  intro e kept
  have apart : e.1 ≠ place := by simpa using (List.mem_filter.1 kept).2
  simpa using apart.symm

/-! Ways. -/

/-- The directories are the same. -/
structure SameWays (d d' : Disk) : Prop where
  start : d'.workingDirectory = d.workingDirectory
  directories : ∀ place, d'.node? place = some .directory ↔ d.node? place = some .directory

theorem SameWays.trans {d₁ : Disk} (first : SameWays d d₁) (second : SameWays d₁ d') :
    SameWays d d' :=
  ⟨second.start.trans first.start, fun place =>
    (second.directories place).trans (first.directories place)⟩

/-- A change at a place where there is no directory, before and after. -/
theorem sameWays_of_one (start : d'.workingDirectory = d.workingDirectory)
    (others : ∀ other, other ≠ place → d'.node? other = d.node? other)
    (before : d.node? place ≠ some .directory) (after : d'.node? place ≠ some .directory) :
    SameWays d d' := by
  refine ⟨start, fun other => ?_⟩
  by_cases here : other = place
  · exact here ▸ iff_of_false after before
  · rw [others other here]

theorem follow_cons_eq_ok_iff {name : String} {rest : List String} :
    d.follow start (name :: rest) = .ok goal ↔
      d.node? start = some .directory ∧ ¬ 255 < name.utf8ByteSize ∧
        d.follow (if name = ".." then start.dropLast else start ++ [name]) rest = .ok goal := by
  rw [follow]
  cases node : d.node? start with
  | none => simp
  | some n =>
    cases n with
    | directory =>
      by_cases long : 255 < name.utf8ByteSize
      · simp [long]
      · simp only [long, if_false, true_and, not_false_eq_true]
    | file content locked => simp
    | socket => simp

/-- Where a way can be followed it can be followed wherever the directories are the same. -/
theorem SameWays.follow (same : SameWays d d') {names : List String}
    (followed : d.follow start names = .ok goal) : d'.follow start names = .ok goal := by
  induction names generalizing start with
  | nil => exact followed
  | cons name rest ih =>
    obtain ⟨here, short, rest⟩ := follow_cons_eq_ok_iff.1 followed
    exact follow_cons_eq_ok_iff.2 ⟨(same.directories _).2 here, short, ih rest⟩

theorem follow_append (front back : List String) :
    d.follow start (front ++ back) = (d.follow start front).bind (d.follow · back) := by
  induction front generalizing start with
  | nil => rfl
  | cons name front ih =>
    rw [List.cons_append, follow, follow]
    cases node : d.node? start with
    | none => rfl
    | some n =>
      cases n with
      | directory =>
        by_cases long : 255 < name.utf8ByteSize
        · simp only [long, if_true]
          rfl
        · simp only [long, if_false]
          exact ih
      | file content locked => rfl
      | socket => rfl

theorem follow_in {home : Place} (directory : d.node? home = some .directory) (name : String) :
    d.follow home [name] = if 255 < name.utf8ByteSize then .error .nameTooLong
      else .ok (if name = ".." then home.dropLast else home ++ [name]) := by
  rw [Disk.follow, directory]
  rfl

/-- The last name of a way stands in a directory, to which the way before it leads. -/
theorem follow_name {front : List String} {name : String} (proper : name ≠ "..")
    (followed : d.follow start (front ++ [name]) = .ok goal) :
    ∃ home, d.follow start front = .ok home ∧ d.node? home = some .directory ∧
      goal = home ++ [name] := by
  rw [follow_append] at followed
  cases way : d.follow start front with
  | error e =>
    rw [way] at followed
    cases followed
  | ok home =>
    rw [way] at followed
    have last : d.follow home [name] = .ok goal := followed
    obtain ⟨directory, -, last⟩ := follow_cons_eq_ok_iff.1 last
    rw [if_neg proper] at last
    cases last
    exact ⟨home, rfl, directory, rfl⟩

/-- A path that can be resolved is followed from where it starts. -/
theorem follow_of_resolve (resolved : d.resolve p = .ok goal) :
    d.follow (if p.isAbsolute then [] else d.workingDirectory) p.parts = .ok goal := by
  unfold resolve at resolved
  split at resolved
  · cases resolved
  · split at resolved
    · cases resolved
    · split at resolved
      · cases resolved
      · exact resolved

theorem resolve_congr
    (same : d'.follow (if p.isAbsolute then [] else d'.workingDirectory) p.parts =
      d.follow (if p.isAbsolute then [] else d.workingDirectory) p.parts) :
    d'.resolve p = d.resolve p := by
  simp only [resolve, same]

theorem SameWays.resolve (same : SameWays d d') (resolved : d.resolve p = .ok goal) :
    d'.resolve p = .ok goal := by
  have followed := follow_of_resolve resolved
  refine (resolve_congr ?_).trans resolved
  rw [same.start, followed, same.follow followed]

/-! Paths side by side. -/

/-- Two paths beside each other lead to different names in one directory. -/
theorem place_of_beside (beside : p.Beside q) (source : d.resolve p = .ok place)
    (target : d.resolve q = .ok other) : other ≠ place ∧ place ≠ [] ∧ other ≠ [] := by
  obtain ⟨front, a, b, parts, parts', apart, proper, proper'⟩ := beside.names
  have way := follow_of_resolve source
  have way' := follow_of_resolve target
  rw [parts] at way
  rw [parts', ← beside.absolute] at way'
  obtain ⟨home, found, -, rfl⟩ := follow_name proper way
  obtain ⟨home', found', -, rfl⟩ := follow_name proper' way'
  cases found.symm.trans found'
  refine ⟨fun same => apart ?_, by simp, by simp⟩
  exact (List.cons.inj (List.append_cancel_left same)).1.symm

/-- A path leads to the same place as before when it lies beside one that leads somewhere. -/
theorem SameWays.resolve_beside (same : SameWays d d') (beside : p.Beside q)
    (source : d.resolve p = .ok place) : d'.resolve q = d.resolve q := by
  obtain ⟨front, a, b, parts, parts', -, proper, -⟩ := beside.names
  have way := follow_of_resolve source
  rw [parts] at way
  obtain ⟨home, found, directory, -⟩ := follow_name proper way
  refine resolve_congr ?_
  rw [same.start, parts', ← beside.absolute, follow_append, follow_append, found, same.follow found]
  -- in the directory itself only the length of the name matters
  exact (follow_in ((same.directories home).2 directory) b).trans (follow_in directory b).symm

theorem find_eq (d : Disk) (p : Pathname) :
    d.find p =
      match d.resolve p with
      | .error e => .error e
      | .ok place =>
        match d.node? place with
        | some .directory => .ok (some .directory)
        | some n => if p.isDirectoryOnly then .error .notADirectory else .ok (some n)
        | none => .ok none := by
  unfold find
  cases d.resolve p with
  | error e => rfl
  | ok place => rfl

/-- A file is found where it stands, unless the path is written as that of a directory. -/
theorem find_eq_file_iff {content : Bytes} {locked : Bool} :
    d.find p = .ok (some (.file content locked)) ↔
      p.isDirectoryOnly = false ∧
        ∃ place, d.resolve p = .ok place ∧ d.node? place = some (.file content locked) := by
  rw [find_eq]
  cases resolved : d.resolve p with
  | error e => simp
  | ok place =>
    cases node : d.node? place with
    | none => simp [node]
    | some n => cases n <;> cases p.isDirectoryOnly <;> simp [node]

/-- Changes to one file leave what is found beside it. -/
theorem find_beside (beside : p.Beside q) (source : d.resolve p = .ok place)
    (ways : SameWays d d') (others : ∀ other, other ≠ place → d'.node? other = d.node? other) :
    d'.find q = d.find q := by
  rw [find_eq, find_eq, ways.resolve_beside beside source]
  cases target : d.resolve q with
  | error e => rfl
  | ok other => simp only [others other (place_of_beside beside source target).1]

/-! Calls. -/

theorem below_of_node? (found : d.node? place ≠ some .directory) : place ≠ [] := by
  rintro rfl
  exact found rfl

/-- A disk with something that is no directory at one place, where no directory was, and all else as
it was. -/
structure Wrote (d : Disk) (place : Place) (n : Node) (d' : Disk) : Prop where
  file : n ≠ .directory
  before : d.node? place ≠ some .directory
  after : d'.node? place = some n
  others : ∀ other, other ≠ place → d'.node? other = d.node? other
  start : d'.workingDirectory = d.workingDirectory

theorem Wrote.ways (wrote : Wrote d place n d') : SameWays d d' := by
  refine sameWays_of_one wrote.start wrote.others wrote.before fun directory => wrote.file ?_
  rw [wrote.after] at directory
  exact Option.some.inj directory

theorem wrote_self (file : n ≠ .directory) (there : d.node? place = some n) :
    Wrote d place n d where
  file := file
  before directory := file (Option.some.inj (there.symm.trans directory))
  after := there
  others _ _ := rfl
  start := rfl

theorem wrote_set (file : n ≠ .directory) (before : d.node? place ≠ some .directory) :
    Wrote d place n (d.set place n) where
  file := file
  before := before
  after := node?_set_self (below_of_node? before)
  others _ apart := node?_set_of_ne apart
  start := rfl

theorem Wrote.trans {m : Node} {d₁ : Disk} (wrote : Wrote d place m d₁)
    (again : Wrote d₁ place n d') : Wrote d place n d' where
  file := again.file
  before := wrote.before
  after := again.after
  others other apart := (again.others other apart).trans (wrote.others other apart)
  start := again.start.trans wrote.start

theorem resolve_of_ok {α : Type} {f : Place → Except Refusal α} {a : α}
    (done : (d.resolve p).bind f = .ok a) : ∃ place, d.resolve p = .ok place ∧ f place = .ok a := by
  cases resolved : d.resolve p with
  | error e =>
    rw [resolved] at done
    cases done
  | ok place =>
    rw [resolved] at done
    exact ⟨place, rfl, done⟩

theorem openToWrite_eq (d : Disk) (p : Pathname) :
    d.openToWrite p = (d.resolve p).bind fun place =>
      match d.node? place with
      | none => if p.isDirectoryOnly then .error .isADirectory else d.place place (.file [])
      | some .directory => .error .isADirectory
      | some .socket => if p.isDirectoryOnly then .error .notADirectory else .error .noDevice
      | some (.file ..) => if p.isDirectoryOnly then .error .notADirectory else .ok d := by
  unfold openToWrite
  rw [find_eq]
  cases resolved : d.resolve p with
  | error e => rfl
  | ok place =>
    simp only [Except.bind]
    cases d.node? place with
    | none => rfl
    | some n => cases n <;> cases p.isDirectoryOnly <;> rfl

/-- The content of a file that is opened to be written: what it was, or nothing if it was made. -/
def Held (d : Disk) (place : Place) (content : Bytes) (locked : Bool) : Prop :=
  d.node? place = some (.file content locked) ∨ d.node? place = none ∧ content = []

/-- A file can be opened to be written when it is there, or when it can be made. -/
theorem wrote_of_openToWrite (opened : d.openToWrite p = .ok d') :
    ∃ place content locked, d.resolve p = .ok place ∧ p.isDirectoryOnly = false ∧
      Held d place content locked ∧ Wrote d place (.file content locked) d' := by
  rw [openToWrite_eq] at opened
  obtain ⟨place, resolved, opened⟩ := resolve_of_ok opened
  cases file : p.isDirectoryOnly with
  | true =>
    rw [file] at opened
    split at opened <;> cases opened
  | false =>
    rw [file] at opened
    split at opened
    · next none =>
      rw [if_neg Bool.false_ne_true, Disk.place] at opened
      split at opened <;> cases opened
      exact ⟨place, [], false, resolved, rfl, .inr ⟨none, rfl⟩, wrote_set nofun (by simp [none])⟩
    · cases opened
    · cases opened
    · next content locked there =>
      cases opened
      exact ⟨place, content, locked, resolved, rfl, .inl there, wrote_self nofun there⟩

theorem modify_eq (d : Disk) (p : Pathname) (f : Bytes → Bytes) :
    d.modify p f = (d.openToWrite p).bind fun d => (d.resolve p).bind fun place =>
      match d.node? place with
      | some (.file content locked) => .ok (d.set place (.file (f content) locked))
      | _ => .error .notFound := rfl

theorem wrote_of_modify {f : Bytes → Bytes} (modified : d.modify p f = .ok d') :
    ∃ place content locked, d.resolve p = .ok place ∧ p.isDirectoryOnly = false ∧
      Held d place content locked ∧ Wrote d place (.file (f content) locked) d' := by
  rw [modify_eq] at modified
  cases opened : d.openToWrite p with
  | error e =>
    rw [opened] at modified
    cases modified
  | ok d₁ =>
    rw [opened] at modified
    obtain ⟨place, content, locked, resolved, file, held, wrote⟩ := wrote_of_openToWrite opened
    have again : (match d₁.node? place with
      | some (.file content locked) => Except.ok (d₁.set place (.file (f content) locked))
      | _ => .error Refusal.notFound) = .ok d' := by
      simpa [Except.bind, wrote.ways.resolve resolved] using modified
    rw [wrote.after] at again
    cases again
    refine ⟨place, content, locked, resolved, file, held, wrote.trans (wrote_set nofun ?_)⟩
    rw [wrote.after]
    exact nofun

/-! What is found after a call. -/

theorem Wrote.find_beside (wrote : Wrote d place n d') (resolved : d.resolve p = .ok place)
    (beside : p.Beside q) : d'.find q = d.find q :=
  Disk.find_beside beside resolved wrote.ways wrote.others

/-- Opening a file to write it leaves what is found beside it. -/
theorem find_of_openToWrite (opened : d.openToWrite p = .ok d') (beside : p.Beside q) :
    d'.find q = d.find q := by
  obtain ⟨place, content, locked, resolved, -, -, wrote⟩ := wrote_of_openToWrite opened
  exact wrote.find_beside resolved beside

/-- A file that has been changed, or made and changed. -/
theorem find_of_modify {f : Bytes → Bytes} (modified : d.modify p f = .ok d') :
    ∃ content locked, d'.find p = .ok (some (.file (f content) locked)) ∧
      (d.find p = .ok (some (.file content locked)) ∨ d.find p = .ok none ∧ content = []) := by
  obtain ⟨place, content, locked, resolved, file, held, wrote⟩ := wrote_of_modify modified
  refine ⟨content, locked, ?_, ?_⟩
  · exact find_eq_file_iff.2 ⟨file, place, wrote.ways.resolve resolved, wrote.after⟩
  · rcases held with there | ⟨nothing, empty⟩
    · exact .inl (find_eq_file_iff.2 ⟨file, place, resolved, there⟩)
    · exact .inr ⟨by simp only [find_eq, resolved, nothing], empty⟩

/-- Changing a file leaves what is found beside it. -/
theorem find_beside_of_modify {f : Bytes → Bytes} (modified : d.modify p f = .ok d')
    (beside : p.Beside q) : d'.find q = d.find q := by
  obtain ⟨place, content, locked, resolved, -, -, wrote⟩ := wrote_of_modify modified
  exact wrote.find_beside resolved beside

theorem rename_eq (d : Disk) (p q : Pathname) :
    d.rename p q = (d.resolve p).bind fun source => (d.resolve q).bind fun target =>
      (d.find p).bind fun found => (d.find q).bind fun there =>
        match found, there with
        | none, _ => .error Refusal.notFound
        | some _, some .directory => .error .isADirectory
        | some n, _ =>
          if q.isDirectoryOnly then .error .notADirectory
          else .ok ((d.unset source).set target n) := rfl

/-- A file that takes the place of what is beside it: it is found there, and no longer here. -/
theorem find_of_rename {content : Bytes} {locked : Bool} (beside : p.Beside q)
    (there : d.find p = .ok (some (.file content locked))) (renamed : d.rename p q = .ok d') :
    d'.find q = .ok (some (.file content locked)) ∧ d'.find p = .ok none := by
  obtain ⟨-, source, resolved, here⟩ := find_eq_file_iff.1 there
  rw [rename_eq, resolved, there] at renamed
  obtain ⟨target, resolved', renamed⟩ := resolve_of_ok (f := fun target => _) renamed
  obtain ⟨apart, below, below'⟩ := place_of_beside beside resolved resolved'
  cases found : d.find q with
  | error e =>
    rw [found] at renamed
    cases renamed
  | ok old =>
    have replaces : old ≠ some .directory ∧ q.isDirectoryOnly = false ∧
        d' = (d.unset source).set target (.file content locked) := by
      rw [found] at renamed
      simp only [Except.bind] at renamed
      split at renamed
      · cases renamed
      · cases renamed
      · next same other =>
        cases same
        split at renamed
        · cases renamed
        · next file =>
          cases renamed
          exact ⟨other, by simpa using file, rfl⟩
    obtain ⟨notDirectory, file, rfl⟩ := replaces
    have before : (d.unset source).node? target ≠ some .directory := by
      rw [node?_unset_of_ne apart]
      intro directory
      refine notDirectory ?_
      have found' := found
      simp only [find_eq, resolved', directory] at found'
      exact (Except.ok.inj found').symm
    have wrote : Wrote (d.unset source) target _ _ :=
      wrote_set (n := .file content locked) nofun before
    have ways : SameWays d ((d.unset source).set target (.file content locked)) := by
      have unset : SameWays d (d.unset source) := by
        have others (other : Place) (apart : other ≠ source) := node?_unset_of_ne (d := d) apart
        refine sameWays_of_one rfl others ?_ ?_
        · rw [here]
          exact nofun
        · rw [node?_unset_self below]
          exact nofun
      exact unset.trans wrote.ways
    refine ⟨find_eq_file_iff.2 ⟨file, target, ways.resolve resolved', wrote.after⟩, ?_⟩
    have gone := (wrote.others source apart.symm).trans (node?_unset_self below)
    simp only [find_eq, ways.resolve resolved, gone]

/-! A file that is there, with another content. -/

variable {content bytes : Bytes} {locked locked' : Bool}

theorem node?_set_file (there : d.node? place = some (.file content locked)) :
    (d.set place (.file bytes locked')).node? place = some (.file bytes locked') := by
  refine node?_set_self (below_of_node? (d := d) ?_)
  rw [there]
  exact nofun

/-- Every way leads where it led, or is refused for the same reason. -/
theorem follow_set_file (there : d.node? place = some (.file content locked)) (start : Place)
    (names : List String) :
    (d.set place (.file bytes locked')).follow start names = d.follow start names := by
  induction names generalizing start with
  | nil => rfl
  | cons name rest ih =>
    rw [follow, follow]
    by_cases here : start = place
    · subst here
      rw [node?_set_file there, there]
    · simp only [node?_set_of_ne here, ih]

theorem resolve_set_file (there : d.node? place = some (.file content locked)) (p : Pathname) :
    (d.set place (.file bytes locked')).resolve p = d.resolve p :=
  resolve_congr (follow_set_file there _ _)

/-- What stands elsewhere is found as before. -/
theorem find_set_file_of_ne (there : d.node? place = some (.file content locked))
    (apart : d.resolve p ≠ .ok place) :
    (d.set place (.file bytes locked')).find p = d.find p := by
  rw [find_eq, find_eq, resolve_set_file there]
  cases resolved : d.resolve p with
  | error e => rfl
  | ok other =>
    have elsewhere : other ≠ place := fun same => apart (same ▸ resolved)
    simp only [node?_set_of_ne elsewhere]

theorem find_set_file_self (there : d.node? place = some (.file content locked))
    (resolved : d.resolve p = .ok place) (file : p.isDirectoryOnly = false) :
    (d.set place (.file bytes locked')).find p = .ok (some (.file bytes locked')) :=
  find_eq_file_iff.2
    ⟨file, place, (resolve_set_file there p).trans resolved, node?_set_file there⟩

/-- A file that holds just this content, with this lock, is found as before from everywhere. -/
theorem find_set_file_same (there : d.node? place = some (.file content locked)) (p : Pathname) :
    (d.set place (.file content locked)).find p = d.find p := by
  by_cases here : d.resolve p = .ok place
  · rw [find_eq, find_eq, resolve_set_file there, here]
    simp only [node?_set_file there, there]
  · exact find_set_file_of_ne there here

theorem openToWrite_of_file (there : d.find p = .ok (some (.file content locked))) :
    d.openToWrite p = .ok d := by
  simp only [openToWrite, there]
  rfl

/-- A file that is there can be made empty. -/
theorem create_of_file (resolved : d.resolve p = .ok place) (file : p.isDirectoryOnly = false)
    (there : d.node? place = some (.file content locked)) :
    d.create p = .ok (d.set place (.file [] locked)) := by
  have found := find_eq_file_iff.2 ⟨file, place, resolved, there⟩
  rw [create, modify_eq, openToWrite_of_file found]
  simp only [Except.bind, resolved, there]

theorem tryLock_of_locked (resolved : d.resolve p = .ok place)
    (there : d.node? place = some (.file content true)) : d.tryLock p = none := by
  simp only [tryLock, resolved, there]

end Interlock.Disk
