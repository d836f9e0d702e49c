import Interlock.Proofs.Daemon.Refused
import Interlock.Proofs.Disk.Names

/-!
Files that get their paths from another: the lock file and the temporary file of a document, and the
lock file of a socket. Each of these paths differs from the first in its extension only. So it is
the first path again if that had the extension already, and only then: a document that has the
extension `lock` is its own lock file, a socket that has the extension `pid` is its own lock file,
and no document is its own temporary file.
-/
namespace Interlock

namespace Disk.Pathname

structure Same (p q : Pathname) : Prop where
  absolute : p.isAbsolute = q.isAbsolute
  parts : p.parts = q.parts

/-- The last name has this extension. A name that starts with its only dot has none. -/
def Extended (p : Pathname) (extension : String) : Prop :=
  ∃ front, front ≠ "" ∧ p.fileName? = some (front ++ "." ++ extension)

variable {p : Pathname} {extension other : String}

theorem isSome_fileName? : p.fileName?.isSome = isName p.splitLast.1 := by
  unfold fileName?
  simp only
  cases isName p.splitLast.1 <;> rfl

theorem fileName?_eq (named : isName p.splitLast.1 = true) :
    p.fileName? = some (String.ofList p.splitLast.1.reverse) := by
  unfold fileName?
  simp only [named, if_true]

/-- What stands before the last dot of a name is its stem. -/
theorem stem_append {name front : List Char} (dotless : '.' ∉ name) (nonempty : front ≠ []) :
    stem (name ++ '.' :: front) = front := by
  have passed : ∀ c ∈ name, (c != '.') = true := by
    intro c listed
    rw [bne_iff_ne]
    rintro rfl
    exact dotless listed
  obtain ⟨c, rest, rfl⟩ := List.exists_cons_of_ne_nil nonempty
  unfold stem
  rw [List.dropWhile_append_of_pos passed, List.dropWhile_cons_of_neg (by decide)]

/-- A name stays as it is exactly if it had that extension. -/
theorem renamed_eq_iff {name e : List Char} (nonempty : name ≠ []) (dotless : '.' ∉ e) :
    renamed name e = name.reverse ↔ ∃ front, front ≠ [] ∧ name.reverse = front ++ '.' :: e := by
  constructor
  · intro same
    exact ⟨(stem name).reverse, by simpa using stem_ne_nil nonempty, same.symm⟩
  · rintro ⟨front, filled, written⟩
    have name_eq : name = e.reverse ++ '.' :: front.reverse := by
      simpa using congrArg List.reverse written
    have stem_eq : stem name = front.reverse := by
      rw [name_eq, stem_append (by simpa using dotless) (by simpa using filled)]
    rw [renamed, stem_eq, List.reverse_reverse, written]

theorem extended_iff (named : isName p.splitLast.1 = true) :
    p.Extended extension ↔
      ∃ front, front ≠ [] ∧ p.splitLast.1.reverse = front ++ '.' :: extension.toList := by
  rw [Extended, fileName?_eq named]
  constructor
  · rintro ⟨front, filled, name⟩
    refine ⟨front.toList, by simpa using filled, ?_⟩
    have chars := congrArg String.toList (Option.some.inj name)
    simpa using chars
  · rintro ⟨front, filled, name⟩
    refine ⟨String.ofList front, by simpa using filled, congrArg some ?_⟩
    rw [name]
    apply String.toList_injective
    simp

/-- Paths that differ in the extension only are the same exactly if the names are. -/
theorem same_withExtension_iff (named : isName p.splitLast.1 = true)
    (whole : '/' ∉ extension.toList) :
    (p.withExtension extension).Same p ↔
      renamed p.splitLast.1 extension.toList = p.splitLast.1.reverse := by
  have parts := parts_of_name named
  have parts' := parts_withExtension named whole
  constructor
  · rintro ⟨-, same⟩
    rw [parts, parts'] at same
    have name := congrArg String.toList (List.cons.inj (List.append_cancel_left same)).1
    simpa using name
  · intro same
    exact ⟨isAbsolute_withExtension named, by rw [parts, parts', same]⟩

/-- With another extension a path stays the same exactly if it had that one before. -/
theorem same_withExtension_iff_extended (named : isName p.splitLast.1 = true)
    (whole : '/' ∉ extension.toList) (dotless : '.' ∉ extension.toList) :
    (p.withExtension extension).Same p ↔ p.Extended extension := by
  rw [same_withExtension_iff named whole, renamed_eq_iff (ne_nil_of_isName named) dotless,
    extended_iff named]

/-- Different extensions make different paths. -/
theorem eq_of_same_withExtension (named : isName p.splitLast.1 = true)
    (whole : '/' ∉ extension.toList) (whole' : '/' ∉ other.toList)
    (same : (p.withExtension extension).Same (p.withExtension other)) : extension = other := by
  have parts := same.parts
  rw [parts_withExtension named whole, parts_withExtension named whole'] at parts
  have name := congrArg String.toList (List.cons.inj (List.append_cancel_left parts)).1
  simp only [String.toList_ofList, renamed] at name
  exact String.toList_injective (List.cons.inj (List.append_cancel_left name)).2

end Disk.Pathname

namespace Daemon

open Disk (Pathname)
open Store (FileStore)

/-- Which of the files that belong together have the same path. A document and its temporary file
never have, nor have its lock file and its temporary file; the lock file is the document itself
exactly if that has the extension `lock`, and the lock file of a daemon is its socket exactly if
that has the extension `pid`. -/
theorem derived_same_iff (f : FileStore) (c : Config) (environment : String → Option String) :
    (f.path.fileName?.isSome = true →
      ¬f.temporaryPath.Same f.path ∧ ¬f.temporaryPath.Same f.lockPath ∧
        (f.lockPath.Same f.path ↔ f.path.Extended "lock")) ∧
      ∀ paths, Paths.resolve c environment = .ok paths → paths.socket.fileName?.isSome = true →
        (paths.lock.Same paths.socket ↔ paths.socket.Extended "pid") := by
  constructor
  · intro named
    rw [Pathname.isSome_fileName?] at named
    refine ⟨fun same => FileStore.temporaryPath_ne named same.parts, fun same => ?_, ?_⟩
    · have extensions := Pathname.eq_of_same_withExtension named (by decide) (by decide) same
      exact absurd extensions (by decide)
    · exact Pathname.same_withExtension_iff_extended named (by decide) (by decide)
  · intro paths resolved named
    rw [Pathname.isSome_fileName?] at named
    rw [Paths.lock_eq resolved]
    exact Pathname.same_withExtension_iff_extended named (by decide) (by decide)

def clashing : FileStore := ⟨⟨"/db/records.lock"⟩⟩

/-- A daemon whose socket is named like a lock file. -/
def clashingSocket : Config where
  spaces := [⟨"s-1"⟩]
  socketPath := some ⟨"/run/fl.pid"⟩
  logPath := some ⟨"/var/log/fld.log"⟩
  fleets := [⟨"yard", .simulated, none, none, [], []⟩]

/-- Two files that are their own lock files. A record cannot be added to such a document, which is
an empty file then; and the configuration of such a daemon is accepted. -/
theorem derived_same_iff_clashing :
    clashing.lockPath.Same clashing.path ∧
      (let after := clashing.call (.add (.waiting ⟨"s-1"⟩ ⟨"w-1"⟩ ⟨1⟩ default))
        { nodes := [(["db"], .directory)] }
      after.1.isOk = false ∧ after.2.find clashing.path = .ok (some (.file [] false))) ∧
      clashingSocket.validate = .ok () ∧
      ∃ paths, Paths.resolve clashingSocket (fun _ => none) = .ok paths ∧
        paths.lock.Same paths.socket := by
  obtain ⟨paths, resolved, socket⟩ : ∃ paths,
      Paths.resolve clashingSocket (fun _ => none) = .ok paths ∧ paths.socket = ⟨"/run/fl.pid"⟩ :=
    ⟨_, rfl, rfl⟩
  obtain ⟨document, daemon⟩ := derived_same_iff clashing clashingSocket fun _ => none
  have ofDocument := document (by decide +kernel)
  have ofDaemon := daemon paths resolved (by rw [socket]; decide +kernel)
  have lock : clashing.path.Extended "lock" := ⟨"records", by decide +kernel⟩
  have pid : paths.socket.Extended "pid" := ⟨"fl", by rw [socket]; decide +kernel⟩
  exact ⟨ofDocument.2.2.2 lock, by decide +kernel, by decide +kernel, paths, resolved,
    ofDaemon.2 pid⟩

end Daemon

end Interlock
