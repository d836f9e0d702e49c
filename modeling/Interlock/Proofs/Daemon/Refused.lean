import Interlock.Daemon.Running
import Interlock.Proofs.Disk.Parents

/-!
A start that is refused the lock. The directory of the lock file is there already, because the lock
is held; so the start gets as far as the lock file, which it makes empty before it asks for the
lock. Then it is refused, and stops. What is left is the disk as it was, but for the content of that
one file: the socket and the document of the daemon that runs are as they were, and its process
number is lost.
-/
namespace Interlock.Daemon

open Disk (Pathname Place Refusal)

namespace Startup

variable {d d' : Disk} {α β : Type}

theorem run_bind (m : Startup α) (f : α → Startup β) (d : Disk) :
    (m >>= f).run.run d =
      match m.run.run d with
      | (.ok a, d) => (f a).run.run d
      | (.error e, d) => (.error e, d) := by
  rw [ExceptT.run_bind, StateT.run_bind]
  generalize m.run.run d = r
  obtain ⟨_ | _, _⟩ := r <;> rfl

theorem run_get (d : Disk) : (get : Startup Disk).run.run d = (.ok d, d) := rfl

theorem run_disk_ok {call : Disk → Except Refusal Disk} {error : Refusal → StartError}
    (done : call d = .ok d') : (disk call error).run.run d = (.ok (), d') := by
  simp only [disk, run_bind, run_get, done]
  rfl

variable {p : Pathname} {place : Place} {content : Bytes}

theorem run_makeParent
    (there : ∀ parent, p.parent? = some parent → d.makeDirectories parent = .ok d) :
    (makeParent p).run.run d = (.ok (), d) := by
  unfold makeParent
  cases called : p.parent? with
  | none => rfl
  | some parent => exact run_disk_ok (there parent called)

/-- Who does not get the lock has made the file empty. -/
theorem run_takeLock_held (resolved : d.resolve p = .ok place) (file : p.isDirectoryOnly = false)
    (there : d.node? place = some (.file content true)) :
    (takeLock p).run.run d = (.error .lockFailed, d.set place (.file [] true)) := by
  have refused : (d.set place (.file [] true)).tryLock p = none :=
    Disk.tryLock_of_locked ((Disk.resolve_set_file there p).trans resolved)
      (Disk.node?_set_file there)
  have emptied : (disk (·.create p)).run.run d = (.ok (), d.set place (.file [] true)) :=
    run_disk_ok (Disk.create_of_file resolved file there)
  simp only [takeLock, run_bind, emptied, run_get, refused]
  rfl

end Startup

variable {c : Config} {environment : String → Option String} {paths : Paths} {content : Bytes}

/-- The lock file differs from the socket in its extension. -/
theorem Paths.lock_eq (resolved : Paths.resolve c environment = .ok paths) :
    paths.lock = paths.socket.withExtension "pid" := by
  unfold Paths.resolve at resolved
  cases log : c.logPath with
  | some p =>
    rw [log] at resolved
    cases resolved
    rfl
  | none =>
    rw [log] at resolved
    cases state : Paths.stateDirectory environment with
    | error e =>
      rw [state] at resolved
      cases resolved
    | ok p =>
      rw [state] at resolved
      cases resolved
      rfl

/-- A start that is refused the lock ends there, and takes nothing back. -/
theorem startOn_held {d : Disk} {place : Place} (number : Nat)
    (named : Paths.resolve c environment = .ok paths)
    (resolved : d.resolve paths.lock = .ok place) (file : paths.lock.isDirectoryOnly = false)
    (there : d.node? place = some (.file content true)) :
    startOn c paths number d = (.error .lockFailed, d.set place (.file [] true)) := by
  have parent : ∀ parent, paths.socket.parent? = some parent → d.makeDirectories parent = .ok d :=
    fun parent called => Disk.makeDirectories_parent_of_extension (by decide)
      (Paths.lock_eq named ▸ resolved) called
  have ran : (Startup.all c paths number).run.run d =
      (.error .lockFailed, d.set place (.file [] true)) := by
    rw [Startup.all, Startup.run_bind, Startup.run_makeParent parent]
    simp only [Startup.run_bind, Startup.run_takeLock_held resolved file there]
  rw [startOn, ran]

/-- The lock file, the socket and the document are as they were. -/
structure Untouched (c : Config) (paths : Paths) (before after : Disk) : Prop where
  lock : after.find paths.lock = before.find paths.lock
  socket : after.find paths.socket = before.find paths.socket
  document : ∀ path, c.store = .file path → after.find path = before.find path

namespace Running

/-- While somebody else holds the lock no daemon starts, and a start that is tried makes the lock
file empty and leaves everything else. So the files of the daemon that runs are untouched exactly
if nothing had been written to the lock file yet. -/
theorem refused_start {s : Services} (number : Nat)
    (named : Paths.resolve c environment = .ok paths)
    (held : s.disk.find paths.lock = .ok (some (.file content true))) :
    (start c paths number s).1 = .error .lockFailed ∧
      ∃ d, (start c paths number s).2 = { s with disk := d } ∧
        d.find paths.lock = .ok (some (.file [] true)) ∧
        (∀ p, s.disk.resolve p ≠ s.disk.resolve paths.lock → d.find p = s.disk.find p) ∧
        (Untouched c paths s.disk d ↔ content = []) := by
  obtain ⟨file, place, resolved, there⟩ := Disk.find_eq_file_iff.1 held
  have ended := startOn_held number named resolved file there
  have emptied : (s.disk.set place (.file [] true)).find paths.lock = .ok (some (.file [] true)) :=
    Disk.find_set_file_self there resolved file
  refine ⟨by rw [start, ended], s.disk.set place (.file [] true), by rw [start, ended], emptied,
    fun p apart => Disk.find_set_file_of_ne there (resolved ▸ apart), ?_⟩
  constructor
  · intro untouched
    have same := emptied.symm.trans (untouched.lock.trans held)
    cases same
    rfl
  · rintro rfl
    have same := Disk.find_set_file_same there
    exact ⟨same _, same _, fun path _ => same path⟩

def usual : Config := { spaces := [⟨"s-1"⟩] }

def directories (name : String) : Option String :=
  if name = "XDG_RUNTIME_DIR" then some "/run"
  else if name = "XDG_STATE_HOME" then some "/state"
  else none

/-- The services beside a daemon that runs: the disk has its socket, and its lock file with the
process number. -/
def beside : Services where
  disk :=
    { nodes := [(["run"], .directory),
        (["run", "fleetlock.pid"], .file (Startup.numberLine 4711) true),
        (["run", "fleetlock.sock"], .socket)] }
  clock := default

/-- A second start with the usual paths: the process number of the first daemon is gone. -/
theorem refused_start_emptied : ∃ paths, Paths.resolve usual directories = .ok paths ∧
    beside.disk.find paths.lock = .ok (some (.file (Startup.numberLine 4711) true)) ∧
      (start usual paths 4712 beside).1 = .error .lockFailed ∧
      (start usual paths 4712 beside).2.disk.find paths.lock = .ok (some (.file [] true)) ∧
      ¬Untouched usual paths beside.disk (start usual paths 4712 beside).2.disk := by
  obtain ⟨paths, named, held⟩ : ∃ paths, Paths.resolve usual directories = .ok paths ∧
      beside.disk.find paths.lock = .ok (some (.file (Startup.numberLine 4711) true)) := by
    refine ⟨⟨⟨"/run/fleetlock.sock"⟩, ⟨"/run/fleetlock.pid"⟩, ⟨"/state/fleetlock/fld.log"⟩⟩, ?_, ?_⟩
    · decide +kernel
    · decide +kernel
  obtain ⟨refused, d, left, emptied, -, exact⟩ := refused_start 4712 named held
  have disk : (start usual paths 4712 beside).2.disk = d := congrArg Services.disk left
  refine ⟨paths, named, held, refused, disk ▸ emptied, fun untouched => ?_⟩
  exact absurd (exact.1 (disk ▸ untouched)) (by decide +kernel)

end Running

end Interlock.Daemon
