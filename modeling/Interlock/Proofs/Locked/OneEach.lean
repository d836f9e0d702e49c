import Interlock.Coordinator.Operation
import Interlock.Proofs.Locked.Evaluation
import Interlock.Proofs.Store.OneEach

/-!
One record for each worker in each space. Any number of coordinators, of any number of processes,
share a document. Every store call of their operations is a transaction on it, and the operation
waits for the answer, gives that up, or is dropped altogether, while its transaction goes on. All
operations call in an orderly way, whatever they are answered; so each turn under the lock leaves a
document with one record each, although by then whatever the caller has read may have changed.
Specification, section 3: Data Model.
-/
namespace Interlock.Locked

open Coordinator Store Program

/-! The calls of operations. -/

/-- Orderly calls, as long as all times that are answered can be written. -/
def orderly : Conduct actions where
  allows _
    | .store _ c => c.Orderly
    | _ => True
  expects
    | .store _ c, .inTime (.ok v) => ∀ r ∈ c.listed v, r.enqueuedAt.Representable
    | .stamp _, stamp => stamp.time.Representable
    | _, _ => True

section Operations

variable {c : Coordinator} {w : WorkerId} {s : SpaceId} {l : Limits}

theorem enroll_orderly (log : Log actions) :
    (c.enroll w s).Keeps orderly (fun _ _ => True) log := by
  unfold Coordinator.enroll
  split
  · trivial
  · refine Keeps.bind (fun log => ?_) fun a log => by cases a <;> simp
    simp only [Queue.enroll, keeps_bind, ask, keeps_call, keeps_done]
    refine ⟨trivial, fun stamp written => ?_⟩
    split
    · trivial
    · exact keeps_bind.2 (keeps_callStore.2
        ⟨written, fun a _ => by cases a <;> trivial, fun _ => trivial⟩)

theorem takeBackBlock_orderly (waiting : Record) (log : Log actions) :
    (c.takeBackBlock s waiting).Keeps orderly (fun _ _ => True) log := by
  unfold takeBackBlock Queue.lockHolder
  refine keeps_bind.2 (keeps_callStore.2 ⟨trivial, fun a _ => ?_, fun _ => trivial⟩)
  rcases a with e | holder | holder
  · trivial
  · exact keeps_bind.2 (keeps_command.2
      ⟨trivial, fun a _ => by cases a <;> trivial, fun _ => trivial⟩)
  · trivial

theorem grant_orderly {waiting : Record} (written : waiting.enqueuedAt.Representable)
    (log : Log actions) : (c.grant s waiting).Keeps orderly (fun _ _ => True) log := by
  unfold grant
  refine keeps_bind.2 (keeps_command.2 ⟨trivial, fun a _ => ?_, fun _ => trivial⟩)
  rcases a with e | ⟨⟩
  · trivial
  · refine keeps_bind.2 (keeps_bind.2 (keeps_callStore.2 ⟨written, fun a _ => ?_, fun _ => ?_⟩))
    · cases a with
      | error e => exact Keeps.bind (takeBackBlock_orderly waiting) fun _ _ => trivial
      | ok u =>
        simp only [keeps_pure, keeps_bind, keeps_report, keeps_publish]
        exact ⟨trivial, fun _ _ => trivial⟩
    · exact Keeps.bind (takeBackBlock_orderly waiting) fun _ _ => trivial

/-- The waiter that an evaluation swaps in has been read from the store. -/
theorem attempt_orderly (log : Log actions) :
    (c.attempt s).Keeps orderly (fun _ _ => True) log := by
  unfold attempt Queue.lockHolder Queue.nextWaiter Queue.heldBy Queue.lockHolders
  refine keeps_bind.2 (keeps_callStore.2 ⟨trivial, fun a _ => ?_, fun _ => trivial⟩)
  rcases a with e | holder | holder
  · trivial
  · refine keeps_bind.2 (keeps_callStore.2 ⟨trivial, fun a written => ?_, fun _ => trivial⟩)
    rcases a with e | waiting | waiting
    · trivial
    · trivial
    · refine keeps_bind.2 (keeps_bind.2 (keeps_callStore.2
        ⟨trivial, fun a _ => ?_, fun _ => trivial⟩))
      cases a with
      | error e => trivial
      | ok holders =>
        simp only [keeps_pure]
        split
        · trivial
        · refine Keeps.bind (grant_orderly (written waiting ?_)) fun _ _ => trivial
          exact Option.mem_toList.2 rfl
  · trivial

theorem evaluate_orderly (log : Log actions) :
    (c.evaluate s).Keeps orderly (fun _ _ => True) log := by
  rw [evaluate, keeps_inSpan]
  exact Keeps.bind attempt_orderly fun a _ => by cases a <;> trivial

theorem deleteAll_orderly (removal : Queue.Removal) (rs : List Record) (log : Log actions) :
    (Queue.deleteAll l removal rs).Keeps orderly (fun _ _ => True) log := by
  induction rs generalizing removal log with
  | nil => trivial
  | cons r rest ih =>
    refine keeps_bind.2 (keeps_callStore.2 ⟨trivial, fun a _ => ?_, fun _ => trivial⟩)
    cases a with
    | error e => trivial
    | ok u => exact ih _ _

theorem remove_orderly (log : Log actions) :
    (Queue.remove l w s).Keeps orderly (fun _ _ => True) log := by
  unfold Queue.remove Queue.recordsOf
  refine keeps_bind.2 (keeps_callStore.2 ⟨trivial, fun a _ => ?_, fun _ => trivial⟩)
  cases a with
  | error e => trivial
  | ok rs => exact deleteAll_orderly _ rs _

theorem removeHolder_orderly (unblocked : Bool) (log : Log actions) :
    (c.removeHolder w s unblocked).Keeps orderly (fun _ _ => True) log := by
  unfold removeHolder
  refine Keeps.bind remove_orderly fun a log => ?_
  rcases a with e | ⟨r⟩ | ⟨r⟩ | _
  · trivial
  all_goals
    simp only [keeps_bind, keeps_report, keeps_pure, keeps_publish]
    exact ⟨trivial, fun _ _ => (evaluate_orderly _).mono fun _ _ _ => trivial⟩

theorem release_orderly (log : Log actions) :
    (c.release w s).Keeps orderly (fun _ _ => True) log := by
  unfold Coordinator.release Queue.recordsOf
  split
  · trivial
  · refine keeps_bind.2 (keeps_callStore.2 ⟨trivial, fun a _ => ?_, fun _ => trivial⟩)
    rcases a with e | _ | ⟨r, rs⟩
    · trivial
    · trivial
    · simp only
      split
      · unfold releaseHolder
        refine keeps_bind.2 (keeps_command.2 ⟨trivial, fun a _ => ?_, fun _ => ?_⟩)
        · cases a with
          | error e => exact removeHolder_orderly false _
          | ok u => exact removeHolder_orderly true _
        · exact removeHolder_orderly false _
      · exact Keeps.bind remove_orderly fun a _ => by cases a <;> trivial

theorem releaseAll_orderly (sofar : List Outcome) (ss : List SpaceId) (log : Log actions) :
    (c.releaseAll w sofar ss).Keeps orderly (fun _ _ => True) log := by
  induction ss generalizing sofar log with
  | nil => trivial
  | cons s rest ih =>
    refine Keeps.bind release_orderly fun a log => ?_
    cases a with
    | error e => trivial
    | ok outcomes => exact ih _ log

theorem abandon_orderly (log : Log actions) :
    (c.abandon w).Keeps orderly (fun _ _ => True) log := by
  unfold Coordinator.abandon Queue.heldBy Queue.lockHolders
  split
  · trivial
  · refine keeps_bind.2 (keeps_bind.2 (keeps_callStore.2
      ⟨trivial, fun a _ => ?_, fun _ => trivial⟩))
    cases a with
    | error e => trivial
    | ok holders =>
      exact Keeps.bind (releaseAll_orderly [] _) fun a _ => by cases a <;> trivial

/-- Whatever its calls are answered, an operation makes orderly calls only. -/
theorem plan_orderly (o : Operation) (log : Log actions) :
    (o.plan c).Keeps orderly (fun _ _ => True) log := by
  cases o with
  | enroll w s => exact enroll_orderly log
  | evaluate s => exact evaluate_orderly log
  | release w s => exact release_orderly log
  | abandon w => exact abandon_orderly log
  | lockHolders =>
    refine keeps_bind.2 (keeps_callStore.2 ⟨trivial, fun a _ => ?_, fun _ => trivial⟩)
    cases a <;> trivial
  | queue s =>
    refine keeps_bind.2 (keeps_callStore.2 ⟨trivial, fun a _ => ?_, fun _ => trivial⟩)
    cases a <;> trivial

end Operations

/-! Coordinators on one document. -/

structure Task where
  operation : Operation
  rest : Plan operation.Answer
  asked : Option Nat := none

/-- What anybody but the store may answer. The clock shows times of the calendar. -/
inductive Outside : (a : Action) → a.Answer → Prop
  | vendor (limit : Option Time.Duration) (c : Fleet.Command) (r : Timed c.Answer) :
    Outside (.vendor limit c) r
  | publish (limit : Option Time.Duration) (p : Publication) (r : Timed Publication.Answer) :
    Outside (.publish limit p) r
  | stamp (m : Nat) {stamp : Stamp} (written : stamp.time.Representable) :
    Outside (.stamp m) stamp

/-- The system when nobody waits for the transaction any more. -/
def System.deserted (x : System) : Option Nat → System
  | none => x
  | some i =>
    match x.transactions i with
    | some t => x.put i { t with waits := false }
    | none => x

structure Coordinators where
  system : System
  tasks : Nat → Option Task := fun _ => none

namespace Coordinators

def opening : Coordinators := { system := .opening none }

def put (x : Coordinators) (n : Nat) (task : Option Task) : Coordinators :=
  { x with tasks := Function.update x.tasks n task }

/-- One step: something happens to the files, a coordinator begins an operation, or an operation
goes on. It goes on by a transaction of any store of the document, by the answer to that, or by its
time limit, or it is dropped. -/
inductive Step : Coordinators → Coordinators → Prop
  | files {x : Coordinators} {y : System} (works : System.Works (fun _ _ => False) x.system y) :
    Step x { x with system := y }
  | begun {x : Coordinators} {n : Nat} (free : x.tasks n = none) (c : Coordinator)
      (o : Operation) :
    Step x (x.put n (some { operation := o, rest := o.plan c }))
  | asks {x : Coordinators} {n : Nat} {o : Operation} {rest : Plan o.Answer}
      {limit : Option Time.Duration} {k : Call} {next : Timed k.Answer → Plan o.Answer} {i : Nat}
      (task : x.tasks n = some { operation := o, rest := rest })
      (calls : rest.heed = .call (.store limit k) next) (fresh : x.system.transactions i = none)
      (f : FileStore) :
    Step x
      { x.put n (some { operation := o, rest := rest, asked := some i }) with
        system := x.system.put i (.new f k) }
  | answered {x : Coordinators} {n : Nat} {o : Operation} {rest : Plan o.Answer} {i : Nat}
      {t : Transaction} {limit : Option Time.Duration}
      {next : Timed t.call.Answer → Plan o.Answer} {v : t.call.Answer}
      (task : x.tasks n = some { operation := o, rest := rest, asked := some i })
      (there : x.system.transactions i = some t)
      (calls : rest.heed = .call (.store limit t.call) next) (returned : t.Returned v) :
    Step x (x.put n (some { operation := o, rest := next (.inTime v) }))
  | late {x : Coordinators} {n : Nat} {o : Operation} {rest : Plan o.Answer} {i : Nat}
      {t : Transaction} {limit : Option Time.Duration}
      {next : Timed t.call.Answer → Plan o.Answer}
      (task : x.tasks n = some { operation := o, rest := rest, asked := some i })
      (there : x.system.transactions i = some t)
      (calls : rest.heed = .call (.store limit t.call) next) :
    Step x
      { x.put n (some { operation := o, rest := next .late }) with
        system := x.system.deserted (some i) }
  | dropped {x : Coordinators} {n : Nat} {task : Task} (there : x.tasks n = some task) :
    Step x { x.put n none with system := x.system.deserted task.asked }
  | other {x : Coordinators} {n : Nat} {o : Operation} {rest : Plan o.Answer} {a : Action}
      {next : a.Answer → Plan o.Answer} {r : a.Answer}
      (task : x.tasks n = some { operation := o, rest := rest })
      (calls : rest.heed = .call a next) (outside : Outside a r) :
    Step x (x.put n (some { operation := o, rest := next r }))

abbrev Run : Coordinators → Coordinators → Prop := Relation.ReflTransGen Step

end Coordinators

/-! What the turns leave. -/

variable {d : Option Bytes} {c : Call} {f : FileStore} {fault : Option StoreError}

/-- Whatever becomes of an orderly call, it leaves a document with one record each. -/
theorem oneEach_outcome (oneEach : Document.OneEach d) (orderly : c.Orderly) :
    Document.OneEach (f.outcome c fault d).2 := by
  obtain ⟨t, each, reads⟩ := oneEach
  cases fault with
  | some e => exact ⟨t, each, reads⟩
  | none =>
    simp only [FileStore.outcome, FileStore.applied, reads f.path]
    split
    · have after := each.apply orderly
      exact ⟨_, after, fun path => Document.tableOf_bytesOf path after.written⟩
    · exact ⟨t, each, reads⟩

/-- Every record that is answered bears a time that can be written. -/
theorem written_of_outcome (oneEach : Document.OneEach d) {v : c.Value}
    (answer : (f.outcome c fault d).1 = .ok v) :
    ∀ r ∈ c.listed v, r.enqueuedAt.Representable := by
  obtain ⟨t, each, reads⟩ := oneEach
  cases fault with
  | some e => cases answer
  | none =>
    simp only [FileStore.outcome, FileStore.applied, reads f.path] at answer
    exact fun r mine => each.written r (Call.mem_of_mem_listed answer mine)

/-- A system of orderly calls, where nobody else writes. -/
structure System.Orderly (x : System) : Prop where
  sound : Sound none x
  calls : ∀ i t, x.transactions i = some t → t.call.Orderly
  alone : ∀ left, .stranger left ∉ x.changes

namespace System.Orderly

variable {x y : System} {i : Nat} {t : Transaction}

/-- Turn by turn there is one record each. -/
theorem content (orderly : x.Orderly) {changes : List Change}
    (turns : ∀ change ∈ changes, change ∈ x.changes) :
    Document.OneEach (x.content none changes) := by
  induction changes with
  | nil => exact .none
  | cons change earlier ih =>
    have before := ih fun turn listed => turns turn (List.mem_cons_of_mem _ listed)
    cases change with
    | stranger left => exact absurd (turns _ List.mem_cons_self) (orderly.alone left)
    | transaction i =>
      simp only [System.content, left]
      cases there : x.transactions i with
      | none => exact before
      | some t => exact oneEach_outcome before (orderly.calls i t there)

theorem document (orderly : x.Orderly) : Document.OneEach x.files.document := by
  rcases orderly.sound.document with same | ⟨i, earlier, changes, -, same⟩
  · exact same ▸ orderly.content fun _ listed => listed
  · exact same ▸ orderly.content fun _ listed => changes ▸ List.mem_cons_of_mem _ listed

/-- What a transaction returns was stored at its turn. -/
theorem returned (orderly : x.Orderly) (there : x.transactions i = some t) {v : t.call.Value}
    (returned : t.Returned (.ok v)) : ∀ r ∈ t.call.listed v, r.enqueuedAt.Representable := by
  rcases orderly.sound.returned there returned with
    ⟨newer, earlier, changes, turn⟩ | ⟨-, ⟨e, failed, -⟩ | ⟨-, failed⟩⟩
  · have found : Document.OneEach (x.content none earlier) := orderly.content fun _ listed =>
      changes ▸ List.mem_append_right newer (List.mem_cons_of_mem _ listed)
    exact written_of_outcome found turn.symm
  · cases failed
  · cases failed

theorem works (orderly : x.Orderly) (works : System.Works (fun _ _ => False) x y) :
    y.Orderly where
  sound := orderly.sound.works works
  calls i t there := by
    obtain ⟨u, before, -, call⟩ := known_of_works works there
    exact call ▸ orderly.calls i u before
  alone left := by
    cases works with
    | moved =>
      intro listed
      simp only [System.moved] at listed
      split at listed
      · rcases List.mem_cons.1 listed with same | before
        · cases same
        · exact orderly.alone left before
      · exact orderly.alone left listed
    | strangerLocks => exact orderly.alone left
    | strangerWrites _ may => exact may.elim
    | strangerLeaves => exact orderly.alone left

/-- With one more transaction, or another state of one. -/
theorem put (orderly : x.Orderly) (sound : Sound none (x.put i t)) (call : t.call.Orderly) :
    (x.put i t).Orderly where
  sound := sound
  calls j u there := by
    by_cases own : j = i
    · subst own
      cases (Function.update_self ..).symm.trans there
      exact call
    · exact orderly.calls j u ((Function.update_of_ne own _ _).symm.trans there)
  alone := orderly.alone

theorem deserted (orderly : x.Orderly) (asked : Option Nat) : (x.deserted asked).Orderly := by
  cases asked with
  | none => exact orderly
  | some i =>
    simp only [System.deserted]
    cases there : x.transactions i with
    | none => exact orderly
    | some t => exact orderly.put (orderly.sound.gaveUp there) (orderly.calls i t there)

end System.Orderly

namespace Coordinators

/-- All transactions are orderly, and all that may still be asked. -/
structure Orderly (x : Coordinators) : Prop where
  system : x.system.Orderly
  tasks : ∀ n task, x.tasks n = some task →
    ∃ log, task.rest.Keeps orderly (fun _ _ => True) log

namespace Orderly

variable {x y : Coordinators} {n : Nat}

theorem opening : Coordinators.opening.Orderly where
  system :=
    { sound := .opening none
      calls := fun i t there => by cases there
      alone := fun left listed => List.not_mem_nil listed }
  tasks n task there := by cases there

/-- An operation comes to another state, or is dropped. -/
theorem put (orderly : x.Orderly) {task : Option Task} {system : System} (sound : system.Orderly)
    (keeps : ∀ t ∈ task, ∃ log, t.rest.Keeps Locked.orderly (fun _ _ => True) log) :
    Orderly { x.put n task with system := system } where
  system := sound
  tasks m t there := by
    by_cases own : m = n
    · subst own
      have same : Function.update x.tasks m task m = some t := there
      rw [Function.update_self] at same
      exact keeps t same
    · exact orderly.tasks m t ((Function.update_of_ne own _ _).symm.trans there)

theorem step (orderly : x.Orderly) (step : Step x y) : y.Orderly := by
  -- what is left of a program after a call that was answered as expected
  have goesOn {n : Nat} {task : Task} (there : x.tasks n = some task) {a : Action}
      {next : a.Answer → Plan task.operation.Answer} (calls : task.rest.heed = .call a next) :
      ∃ log, Locked.orderly.allows log a ∧ ∀ r, Locked.orderly.expects a r →
        (next r).Keeps Locked.orderly (fun _ _ => True) (⟨a, r⟩ :: log) := by
    obtain ⟨log, keeps⟩ := orderly.tasks n task there
    have kept := keeps.heed
    rw [calls] at kept
    exact ⟨log, kept⟩
  cases step with
  | files works => exact ⟨orderly.system.works works, orderly.tasks⟩
  | begun free c o =>
    refine orderly.put orderly.system fun t new => ?_
    cases new
    exact ⟨[], plan_orderly o []⟩
  | asks task calls fresh f =>
    obtain ⟨log, allowed, -⟩ := goesOn task calls
    refine orderly.put (orderly.system.put (orderly.system.sound.begun fresh f _) allowed) ?_
    intro t same
    cases same
    obtain ⟨log, keeps⟩ := orderly.tasks _ _ task
    exact ⟨log, keeps⟩
  | @answered n o rest i t limit next v task there calls returned =>
    obtain ⟨log, -, goes⟩ := goesOn task calls
    refine orderly.put orderly.system fun t new => ?_
    cases new
    refine ⟨_, goes (.inTime v) ?_⟩
    cases v with
    | error e => trivial
    | ok v => exact orderly.system.returned there returned
  | late task there calls =>
    obtain ⟨log, -, goes⟩ := goesOn task calls
    refine orderly.put (orderly.system.deserted _) fun t new => ?_
    cases new
    exact ⟨_, goes .late trivial⟩
  | dropped there => exact orderly.put (orderly.system.deserted _) nofun
  | other task calls outside =>
    obtain ⟨log, -, goes⟩ := goesOn task calls
    refine orderly.put orderly.system fun t new => ?_
    cases new
    refine ⟨_, goes _ ?_⟩
    cases outside with
    | vendor => trivial
    | publish => trivial
    | stamp m written => exact written

theorem run (orderly : x.Orderly) (run : Run x y) : y.Orderly := by
  induction run with
  | refl => exact orderly
  | tail _ step ih => exact ih.step step

end Orderly

/-- Any number of coordinators of any processes share a document that was not there at first. Their
operations go on in any order, a transaction may be refused any of its steps, an operation may give
up waiting for it or be dropped. At every moment the document can be read, and no worker has two
records in one space, waiting or holding. -/
theorem one_record_each {x : Coordinators} (reached : Run .opening x) (f : FileStore) :
    ∃ t, Document.tableOf f.path x.system.files.document = .ok t ∧
      ∀ a ∈ t.records, ∀ b ∈ t.records, a.space = b.space → a.worker = b.worker → a = b := by
  obtain ⟨t, each, reads⟩ := (Orderly.opening.run reached).system.document
  exact ⟨t, reads f.path, each.one⟩

theorem run_drive (x : Coordinators) (is : List Nat) :
    Run x { x with system := x.system.drive is } := by
  induction is generalizing x with
  | nil => exact .refl
  | cons i is ih =>
    refine .trans ?_ (ih { x with system := (x.system.advance? i).getD x.system })
    cases advanced : x.system.advance? i with
    | none => exact .refl
    | some z => exact .single (.files (System.works_of_advance? advanced))

/-- A transaction that has begun and only reads is through after five steps. -/
theorem run_reading {x : Coordinators} {i : Nat} {k : Call} {t : Table} {v : k.Answer}
    (there : x.system.transactions i = some (.new f k)) (free : x.system.files.lock = none)
    (valid : k.precheck = .ok ())
    (table : Document.tableOf f.path x.system.files.document = .ok t)
    (answer : (k.apply t).1 = v) (clean : k.changes t v = false) :
    Run x
      { x with
        system := x.system.placed i f k (.done v) none (.transaction i :: x.system.changes) } := by
  subst answer
  have stands : x.system.placed i f k (f.transact k) none x.system.changes = x.system := by
    have same : Function.update x.system.transactions i (some (.new f k)) =
        x.system.transactions := by rw [← there, Function.update_eq_self]
    change System.mk { x.system.files with lock := none }
      (Function.update x.system.transactions i (some (.new f k))) x.system.changes = _
    rw [same, ← free]
  have through : x.system.drive [i, i, i, i, i] = _ :=
    (congrArg (System.drive · _) stands).symm.trans (System.drive_reading valid table clean)
  exact through ▸ run_drive x [i, i, i, i, i]

def enrollment (stamp : Stamp) : Record := .waiting ⟨"s-1"⟩ ⟨"w-1"⟩ stamp.priority stamp.time

def enrolledOnce : Table := ((Call.addIfAbsent (enrollment ⟨⟨0⟩, ⟨0, 0⟩⟩)).apply .empty).2

set_option maxRecDepth 1000 in
/-- A worker enrolls for a space at two coordinators, each of which has a priority for it and waits
for its transaction before either has come to the document. One is answered that the worker is
there already, and there is one record. -/
theorem one_record_each_race : ∃ x, Run .opening x ∧
    (∃ rest, x.tasks 0 = some { operation := .enroll ⟨"w-1"⟩ ⟨"s-1"⟩, rest := rest } ∧
      rest.heed = .done (.ok (.enrolled ⟨"s-1"⟩ ⟨"w-1"⟩ ⟨0⟩))) ∧
    (∃ rest, x.tasks 1 = some { operation := .enroll ⟨"w-1"⟩ ⟨"s-1"⟩, rest := rest } ∧
      rest.heed = .done (.ok (.alreadyEnrolled ⟨"s-1"⟩ ⟨"w-1"⟩))) ∧
    ∃ t, Document.tableOf ⟨"queue.json"⟩ x.system.files.document = .ok t ∧
      t.records = [enrollment ⟨⟨0⟩, ⟨0, 0⟩⟩] ∧
      ∀ a ∈ t.records, ∀ b ∈ t.records, a.space = b.space → a.worker = b.worker → a = b := by
  have table : Document.tableOf ⟨"queue.json"⟩ (some (Document.bytesOf enrolledOnce)) =
      .ok enrolledOnce := Document.tableOf_bytesOf _ (by decide +kernel)
  have began : Run .opening _ :=
    .tail (.single (.begun (n := 0) rfl {} (.enroll ⟨"w-1"⟩ ⟨"s-1"⟩)))
      (.begun (n := 1) rfl { minter := 1 } (.enroll ⟨"w-1"⟩ ⟨"s-1"⟩))
  have stamped := (began.tail
    (.other (n := 0) (a := .stamp 0) (r := ⟨⟨0⟩, ⟨0, 0⟩⟩) rfl rfl (.stamp 0 (by decide)))).tail
    (.other (n := 1) (a := .stamp 1) (r := ⟨⟨1⟩, ⟨1, 0⟩⟩) rfl rfl (.stamp 1 (by decide)))
  have asked := (stamped.tail (.asks (n := 0) (i := 0) rfl rfl rfl ⟨⟨"queue.json"⟩⟩)).tail
    (.asks (n := 1) (i := 1) rfl rfl rfl ⟨⟨"queue.json"⟩⟩)
  have wrote := asked.trans (run_drive _ [0, 0, 0, 0, 0, 0, 0, 0, 0])
  have answered := wrote.tail (.answered (n := 0) (i := 0) (v := .ok true) rfl rfl rfl
    (show Program.heed _ = _ from rfl))
  have looked := answered.trans (run_reading (f := ⟨⟨"queue.json"⟩⟩) (i := 1)
    (k := .addIfAbsent (enrollment ⟨⟨1⟩, ⟨1, 0⟩⟩)) (v := .ok false) rfl rfl rfl table
    (by decide +kernel) rfl)
  have ended := looked.tail (.answered (n := 1) (i := 1) (v := .ok false) rfl rfl rfl
    (show Program.heed _ = _ from rfl))
  obtain ⟨t, reads, one⟩ := one_record_each ended ⟨⟨"queue.json"⟩⟩
  refine ⟨_, ended, ⟨_, rfl, rfl⟩, ⟨_, rfl, rfl⟩, t, reads, ?_, one⟩
  cases reads.symm.trans table
  rfl

end Coordinators

end Interlock.Locked
