import Interlock.Daemon.Services
import Interlock.Proofs.Locked.Granted
import Interlock.Proofs.Schedule.Alone

/-!
The stores a daemon may be configured with give the same replies. A call goes to the table in memory
or to the document file, and a coordinator reports it and waits for it no longer than its limit: as
long as no step on the files is refused and no limit is passed, none of this can be told from what
the calls answer, or from the table there is after each of them. Specification, section 4.1: Lock
Record Store.
-/
namespace Interlock.Daemon.Services

open Store Schedule Coordinator

variable {s s' s'' : Services} {c : Call} {limit : Option Time.Duration} {now : Nat}

def table (s : Services) : Except StoreError Table :=
  match s.store with
  | .memory t => .ok t
  | .file f => f.tableOn s.disk

/-- A store call as a coordinator makes it at some time: reported, and with a limit. -/
def reported (limit : Option Time.Duration) (c : Call) (x : Nat × Services) :
    c.Answer × Nat × Services :=
  site.runAlone [] (Coordinator.callStore ⟨limit, none⟩ c) x.1 x.2

/-- Without its limit the call would end within it. -/
def Within (limit : Option Time.Duration) (c : Call) (x : Nat × Services) : Prop :=
  ∀ d ∈ limit, (reported none c x).2.1 ≤ x.1 + d.toNanos

/-- Two states of the services with the same store on the same disk, where others have released its
lock at the same time. -/
structure SameStore (s s' : Services) : Prop where
  store : s.store = s'.store
  disk : s.disk = s'.disk
  lockFreeAt : s.lockFreeAt = s'.lockFreeAt

theorem SameStore.trans (same : SameStore s s') (same' : SameStore s' s'') : SameStore s s'' :=
  ⟨same.store.trans same'.store, same.disk.trans same'.disk, same.lockFreeAt.trans same'.lockFreeAt⟩

theorem SameStore.table_eq (same : SameStore s s') : s.table = s'.table := by
  simp only [table, same.store, same.disk]

theorem SameStore.callStore (same : SameStore s s') (c : Call) :
    (s.callStore c).1 = (s'.callStore c).1 ∧
      SameStore (s.callStore c).2 (s'.callStore c).2 := by
  unfold Services.callStore
  rw [same.store, same.disk]
  cases s'.store with
  | memory t => exact ⟨rfl, rfl, rfl, same.lockFreeAt⟩
  | file f => exact ⟨rfl, rfl, rfl, same.lockFreeAt⟩

theorem lockFreeAt_callStore (s : Services) (c : Call) :
    (s.callStore c).2.lockFreeAt = s.lockFreeAt := by
  unfold callStore
  cases s.store with
  | memory t => rfl
  | file f => rfl

theorem note_eq (n : Trace.Note) (stack : List Trace.Span) (s : Services) :
    ∃ log, site.note n stack s = { s with log := log } := by
  unfold Site.note
  split
  · exact ⟨_, rfl⟩
  · exact ⟨s.log, rfl⟩

/-- What is said is logged, and no more. -/
theorem runAlone_sayAll (ns : List Trace.Note) (stack : List Trace.Span) (s : Services) :
    ∃ stack' log, ∀ {α : Type} (rest : Unit → Plan α) (now : Nat),
      site.runAlone stack (Program.sayAll ns >>= rest) now s =
        site.runAlone stack' (rest ()) now { s with log := log } := by
  induction ns generalizing stack s with
  | nil => exact ⟨stack, s.log, fun _ _ => rfl⟩
  | cons n ns ih =>
    obtain ⟨heard, noted⟩ := note_eq n stack s
    obtain ⟨stack', log, said⟩ := ih (n.spans stack) { s with log := heard }
    refine ⟨stack', log, fun rest now => Eq.trans ?_ (said rest now)⟩
    change site.runAlone (n.spans stack) _ now (site.note n stack s) = _
    rw [noted]
    rfl

/-- Only for the lock a step may have to wait. -/
theorem due_le (c : ServiceCall) (now : Nat) (s : Services) :
    s.due c now ≤ max now s.lockFreeAt := by
  unfold due
  split
  · exact Nat.le_refl _
  · exact Nat.le_max_left _ _

/-- The steps of a transaction are performed on the disk, one after the other. They are through when
the lock is free. -/
theorem runBase_fileSteps {α : Type} (f : FileStore) (p : Program fileSteps α)
    (stack : List Trace.Span) (now : Nat) (s : Services) :
    ∃ t log, now ≤ t ∧ t ≤ max now s.lockFreeAt ∧ site.runBase none stack
        (p.handle (I := fileSteps) (J := serviceCalls) fun (step : FileStep) =>
          Program.ask (I := serviceCalls) (.fileStep f step)) now s =
      (some (p.runQuiet (fun step d => f.perform step d) s.disk).1, t,
        { s with disk := (p.runQuiet (fun step d => f.perform step d) s.disk).2, log := log }) := by
  induction p generalizing stack now s with
  | done a => exact ⟨now, s.log, Nat.le_refl now, Nat.le_max_left _ _, rfl⟩
  | note n rest ih =>
    obtain ⟨heard, noted⟩ := note_eq n stack s
    obtain ⟨t, log, later, soon, ends⟩ := ih (n.spans stack) now { s with log := heard }
    refine ⟨t, log, later, soon, Eq.trans ?_ ends⟩
    rw [← noted]
    rfl
  | call step next ih =>
    obtain ⟨t, log, later, soon, ends⟩ := ih (f.perform step s.disk).1 stack
      (max now (s.due (.fileStep f step) now)) { s with disk := (f.perform step s.disk).2 }
    have due := due_le (.fileStep f step) now s
    have soon : t ≤ max (max now (s.due (.fileStep f step) now)) s.lockFreeAt := soon
    exact ⟨t, log, by omega, by omega, ends⟩

/-- The base calls of a store call come to the whole of it. -/
theorem runBase_storeCalls (c : Call) (stack : List Trace.Span) (now : Nat) (s : Services) :
    ∃ t log, now ≤ t ∧ t ≤ max now s.lockFreeAt ∧
      site.runBase none stack (storeCalls s.store c) now s =
        (some (s.callStore c).1, t, { (s.callStore c).2 with log := log }) := by
  cases kind : s.store with
  | memory t =>
    refine ⟨max now now, s.log, Nat.le_max_left _ _, by omega, ?_⟩
    change (some (s.callStore c).1, max now now, (s.callStore c).2) = _
    simp only [callStore, kind]
  | file f =>
    obtain ⟨t, log, later, soon, ends⟩ := runBase_fileSteps f (f.transact c) stack now s
    refine ⟨t, log, later, soon, ends.trans ?_⟩
    simp only [callStore, kind]
    rfl

/-- A reported call that is not cut off ends as its base calls do, whatever is said about it. -/
theorem reported_eq (c : Call) (now : Nat) (s : Services) :
    ∃ stack log, ∀ v t y, ∃ log', ∀ limit : Option Time.Duration,
      site.runBase (limit.map fun d => now + d.toNanos) stack (storeCalls s.store c) now
          { s with log := log } = (some v, t, y) →
        reported limit c (now, s) = (v, t, { y with log := log' }) := by
  obtain ⟨stack, log, opened⟩ := runAlone_sayAll c.opening [] s
  refine ⟨stack, log, fun v t y => ?_⟩
  obtain ⟨stack', log', closed⟩ := runAlone_sayAll (c.closing v) stack y
  refine ⟨log', fun limit ends => ?_⟩
  unfold reported Coordinator.callStore
  exact (opened _ now).trans ((Site.runAlone_ask ends).trans (closed _ t))

/-- A reported call without a limit is the call, and through when the lock is free. -/
theorem reported_none (c : Call) (x : Nat × Services) :
    ((reported none c x).1 = (x.2.callStore c).1 ∧
      SameStore (reported none c x).2.2 (x.2.callStore c).2) ∧
        x.1 ≤ (reported none c x).2.1 ∧ (reported none c x).2.1 ≤ max x.1 x.2.lockFreeAt := by
  obtain ⟨now, s⟩ := x
  obtain ⟨stack, log, whole⟩ := reported_eq c now s
  obtain ⟨t, left, later, soon, ends⟩ := runBase_storeCalls c stack now { s with log := log }
  obtain ⟨log', whole⟩ := whole _ _ _
  have relogged : SameStore { s with log := log } s := ⟨rfl, rfl, rfl⟩
  have same := relogged.callStore c
  rw [whole none ends]
  exact ⟨⟨same.1, same.2.store, same.2.disk, same.2.lockFreeAt⟩, later, soon⟩

/-- A limit that is not passed makes no difference. -/
theorem reported_of_within {x : Nat × Services} (within : Within limit c x) :
    reported limit c x = reported none c x := by
  obtain ⟨now, s⟩ := x
  cases limit with
  | none => rfl
  | some d =>
    obtain ⟨stack, log, whole⟩ := reported_eq c now s
    obtain ⟨t, left, -, -, ends⟩ := runBase_storeCalls c stack now { s with log := log }
    obtain ⟨log', whole⟩ := whole _ _ _
    have unlimited := whole none ends
    have inTime : t ≤ now + d.toNanos := by
      have := within d rfl
      rwa [unlimited] at this
    have limited := (Site.runBase_of_le (d := now + d.toNanos) (by rwa [ends])).trans ends
    rw [unlimited, whole (some d) limited]

/-- No limit is passed where the lock is free within it. -/
theorem inTurn_within {cs : List Call} (free : ∀ d ∈ limit, s.lockFreeAt ≤ now + d.toNanos) :
    InTurn (reported limit) (Within limit) cs (now, s) := by
  induction cs generalizing now s with
  | nil => trivial
  | cons c cs ih =>
    obtain ⟨⟨-, same⟩, later, soon⟩ := reported_none c (now, s)
    have within : Within limit c (now, s) := fun d mem =>
      Nat.le_trans soon (Nat.max_le.2 ⟨Nat.le_add_right _ _, free d mem⟩)
    refine ⟨within, ih fun d mem => ?_⟩
    rw [reported_of_within within, same.lockFreeAt, lockFreeAt_callStore]
    exact Nat.le_trans (free d mem) (Nat.add_le_add_right later _)

/-- Reports and a limit that is not passed make no difference to the replies. -/
theorem transcript_reported {cs : List Call}
    (within : InTurn (reported limit) (Within limit) cs (now, s)) :
    transcript (reported limit) (fun x => x.2.table) cs (now, s) =
      transcript (fun c s => callStore s c) table cs s := by
  refine transcript_eq (R := fun x s => SameStore x.2 s) (fun _ _ same => same.table_eq) ?_
    ⟨rfl, rfl, rfl⟩ within
  intro c _ x s same within
  obtain ⟨⟨answer, left⟩, -⟩ := reported_none c x
  obtain ⟨answer', left'⟩ := same.callStore c
  rw [reported_of_within within]
  exact ⟨answer.trans answer', left.trans left'⟩

/-- Going to the backend that was chosen makes no difference either. -/
theorem transcript_memory {cs : List Call} {t : Table} (memory : s.store = .memory t) :
    transcript (fun c s => callStore s c) table cs s = transcript inMemory .ok cs t := by
  refine transcript_eq (R := fun s t => s.store = .memory t) ?_ ?_ memory (inTurn_trivial _ _ _)
  · intro s t memory
    rw [table, memory]
  · intro c _ s t memory _
    rw [inMemory_eq]
    unfold callStore
    rw [memory]
    exact ⟨rfl, rfl⟩

theorem transcript_file {cs : List Call} {f : FileStore} (file : s.store = .file f) :
    transcript (fun c s => callStore s c) table cs s = transcript f.call f.tableOn cs s.disk := by
  refine transcript_eq (R := fun s d => s.store = .file f ∧ s.disk = d) ?_ ?_ ⟨file, rfl⟩
    (inTurn_trivial _ _ _)
  · rintro s d ⟨file, rfl⟩
    rw [table, file]
  · rintro c - s d ⟨file, rfl⟩ -
    unfold callStore
    rw [file]
    exact ⟨rfl, rfl, rfl⟩

/-- Any calls one after the other, with records of whatever kind, get the same replies from a store
in memory that is new and from a document file that is not there yet, as long as it is not the file
of its own lock and no step on the files is refused. They get them from the stores themselves,
through the services that have them as their backend, and when a coordinator reports the calls and
limits them, as long as no limit is passed. -/
theorem same_replies {f : FileStore} {d : Disk} {cs : List Call}
    (apart : f.lockPath.parts ≠ f.path.parts) (absent : f.documentOn d = .ok none)
    (dated : ∀ c ∈ cs, c.Dated) (granted : InTurn f.call f.Grants cs d) :
    transcript f.call f.tableOn cs d = transcript inMemory .ok cs .empty ∧
      ∀ s : Services, s.store = .memory .empty ∨ s.store = .file f ∧ s.disk = d →
        transcript (fun c s => callStore s c) table cs s = transcript inMemory .ok cs .empty ∧
          ∀ limit now, InTurn (reported limit) (Within limit) cs (now, s) →
            transcript (reported limit) (fun x => x.2.table) cs (now, s) =
              transcript inMemory .ok cs .empty := by
  have reads : f.tableOn d = .ok .empty := FileStore.tableOn_eq_ok_iff.2 ⟨none, absent, rfl⟩
  have bare : transcript f.call f.tableOn cs d = transcript inMemory .ok cs .empty :=
    Locked.transcript_call apart reads (fun _ there => nomatch there) dated granted
  refine ⟨bare, fun s backend => ?_⟩
  have chosen : transcript (fun c s => callStore s c) table cs s =
      transcript inMemory .ok cs .empty := by
    rcases backend with memory | ⟨file, rfl⟩
    · exact transcript_memory memory
    · exact (transcript_file file).trans bare
  exact ⟨chosen, fun limit now within => (transcript_reported within).trans chosen⟩

def unknown : Record := .waiting ⟨"s-2"⟩ ⟨"w-2"⟩ ⟨7⟩ ⟨0, 0⟩

/-- A record without a worker, a swap of a record that is not there, an enrollment, and a look at
what has come of it. -/
def someCalls : List Call :=
  [.add (.waiting ⟨"s-1"⟩ ⟨""⟩ ⟨1⟩ ⟨0, 0⟩), .swap unknown.toHolder unknown, Locked.enrollOne,
    .list ⟨"s-1"⟩]

/-- The disk after the swap: there is a lock, and no document. -/
def lockOnly : Disk := (Locked.queueFile.call (.swap unknown.toHolder unknown) {}).2

/-- Services with a document file whose lock somebody else has for a while. -/
def lockedOut : Services :=
  { clock := ⟨0, 0⟩, store := .file Locked.queueFile, lockFreeAt := 3 }

set_option maxRecDepth 2000 in
/-- The record that was enrolled is listed, in memory and by a coordinator that had to wait for the
lock of the document. -/
theorem same_replies_enrollment :
    (transcript inMemory .ok someCalls .empty).map (·.table.toOption.map Table.size) =
        [some 0, some 0, some 1, some 1] ∧
      transcript Locked.queueFile.call Locked.queueFile.tableOn someCalls {} =
        transcript inMemory .ok someCalls .empty ∧
      transcript (reported (some ⟨0, 5⟩)) (fun x => x.2.table) someCalls (0, lockedOut) =
        transcript inMemory .ok someCalls .empty := by
  have apart : Locked.queueFile.lockPath.parts ≠ Locked.queueFile.path.parts := by decide +kernel
  have swaps : Locked.queueFile.Grants (.swap unknown.toHolder unknown) {} :=
    Locked.grants_of_clean (t := .empty) rfl rfl rfl
  have enrolls : Locked.queueFile.Grants Locked.enrollOne lockOnly :=
    ⟨rfl, rfl, rfl, rfl, rfl, rfl, rfl, rfl, rfl, trivial⟩
  have enrolled := Locked.call_carried (t := .empty) apart enrolls rfl (by decide)
  have lists : Locked.queueFile.Grants (.list ⟨"s-1"⟩)
      (Locked.queueFile.call Locked.enrollOne lockOnly).2 :=
    Locked.grants_of_clean rfl enrolled.2 rfl
  have granted : InTurn Locked.queueFile.call Locked.queueFile.Grants someCalls {} :=
    ⟨trivial, swaps, enrolls, lists, trivial⟩
  have same := same_replies apart rfl (by decide) granted
  refine ⟨rfl, same.1, (same.2 lockedOut (.inr ⟨rfl, rfl⟩)).2 _ 0 (inTurn_within ?_)⟩
  decide

end Interlock.Daemon.Services
