import Interlock.Coordinator.Operations
import Interlock.Proofs.Locked.Serial
import Interlock.Proofs.Store.Holders
import Interlock.Proofs.Store.Written

/-!
An evaluation at a store whose calls may be late. Every store call of the evaluation is a
transaction on the document; the evaluation waits for its answer, or gives up at any moment and goes
on as if the call had failed. Others lock the document at any time and change other spaces. When the
evaluation takes its block back it has just read that nobody holds the space, and by then each of
its earlier transactions has had its turn or never will; so nobody holds the space then or later.
Specification, section 4.3: Shared Space Coordinator.
-/
namespace Interlock.Locked

open Coordinator Store Fleet Program

/-! The plan. -/

def Unblocked (s : SpaceId) (log : Log actions) : Prop :=
  ∃ limit r, (⟨.vendor limit (.unblock s), r⟩ : (a : Action) × a.Answer) ∈ log

def FoundFree (s : SpaceId) (log : Log actions) : Prop :=
  ∃ limit earlier, log = ⟨.store limit (.lockHolder s), .inTime (.ok none)⟩ :: earlier

/-- The space is unblocked only as soon as nobody was found to hold it, and that is the end of all
store calls. -/
def cautious (s : SpaceId) : Conduct actions where
  allows log
    | .store _ _ => ¬ Unblocked s log
    | .vendor _ (.unblock r) => r = s → FoundFree s log
    | _ => True
  expects _ _ := True

variable {c : Coordinator} {s : SpaceId} {log : Log actions} {l : Limits}

theorem not_unblocked_cons {e : (a : Action) × a.Answer} (calm : ¬ Unblocked s log)
    (other : ∀ limit, e.1 ≠ .vendor limit (.unblock s)) : ¬ Unblocked s (e :: log) := by
  rintro ⟨limit, r, listed⟩
  rcases List.mem_cons.1 listed with rfl | before
  · exact other limit rfl
  · exact calm ⟨limit, r, before⟩

/-- A store call goes on in the same calm, whether it answers or is late. -/
theorem keeps_storeCall {k : Store.Call} {post : Log actions → k.Answer → Prop}
    (calm : ¬ Unblocked s log)
    (goesOn : ∀ r a, ¬ Unblocked s (⟨.store l.store k, r⟩ :: log) →
      post (⟨.store l.store k, r⟩ :: log) a) :
    (callStore l k).Keeps (cautious s) post log := by
  have stays (r : Timed k.Answer) : ¬ Unblocked s (⟨.store l.store k, r⟩ :: log) :=
    not_unblocked_cons calm nofun
  exact keeps_callStore.2 ⟨calm, fun a _ => goesOn _ a (stays _), fun _ => goesOn _ _ (stays _)⟩

theorem takeBackBlock_keeps (waiting : Record) (calm : ¬ Unblocked s log) :
    (c.takeBackBlock s waiting).Keeps (cautious s) (fun _ _ => True) log := by
  unfold Coordinator.takeBackBlock Queue.lockHolder
  rw [keeps_bind, keeps_callStore]
  refine ⟨calm, fun a _ => ?_, fun _ => by simp⟩
  cases a with
  | error e => simp
  | ok holder =>
    cases holder with
    | some h => simp
    | none =>
      rw [keeps_bind]
      refine keeps_command.2 ⟨fun _ => ⟨_, _, rfl⟩, fun a _ => ?_, fun _ => by simp⟩
      cases a <;> simp

theorem grant_keeps (waiting : Record) (calm : ¬ Unblocked s log) :
    (c.grant s waiting).Keeps (cautious s) (fun _ _ => True) log := by
  have after (r : Timed (Fleet.Command.block s).Answer) :
      ¬ Unblocked s (⟨.vendor c.limits.command (.block s), r⟩ :: log) :=
    not_unblocked_cons calm (by simp)
  unfold Coordinator.grant
  rw [keeps_bind]
  refine keeps_command.2 ⟨trivial, fun a _ => ?_, fun _ => by simp⟩
  cases a with
  | error e => simp
  | ok u =>
    unfold Queue.promote
    simp only [keeps_bind]
    refine keeps_storeCall (after _) fun r a calm => ?_
    cases a with
    | ok u =>
      simp only [keeps_pure, keeps_bind, keeps_report, keeps_publish]
      exact ⟨trivial, fun _ _ => trivial⟩
    | error e =>
      simp only [keeps_pure, keeps_bind]
      exact (takeBackBlock_keeps waiting calm).mono fun _ _ _ => trivial

theorem attempt_keeps (calm : ¬ Unblocked s log) :
    (c.attempt s).Keeps (cautious s) (fun _ _ => True) log := by
  unfold Coordinator.attempt Queue.lockHolder
  rw [keeps_bind]
  refine keeps_storeCall calm fun r a calm => ?_
  cases a with
  | error e => simp
  | ok holder =>
    cases holder with
    | some h => simp
    | none =>
      unfold Queue.nextWaiter
      rw [keeps_bind]
      refine keeps_storeCall calm fun r a calm => ?_
      cases a with
      | error e => simp
      | ok next =>
        cases next with
        | none => simp
        | some waiting =>
          unfold Queue.heldBy Queue.lockHolders
          simp only [keeps_bind]
          refine keeps_storeCall calm fun r a calm => ?_
          cases a with
          | error e => simp
          | ok holders =>
            simp only [keeps_pure]
            split
            · simp
            · rw [keeps_bind]
              exact (grant_keeps waiting calm).mono fun _ _ _ => trivial

/-- An evaluation is cautious. -/
theorem evaluate_keeps : (c.evaluate s).Keeps (cautious s) (fun _ _ => True) [] := by
  have calm : ¬ Unblocked s [] := fun ⟨_, _, listed⟩ => nomatch listed
  unfold Coordinator.evaluate
  rw [keeps_inSpan, keeps_bind]
  refine (attempt_keeps calm).mono fun log a _ => ?_
  cases a with
  | ok o => simp
  | error e => simp

/-! The evaluation among its transactions. -/

/-- An evaluation under way: what is left of its plan, the transaction it waits for, and what it has
called so far. -/
structure Evaluation where
  system : System
  rest : Plan Outcome
  asked : Option Nat := none
  log : Log actions := []

variable {f : FileStore} {d : Option Bytes}

def HeldIn (f : FileStore) (s : SpaceId) (d : Option Bytes) : Prop :=
  ∃ t r, Document.tableOf f.path d = .ok t ∧ t.holder s = some r

/-- What somebody writes who changes other spaces only: if it is a document, then it was one before,
with the same records of this space. -/
def Elsewhere (f : FileStore) (s : SpaceId) (d d' : Option Bytes) : Prop :=
  ∀ t', Document.tableOf f.path d' = .ok t' → ∃ t, Document.tableOf f.path d = .ok t ∧
    ∀ r, r.space = s → (r ∈ t'.records ↔ r ∈ t.records)

theorem HeldIn.of_elsewhere {d' : Option Bytes} (elsewhere : Elsewhere f s d d')
    (held : HeldIn f s d') : HeldIn f s d := by
  obtain ⟨t', r, reads, holds⟩ := held
  obtain ⟨t, before, same⟩ := elsewhere t' reads
  obtain ⟨stored, kind, space⟩ := Table.holder_eq_some_iff.1 holds
  exact ⟨t, r, before, Table.holder_eq_some_iff.2 ⟨(same r space).1 stored, kind, space⟩⟩

/-- Where a look at the holder found nobody there is none. -/
theorem not_heldIn_of_outcome {fault : Option StoreError} {found : Option Bytes}
    (free : ((.ok none : (Call.lockHolder s).Answer), d) = f.outcome (.lockHolder s) fault found) :
    ¬ HeldIn f s d := by
  rintro ⟨t, r, reads, holds⟩
  cases fault with
  | some e => cases free
  | none =>
    simp only [FileStore.outcome, FileStore.applied] at free
    cases table : Document.tableOf f.path found with
    | error e =>
      rw [table] at free
      cases free
    | ok t' =>
      simp only [table, Call.apply, Call.changes, Bool.false_eq_true, if_false] at free
      obtain ⟨none, rfl⟩ := Prod.mk.inj free
      cases reads.symm.trans table
      rw [holds] at none
      cases none

/-! Calls that only read, by themselves. -/

namespace System

variable {x : System} {k : Store.Call} {i : Nat} {changes : List Change}

/-- With a transaction that has been refused nothing at this point of its program, and the lock in
these hands. -/
def placed (x : System) (i : Nat) (f : FileStore) (k : Store.Call)
    (rest : Program fileSteps k.Answer) (lock : Option Owner) (changes : List Change) : System :=
  { files := { x.files with lock := lock }
    transactions := Function.update x.transactions i (some { store := f, call := k, rest := rest })
    changes := changes }

theorem drive_placed {rest rest' : Program fileSteps k.Answer} {lock lock' : Option Owner}
    {s : FileStep} {r : s.Answer} {next : s.Answer → Program fileSteps k.Answer} (is : List Nat)
    (calls : rest.heed = .call s next) (goes : next r = rest')
    (performed : ({ x.files with lock := lock } : Files).perform? i true s =
      some (r, { x.files with lock := lock' }))
    (granted : s.refusal? r = none) :
    (x.placed i f k rest lock changes).drive (i :: is) =
      (x.placed i f k rest' lock'
        (if s.passes r then .transaction i :: changes else changes)).drive is := by
  have advanced : (x.placed i f k rest lock changes).advance? i =
      some (x.placed i f k rest' lock'
        (if s.passes r then .transaction i :: changes else changes)) := by
    simp [advance?, placed, calls, performed, moved, put, Transaction.answered, goes, granted]
  simp only [drive, List.foldl_cons, advanced, Option.getD_some]

/-- A transaction that only reads is through after five steps, if the lock is free. -/
theorem drive_reading {t : Table} (valid : k.precheck = .ok ())
    (table : Document.tableOf f.path x.files.document = .ok t)
    (clean : k.changes t (k.apply t).1 = false) :
    (x.placed i f k (f.transact k) none changes).drive [i, i, i, i, i] =
      x.placed i f k (.done (k.apply t).1) none (.transaction i :: changes) := by
  rw [FileStore.transact_eq, valid]
  calc (x.placed i f k (f.arriving k) none changes).drive [i, i, i, i, i]
      = (x.placed i f k (f.queueing k) none changes).drive [i, i, i, i] :=
        drive_placed (s := .openLock) (r := .ok ()) _ rfl rfl rfl rfl
    _ = (x.placed i f k (f.checking k) (some (.transaction i)) changes).drive [i, i, i] :=
        drive_placed (s := .takeLock) (r := .ok ()) _ rfl rfl rfl rfl
    _ = (x.placed i f k (f.underLock k >>= FileStore.leaving) (some (.transaction i))
          (.transaction i :: changes)).drive [i, i] :=
        drive_placed (s := .checkAbandoned) (r := false) _ rfl rfl rfl rfl
    _ = (x.placed i f k (FileStore.leaving (k.apply t).1) (some (.transaction i))
          (.transaction i :: changes)).drive [i] := by
        refine drive_placed (s := .readDocument) (r := .ok x.files.document) _ rfl ?_ rfl rfl
        change Program.bind (Program.bind (.done (Except.ok x.files.document)) _) _ = _
        simp only [Program.bind, table, clean]
        rfl
    _ = x.placed i f k (.done (k.apply t).1) none (.transaction i :: changes) :=
        drive_placed (s := .releaseLock) (r := ()) [] rfl rfl rfl rfl

end System

namespace Evaluation

def start (d : Option Bytes) (c : Coordinator) (s : SpaceId) : Evaluation :=
  { system := .opening d, rest := c.evaluate s }

/-- One step: something happens to the files, or the evaluation makes its next call, is answered by
the transaction it waits for, or gives that up. Vendor and registry answer as they like. -/
inductive Step (f : FileStore) (s : SpaceId) : Evaluation → Evaluation → Prop
  | files {x : Evaluation} {y : System} (works : System.Works (Elsewhere f s) x.system y) :
    Step f s x { x with system := y }
  | asks {x : Evaluation} {limit : Option Time.Duration} {k : Store.Call}
      {next : Timed k.Answer → Plan Outcome} {i : Nat} (idle : x.asked = none)
      (calls : x.rest.heed = .call (.store limit k) next) (free : x.system.transactions i = none) :
    Step f s x { x with system := x.system.put i (.new f k), asked := some i }
  | answered {x : Evaluation} {i : Nat} {t : Transaction} {limit : Option Time.Duration}
      {next : Timed t.call.Answer → Plan Outcome} {v : t.call.Answer} (asked : x.asked = some i)
      (there : x.system.transactions i = some t)
      (calls : x.rest.heed = .call (.store limit t.call) next) (returned : t.Returned v) :
    Step f s x
      { x with
        rest := next (.inTime v)
        asked := none
        log := ⟨.store limit t.call, .inTime v⟩ :: x.log }
  | late {x : Evaluation} {i : Nat} {t : Transaction} {limit : Option Time.Duration}
      {next : Timed t.call.Answer → Plan Outcome} (asked : x.asked = some i)
      (there : x.system.transactions i = some t)
      (calls : x.rest.heed = .call (.store limit t.call) next) :
    Step f s x
      { system := x.system.put i { t with waits := false }
        rest := next .late
        asked := none
        log := ⟨.store limit t.call, .late⟩ :: x.log }
  | other {x : Evaluation} {a : Action} {next : a.Answer → Plan Outcome} (r : a.Answer)
      (idle : x.asked = none) (calls : x.rest.heed = .call a next)
      (outside : ∀ limit k, a ≠ .store limit k) :
    Step f s x { x with rest := next r, log := ⟨a, r⟩ :: x.log }

abbrev Run (f : FileStore) (s : SpaceId) : Evaluation → Evaluation → Prop :=
  Relation.ReflTransGen (Step f s)

/-- Nobody holds the space, and no transaction is at work that could change it. -/
structure Clear (f : FileStore) (s : SpaceId) (x : System) : Prop where
  idle : x.Idle
  free : ¬ HeldIn f s x.files.document

/-- What holds of an evaluation that began at a document. All its transactions are decided but the
one it waits for, and nobody holds the space when it has just read so, and ever after it has taken
its block back. -/
structure Careful (d : Option Bytes) (f : FileStore) (s : SpaceId) (x : Evaluation) : Prop where
  sound : Sound d x.system
  decided : ∀ i t, x.system.transactions i = some t → x.asked ≠ some i → x.system.Decided i
  mine : ∀ i t, x.system.transactions i = some t → t.store = f
  keeps : x.rest.Keeps (cautious s) (fun _ _ => True) x.log
  silent : Unblocked s x.log → x.asked = none
  answers : ∀ i t v, x.asked = some i → x.system.transactions i = some t → t.Returned v →
    (⟨t.call, v⟩ : (k : Store.Call) × k.Answer) = ⟨.lockHolder s, .ok none⟩ → Clear f s x.system
  clear : Unblocked s x.log ∨ FoundFree s x.log → x.asked = none → Clear f s x.system

variable {x z : Evaluation} {y : System}

/-- While all transactions are decided the space stays free. -/
theorem Clear.of_works {x : System} (clear : Clear f s x) (sound : Sound d x)
    (decided : ∀ i t, x.transactions i = some t → x.Decided i)
    (works : System.Works (Elsewhere f s) x y) : Clear f s y := by
  obtain ⟨idle, same | elsewhere⟩ := idle_of_works sound clear.idle decided works
  · exact ⟨idle, same ▸ clear.free⟩
  · exact ⟨idle, fun held => clear.free (held.of_elsewhere elsewhere)⟩

/-- A look at the holder that returns and has found nobody leaves the space free. -/
theorem clear_of_moved {x : System} {i : Nat} {t : Transaction} (moved : Moved d i t x y)
    (sound : Sound d y) (mine : t.store = f) {v : t.call.Answer} (returned : t.Returned v)
    (free : (⟨t.call, v⟩ : (k : Store.Call) × k.Answer) = ⟨.lockHolder s, .ok none⟩) :
    Clear f s y := by
  obtain ⟨store, call, rest, waits, fault⟩ := t
  cases mine
  cases free
  have turn : .transaction i ∈ y.changes := by
    rcases sound.returned moved.there returned with ⟨newer, earlier, changes, -⟩ | ⟨-, failed⟩
    · exact changes ▸ List.mem_append_right newer List.mem_cons_self
    · rcases failed with ⟨e, failed, -⟩ | ⟨-, failed⟩ <;> cases failed
  obtain ⟨unlocked, found, left⟩ := moved.leaves _ returned turn
  refine ⟨fun j owns => ?_, not_heldIn_of_outcome left⟩
  cases owns.symm.trans unlocked

namespace Careful

theorem start (d : Option Bytes) (f : FileStore) (c : Coordinator) (s : SpaceId) :
    Careful d f s (.start d c s) where
  sound := .opening d
  decided _ _ there := nomatch there
  mine _ _ there := nomatch there
  keeps := evaluate_keeps
  silent := fun ⟨_, _, listed⟩ => nomatch listed
  answers _ _ _ asked := nomatch asked
  clear
    | .inl ⟨_, _, listed⟩ => nomatch listed
    | .inr ⟨_, _, found⟩ => nomatch found

/-- An answer that the evaluation has not taken yet stays good. -/
theorem answers_of_same (careful : Careful d f s x)
    (works : System.Works (Elsewhere f s) x.system y) {i : Nat} {t : Transaction}
    (asked : x.asked = some i) (there : x.system.transactions i = some t) {v : t.call.Answer}
    (returned : t.Returned v)
    (free : (⟨t.call, v⟩ : (k : Store.Call) × k.Answer) = ⟨.lockHolder s, .ok none⟩) :
    Clear f s y := by
  refine (careful.answers i t v asked there returned free).of_works careful.sound ?_ works
  intro j u known
  by_cases own : j = i
  · exact ⟨t, own ▸ there, .inr ⟨v, returned⟩⟩
  · refine careful.decided j u known fun same => own ?_
    exact (Option.some.inj (asked.symm.trans same)).symm

theorem files (careful : Careful d f s x) (works : System.Works (Elsewhere f s) x.system y) :
    Careful d f s { x with system := y } where
  sound := careful.sound.works works
  decided i t there other := by
    obtain ⟨u, before, -⟩ := known_of_works works there
    exact decided_of_step (.works works) (careful.decided i u before other)
  mine i t there := by
    obtain ⟨u, before, store, -⟩ := known_of_works works there
    exact store.trans (careful.mine i u before)
  keeps := careful.keeps
  silent := careful.silent
  answers i t v asked there returned free := by
    have after := careful.sound.works works
    have same (before : x.system.transactions i = some t) : Clear f s y :=
      careful.answers_of_same works asked before returned free
    cases works with
    | strangerLocks none => exact same there
    | strangerWrites owns may => exact same there
    | strangerLeaves owns => exact same there
    | @moved j u k r files next known calls effect =>
      by_cases own : i = j
      · subst own
        cases (Function.update_self ..).symm.trans there
        have moved := careful.sound.moved known calls effect
        exact clear_of_moved moved after (careful.mine i u known) returned free
      · exact same ((Function.update_of_ne own _ _).symm.trans there)
  clear why idle := by
    refine (careful.clear why idle).of_works careful.sound (fun i t there => ?_) works
    exact careful.decided i t there (by simp [show x.asked = none from idle])

theorem asks (careful : Careful d f s x) {limit : Option Time.Duration} {k : Store.Call}
    {next : Timed k.Answer → Plan Outcome} {i : Nat} (idle : x.asked = none)
    (calls : x.rest.heed = .call (.store limit k) next) (free : x.system.transactions i = none) :
    Careful d f s { x with system := x.system.put i (.new f k), asked := some i } where
  sound := careful.sound.begun free f k
  decided j t there other := by
    have apart : j ≠ i := fun same => other (same ▸ rfl)
    have before := (Function.update_of_ne apart _ _).symm.trans there
    have step : System.Step (fun _ _ => True) x.system (x.system.put i (.new f k)) :=
      .begun free f k
    exact decided_of_step step (careful.decided j t before (by simp [idle]))
  mine j t there := by
    by_cases own : j = i
    · subst own
      cases (Function.update_self ..).symm.trans there
      rfl
    · exact careful.mine j t ((Function.update_of_ne own _ _).symm.trans there)
  keeps := careful.keeps
  silent why := by
    have kept := careful.keeps.heed
    rw [calls] at kept
    exact absurd why kept.1
  answers j t v asked there returned found := by
    cases asked
    cases (Function.update_self ..).symm.trans there
    cases found
    cases returned
  clear _ none := nomatch none

/-- The evaluation goes on after a transaction, whether it was answered or has given up. -/
theorem goesOn (careful : Careful d f s x) {i : Nat} {t : Transaction}
    {limit : Option Time.Duration} {next : Timed t.call.Answer → Plan Outcome}
    (asked : x.asked = some i) (calls : x.rest.heed = .call (.store limit t.call) next)
    (sound : Sound d y) (same : ∀ j, j ≠ i → y.transactions j = x.system.transactions j)
    (mine : ∀ u, y.transactions i = some u → u.store = f) (decided : y.Decided i)
    (r : Timed t.call.Answer)
    (clear : FoundFree s (⟨.store limit t.call, r⟩ :: x.log) → Clear f s y) :
    Careful d f s
      { system := y
        rest := next r
        asked := none
        log := ⟨.store limit t.call, r⟩ :: x.log } := by
  have kept := careful.keeps.heed
  rw [calls] at kept
  have calm : ¬ Unblocked s (⟨.store limit t.call, r⟩ :: x.log) :=
    not_unblocked_cons kept.1 nofun
  exact
    { sound := sound
      decided := fun j u there _ => by
        by_cases own : j = i
        · exact own ▸ decided
        · obtain ⟨u', before, why⟩ := careful.decided j u ((same j own).symm.trans there)
            fun waits => own (Option.some.inj (asked.symm.trans waits)).symm
          exact ⟨u', (same j own).trans before, why⟩
      mine := fun j u there => by
        by_cases own : j = i
        · exact mine u (own ▸ there)
        · exact careful.mine j u ((same j own).symm.trans there)
      keeps := kept.2 r trivial
      silent := fun why => absurd why calm
      answers := fun _ _ _ none => nomatch none
      clear := fun why _ => why.elim (fun told => absurd told calm) clear }

theorem step (careful : Careful d f s x) (step : Step f s x z) : Careful d f s z := by
  cases step with
  | files works => exact careful.files works
  | asks idle calls free => exact careful.asks idle calls free
  | @answered i t limit next v asked there calls returned =>
    refine careful.goesOn asked calls careful.sound (fun _ _ => rfl) (careful.mine i)
      ⟨t, there, .inr ⟨v, returned⟩⟩ (.inTime v) fun found => ?_
    refine careful.answers i t v asked there returned ?_
    obtain ⟨limit', earlier, head⟩ := found
    obtain ⟨store, call, rest, waits, fault⟩ := t
    cases head
    rfl
  | @late i t limit next asked there calls =>
    refine careful.goesOn asked calls (careful.sound.gaveUp there)
      (fun _ other => Function.update_of_ne other _ _) (fun u known => ?_)
      ⟨_, Function.update_self .., .inl rfl⟩ .late fun found => ?_
    · cases (Function.update_self ..).symm.trans known
      exact careful.mine i t there
    · obtain ⟨limit', earlier, head⟩ := found
      obtain ⟨store, call, rest, waits, fault⟩ := t
      cases head
  | @other a next r idle calls outside =>
    have kept := careful.keeps.heed
    rw [calls] at kept
    have clear : Unblocked s (⟨a, r⟩ :: x.log) ∨ FoundFree s (⟨a, r⟩ :: x.log) →
        Clear f s x.system := by
      rintro (⟨limit, r', listed⟩ | ⟨limit, earlier, head⟩)
      · rcases List.mem_cons.1 listed with here | before
        · cases here
          exact careful.clear (.inr (kept.1 rfl)) idle
        · exact careful.clear (.inl ⟨limit, r', before⟩) idle
      · cases head
        exact absurd rfl (outside limit (.lockHolder s))
    exact
      { sound := careful.sound
        decided := careful.decided
        mine := careful.mine
        keeps := kept.2 r trivial
        silent := fun _ => idle
        answers := careful.answers
        clear := fun why _ => clear why }

theorem run (careful : Careful d f s x) (run : Run f s x z) : Careful d f s z := by
  induction run with
  | refl => exact careful
  | tail _ step ih => exact ih.step step

end Careful

/-- What has been said to the vendor stays said. -/
theorem unblocked_of_run (told : Unblocked s x.log) (run : Run f s x z) :
    Unblocked s z.log := by
  obtain ⟨limit, r, listed⟩ := told
  refine ⟨limit, r, ?_⟩
  induction run with
  | refl => exact listed
  | tail _ step ih => cases step <;> first | exact ih | exact List.mem_cons_of_mem _ ih

theorem run_drive (x : Evaluation) (is : List Nat) :
    Run f s x { x with system := x.system.drive is } := by
  induction is generalizing x with
  | nil => exact .refl
  | cons i is ih =>
    refine .trans ?_ (ih { x with system := (x.system.advance? i).getD x.system })
    cases advanced : x.system.advance? i with
    | none => exact .refl
    | some z => exact .single (.files (System.works_of_advance? advanced))

/-- The evaluation makes a call that only reads, and waits for the answer. -/
theorem run_reading {i : Nat} {limit : Option Time.Duration} {k : Store.Call} {t : Table}
    {next : Timed k.Answer → Plan Outcome} (idle : x.asked = none)
    (calls : x.rest.heed = .call (.store limit k) next) (fresh : x.system.transactions i = none)
    (free : x.system.files.lock = none) (valid : k.precheck = .ok ())
    (table : Document.tableOf f.path x.system.files.document = .ok t)
    (clean : k.changes t (k.apply t).1 = false) :
    Run f s x
      { system := x.system.placed i f k (.done (k.apply t).1) none
          (.transaction i :: x.system.changes)
        rest := next (.inTime (k.apply t).1)
        asked := none
        log := ⟨.store limit k, .inTime (k.apply t).1⟩ :: x.log } := by
  have begun : x.system.put i (.new f k) =
      x.system.placed i f k (f.transact k) none x.system.changes := by
    simp only [System.put, System.placed, ← free]
    rfl
  have asks : Run f s x _ := .single (.asks (f := f) idle calls fresh)
  have goes := asks.trans (run_drive _ [i, i, i, i, i])
  rw [begun, System.drive_reading valid table clean] at goes
  exact goes.tail (.answered (t := { store := f, call := k, rest := .done (k.apply t).1 }) rfl
    (Function.update_self ..) calls rfl)

/-- In every run of an evaluation on a document, with its store calls late at any moments, and with
others who lock the document at any times and change other spaces: if the evaluation has unblocked
the space, nobody holds the space then, and nobody does later. So if it has returned, all its
transactions have come to their ends and somebody holds the space, it has not unblocked it. -/
theorem unblocks_only_free {c : Coordinator} (reached : Run f s (.start d c s) x) :
    ((∃ o, x.rest.heed = .done o) →
        (∀ i t, x.system.transactions i = some t → ∃ v, t.Returned v) →
        HeldIn f s x.system.files.document → ¬ Unblocked s x.log) ∧
      (Unblocked s x.log → ¬ HeldIn f s x.system.files.document ∧
        ∀ z, Run f s x z → ¬ HeldIn f s z.system.files.document) := by
  have free {z : Evaluation} (later : Run f s (.start d c s) z) (told : Unblocked s z.log) :
      ¬ HeldIn f s z.system.files.document := by
    have careful : Careful d f s z := (Careful.start d f c s).run later
    exact (careful.clear (.inl told) (careful.silent told)).free
  refine ⟨fun _ _ held told => free reached told held, fun told => ⟨free reached told, ?_⟩⟩
  exact fun z later => free (reached.trans later) (unblocked_of_run told later)

def waiter : Record := .waiting ⟨"s-1"⟩ ⟨"w-1"⟩ ⟨1⟩ ⟨0, 0⟩

def oneWaiter : Table := Table.empty.insert waiter (by decide +kernel)

/-- The swap waits behind somebody else's lock until the evaluation gives it up. Nobody is found to
hold the space, so it is unblocked, and the swap, which gets the lock only then, is turned away. -/
theorem unblocks_only_free_lateSwap : ∃ x,
    Run ⟨⟨"queue.json"⟩⟩ ⟨"s-1"⟩ (.start (some (Document.bytesOf oneWaiter)) {} ⟨"s-1"⟩) x ∧
      (∃ o, x.rest.heed = .done o) ∧
      (∀ i t, x.system.transactions i = some t → ∃ v, t.Returned v) ∧
      ⟨.store ({} : Coordinator).limits.store (.swap waiter.toHolder waiter), .late⟩ ∈ x.log ∧
      Unblocked ⟨"s-1"⟩ x.log ∧
      ¬ HeldIn ⟨⟨"queue.json"⟩⟩ ⟨"s-1"⟩ x.system.files.document := by
  have table : Document.tableOf ⟨"queue.json"⟩ (some (Document.bytesOf oneWaiter)) =
      .ok oneWaiter := by
    rw [Document.bytesOf, Document.tableOf, Bytes.toText?_ofText]
    exact Document.tableOfText_render _ (by decide +kernel)
  have looked := run_reading (f := ⟨⟨"queue.json"⟩⟩) (s := ⟨"s-1"⟩)
    (x := .start (some (Document.bytesOf oneWaiter)) {} ⟨"s-1"⟩) (i := 0) rfl rfl rfl rfl rfl table
    rfl
  have found := looked.trans (run_reading (i := 1) rfl rfl rfl rfl rfl table rfl)
  have free := found.trans (run_reading (i := 2) rfl rfl rfl rfl rfl table rfl)
  have blocked := free.tail
    (.other (a := .vendor _ (.block ⟨"s-1"⟩)) (.inTime (.ok ())) rfl rfl (by simp))
  have queued := ((blocked.tail (.files (.strangerLocks rfl))).tail
    (.asks (i := 3) rfl rfl rfl)).trans (run_drive _ [3])
  have late := (queued.tail (.late rfl rfl rfl)).tail (.files (.strangerLeaves rfl))
  have looked := late.trans (run_reading (i := 4) rfl rfl rfl rfl rfl table rfl)
  have unblocked := looked.tail
    (.other (a := .vendor _ (.unblock ⟨"s-1"⟩)) (.inTime (.ok ())) rfl rfl (by simp))
  have ended := unblocked.trans (run_drive _ [3, 3, 3])
  refine ⟨_, ended, ⟨_, rfl⟩, ?returned, ?swapped, ?told, ?free⟩
  case returned =>
    intro i t there
    rcases i with _ | _ | _ | _ | _ | i <;> cases there
    all_goals exact ⟨_, rfl⟩
  case swapped => exact .tail _ (.tail _ (.head _))
  case told => exact ⟨_, _, List.mem_cons_self⟩
  case free => exact ((unblocks_only_free ended).2 ⟨_, _, List.mem_cons_self⟩).1

end Evaluation

end Interlock.Locked
