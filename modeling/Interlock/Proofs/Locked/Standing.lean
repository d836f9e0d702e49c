import Interlock.Proofs.Locked.System

/-!
Where a transaction stands. It waits for the lock, has it and asks for its caller, leaves because
nobody waits, works on the document, or is through. Only a transaction that works on the document
changes it, and whatever becomes of its steps it leaves what its call leaves, or, if it was refused
a step, what it found. This is an invariant of the whole system: a step moves one transaction from
one standing to the next and leaves all others in theirs.
-/
namespace Interlock

namespace Store.FileStore

def leaving {α : Type} (v : α) : Program fileSteps α := do
  step .releaseLock
  return v

def checking (f : FileStore) (c : Call) : Program fileSteps c.Answer := do
  if ← step .checkAbandoned then leaving (c.fail abandoned)
  else f.underLock c >>= leaving

def queueing (f : FileStore) (c : Call) : Program fileSteps c.Answer := do
  match ← step .takeLock with
  | .error e => return c.fail (.ofRefusal e)
  | .ok _ => f.checking c

def arriving (f : FileStore) (c : Call) : Program fileSteps c.Answer := do
  match ← step .openLock with
  | .error e => return c.fail (.ofRefusal e)
  | .ok _ => f.queueing c

theorem transact_eq (f : FileStore) (c : Call) :
    f.transact c =
      match c.precheck with
      | .error e => .done (c.fail e)
      | .ok () => f.arriving c := by
  unfold transact
  cases c.precheck with
  | error e => rfl
  | ok u => rfl

end Store.FileStore

namespace Locked

open Store

/-! Working on the document. -/

/-- A step of a transaction, with the reason of the first refusal. -/
def working (i : Nat) : (s : fileSteps.Call) → Files × Option StoreError → fileSteps.Answer s →
    Files × Option StoreError → Prop :=
  fun (s : FileStep) x (r : s.Answer) y =>
    (∃ waits, Effect i waits x.1 s r y.1) ∧ y.2 = (x.2 <|> s.refusal? r)

/-- As long as a transaction goes on working, the document is as it was found, nothing has been
refused, and nothing is missing for the next step. -/
def untouched (found : Option Bytes) : fileSteps.Call → Files × Option StoreError → Prop :=
  fun (s : FileStep) x =>
    s.handles = true ∧ x.1.document = found ∧ x.2 = none ∧ x.1.ready s = true

theorem Effect.lock_eq {i : Nat} {waits : Bool} {x y : Files} {s : FileStep} {r : s.Answer}
    (effect : Effect i waits x s r y) (handles : s.handles = true) : y.lock = x.lock := by
  cases effect <;> first | rfl | cases handles

theorem not_passes {s : FileStep} (handles : s.handles = true) (r : s.Answer) :
    s.passes r = false := by
  cases s <;> first | rfl | cases handles

variable {i : Nat} {f : FileStore} {c : Call}

/-- One step on the document or the temporary file. -/
theorem step_assures {x : Files} {s : FileStep} {found : Option Bytes}
    {post : s.Answer → Files × Option StoreError → Prop} (handles : s.handles = true)
    (same : x.document = found) (ready : x.ready s = true)
    (after : ∀ r y waits, Effect i waits x s r y → post r (y, s.refusal? r)) :
    (FileStore.step s).Assures (working i) (untouched found) post (x, none) := by
  refine ⟨⟨handles, same, rfl, ready⟩, ?_⟩
  rintro r ⟨y, fault⟩ ⟨⟨waits, effect⟩, fault_eq⟩
  cases fault_eq
  exact after r y waits effect

/-- The document is replaced as a whole, or it is left as it was. -/
theorem replaceWith_assures {x : Files} (t : Table) :
    (FileStore.replaceWith t).Assures (working i) (untouched x.document)
      (fun r y =>
        match r with
        | .ok _ => y.1.document = some (Document.bytesOf t) ∧ y.2 = none
        | .error e => y.1.document = x.document ∧ y.2 = some (.ofRefusal e))
      (x, none) := by
  unfold FileStore.replaceWith
  rw [Program.assures_bind]
  refine step_assures rfl rfl rfl fun r y waits created => ?_
  cases r with
  | error e => cases created; exact ⟨rfl, rfl⟩
  | ok u =>
    cases created with
    | refused no => cases no
    | createTemporary =>
      rw [Program.assures_bind]
      refine step_assures rfl rfl rfl fun r y waits written => ?_
      cases r with
      | error e => cases written <;> exact ⟨rfl, rfl⟩
      | ok u =>
        cases written with
        | refused no => cases no
        | writeTemporary there =>
          cases there
          rw [Program.assures_bind]
          refine step_assures rfl rfl rfl fun r y waits synced => ?_
          cases r with
          | error e => cases synced; exact ⟨rfl, rfl⟩
          | ok u =>
            cases synced with
            | refused no => cases no
            | syncTemporary =>
              refine step_assures rfl rfl rfl fun r y waits replaced => ?_
              cases r with
              | error e => cases replaced; exact ⟨rfl, rfl⟩
              | ok u =>
                cases replaced with
                | refused no => cases no
                | replaceDocument there => cases there; exact ⟨rfl, rfl⟩

/-- Under the lock a call is applied to what it finds, or fails and leaves it. -/
theorem underLock_assures {x : Files} :
    (f.underLock c).Assures (working i) (untouched x.document)
      (fun v y => (v, y.1.document) = f.outcome c y.2 x.document) (x, none) := by
  unfold FileStore.underLock
  rw [Program.assures_bind]
  refine step_assures rfl rfl rfl fun r y waits done => ?_
  cases r with
  | error e => cases done; rfl
  | ok content =>
    cases done with
    | refused no => cases no
    | readDocument =>
      cases table : Document.tableOf f.path x.document with
      | error e =>
        simp only [table]
        have applied : f.applied c x.document = (c.fail e, x.document) := by
          simp [FileStore.applied, table]
        exact Program.assures_pure.2 applied.symm
      | ok t =>
        simp only [table]
        split
        · next dirty =>
          rw [Program.assures_bind]
          refine (replaceWith_assures _).mono fun r y replaced => ?_
          cases r with
          | error e =>
            obtain ⟨same, fault⟩ := replaced
            exact Program.assures_pure.2 (by rw [fault, same]; rfl)
          | ok u =>
            obtain ⟨new, fault⟩ := replaced
            refine Program.assures_pure.2 ?_
            rw [fault, new]
            simp only [FileStore.outcome, FileStore.applied, table, dirty, if_true]
        · next clean =>
          have applied : f.applied c x.document = ((c.apply t).1, x.document) := by
            simp [FileStore.applied, table, clean]
          exact Program.assures_pure.2 applied.symm

/-! Standings. -/

variable {d : Option Bytes} {x z : System} {t : Transaction}

/-- Where a transaction stands that has not had its turn; it is a matter of the lock alone. -/
inductive Before (lock : Option Owner) (i : Nat) (t : Transaction) : Prop
  | queued (free : lock ≠ some (.transaction i)) (clear : t.fault = none)
      (rest : t.rest = t.store.arriving t.call ∨ t.rest = t.store.queueing t.call)
  | refused (free : lock ≠ some (.transaction i)) {e : StoreError}
      (rest : t.rest = .done (t.call.fail e))
      (why : t.call.precheck = .error e ∨ t.fault = some e)
  | checking (owns : lock = some (.transaction i)) (clear : t.fault = none)
      (rest : t.rest = t.store.checking t.call)
  | turnedAway (owns : lock = some (.transaction i)) (gone : t.waits = false)
      (rest : t.rest = FileStore.leaving (t.call.fail FileStore.abandoned))
  | away (free : lock ≠ some (.transaction i)) (gone : t.waits = false)
      (rest : t.rest = .done (t.call.fail FileStore.abandoned))

theorem Before.frame {lock lock' : Option Owner} (before : Before lock i t)
    (same : lock' = some (.transaction i) ↔ lock = some (.transaction i)) : Before lock' i t := by
  cases before with
  | queued free clear rest => exact .queued (free ∘ same.1) clear rest
  | refused free rest why => exact .refused (free ∘ same.1) rest why
  | checking owns clear rest => exact .checking (same.2 owns) clear rest
  | turnedAway owns gone rest => exact .turnedAway (same.2 owns) gone rest
  | away free gone rest => exact .away (free ∘ same.1) gone rest

theorem Before.gaveUp {lock : Option Owner} (before : Before lock i t) :
    Before lock i { t with waits := false } := by
  cases before with
  | queued free clear rest => exact .queued free clear rest
  | refused free rest why => exact .refused free rest why
  | checking owns clear rest => exact .checking owns clear rest
  | turnedAway owns gone rest => exact .turnedAway owns rfl rest
  | away free gone rest => exact .away free rfl rest

/-- Where a transaction stands, if the document was as it is said before all changes. -/
inductive Standing (d : Option Bytes) (x : System) (i : Nat) (t : Transaction) : Prop
  | before (fresh : .transaction i ∉ x.changes) (before : Before x.files.lock i t)
  | inside (owns : x.files.lock = some (.transaction i)) {earlier : List Change}
      (changes : x.changes = .transaction i :: earlier) (once : .transaction i ∉ earlier)
      {p : Program fileSteps t.call.Answer} (rest : t.rest = p >>= FileStore.leaving)
      (works : p.Assures (working i) (untouched (x.content d earlier))
        (fun v y => (v, y.1.document) = t.store.outcome t.call y.2 (x.content d earlier))
        (x.files, t.fault))
  | through (free : x.files.lock ≠ some (.transaction i)) {later earlier : List Change}
      (changes : x.changes = later ++ .transaction i :: earlier)
      (once : .transaction i ∉ later ∧ .transaction i ∉ earlier)
      (rest : t.rest = .done (t.outcome (x.content d earlier)).1)

/-- What holds of a system that began with this content of the document. -/
structure Sound (d : Option Bytes) (x : System) : Prop where
  owner : ∀ i, x.files.lock = some (.transaction i) → x.transactions i ≠ none
  known : ∀ i, .transaction i ∈ x.changes → x.transactions i ≠ none
  standing : ∀ i t, x.transactions i = some t → Standing d x i t
  settled : (∀ i, x.files.lock = some (.transaction i) → .transaction i ∉ x.changes) →
    x.files.document = x.content d x.changes

/-- Contents are the same where every transaction in question leaves the same. -/
theorem content_congr {changes : List Change}
    (same : ∀ change ∈ changes, ∀ d, z.left d change = x.left d change) :
    z.content d changes = x.content d changes := by
  induction changes with
  | nil => rfl
  | cons change changes ih =>
    simp only [System.content]
    rw [ih fun later listed => same later (List.mem_cons_of_mem change listed),
      same change List.mem_cons_self]

/-- A transaction stays where it stands when others go on: as long as it has the lock nothing else
happens, and what was there when its turn came does not change. -/
theorem Standing.frame (standing : Standing d x i t)
    (lock : z.files.lock = some (.transaction i) ↔ x.files.lock = some (.transaction i))
    (held : x.files.lock = some (.transaction i) → z.files = x.files ∧ z.changes = x.changes)
    (grows : ∃ new, z.changes = new ++ x.changes ∧ .transaction i ∉ new)
    (content : ∀ later earlier, x.changes = later ++ .transaction i :: earlier →
      z.content d earlier = x.content d earlier) : Standing d z i t := by
  obtain ⟨new, changes_eq, other⟩ := grows
  cases standing with
  | before fresh before =>
    refine .before (fun listed => ?_) (before.frame lock)
    rw [changes_eq] at listed
    exact (List.mem_append.1 listed).elim other fresh
  | inside owns changes once rest works =>
    have same := content [] _ changes
    refine .inside (lock.2 owns) ((held owns).2.trans changes) once rest ?_
    rw [(held owns).1, same]
    exact works
  | @through free later earlier changes once rest =>
    have split : z.changes = (new ++ later) ++ .transaction i :: earlier := by
      rw [changes_eq, changes, List.append_assoc]
    refine .through (fun owns => free (lock.1 owns)) split
      ⟨fun listed => (List.mem_append.1 listed).elim other once.1, once.2⟩ ?_
    rw [content later earlier changes]
    exact rest

theorem left_congr {change : Change} {d : Option Bytes}
    (same : ∀ j, change = .transaction j → z.transactions j = x.transactions j) :
    z.left d change = x.left d change := by
  cases change with
  | stranger left => rfl
  | transaction j => simp only [System.left, same j rfl]

theorem left_of_there {d : Option Bytes} (there : x.transactions i = some t) :
    x.left d (.transaction i) = (t.outcome d).2 := by
  simp only [System.left, there]

theorem content_of_head {earlier : List Change} (changes : z.changes = .transaction i :: earlier)
    (there : z.transactions i = some t) :
    z.content d z.changes = (t.outcome (z.content d earlier)).2 := by
  rw [changes, System.content, left_of_there there]

/-! A step of one transaction. -/

/-- What a step of a transaction leaves to the others. -/
structure Spares (i : Nat) (x z : System) : Prop where
  others : ∀ j, j ≠ i → z.transactions j = x.transactions j
  locks : x.files.lock ≠ some (.transaction i) → z.files = x.files ∨
    x.files.lock = none ∧ z.files.lock = some (.transaction i)
  unlocks : x.files.lock = some (.transaction i) →
    z.files.lock = some (.transaction i) ∨ z.files.lock = none
  changes : z.changes = x.changes ∨
    x.files.lock = some (.transaction i) ∧ z.changes = .transaction i :: x.changes
  past : ∀ later change earlier, x.changes = later ++ change :: earlier →
    change ≠ .transaction i → .transaction i ∉ earlier

/-- What a step of a transaction does: it comes to stand somewhere, the others stay where they are,
and when it is not at work the document is as the changes say. -/
structure Moved (d : Option Bytes) (i : Nat) (t : Transaction) (x z : System) : Prop where
  spares : Spares i x z
  there : z.transactions i = some t
  standing : Standing d z i t
  settled : .transaction i ∈ z.changes → z.files.lock ≠ some (.transaction i) →
    z.files.document = z.content d z.changes
  /-- Only a transaction at work writes. -/
  writes : z.files.document = x.files.document ∨
    x.files.lock = some (.transaction i) ∧ .transaction i ∈ x.changes
  /-- A transaction that returns after its turn leaves what belongs to its answer. -/
  leaves : ∀ v, t.Returned v → .transaction i ∈ z.changes →
    z.files.lock = none ∧ ∃ found, (v, z.files.document) = t.outcome found

variable {files : Files} {t' : Transaction} {changes : List Change}

theorem content_moved {earlier : List Change} (apart : .transaction i ∉ earlier) :
    (x.moved i t' files changes).content d earlier = x.content d earlier := by
  refine content_congr fun change listed d => left_congr fun j same => ?_
  have other : j ≠ i := fun own => apart (own ▸ same ▸ listed)
  exact Function.update_of_ne other _ _

/-- A step of a transaction that has not come to the document. -/
theorem moved_of_fresh (fresh : .transaction i ∉ x.changes)
    (document : files.document = x.files.document)
    (locks : x.files.lock ≠ some (.transaction i) → files = x.files ∨
      x.files.lock = none ∧ files.lock = some (.transaction i))
    (unlocks : x.files.lock = some (.transaction i) →
      files.lock = some (.transaction i) ∨ files.lock = none)
    (before : Before files.lock i t') : Moved d i t' x (x.moved i t' files x.changes) where
  spares :=
    { others := fun _ other => Function.update_of_ne other _ _
      locks := locks
      unlocks := unlocks
      changes := .inl rfl
      past := fun later change _ split _ listed =>
        fresh (split ▸ List.mem_append_right later (List.mem_cons_of_mem change listed)) }
  there := Function.update_self ..
  standing := .before fresh before
  settled listed _ := absurd listed fresh
  writes := .inl document
  leaves _ _ listed := absurd listed fresh

variable {s : FileStep} {r : s.Answer} {next : s.Answer → Program fileSteps t.call.Answer}

def stepped (x : System) (i : Nat) (t : Transaction) {s : FileStep}
    (next : s.Answer → Program fileSteps t.call.Answer) (r : s.Answer) (files : Files) : System :=
  x.moved i (t.answered next r) files
    (if s.passes r then .transaction i :: x.changes else x.changes)

theorem not_returned_of_bind {α : Type} (p : Program fileSteps α) (v : α) :
    (p >>= FileStore.leaving).heed ≠ .done v := by
  rw [Program.heed_bind]
  split <;> exact nofun

theorem fault_answered (clear : t.fault = none) : (t.answered next r).fault = s.refusal? r := by
  simp [Transaction.answered, clear]

theorem moved_of_arriving (fresh : .transaction i ∉ x.changes)
    (free : x.files.lock ≠ some (.transaction i)) (clear : t.fault = none)
    (rest : t.rest = t.store.arriving t.call) (calls : t.rest.heed = .call s next)
    (effect : Effect i t.waits x.files s r files) :
    Moved d i (t.answered next r) x (stepped x i t next r files) := by
  have fault : (t.answered next r).fault = s.refusal? r := fault_answered clear
  rw [rest] at calls
  cases calls
  cases effect with
  | openLock =>
    refine moved_of_fresh fresh rfl (fun _ => .inl rfl) (fun owns => absurd owns free) ?_
    exact .queued free fault (.inr rfl)
  | refused no =>
    cases r with
    | ok u => cases no
    | error e =>
      refine moved_of_fresh fresh rfl (fun _ => .inl rfl) (fun owns => absurd owns free) ?_
      exact .refused free rfl (.inr fault)

theorem moved_of_queueing (fresh : .transaction i ∉ x.changes)
    (free : x.files.lock ≠ some (.transaction i)) (clear : t.fault = none)
    (rest : t.rest = t.store.queueing t.call) (calls : t.rest.heed = .call s next)
    (effect : Effect i t.waits x.files s r files) :
    Moved d i (t.answered next r) x (stepped x i t next r files) := by
  have fault : (t.answered next r).fault = s.refusal? r := fault_answered clear
  rw [rest] at calls
  cases calls
  cases effect with
  | takeLock none =>
    refine moved_of_fresh fresh rfl (fun _ => .inr ⟨none, rfl⟩) (fun owns => absurd owns free) ?_
    exact .checking rfl fault rfl
  | refused no =>
    cases r with
    | ok u => cases no
    | error e =>
      refine moved_of_fresh fresh rfl (fun _ => .inl rfl) (fun owns => absurd owns free) ?_
      exact .refused free rfl (.inr fault)

/-- Only a transaction whose caller still waits comes to the document, and it finds there what the
changes before it have left. -/
theorem moved_of_checking (settled : x.files.document = x.content d x.changes)
    (owns : x.files.lock = some (.transaction i)) (fresh : .transaction i ∉ x.changes)
    (clear : t.fault = none) (rest : t.rest = t.store.checking t.call)
    (calls : t.rest.heed = .call s next) (effect : Effect i t.waits x.files s r files) :
    Moved d i (t.answered next r) x (stepped x i t next r files) := by
  have fault : (t.answered next r).fault = s.refusal? r := fault_answered clear
  rw [rest] at calls
  cases calls
  cases effect with
  | refused no => cases no
  | checkAbandoned =>
    cases waits : t.waits with
    | false =>
      refine moved_of_fresh fresh rfl (fun _ => .inl rfl) (fun _ => .inl owns) ?_
      exact .turnedAway owns waits rfl
    | true =>
      refine ⟨?_, Function.update_self .., ?_, fun _ free => absurd owns free, .inl rfl,
        fun v returned => absurd returned (not_returned_of_bind _ v)⟩
      · refine ⟨fun _ other => Function.update_of_ne other _ _, fun free => absurd owns free,
          fun _ => .inl owns, .inr ⟨owns, rfl⟩, fun later change _ split _ listed => ?_⟩
        exact fresh (split ▸ List.mem_append_right later (List.mem_cons_of_mem change listed))
      · refine .inside owns rfl fresh rfl ?_
        unfold stepped
        rw [waits] at fault
        rw [content_moved fresh, ← settled, fault]
        exact underLock_assures

theorem moved_of_turnedAway (owns : x.files.lock = some (.transaction i))
    (fresh : .transaction i ∉ x.changes) (gone : t.waits = false)
    (rest : t.rest = FileStore.leaving (t.call.fail FileStore.abandoned))
    (calls : t.rest.heed = .call s next) (effect : Effect i t.waits x.files s r files) :
    Moved d i (t.answered next r) x (stepped x i t next r files) := by
  rw [rest] at calls
  cases calls
  cases effect with
  | refused no => cases no
  | releaseLock =>
    refine moved_of_fresh fresh rfl (fun free => absurd owns free) (fun _ => .inr rfl) ?_
    exact .away nofun gone rfl

/-- A transaction at the document goes on with its work, or leaves when it has done it. -/
theorem moved_of_inside (owns : x.files.lock = some (.transaction i)) {earlier : List Change}
    (changes : x.changes = .transaction i :: earlier) (once : .transaction i ∉ earlier)
    {p : Program fileSteps t.call.Answer} (rest : t.rest = p >>= FileStore.leaving)
    (works : p.Assures (working i) (untouched (x.content d earlier))
      (fun v y => (v, y.1.document) = t.store.outcome t.call y.2 (x.content d earlier))
      (x.files, t.fault))
    (calls : t.rest.heed = .call s next) (effect : Effect i t.waits x.files s r files) :
    Moved d i (t.answered next r) x (stepped x i t next r files) := by
  have spares (unlocks : files.lock = some (.transaction i) ∨ files.lock = none)
      (stays : s.passes r = false) : Spares i x (stepped x i t next r files) := by
    refine ⟨fun _ other => Function.update_of_ne other _ _, fun free => absurd owns free,
      fun _ => unlocks, .inl (by simp [stepped, System.moved, stays]), ?_⟩
    intro later change past split other listed
    rw [changes] at split
    cases later with
    | nil => exact other (List.cons.inj split).1.symm
    | cons first later =>
      have inner : earlier = later ++ change :: past := (List.cons.inj split).2
      exact once (inner ▸ List.mem_append_right later (List.mem_cons_of_mem change listed))
  have listed : .transaction i ∈ x.changes := changes ▸ List.mem_cons_self
  have still := works.heed
  rw [rest, Program.heed_bind] at calls
  cases todo : p.heed with
  | note n q => exact absurd todo (Program.heed_ne_note p n q)
  | call s' next' =>
    rw [todo] at calls still
    cases calls
    obtain ⟨⟨handles, -, -⟩, goes⟩ := still
    have stays := not_passes handles r
    have kept : files.lock = some (.transaction i) := (effect.lock_eq handles).trans owns
    have changes' : (stepped x i t (fun r => next' r >>= FileStore.leaving) r files).changes =
        .transaction i :: earlier := by simp [stepped, System.moved, stays, changes]
    refine ⟨spares (.inl kept) stays, Function.update_self .., ?_, fun _ free => absurd kept free,
      .inr ⟨owns, listed⟩, fun v returned => absurd returned (not_returned_of_bind _ v)⟩
    refine .inside kept changes' once rfl ?_
    unfold stepped
    rw [content_moved once]
    exact goes r (files, _) ⟨⟨t.waits, effect⟩, rfl⟩
  | done v =>
    rw [todo] at calls still
    cases calls
    cases effect with
    | refused no => cases no
    | releaseLock =>
      have fault : (t.answered (s := .releaseLock) (fun _ => .done v) ()).fault = t.fault := by
        simp [Transaction.answered, FileStep.refusal?]
      have outcome : (v, x.files.document) =
          (t.answered (s := .releaseLock) (fun _ => .done v) ()).outcome
            ((stepped x i t (s := .releaseLock) (fun _ => .done v) ()
              { x.files with lock := none }).content d earlier) := by
        unfold stepped
        rw [content_moved once, Transaction.outcome, fault]
        exact still
      refine ⟨spares (.inr rfl) rfl, Function.update_self .., ?_, fun _ _ => ?_,
        .inr ⟨owns, listed⟩, fun v' returned _ => ?_⟩
      · refine .through nofun (show _ = [] ++ .transaction i :: earlier from changes)
          ⟨List.not_mem_nil, once⟩ ?_
        exact congrArg (fun o => Program.done o.1) outcome
      · have left := content_of_head (d := d) (z := stepped x i t (s := .releaseLock)
          (fun _ => .done v) () { x.files with lock := none }) changes (Function.update_self ..)
        exact (congrArg Prod.snd outcome).trans left.symm
      · cases returned
        exact ⟨rfl, _, outcome⟩

theorem Sound.moved (sound : Sound d x) (there : x.transactions i = some t)
    (calls : t.rest.heed = .call s next) (effect : Effect i t.waits x.files s r files) :
    Moved d i (t.answered next r) x (stepped x i t next r files) := by
  cases sound.standing i t there with
  | before fresh before =>
    cases before with
    | queued free clear rest =>
      rcases rest with rest | rest
      · exact moved_of_arriving fresh free clear rest calls effect
      · exact moved_of_queueing fresh free clear rest calls effect
    | refused free rest why =>
      rw [rest] at calls
      cases calls
    | checking owns clear rest =>
      refine moved_of_checking (sound.settled fun j owner => ?_) owns fresh clear rest calls effect
      cases owns.symm.trans owner
      exact fresh
    | turnedAway owns gone rest => exact moved_of_turnedAway owns fresh gone rest calls effect
    | away free gone rest =>
      rw [rest] at calls
      cases calls
  | inside owns changes once rest works =>
    exact moved_of_inside owns changes once rest works calls effect
  | through free changes once rest =>
    rw [rest] at calls
    cases calls

/-! Runs. -/

theorem Spares.files_eq (spares : Spares i x z) {j : Nat} (other : j ≠ i)
    (owns : x.files.lock = some (.transaction j)) : z.files = x.files := by
  have free : x.files.lock ≠ some (.transaction i) := by
    rw [owns]
    exact fun same => other (Owner.transaction.inj (Option.some.inj same))
  rcases spares.locks free with same | ⟨none, -⟩
  · exact same
  · cases owns.symm.trans none

theorem Spares.owner_iff (spares : Spares i x z) {j : Nat} (other : j ≠ i) :
    z.files.lock = some (.transaction j) ↔ x.files.lock = some (.transaction j) := by
  refine ⟨fun owns => ?_, fun owns => (spares.files_eq other owns) ▸ owns⟩
  have apart : z.files.lock ≠ some (.transaction i) := fun same =>
    other (Owner.transaction.inj (Option.some.inj (owns.symm.trans same)))
  by_cases held : x.files.lock = some (.transaction i)
  · rcases spares.unlocks held with same | none
    · exact absurd same apart
    · cases owns.symm.trans none
  · rcases spares.locks held with same | ⟨-, taken⟩
    · exact same ▸ owns
    · exact absurd taken apart

theorem Spares.content_eq (spares : Spares i x z) {changes : List Change}
    (apart : .transaction i ∉ changes) : z.content d changes = x.content d changes := by
  refine content_congr fun change listed d => left_congr fun j same => spares.others j ?_
  exact fun own => apart (own ▸ same ▸ listed)

/-- The others stand where they stood before the step of a transaction. -/
theorem Moved.standing_of_ne (moved : Moved d i t x z) {j : Nat} (other : j ≠ i) {u : Transaction}
    (standing : Standing d x j u) : Standing d z j u := by
  have spares := moved.spares
  have apart : (Change.transaction j) ≠ .transaction i :=
    fun same => other (Change.transaction.inj same)
  refine standing.frame (spares.owner_iff other)
    (fun owns => ⟨spares.files_eq other owns, ?_⟩) ?_ fun later earlier changes => ?_
  · rcases spares.changes with same | ⟨held, -⟩
    · exact same
    · exact absurd (Owner.transaction.inj (Option.some.inj (owns.symm.trans held))) other
  · rcases spares.changes with same | ⟨-, grown⟩
    · exact ⟨[], same, List.not_mem_nil⟩
    · exact ⟨[.transaction i], grown, fun listed => apart (List.mem_singleton.1 listed)⟩
  · exact spares.content_eq (spares.past later (.transaction j) earlier changes apart)

namespace Sound

theorem opening (d : Option Bytes) : Sound d (.opening d) where
  owner _ owns := nomatch owns
  known _ listed := nomatch listed
  standing _ _ there := nomatch there
  settled _ := rfl

/-- A transaction that is replaced by one of the same outcome, or begins. -/
theorem put (sound : Sound d x)
    (left : ∀ change ∈ x.changes, ∀ d, (x.put i t).left d change = x.left d change)
    (standing : Standing d (x.put i t) i t) : Sound d (x.put i t) where
  owner j owns none := by
    by_cases own : j = i
    · subst own
      cases (Function.update_self ..).symm.trans none
    · exact sound.owner j owns ((Function.update_of_ne own _ _).symm.trans none)
  known j listed none := by
    by_cases own : j = i
    · subst own
      cases (Function.update_self ..).symm.trans none
    · exact sound.known j listed ((Function.update_of_ne own _ _).symm.trans none)
  standing j u there := by
    by_cases own : j = i
    · subst own
      cases (Function.update_self ..).symm.trans there
      exact standing
    · have before : x.transactions j = some u := (Function.update_of_ne own _ _).symm.trans there
      refine (sound.standing j u before).frame Iff.rfl (fun _ => ⟨rfl, rfl⟩)
        ⟨[], rfl, List.not_mem_nil⟩ fun later earlier changes => ?_
      refine content_congr fun change listed => left change ?_
      exact changes ▸ List.mem_append_right later (List.mem_cons_of_mem _ listed)
  settled idle := (sound.settled idle).trans (content_congr left).symm

theorem begun (sound : Sound d x) (free : x.transactions i = none) (f : FileStore) (c : Call) :
    Sound d (x.put i (.new f c)) := by
  refine sound.put (fun change listed d => left_congr fun j same => ?_) ?_
  · refine Function.update_of_ne (fun own => ?_) _ _
    exact sound.known i (own ▸ same ▸ listed) free
  · have unlocked : x.files.lock ≠ some (.transaction i) := fun owns => sound.owner i owns free
    refine .before (fun listed => sound.known i listed free) ?_
    have rest : (Transaction.new f c).rest = _ := f.transact_eq c
    cases check : c.precheck with
    | error e =>
      rw [check] at rest
      exact .refused unlocked rest (.inl check)
    | ok u =>
      rw [check] at rest
      exact .queued unlocked rfl (.inl rest)

theorem gaveUp (sound : Sound d x) (there : x.transactions i = some t) :
    Sound d (x.put i { t with waits := false }) := by
  have left (d : Option Bytes) (change : Change) :
      (x.put i { t with waits := false }).left d change = x.left d change := by
    by_cases own : change = .transaction i
    · rw [own, left_of_there there, left_of_there (Function.update_self ..)]
      rfl
    · refine left_congr fun j same => Function.update_of_ne (fun here => own ?_) _ _
      rw [same, here]
  have content (changes : List Change) :
      (x.put i { t with waits := false }).content d changes = x.content d changes :=
    content_congr fun change _ d => left d change
  refine sound.put (fun change _ d => left d change) ?_
  cases sound.standing i t there with
  | before fresh before => exact .before fresh before.gaveUp
  | inside owns changes once rest works =>
    refine .inside owns changes once rest ?_
    rw [content]
    exact works
  | through lock changes once rest =>
    refine .through lock changes once ?_
    rw [content]
    exact rest

theorem moves (sound : Sound d x) (moved : Moved d i t x z) : Sound d z where
  owner j owns none := by
    by_cases own : j = i
    · rw [own, moved.there] at none
      cases none
    · exact sound.owner j ((moved.spares.owner_iff own).1 owns)
        ((moved.spares.others j own).symm.trans none)
  known j listed none := by
    by_cases own : j = i
    · rw [own, moved.there] at none
      cases none
    · refine sound.known j ?_ ((moved.spares.others j own).symm.trans none)
      rcases moved.spares.changes with same | ⟨-, grown⟩
      · exact same ▸ listed
      · rw [grown] at listed
        rcases List.mem_cons.1 listed with here | before
        · exact absurd (Change.transaction.inj here) own
        · exact before
  standing j u there := by
    by_cases own : j = i
    · subst own
      cases moved.there.symm.trans there
      exact moved.standing
    · have before := (moved.spares.others j own).symm.trans there
      exact moved.standing_of_ne own (sound.standing j u before)
  settled idle := by
    by_cases listed : .transaction i ∈ z.changes
    · exact moved.settled listed fun owns => idle i owns listed
    · have same : z.changes = x.changes := by
        rcases moved.spares.changes with same | ⟨-, grown⟩
        · exact same
        · exact absurd (grown ▸ List.mem_cons_self) listed
      have kept : z.files.document = x.files.document :=
        moved.writes.resolve_right fun atWork => listed (same ▸ atWork.2)
      rw [same] at idle listed
      rw [kept, same, moved.spares.content_eq listed]
      refine sound.settled fun j owns => ?_
      by_cases own : j = i
      · exact own ▸ listed
      · exact idle j ((moved.spares.owner_iff own).2 owns)

/-- Somebody else takes the lock, writes or leaves. -/
theorem strange (sound : Sound d x) (transactions : z.transactions = x.transactions)
    (before : ∀ i, x.files.lock ≠ some (.transaction i))
    (after : ∀ i, z.files.lock ≠ some (.transaction i))
    (changes : z.changes = x.changes ∧ z.files.document = x.files.document ∨
      z.changes = .stranger z.files.document :: x.changes) : Sound d z := by
  have content (changes : List Change) : z.content d changes = x.content d changes :=
    content_congr fun _ _ _ => left_congr fun _ _ => by rw [transactions]
  have listed_iff (i : Nat) : .transaction i ∈ z.changes ↔ .transaction i ∈ x.changes := by
    rcases changes with ⟨same, -⟩ | grown
    · rw [same]
    · rw [grown]
      simp
  refine ⟨fun i owns => absurd owns (after i), fun i listed => ?_, fun i t there => ?_, fun _ => ?_⟩
  · rw [transactions]
    exact sound.known i ((listed_iff i).1 listed)
  · rw [transactions] at there
    have lock := iff_of_false (after i) (before i)
    refine (sound.standing i t there).frame lock (fun owns => absurd owns (before i)) ?_
      fun _ earlier _ => content earlier
    rcases changes with ⟨same, -⟩ | grown
    · exact ⟨[], same, List.not_mem_nil⟩
    · exact ⟨[.stranger z.files.document], grown, by simp⟩
  · rcases changes with ⟨same, kept⟩ | grown
    · rw [kept, same, content]
      exact sound.settled fun i owns => absurd owns (before i)
    · rw [grown]
      rfl

theorem works {strangers : Option Bytes → Option Bytes → Prop} (sound : Sound d x)
    (works : System.Works strangers x z) : Sound d z := by
  cases works with
  | moved there calls effect => exact sound.moves (sound.moved there calls effect)
  | strangerLocks free =>
    exact sound.strange rfl (by simp [free]) nofun (.inl ⟨rfl, rfl⟩)
  | strangerWrites owns may =>
    exact sound.strange rfl (by simp [owns]) (by simp [owns]) (.inr rfl)
  | strangerLeaves owns =>
    exact sound.strange rfl (by simp [owns]) nofun (.inl ⟨rfl, rfl⟩)

theorem step {strangers : Option Bytes → Option Bytes → Prop} (sound : Sound d x)
    (step : System.Step strangers x z) : Sound d z := by
  cases step with
  | begun free f c => exact sound.begun free f c
  | gaveUp there => exact sound.gaveUp there
  | works works => exact sound.works works

theorem run {strangers : Option Bytes → Option Bytes → Prop} (sound : Sound d x)
    (run : System.Run strangers x z) : Sound d z := by
  induction run with
  | refl => exact sound
  | tail _ step ih => exact ih.step step

end Sound

end Locked

end Interlock
