import Interlock.Proofs.Evaluation.Course

/-!
A step of a space under every pattern of failures, told by its log. Which outcome it has, which
commands it gives and what it leaves in the table depends on the table it starts from and on the
answers that failed, and on nothing else. Specification, section 4.3: Shared Space Coordinator.
-/
namespace Interlock

namespace Evaluation

open Coordinator Store Fleet Interlock.Sequential

abbrev Event : Type := (a : Action) × a.Answer

/-- The error of an answer; there is one for an answer that is late. -/
def error? {α β : Type} (overdue : α) : Timed (Except α β) → Option α
  | .inTime (.error e) => some e
  | .inTime (.ok _) => none
  | .late => some overdue

def storeError? : Event → Option StoreError
  | ⟨.store limit _, a⟩ => error? (.transaction (.timeout (shownLimit limit))) a
  | _ => none

def vendorError? : Event → Option FleetError
  | ⟨.vendor limit c, a⟩ => error? (.timeout c.kind (shownLimit limit)) a
  | _ => none

def commandOf? : Event → Option Command
  | ⟨.vendor _ c, _⟩ => some c
  | _ => none

def swapOf? : Event → Option (Record × Record)
  | ⟨.store _ (.swap new old), _⟩ => some (new, old)
  | _ => none

def writes : Event → Bool
  | ⟨.store _ k, _⟩ => k.writes
  | _ => false

def findsFree (s : SpaceId) : Event → Bool
  | ⟨.store _ (.lockHolder p), a⟩ => p = s ∧ a = .inTime (.ok none)
  | _ => false

/-! What a log shows; its latest event stands first. -/

def commands (log : Log actions) : List Command := log.reverse.filterMap commandOf?

def swaps (log : Log actions) : List (Record × Record) := log.reverse.filterMap swapOf?

/-- The first error of a store call before there is any command. -/
def readError? (log : Log actions) : Option StoreError :=
  (log.reverse.takeWhile fun e => (commandOf? e).isNone).findSome? storeError?

def blockError? (s : SpaceId) (log : Log actions) : Option FleetError :=
  (log.find? fun e => commandOf? e = some (.block s)).bind vendorError?

def swapError? (log : Log actions) : Option StoreError :=
  (log.find? fun e => (swapOf? e).isSome).bind storeError?

def foundFree (s : SpaceId) (log : Log actions) : Bool :=
  (log.takeWhile fun e => (swapOf? e).isNone).any (findsFree s)

def OnlySwaps (log : Log actions) : Prop :=
  ∀ e ∈ log, writes e = true → (swapOf? e).isSome = true

/-- The first waiter's record has given way to its holder record, and nothing else has changed. -/
def Exchanged (t : Table) (r : Record) (t' : Table) : Prop :=
  ∀ x, x ∈ t'.records ↔ x = r.toHolder ∨ (x ∈ t.records ∧ x ≠ r)

/-- An attempt to grant a space to its first waiter: how it ends and what it commands. -/
structure Attempted (t : Table) (s : SpaceId) (r : Record) (log : Log actions) (o : Outcome)
    (t' : Table) : Prop where
  unblocked : ∀ e, blockError? s log = some e →
    o = .failedToBlock s r.worker e.message ∧ swaps log = []
  swapped : blockError? s log = none → swaps log = [(r.toHolder, r)]
  granted : blockError? s log = none → swapError? log = none →
    o = .granted s r.worker ∧ Exchanged t r t'
  refused : ∀ e, swapError? log = some e → o = .failedToGrant s r.worker e.message
  commanded : commands log =
    .block s :: if (swapError? log).isSome && foundFree s log then [.unblock s] else []

/-- A step of a space, accounted for by the table it starts from and by the answers it had. -/
structure Accounted (t : Table) (s : SpaceId) (log : Log actions) (o : Outcome) (t' : Table) :
    Prop where
  unread : ∀ e, readError? log = some e → o = .unavailable s e.message ∧ commands log = []
  unavailable : ∀ p reason, o = .unavailable p reason → (readError? log).isSome
  occupied : readError? log = none → ∀ h, t.holder s = some h →
    o = .occupied s h.worker ∧ commands log = []
  idle : readError? log = none → t.holder s = none →
    (∀ r ∈ t.records, r.space = s → r.isHolder = true) → o = .idle s ∧ commands log = []
  deferred : readError? log = none → t.holder s = none → ∀ r other, t.FirstWaiter s r →
    t.LeastOther r.worker s other → o = .deferred s r.worker other ∧ commands log = []
  attempted : readError? log = none → ∀ r, t.Grantable s r → Attempted t s r log o t'
  unblocks : .unblock s ∈ commands log ↔ (swapError? log).isSome ∧ foundFree s log
  table : t' = t ∨ ∃ r, t.FirstWaiter s r ∧ swaps log = [(r.toHolder, r)] ∧ Exchanged t r t'

/-! What the events of a step show. -/

section Shown

variable {l : Limits}

@[simp] theorem error?_ok {α β : Type} (overdue : α) (b : β) :
    error? overdue (.inTime (.ok b)) = none := rfl

@[simp] theorem storeError?_asked (k : Call) (a : Timed k.Answer) :
    storeError? (asked l k a) = error? (.transaction (.timeout (shownLimit l.store))) a := rfl

@[simp] theorem vendorError?_told (k : Command) (a : Timed k.Answer) :
    vendorError? (told l k a) = error? (.timeout k.kind (shownLimit l.command)) a := rfl

theorem error?_of_storeAnswer {k : Call} {a : Timed k.Answer} {e : StoreError}
    (fails : storeAnswer l k a = .error e) :
    error? (.transaction (.timeout (shownLimit l.store))) a = some e := by
  cases a with
  | inTime a => rw [show a = .error e from fails]; rfl
  | late => exact congrArg some (Except.error.inj fails)

theorem error?_of_vendorAnswer {k : Command} {a : Timed k.Answer} {e : FleetError}
    (fails : vendorAnswer l k a = .error e) :
    error? (.timeout k.kind (shownLimit l.command)) a = some e := by
  cases a with
  | inTime a => rw [show a = .error e from fails]; rfl
  | late => exact congrArg some (Except.error.inj fails)

@[simp] theorem commandOf?_asked {k : Call} (a : Timed k.Answer) :
    commandOf? (asked l k a) = none := rfl

@[simp] theorem commandOf?_told {k : Command} (a : Timed k.Answer) :
    commandOf? (told l k a) = some k := rfl

@[simp] theorem commandOf?_published {limit : Option Time.Duration} {q : Publication}
    (a : Timed Publication.Answer) : commandOf? ⟨.publish limit q, a⟩ = none := rfl

end Shown

/-! Every course of a step is accounted for. -/

variable {ε : Type} {W : Hazards ε} {l : Limits} {s : SpaceId} {t t' : Table} {log : Log actions}
  {o : Outcome} {r : Record}

theorem exchanged_of_swap (first : t.FirstWaiter s r) (swapped : t.swap r.toHolder r = .ok t') :
    Exchanged t r t' :=
  fun _ => Table.mem_promoted first.stored swapped

/-- A step that could not read the store. -/
theorem accounted_of_unread {e : StoreError} (failed : readError? log = some e)
    (quiet : commands log = []) (unswapped : swapError? log = none) :
    Accounted t s log (.unavailable s e.message) t where
  unread := by simp [failed, quiet]
  unavailable := by simp [failed]
  occupied := by simp [failed]
  idle := by simp [failed]
  deferred := by simp [failed]
  attempted := by simp [failed]
  unblocks := by simp [quiet, unswapped]
  table := .inl rfl

/-- A step that found nobody it could grant the space to. -/
theorem accounted_of_settled (read : readError? log = none) (quiet : commands log = [])
    (unswapped : swapError? log = none) (answered : ∀ p reason, o ≠ .unavailable p reason)
    (occupied : ∀ h, t.holder s = some h → o = .occupied s h.worker)
    (idle : t.holder s = none → (∀ r ∈ t.records, r.space = s → r.isHolder = true) → o = .idle s)
    (deferred : t.holder s = none → ∀ r other, t.FirstWaiter s r →
      t.LeastOther r.worker s other → o = .deferred s r.worker other)
    (nobody : ∀ r, ¬t.Grantable s r) :
    Accounted t s log o t where
  unread := by simp [read]
  unavailable := fun p reason same => absurd same (answered p reason)
  occupied _ h held := ⟨occupied h held, quiet⟩
  idle _ free settled := ⟨idle free settled, quiet⟩
  deferred _ free r other first least := ⟨deferred free r other first least, quiet⟩
  attempted _ r grantable := absurd grantable (nobody r)
  unblocks := by simp [quiet, unswapped]
  table := .inl rfl

/-- An attempt whose block has worked and whose swap has failed. -/
theorem attempted_of_swapError {e : StoreError} (blocked : blockError? s log = none)
    (tried : swaps log = [(r.toHolder, r)]) (failed : swapError? log = some e)
    (commanded : commands log = .block s :: if foundFree s log then [.unblock s] else []) :
    Attempted t s r log (.failedToGrant s r.worker e.message) t' where
  unblocked := by simp [blocked]
  swapped _ := tried
  granted := by simp [failed]
  refused := by simp [failed]
  commanded := by simpa [failed] using commanded

/-- A step that tried to grant the space. -/
theorem accounted_of_attempted (grantable : t.Grantable s r) (read : readError? log = none)
    (answered : ∀ p reason, o ≠ .unavailable p reason) (attempted : Attempted t s r log o t')
    (table : t' = t ∨ swaps log = [(r.toHolder, r)] ∧ Exchanged t r t') :
    Accounted t s log o t' where
  unread := by simp [read]
  unavailable := fun p reason same => absurd same (answered p reason)
  occupied := by simp [grantable.free]
  idle _ _ nobody := by
    have waits := nobody r grantable.first.stored grantable.first.space
    simp [grantable.first.waits] at waits
  deferred _ _ q other first least := by
    obtain rfl := grantable.first.unique first
    exact absurd (grantable.idle other least.held) least.ne
  attempted _ q grantable' := grantable.first.unique grantable'.first ▸ attempted
  unblocks := by simp [attempted.commanded]
  table := table.imp id fun changed => ⟨r, grantable.first, changed⟩

theorem OnlySwaps.nil : OnlySwaps [] := List.forall_mem_nil _

/-- An event that cannot have changed the table. -/
theorem OnlySwaps.and_harmless (only : OnlySwaps log) {e : Event} (harmless : writes e = false) :
    OnlySwaps (e :: log) :=
  List.forall_mem_cons.2 ⟨fun writing => absurd writing (by simp [harmless]), only⟩

theorem OnlySwaps.and_swap (only : OnlySwaps log) {e : Event} (swaps : (swapOf? e).isSome = true) :
    OnlySwaps (e :: log) :=
  List.forall_mem_cons.2 ⟨fun _ => swaps, only⟩

theorem onlySwaps_reads : OnlySwaps (reads l s t r) :=
  ((OnlySwaps.nil.and_harmless rfl).and_harmless rfl).and_harmless rfl

/-- The only call of a step that may change the table is its swap. -/
theorem Course.onlySwaps (course : Course W l s t log o t') : OnlySwaps log := by
  cases course with
  | holderUnread | occupied => exact OnlySwaps.nil.and_harmless rfl
  | waiterUnread | idle => exact (OnlySwaps.nil.and_harmless rfl).and_harmless rfl
  | holdersUnread =>
    exact ((OnlySwaps.nil.and_harmless rfl).and_harmless rfl).and_harmless rfl
  | deferred => exact onlySwaps_reads
  | unblocked => exact onlySwaps_reads.and_harmless rfl
  | granted | kept =>
    exact ((onlySwaps_reads.and_harmless rfl).and_swap rfl).and_harmless rfl
  | takenBack =>
    exact (((onlySwaps_reads.and_harmless rfl).and_swap rfl).and_harmless rfl).and_harmless rfl

theorem accounted_of_occupied {h : Record} (held : t.holder s = some h) :
    Accounted t s [asked l (.lockHolder s) (.inTime (.ok (some h)))] (.occupied s h.worker) t := by
  apply accounted_of_settled rfl rfl rfl (by simp)
  · simp [held]
  · simp [held]
  · simp [held]
  · intro r grantable
    simp [grantable.free] at held

theorem accounted_of_idle (free : t.holder s = none) (nobody : t.nextWaiter s = none) :
    Accounted t s
      [asked l (.nextWaiter s) (.inTime (.ok none)), asked l (.lockHolder s) (.inTime (.ok none))]
      (.idle s) t := by
  have missing : ∀ r, ¬t.FirstWaiter s r := by
    simp [← Table.nextWaiter_eq_some_iff, nobody]
  apply accounted_of_settled rfl rfl rfl (by simp)
  · simp [free]
  · simp
  · intro _ r other first
    exact absurd first (missing r)
  · intro r grantable
    exact missing r grantable.first

theorem accounted_of_deferred (free : t.holder s = none) (first : t.FirstWaiter s r)
    {other : SpaceId} (elsewhere : t.LeastOther r.worker s other) :
    Accounted t s (reads l s t r) (.deferred s r.worker other) t := by
  apply accounted_of_settled rfl rfl rfl (by simp)
  · simp [free]
  · intro _ nobody
    have waits := nobody r first.stored first.space
    simp [first.waits] at waits
  · intro _ q p first' elsewhere'
    obtain rfl := first.unique first'
    rw [elsewhere.unique elsewhere']
  · intro q grantable
    obtain rfl := first.unique grantable.first
    exact elsewhere.ne (grantable.idle other elsewhere.held)

/-- Every course of a step is accounted for. -/
theorem Course.accounted (course : Course W l s t log o t') : Accounted t s log o t' := by
  cases course with
  | holderUnread fault fails =>
    apply accounted_of_unread _ rfl rfl
    simp [readError?, List.takeWhile_cons, error?_of_storeAnswer fails]
  | occupied held => exact accounted_of_occupied held
  | waiterUnread free fault fails =>
    apply accounted_of_unread _ rfl rfl
    simp [readError?, List.takeWhile_cons, List.findSome?_cons, error?_of_storeAnswer fails]
  | idle free nobody => exact accounted_of_idle free nobody
  | holdersUnread free first fault fails =>
    apply accounted_of_unread _ rfl rfl
    simp [readError?, List.takeWhile_cons, List.findSome?_cons, error?_of_storeAnswer fails]
  | deferred free first elsewhere => exact accounted_of_deferred free first elsewhere
  | unblocked grantable answered fails =>
    have failed := error?_of_vendorAnswer fails
    apply accounted_of_attempted grantable rfl (by simp) _ (.inl rfl)
    constructor
    case unblocked => simp [blockError?, failed, swaps, swapOf?, reads]
    case swapped => simp [blockError?, failed]
    case granted => simp [blockError?, failed]
    case refused => simp [swapError?, swapOf?, reads]
    case commanded => simp [swapError?, swapOf?, reads, commands, List.filterMap_cons]
  | granted grantable blocked swapped p =>
    have exchanged := exchanged_of_swap grantable.first swapped
    apply accounted_of_attempted grantable rfl (by simp) _ (.inr ⟨rfl, exchanged⟩)
    constructor
    case unblocked => simp [blockError?]
    case swapped => exact fun _ => rfl
    case granted => exact fun _ _ => ⟨rfl, exchanged⟩
    case refused => simp [swapError?, swapOf?]
    case commanded => simp [swapError?, swapOf?, reads, commands, List.filterMap_cons]
  | kept grantable landed fault fails unsure =>
    have failed := error?_of_storeAnswer fails
    apply accounted_of_attempted grantable rfl (by simp) _
      (landed.imp id fun swapped => ⟨rfl, exchanged_of_swap grantable.first swapped⟩)
    refine attempted_of_swapError (by simp [blockError?]) rfl ?failed ?commanded
    case failed => simp [swapError?, swapOf?, failed]
    case commanded =>
      simp [foundFree, findsFree, unsure, swapOf?, reads, commands, List.filterMap_cons]
  | takenBack grantable fault fails u =>
    have failed := error?_of_storeAnswer fails
    apply accounted_of_attempted grantable rfl (by simp) _ (.inl rfl)
    refine attempted_of_swapError (by simp [blockError?]) rfl ?failed ?commanded
    case failed => simp [swapError?, swapOf?, failed]
    case commanded =>
      simp [foundFree, findsFree, swapOf?, reads, commands, List.filterMap_cons]

/-- Whatever fails, a step of a space gives an outcome. It is unavailable just when a read before
the block failed. Else the holder, the waiters and what the first waiter holds decide, and an
attempt to grant goes by what became of the block, of the swap and of the look after it. The table
changes by that swap only. -/
theorem evaluate_accounted (W : Hazards ε) (c : Coordinator) (s : SpaceId) (x : Scene Table ε) :
    (c.evaluate s).Ends (Program.recorded W.answer)
      (fun o y => Accounted x.state s y.1 o y.2.state ∧ OnlySwaps y.1) ([], x) :=
  (Hazards.evaluate_course W c s x).mono fun _ _ course => ⟨course.accounted, course.onlySwaps⟩

end Evaluation

end Interlock
