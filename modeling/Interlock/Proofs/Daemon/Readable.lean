import Interlock.Daemon.Running
import Interlock.Proofs.Daemon.Wire
import Interlock.Proofs.Schedule.Alone
import Interlock.Proofs.Store.Dated
import Interlock.Proofs.Store.Stretch

/-!
Answers can be read back. The only parts of an answer that have a written form of their own are the
records of a queue; they come from the table of the store, and whether that is in memory or was read
from a document, its records validate and their times are in the calendar. So whatever services the
daemon has, and whatever becomes of its calls, what it answers is read as it was written.
-/
namespace Interlock

open Program

namespace Store.FileStore

variable {f : FileStore} {c : Call}

/-- What a call on a document file gives is what it gives on a table that was read there. -/
def FromTable (f : FileStore) (c : Call) (a : c.Answer) : Prop :=
  ∀ v, a = .ok v → ∃ content t, Document.tableOf f.path content = .ok t ∧ (c.apply t).1 = .ok v

theorem fromTable_fail (e : StoreError) : f.FromTable c (c.fail e) := nofun

theorem fromTable_underLock (log : Log fileSteps) :
    (f.underLock c).Keeps ⟨fun _ _ => True, fun _ _ => True⟩ (fun _ a => f.FromTable c a) log := by
  unfold underLock
  refine keeps_bind.2 (keeps_call.2 ⟨trivial, fun found _ => keeps_done.2 ?_⟩)
  cases found with
  | error e => exact fromTable_fail _
  | ok content =>
    cases made : Document.tableOf f.path content with
    | error e =>
      simp only [made]
      exact fromTable_fail _
    | ok t =>
      have given : f.FromTable c (c.apply t).1 := fun v same => ⟨content, t, made, same⟩
      simp only [made]
      split
      · refine keeps_bind.2 ((keeps_top _ _).mono fun log written _ => ?_)
        cases written with
        | error e => exact fromTable_fail _
        | ok _ => exact given
      · exact given

/-- Whatever its steps are answered, a transaction gives nothing that was not read. -/
theorem fromTable_transact (log : Log fileSteps) :
    (f.transact c).Keeps ⟨fun _ _ => True, fun _ _ => True⟩ (fun _ a => f.FromTable c a) log := by
  unfold transact
  split
  · exact fromTable_fail _
  refine keeps_bind.2 (keeps_call.2 ⟨trivial, fun opened _ => keeps_done.2 ?_⟩)
  cases opened with
  | error e => exact fromTable_fail _
  | ok _ =>
    refine keeps_bind.2 (keeps_call.2 ⟨trivial, fun taken _ => keeps_done.2 ?_⟩)
    cases taken with
    | error e => exact fromTable_fail _
    | ok _ =>
      refine keeps_bind.2 (keeps_call.2 ⟨trivial, fun abandons _ => keeps_done.2 ?_⟩)
      cases abandons with
      | true => exact ⟨trivial, fun _ _ => fromTable_fail _⟩
      | false =>
        exact keeps_bind.2 ((fromTable_underLock _).mono fun _ _ given =>
          ⟨trivial, fun _ _ => given⟩)

end Store.FileStore

namespace Daemon

open Coordinator Schedule

namespace Services

variable {s : Services} {deadline : Option Nat} {stack : List Trace.Span} {now : Nat}

/-- The times of a store in memory are in the calendar. Those in a document always are. -/
def Dated (s : Services) : Prop :=
  ∀ t, s.store = .memory t → ∀ r ∈ t.records, r.enqueuedAt.Representable

theorem store_note (n : Trace.Note) (stack : List Trace.Span) (s : Services) :
    (site.note n stack s).store = s.store := by
  unfold Site.note
  split
  · rfl
  · rfl

/-- A store in memory answers at once. -/
theorem runBase_memory {t : Store.Table} (memory : s.store = .memory t) (c : Store.Call) :
    site.runBase deadline stack (storeCalls s.store c) now s =
      (some (c.apply t).1, now, { s with store := .memory (c.apply t).2 }) := by
  have answered : s.callStore c = ((c.apply t).1, { s with store := .memory (c.apply t).2 }) := by
    simp only [callStore, memory]
  have called : site.runBase deadline stack (storeCalls s.store c) now s =
      (some (s.callStore c).1, now, (s.callStore c).2) := by
    rw [memory]
    cases deadline with
    | none =>
      change (some (s.callStore c).1, max now now, (s.callStore c).2) = _
      rw [Nat.max_self]
    | some d =>
      have inTime : ¬ (now < now ∧ d < now) := fun cut => Nat.lt_irrefl now cut.1
      change (if now < now ∧ d < now then _
        else (some (s.callStore c).1, max now now, (s.callStore c).2)) = _
      rw [if_neg inTime, Nat.max_self]
  rw [called, answered]

/-- Only steps of transactions on a document file are made, whatever they are answered. -/
def stepping (f : Store.FileStore) : Conduct serviceCalls where
  allows _ c := ∃ step, c = ServiceCall.fileStep f step
  expects _ _ := True

/-- The records that are listed can be read back, whether they are listed in time or not. -/
theorem runBase_list (dated : s.Dated) (space : SpaceId) (deadline : Option Nat)
    (stack : List Trace.Span) (now : Nat) :
    let e := site.runBase deadline stack (storeCalls s.store (.list space)) now s
    (∀ a ∈ e.1, ∀ rs, a = .ok rs → (Response.queue rs).Sound) ∧ e.2.2.Dated := by
  have listed {t : Store.Table} (dated : ∀ r ∈ t.records, r.enqueuedAt.Representable) :
      (Response.queue (t.space space)).Sound := by
    intro r mem
    have there := (Store.Table.mem_space.1 mem).1
    exact ⟨t.valid r there, dated r there⟩
  cases kind : s.store with
  | memory t =>
    rw [← kind, runBase_memory kind]
    refine ⟨?_, ?_⟩
    · rintro a ⟨⟩ rs ⟨⟩
      exact listed (dated t kind)
    · intro t' same
      cases same
      exact dated t kind
  | file f =>
    have asked (step : Store.FileStep) (log : Log serviceCalls) :
        (ask (I := serviceCalls) (.fileStep f step)).Keeps (stepping f) (fun _ _ => True) log :=
      ⟨⟨step, rfl⟩, fun _ _ => trivial⟩
    have keeps : (storeCalls (.file f) (.list space)).Keeps (stepping f)
        (fun _ a => f.FromTable (.list space) a) [] :=
      (Store.FileStore.fromTable_transact []).handle (fun step _ log => asked step log) []
    have ended : ∀ (log : Log serviceCalls) (c : ServiceCall) ticket (y : Services),
        (stepping f).allows log c → y.store = .file f →
          (stepping f).expects c (site.finish c ticket y).1 ∧
            (site.finish c ticket y).2.store = .file f := by
      rintro log c ticket y ⟨step, rfl⟩ same
      exact ⟨trivial, same⟩
    have run : (∀ a ∈ (site.runBase deadline stack (storeCalls (.file f) (.list space)) now s).1,
          f.FromTable (.list space) a) ∧
        (site.runBase deadline stack (storeCalls (.file f) (.list space)) now s).2.2.store =
          .file f :=
      Site.runBase_keeps (fun y => y.store = .file f) keeps
        (fun n stack y same => (store_note n stack y).trans same)
        (fun _ _ _ same => same) ended stack kind
    refine ⟨fun a mem rs same => ?_, fun t memory => ?_⟩
    · obtain ⟨content, t, made, listing⟩ := run.1 a mem rs same
      cases listing
      exact listed (Store.Document.representable_of_tableOf made)
    · cases run.2.symm.trans memory

/-- Only the records of a space are asked for, and they can be read back. -/
def listing (space : SpaceId) : Conduct actions where
  allows _ a := ∃ limit, a = .store limit (.list space)
  expects a r :=
    match a, r with
    | .store _ (.list _), .inTime (.ok rs) => (Response.queue rs).Sound
    | _, _ => True

theorem answers_listing (space : SpaceId) {a : Action} (asked : (listing space).allows [] a)
    (dated : s.Dated) (stack : List Trace.Span) (now : Nat) :
    let e := site.runBase (a.limit?.map fun l => now + l.toNanos) stack (expand a s) now s
    (listing space).expects a (a.answer e.1) ∧ e.2.2.Dated := by
  obtain ⟨limit, rfl⟩ := asked
  obtain ⟨listed, left⟩ :=
    runBase_list dated space (limit.map fun l => now + l.toNanos) stack now
  have expected (v : Option (Store.Call.list space).Answer)
      (listed : ∀ a ∈ v, ∀ rs, a = .ok rs → (Response.queue rs).Sound) :
      (listing space).expects (.store limit (.list space)) (Action.answer (.store limit _) v) := by
    cases v with
    | none => trivial
    | some a =>
      cases a with
      | error e => trivial
      | ok rs => exact listed _ rfl rs rfl
  exact ⟨expected _ listed, left⟩

end Services

/-! Answers. -/

theorem Reaction.sound_ofResult {α : Type} {f : α → Response} {r : Except OperationError α}
    (sound : ∀ a, r = .ok a → (f a).Sound) : (Reaction.ofResult f r).response.Sound := by
  cases r with
  | ok a => exact sound a rfl
  | error e => trivial

namespace Request

variable {c : Coordinator}

theorem sound_plan {request : Request} (other : ∀ space, request ≠ .listQueue space)
    (log : Log actions) :
    (request.plan c).Keeps ⟨fun _ _ => True, fun _ _ => True⟩
      (fun _ reaction => reaction.response.Sound) log := by
  have outcomes (r : Except OperationError (List Outcome)) (log : Log actions) :
      (Reaction.ofOutcomes r).Keeps ⟨fun _ _ => True, fun _ _ => True⟩
        (fun _ reaction => reaction.response.Sound) log := by
    cases r with
    | ok os => exact keeps_bind.2 (keeps_sayAll.2 trivial)
    | error e => trivial
  cases request with
  | ping => trivial
  | enroll w s =>
    refine keeps_bind.2 ((keeps_top _ _).mono fun log a _ => ?_)
    cases a with
    | ok o => exact keeps_bind.2 (keeps_sayAll.2 trivial)
    | error e => trivial
  | release w s => exact keeps_bind.2 ((keeps_top _ _).mono fun log a _ => outcomes a log)
  | abandon w => exact keeps_bind.2 ((keeps_top _ _).mono fun log a _ => outcomes a log)
  | listHolders =>
    refine keeps_bind.2 ((keeps_top _ _).mono fun log a _ => ?_)
    exact Reaction.sound_ofResult fun _ _ => trivial
  | listQueue s => exact absurd rfl (other s)
  | shutdown => trivial

theorem sound_plan_listQueue (space : SpaceId) (log : Log actions) :
    ((Request.listQueue space).plan c).Keeps (Services.listing space)
      (fun _ reaction => reaction.response.Sound) log := by
  refine keeps_bind.2 (keeps_bind.2 (keeps_callStore.2 ⟨⟨_, rfl⟩, fun a listed => ?_, fun _ => ?_⟩))
  · cases a with
    | ok rs => exact listed
    | error e => trivial
  · trivial

end Request

namespace Running

/-- Every answer can be read back from its body. -/
theorem sound_answer (r : Running) (request : Request) {s : Services} (dated : s.Dated) :
    (r.answer request s).1.Sound := by
  by_cases listing : ∃ space, request = .listQueue space
  · obtain ⟨space, rfl⟩ := listing
    have keeps := Request.sound_plan_listQueue (c := r.crew.coordinator) space []
    have noted : ∀ (_ : Log actions) n stack (y : Services), y.Dated →
        (Services.site.note n stack y).Dated := by
      intro _ n stack y dated t memory
      rw [Services.store_note] at memory
      exact dated t memory
    obtain ⟨-, sound, -⟩ := Services.site.runAlone_keeps (fun _ y => y.Dated) keeps noted
      (fun _ _ stack now _ asked dated => Services.answers_listing space asked dated stack now)
      [] dated
    exact sound
  · have keeps := Request.sound_plan (c := r.crew.coordinator)
      (fun space same => listing ⟨space, same⟩) []
    obtain ⟨-, sound, -⟩ := Services.site.runAlone_keeps (fun _ _ => True) keeps
      (fun _ _ _ _ _ => trivial) (fun _ _ _ _ _ _ _ => ⟨trivial, trivial⟩) [] trivial
    exact sound

end Running

end Daemon

end Interlock
