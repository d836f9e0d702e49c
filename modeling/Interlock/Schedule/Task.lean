import Interlock.Coordinator.Action

/-!
Coordinator programs laid out in time. Time is a number of nanoseconds that moves only between
steps, so what needs no waiting happens at once. A site carries actions out by programs of base
calls; a base call may take time, and when the limit of its action passes first the rest of the
action is dropped and has no later effect. A call that ends exactly at its limit is in time.
Specification, section 5: Concurrency & Resource Model.
-/
namespace Interlock.Schedule

open Coordinator

/-- Where actions are carried out: how each becomes base calls, when a base call ends that begins
now, and what it answers then. A ticket remembers what was found at its beginning. -/
structure Site (σ : Type) where
  base : Interface
  Ticket : Type
  expand : (a : Action) → σ → Program base a.Value × σ
  start : base.Call → Nat → σ → (Nat × Ticket) × σ
  finish : (c : base.Call) → Ticket → σ → base.Answer c × σ
  hear : Trace.Entry → σ → σ

variable {σ : Type}

namespace Site

/-- Pass a note on, if it is an event. -/
def note (site : Site σ) (n : Trace.Note) (stack : List Trace.Span) (s : σ) : σ :=
  match n.entry? stack with
  | some e => site.hear e s
  | none => s

/-- A program of base calls that has ended, or that waits for a call to end. -/
inductive Stage (site : Site σ) (β : Type) where
  | ended (b : β)
  | waiting (due : Nat) (c : site.base.Call) (ticket : site.Ticket) (stack : List Trace.Span)
      (next : site.base.Answer c → Program site.base β)

/-- Run a program of base calls as far as it goes without waiting. -/
def advanceBase (site : Site σ) (now : Nat) {β : Type} (stack : List Trace.Span) :
    Program site.base β → σ → site.Stage β × σ
  | .done b, s => (.ended b, s)
  | .note n rest, s => advanceBase site now (n.spans stack) rest (site.note n stack s)
  | .call c next, s =>
    let ((due, ticket), s) := site.start c now s
    if due ≤ now then
      let (answer, s) := site.finish c ticket s
      advanceBase site now stack (next answer) s
    else (.waiting due c ticket stack next, s)

/-- A coordinator program in the middle of an action. -/
structure Suspended (site : Site σ) (α : Type) where
  action : Action
  next : action.Answer → Plan α
  stack : List Trace.Span
  deadline : Option Nat
  due : Nat
  call : site.base.Call
  ticket : site.Ticket
  innerStack : List Trace.Span
  inner : site.base.Answer call → Program site.base action.Value

/-- When a suspended program goes on: at the end of its call or at the limit of its action. -/
def Suspended.wake {site : Site σ} {α : Type} (t : site.Suspended α) : Nat :=
  match t.deadline with
  | some d => min t.due d
  | none => t.due

/-- A coordinator program that has ended or is suspended. -/
inductive Progress (site : Site σ) (α : Type) where
  | ended (a : α)
  | suspended (t : site.Suspended α)

/-- Run a coordinator program as far as it goes without waiting. -/
def advance (site : Site σ) (now : Nat) {α : Type} (stack : List Trace.Span) :
    Plan α → σ → site.Progress α × σ
  | .done a, s => (.ended a, s)
  | .note n rest, s => advance site now (n.spans stack) rest (site.note n stack s)
  | .call a next, s =>
    let (body, s) := site.expand a s
    match site.advanceBase now stack body s with
    | (.ended v, s) => advance site now stack (next (a.answer (some v))) s
    | (.waiting due c ticket innerStack inner, s) =>
      (.suspended
        ⟨a, next, stack, (Action.limit? a).map fun l => now + l.toNanos, due, c, ticket,
          innerStack, inner⟩, s)

/-- Go on with a suspended program when it wakes. -/
def resume (site : Site σ) (now : Nat) {α : Type} (t : site.Suspended α) (s : σ) :
    site.Progress α × σ :=
  if t.due ≤ now then
    let (answer, s) := site.finish t.call t.ticket s
    match site.advanceBase now t.innerStack (t.inner answer) s with
    | (.ended v, s) => site.advance now t.stack (t.next (t.action.answer (some v))) s
    | (.waiting due c ticket innerStack inner, s) =>
      (.suspended
        { t with
          due := due, call := c, ticket := ticket, innerStack := innerStack, inner := inner }, s)
  else site.advance now t.stack (t.next (t.action.answer none)) s

/-- Run a program of base calls to its end, or to the deadline. -/
def runBase (site : Site σ) (deadline : Option Nat) {β : Type} (stack : List Trace.Span) :
    Program site.base β → Nat → σ → Option β × Nat × σ
  | .done b, now, s => (some b, now, s)
  | .note n rest, now, s => runBase site deadline (n.spans stack) rest now (site.note n stack s)
  | .call c next, now, s =>
    let ((due, ticket), s) := site.start c now s
    match deadline with
    | some d =>
      if now < due ∧ d < due then (none, max now d, s)
      else
        let (answer, s) := site.finish c ticket s
        runBase site deadline stack (next answer) (max now due) s
    | none =>
      let (answer, s) := site.finish c ticket s
      runBase site deadline stack (next answer) (max now due) s

/-- Run a coordinator program to its end with nothing else going on. -/
def runAlone (site : Site σ) {α : Type} (stack : List Trace.Span) : Plan α → Nat → σ → α × Nat × σ
  | .done a, now, s => (a, now, s)
  | .note n rest, now, s => runAlone site (n.spans stack) rest now (site.note n stack s)
  | .call a next, now, s =>
    let (body, s) := site.expand a s
    let deadline := (Action.limit? a).map fun l => now + l.toNanos
    let (v, now, s) := site.runBase deadline stack body now s
    runAlone site stack (next (a.answer v)) now s

/-- One of several programs that run together. -/
inductive Runner (site : Site σ) (α : Type) where
  | pending (start : Nat) (p : Plan α)
  | running (t : site.Suspended α)
  | ended (a : α)

namespace Runner

variable {site : Site σ} {α : Type}

/-- When a runner has something to do next. -/
def wake? : Runner site α → Option Nat
  | .pending start _ => some start
  | .running t => some t.wake
  | .ended _ => none

/-- Its next piece of work. -/
def step (now : Nat) : Runner site α → σ → Runner site α × σ
  | .pending start p, s =>
    match site.advance (max now start) [] p s with
    | (.ended a, s) => (.ended a, s)
    | (.suspended t, s) => (.running t, s)
  | .running t, s =>
    match site.resume now t s with
    | (.ended a, s) => (.ended a, s)
    | (.suspended t, s) => (.running t, s)
  | .ended a, s => (.ended a, s)

end Runner

/-- The earlier of two times, where nothing is later than any. -/
def earlier (a b : Option Nat) : Option Nat :=
  match a, b with
  | some a, some b => some (min a b)
  | some a, none => some a
  | none, b => b

/-- The next time any of the runners has something to do. -/
def nextWake {site : Site σ} {α : Type} (rs : List (Runner site α)) : Option Nat :=
  rs.foldl (fun t r => earlier t r.wake?) none

/-- Let the first runner that is due at a time do its piece of work. -/
def stepFirst {site : Site σ} {α : Type} (now : Nat) :
    List (Runner site α) → σ → List (Runner site α) × σ
  | [], s => ([], s)
  | r :: rs, s =>
    match r.wake? with
    | some t =>
      if t ≤ now then
        let (r, s) := r.step now s
        (r :: rs, s)
      else
        let (rs, s) := stepFirst now rs s
        (r :: rs, s)
    | none =>
      let (rs, s) := stepFirst now rs s
      (r :: rs, s)

/-- Run several programs together, always the one that is due first, for a bounded number of
steps. -/
def runTogether {site : Site σ} {α : Type} :
    Nat → Nat → List (Runner site α) → σ → List (Runner site α) × Nat × σ
  | 0, now, rs, s => (rs, now, s)
  | fuel + 1, now, rs, s =>
    match nextWake rs with
    | none => (rs, now, s)
    | some t =>
      let now := max now t
      let (rs, s) := stepFirst now rs s
      runTogether fuel now rs s

end Site

/-- More steps than any bounded run of these programs takes. -/
def manySteps : Nat := 1000000

end Interlock.Schedule
