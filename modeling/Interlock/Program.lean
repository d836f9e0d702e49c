import Interlock.Trace

/-!
Programs as data: a tree of calls, each with a continuation for every answer. A program has no
effect of its own. The same tree is run against a table in memory, stepped one call at a time among
others, or laid out in time, and what is proved about the tree holds in all of them.
-/
namespace Interlock

/-- The calls a program may make and the type of the answer to each. -/
structure Interface where
  Call : Type
  Answer : Call → Type

/-- A program that makes calls and ends with a value. -/
inductive Program (I : Interface) (α : Type) where
  | done (a : α)
  | note (n : Trace.Note) (rest : Program I α)
  | call (c : I.Call) (next : I.Answer c → Program I α)

namespace Program

variable {I : Interface} {α β : Type}

/-- Run a second program with the value of the first. -/
def bind : Program I α → (α → Program I β) → Program I β
  | .done a, f => f a
  | .note n rest, f => .note n (rest.bind f)
  | .call c next, f => .call c fun r => (next r).bind f

instance : Monad (Program I) where
  pure := .done
  bind := bind

/-- Make one call. -/
def ask (c : I.Call) : Program I (I.Answer c) := .call c .done

/-- Say one thing. -/
def say (n : Trace.Note) : Program I Unit := .note n (.done ())

/-- Say several things in order. -/
def sayAll : List Trace.Note → Program I Unit
  | [] => .done ()
  | n :: ns => .note n (sayAll ns)

/-- Report an event. -/
def report (level : Trace.Level) (message : String) (fields : Trace.Fields) : Program I Unit :=
  say (.event ⟨level, message, fields⟩)

/-- Run a program inside a span. -/
def inSpan (s : Trace.Span) (p : Program I α) : Program I α := do
  say (.enter s)
  let a ← p
  say .leave
  return a

/-- Carry out every call by a program of other calls. -/
def handle {J : Interface} (carry : (c : I.Call) → Program J (I.Answer c)) :
    Program I α → Program J α
  | .done a => .done a
  | .note n rest => .note n (rest.handle carry)
  | .call c next => (carry c).bind fun r => (next r).handle carry

/-- Answer every call at once from a state that the answers may change. Notes are passed on together
with the spans around them. -/
def run {σ : Type} (answer : (c : I.Call) → σ → I.Answer c × σ)
    (hear : Trace.Entry → σ → σ) (stack : List Trace.Span) : Program I α → σ → α × σ
  | .done a, s => (a, s)
  | .note n rest, s =>
    let s :=
      match n.entry? stack with
      | some e => hear e s
      | none => s
    rest.run answer hear (n.spans stack) s
  | .call c next, s =>
    let (r, s) := answer c s
    (next r).run answer hear stack s

/-- Answer every call at once and drop all notes. -/
def runQuiet {σ : Type} (answer : (c : I.Call) → σ → I.Answer c × σ) :
    Program I α → σ → α × σ
  | .done a, s => (a, s)
  | .note _ rest, s => rest.runQuiet answer s
  | .call c next, s =>
    let (r, s) := answer c s
    (next r).runQuiet answer s

end Program

end Interlock
