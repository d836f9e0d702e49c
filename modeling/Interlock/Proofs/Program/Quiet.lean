import Interlock.Proofs.Program.Conduct

/-!
Programs that are answered at once from a state. The notes of a program play no part in this, so a
store call comes down to its answer, and a sequence of programs to one run after the other. What a
program is to end with is settled part by part, from the last part to the first.
-/
namespace Interlock

namespace Program

variable {I : Interface} {α β σ : Type} {answer : (c : I.Call) → σ → I.Answer c × σ} {x : σ}

@[simp] theorem runQuiet_pure (a : α) : (pure a : Program I α).runQuiet answer x = (a, x) := rfl

@[simp] theorem runQuiet_done (a : α) : (done a : Program I α).runQuiet answer x = (a, x) := rfl

@[simp] theorem runQuiet_call (c : I.Call) (next : I.Answer c → Program I α) :
    (call c next).runQuiet answer x = (next (answer c x).1).runQuiet answer (answer c x).2 := rfl

@[simp] theorem runQuiet_bind (p : Program I β) (f : β → Program I α) :
    (p >>= f).runQuiet answer x =
      (f (p.runQuiet answer x).1).runQuiet answer (p.runQuiet answer x).2 := by
  change (p.bind f).runQuiet answer x = _
  induction p generalizing x with
  | done b => rfl
  | note n rest ih => exact ih
  | call c next ih => exact ih _

@[simp] theorem runQuiet_say (n : Trace.Note) :
    (say n : Program I Unit).runQuiet answer x = ((), x) := rfl

@[simp] theorem runQuiet_sayAll (ns : List Trace.Note) :
    (sayAll ns : Program I Unit).runQuiet answer x = ((), x) := by
  induction ns with
  | nil => rfl
  | cons n ns ih => exact ih

@[simp] theorem runQuiet_report (level : Trace.Level) (message : String) (fields : Trace.Fields) :
    (report level message fields : Program I Unit).runQuiet answer x = ((), x) := rfl

@[simp] theorem runQuiet_inSpan (s : Trace.Span) (p : Program I α) :
    (inSpan s p).runQuiet answer x = p.runQuiet answer x := by
  simp [inSpan]

/-! How a program ends. -/

/-- The program, answered from the state, ends as the condition says. -/
def Ends (answer : (c : I.Call) → σ → I.Answer c × σ) (p : Program I α) (post : α → σ → Prop)
    (x : σ) : Prop :=
  post (p.runQuiet answer x).1 (p.runQuiet answer x).2

variable {post post' : α → σ → Prop}

theorem Ends.mono {p : Program I α} (h : p.Ends answer post x)
    (weaker : ∀ a y, post a y → post' a y) : p.Ends answer post' x := weaker _ _ h

theorem Ends.and {p : Program I α} (h : p.Ends answer post x) (h' : p.Ends answer post' x) :
    p.Ends answer (fun a y => post a y ∧ post' a y) x := ⟨h, h'⟩

@[simp] theorem ends_pure {a : α} : (pure a : Program I α).Ends answer post x ↔ post a x := Iff.rfl

@[simp] theorem ends_ask {c : I.Call} {post : I.Answer c → σ → Prop} :
    (ask c).Ends answer post x ↔ post (answer c x).1 (answer c x).2 := Iff.rfl

@[simp] theorem ends_bind {p : Program I β} {f : β → Program I α} :
    (p >>= f).Ends answer post x ↔ p.Ends answer (fun b y => (f b).Ends answer post y) x := by
  rw [Ends, runQuiet_bind]
  exact Iff.rfl

@[simp] theorem ends_report {level : Trace.Level} {message : String} {fields : Trace.Fields}
    {post : Unit → σ → Prop} :
    (report level message fields : Program I Unit).Ends answer post x ↔ post () x := Iff.rfl

@[simp] theorem ends_inSpan {s : Trace.Span} {p : Program I α} :
    (inSpan s p).Ends answer post x ↔ p.Ends answer post x := by
  rw [Ends, runQuiet_inSpan]
  exact Iff.rfl

/-- A program keeps an invariant of the state that every call keeps which its conduct allows. -/
theorem Keeps.preserves {κ : Conduct I} {post : Log I → α → Prop} {p : Program I α} {log : Log I}
    {inv : σ → Prop} (keeps : p.Keeps κ post log)
    (expected : ∀ c y, κ.expects c (answer c y).1)
    (kept : ∀ log c y, κ.allows log c → inv y → inv (answer c y).2) (start : inv x) :
    p.Ends answer (fun _ y => inv y) x := by
  induction p generalizing log x with
  | done a => exact start
  | note n rest ih => exact ih keeps start
  | call c next ih =>
    exact ih (answer c x).1 (keeps.2 (answer c x).1 (expected c x)) (kept log c x keeps.1 start)

/-- Answers from a state beside the log of all calls and answers. -/
def recorded (answer : (c : I.Call) → σ → I.Answer c × σ) (c : I.Call) (x : Log I × σ) :
    I.Answer c × (Log I × σ) :=
  ((answer c x.2).1, (⟨c, (answer c x.2).1⟩ :: x.1, (answer c x.2).2))

/-- A program adds to the log it starts with, and does not look at it. -/
theorem runQuiet_recorded_append (p : Program I α) (log : Log I) :
    p.runQuiet (recorded answer) (log, x) =
      let e := p.runQuiet (recorded answer) ([], x)
      (e.1, e.2.1 ++ log, e.2.2) := by
  induction p generalizing log x with
  | done a => rfl
  | note n rest ih => exact ih log
  | call c next ih =>
    simp only [runQuiet_call, recorded]
    rw [ih (answer c x).1 (⟨c, (answer c x).1⟩ :: log), ih (answer c x).1 [⟨c, (answer c x).1⟩]]
    simp

theorem ends_recorded_append {p : Program I α} {log : Log I} {post : α → Log I × σ → Prop} :
    p.Ends (recorded answer) post (log, x) ↔
      p.Ends (recorded answer) (fun a y => post a (y.1 ++ log, y.2)) ([], x) := by
  rw [Ends, runQuiet_recorded_append]
  exact Iff.rfl

/-- Without its log a program ends the same way. -/
theorem ends_recorded {p : Program I α} (log : Log I) :
    p.Ends (recorded answer) (fun a y => post a y.2) (log, x) ↔ p.Ends answer post x := by
  induction p generalizing log x with
  | done a => exact Iff.rfl
  | note n rest ih => exact ih log
  | call c next ih => exact ih (answer c x).1 _

/-- How a program ends whatever it is answered, so it ends with answers from a state. -/
theorem Keeps.ends {allows : Log I → I.Call → Prop} {post : Log I → α → Prop} {p : Program I α}
    {log : Log I} (h : p.Keeps ⟨allows, fun _ _ => True⟩ post log)
    (answer : (c : I.Call) → σ → I.Answer c × σ) (x : σ) :
    p.Ends (recorded answer) (fun a y => post y.1 a) (log, x) := by
  induction p generalizing log x with
  | done a => exact h
  | note n rest ih => exact ih h x
  | call c next ih => exact ih (answer c x).1 (h.2 (answer c x).1 trivial) (answer c x).2

end Program

namespace Coordinator

open Program

variable {σ : Type} {answer : (a : Action) → σ → a.Answer × σ} {x : σ} {l : Limits}

/-- The answer to a store call as the coordinator takes it: late counts as failed. -/
def storeAnswer (l : Limits) (c : Store.Call) : Timed c.Answer → c.Answer
  | .inTime a => a
  | .late => .error (.transaction (.timeout (shownLimit l.store)))

/-- The answer to a command as the coordinator takes it: late counts as failed. -/
def vendorAnswer (l : Limits) (c : Fleet.Command) : Timed c.Answer → c.Answer
  | .inTime a => a
  | .late => .error (.timeout c.kind (shownLimit l.command))

theorem runQuiet_callStore (c : Store.Call) :
    (callStore l c).runQuiet answer x =
      (storeAnswer l c (answer (.store l.store c) x).1, (answer (.store l.store c) x).2) := by
  unfold callStore
  simp only [runQuiet_bind, runQuiet_sayAll, ask, runQuiet_call, runQuiet_done]
  rcases answer (.store l.store c) x with ⟨a | _, y⟩ <;> simp [storeAnswer]

theorem runQuiet_command (c : Fleet.Command) :
    (command l c).runQuiet answer x =
      (vendorAnswer l c (answer (.vendor l.command c) x).1,
        (answer (.vendor l.command c) x).2) := by
  unfold command
  simp only [runQuiet_bind, runQuiet_sayAll, ask, runQuiet_call, runQuiet_done]
  rcases answer (.vendor l.command c) x with ⟨a | _, y⟩ <;> simp [vendorAnswer]

/-- Whatever the registry says, publishing goes on. -/
theorem runQuiet_publish (p : Publication) :
    (publish l p).runQuiet answer x = ((), (answer (.publish l.command p) x).2) := by
  unfold publish
  simp only [runQuiet_bind, runQuiet_sayAll, ask, runQuiet_call, runQuiet_done]
  rcases answer (.publish l.command p) x with ⟨(_ | _) | _, y⟩ <;> simp

theorem ends_callStore {c : Store.Call} {post : c.Answer → σ → Prop} :
    (callStore l c).Ends answer post x ↔
      post (storeAnswer l c (answer (.store l.store c) x).1) (answer (.store l.store c) x).2 := by
  rw [Ends, runQuiet_callStore]

theorem ends_command {c : Fleet.Command} {post : c.Answer → σ → Prop} :
    (command l c).Ends answer post x ↔
      post (vendorAnswer l c (answer (.vendor l.command c) x).1)
        (answer (.vendor l.command c) x).2 := by
  rw [Ends, runQuiet_command]

@[simp] theorem ends_publish {p : Publication} {post : Unit → σ → Prop} :
    (publish l p).Ends answer post x ↔ post () (answer (.publish l.command p) x).2 := by
  rw [Ends, runQuiet_publish]

end Coordinator

end Interlock
