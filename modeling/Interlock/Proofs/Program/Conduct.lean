import Interlock.Coordinator.Action

/-!
Conduct: what a program can be relied on to do, whatever it is answered. A conduct says which call
is allowed after which calls and answers, and which answers have to be reckoned with. Whether a
program keeps to a conduct is settled on the program alone, by its parts; the result carries over
to every run in which the program takes part.
-/
namespace Interlock

/-- The calls a program has made and the answers it had, the latest first. -/
abbrev Log (I : Interface) : Type := List ((c : I.Call) × I.Answer c)

/-- The calls that are allowed after a log, and the answers that may come. -/
structure Conduct (I : Interface) where
  allows : Log I → I.Call → Prop
  expects : (c : I.Call) → I.Answer c → Prop

namespace Program

variable {I : Interface} {α β : Type} {κ : Conduct I}

/-- Every call the program makes after the log is allowed, and it ends as the condition says. -/
def Keeps (κ : Conduct I) : Program I α → (Log I → α → Prop) → Log I → Prop
  | .done a, post, log => post log a
  | .note _ rest, post, log => rest.Keeps κ post log
  | .call c next, post, log =>
    κ.allows log c ∧ ∀ r, κ.expects c r → (next r).Keeps κ post (⟨c, r⟩ :: log)

/-- The program without the notes in front of its next call. -/
def heed : Program I α → Program I α
  | .note _ rest => rest.heed
  | p => p

variable {post post' : Log I → α → Prop} {log : Log I}

theorem Keeps.heed {p : Program I α} (h : p.Keeps κ post log) : p.heed.Keeps κ post log := by
  induction p with
  | done a => exact h
  | note n rest ih => exact ih h
  | call c next ih => exact h

theorem Keeps.mono {p : Program I α} (h : p.Keeps κ post log)
    (weaker : ∀ log a, post log a → post' log a) : p.Keeps κ post' log := by
  induction p generalizing log with
  | done a => exact weaker log a h
  | note n rest ih => exact ih h
  | call c next ih => exact ⟨h.1, fun r expected => ih r (h.2 r expected)⟩

theorem Keeps.and {p : Program I α} (h : p.Keeps κ post log) (h' : p.Keeps κ post' log) :
    p.Keeps κ (fun log a => post log a ∧ post' log a) log := by
  induction p generalizing log with
  | done a => exact ⟨h, h'⟩
  | note n rest ih => exact ih h h'
  | call c next ih => exact ⟨h.1, fun r expected => ih r (h.2 r expected) (h'.2 r expected)⟩

/-- A conduct that allows more, or has fewer answers to reckon with, is kept as well. -/
theorem Keeps.imp {κ' : Conduct I} {p : Program I α} (h : p.Keeps κ post log)
    (allows : ∀ log c, κ.allows log c → κ'.allows log c)
    (expects : ∀ c r, κ'.expects c r → κ.expects c r) : p.Keeps κ' post log := by
  induction p generalizing log with
  | done a => exact h
  | note n rest ih => exact ih h
  | call c next ih =>
    exact ⟨allows log c h.1, fun r expected => ih r (h.2 r (expects c r expected))⟩

/-- Where every call is allowed every program keeps to the conduct. -/
theorem keeps_top {expects : (c : I.Call) → I.Answer c → Prop} (p : Program I α) (log : Log I) :
    p.Keeps ⟨fun _ _ => True, expects⟩ (fun _ _ => True) log := by
  induction p generalizing log with
  | done a => trivial
  | note n rest ih => exact ih log
  | call c next ih => exact ⟨trivial, fun r _ => ih r _⟩

/-- A program only adds to the log, and only calls that were allowed. -/
theorem Keeps.appended {p : Program I α} {old : Log I} (h : p.Keeps κ (fun _ _ => True) old) :
    p.Keeps κ (fun log _ => ∃ new, log = new ++ old ∧ ∀ e ∈ new, ∃ log', κ.allows log' e.1)
      old := by
  induction p generalizing old with
  | done a => exact ⟨[], rfl, fun e he => nomatch he⟩
  | note n rest ih => exact ih h
  | call c next ih =>
    refine ⟨h.1, fun r expected => (ih r (h.2 r expected)).mono ?_⟩
    rintro log _ ⟨new, rfl, allowed⟩
    refine ⟨new ++ [⟨c, r⟩], by simp, fun e he => ?_⟩
    rcases List.mem_append.1 he with he | he
    · exact allowed e he
    · rw [List.mem_singleton.1 he]
      exact ⟨old, h.1⟩

@[simp] theorem keeps_done {a : α} : (done a : Program I α).Keeps κ post log ↔ post log a := Iff.rfl

@[simp] theorem keeps_pure {a : α} : (pure a : Program I α).Keeps κ post log ↔ post log a := Iff.rfl

@[simp] theorem keeps_bind {p : Program I β} {f : β → Program I α} :
    (p >>= f).Keeps κ post log ↔ p.Keeps κ (fun log b => (f b).Keeps κ post log) log := by
  change (p.bind f).Keeps κ post log ↔ _
  induction p generalizing log with
  | done b => exact Iff.rfl
  | note n rest ih => exact ih
  | call c next ih =>
    exact and_congr_right fun _ => forall_congr' fun r => imp_congr_right fun _ => ih r

/-- Two programs one after the other, when neither depends on the log it starts with. -/
theorem Keeps.bind {p : Program I β} {f : β → Program I α}
    (first : ∀ log, p.Keeps κ (fun _ _ => True) log) (rest : ∀ b log, (f b).Keeps κ post log) :
    (p >>= f).Keeps κ post log :=
  keeps_bind.2 ((first log).mono fun log b _ => rest b log)

/-- A program whose calls are carried out by others makes only the calls of those, and ends with a
value it could have ended with. -/
theorem Keeps.handle {J : Interface} {μ : Conduct J} {allowed : I.Call → Prop} {post : α → Prop}
    {carry : (c : I.Call) → Program J (I.Answer c)} {p : Program I α}
    (h : p.Keeps ⟨fun _ => allowed, fun _ _ => True⟩ (fun _ a => post a) log)
    (carried : ∀ c, allowed c → ∀ log, (carry c).Keeps μ (fun _ _ => True) log) (log' : Log J) :
    (p.handle carry).Keeps μ (fun _ a => post a) log' := by
  induction p generalizing log log' with
  | done a => exact h
  | note n rest ih => exact ih h log'
  | call c next ih => exact Keeps.bind (carried c h.1) fun r log' => ih r (h.2 r trivial) log'

@[simp] theorem keeps_call {c : I.Call} {next : I.Answer c → Program I α} :
    (call c next).Keeps κ post log ↔
      κ.allows log c ∧ ∀ r, κ.expects c r → (next r).Keeps κ post (⟨c, r⟩ :: log) :=
  Iff.rfl

@[simp] theorem keeps_say {n : Trace.Note} {post : Log I → Unit → Prop} :
    (say n : Program I Unit).Keeps κ post log ↔ post log () := Iff.rfl

@[simp] theorem keeps_sayAll {ns : List Trace.Note} {post : Log I → Unit → Prop} :
    (sayAll ns : Program I Unit).Keeps κ post log ↔ post log () := by
  induction ns with
  | nil => exact Iff.rfl
  | cons n ns ih => exact ih

@[simp] theorem keeps_report {level : Trace.Level} {message : String} {fields : Trace.Fields}
    {post : Log I → Unit → Prop} :
    (report level message fields : Program I Unit).Keeps κ post log ↔ post log () := Iff.rfl

@[simp] theorem keeps_inSpan {s : Trace.Span} {p : Program I α} :
    (inSpan s p).Keeps κ post log ↔ p.Keeps κ post log := by
  simp only [inSpan, keeps_bind, keeps_say, keeps_pure]

end Program

namespace Coordinator

open Program

variable {κ : Conduct actions} {log : Log actions} {l : Limits}

/-- A store call that is late counts as failed; so both ways it ends have to be reckoned with. -/
theorem keeps_callStore {c : Store.Call} {post : Log actions → c.Answer → Prop} :
    (callStore l c).Keeps κ post log ↔
      κ.allows log (.store l.store c) ∧
        (∀ a : c.Answer, κ.expects (.store l.store c) (.inTime a) →
          post (⟨.store l.store c, .inTime a⟩ :: log) a) ∧
        (κ.expects (.store l.store c) .late →
          post (⟨.store l.store c, .late⟩ :: log)
            (.error (.transaction (.timeout (shownLimit l.store))))) := by
  unfold callStore
  simp only [keeps_bind, keeps_sayAll, ask, keeps_call, keeps_done]
  refine and_congr_right fun _ => ⟨fun h => ⟨fun a => ?_, ?_⟩, fun h r => ?_⟩
  · simpa using h (.inTime a)
  · simpa using h .late
  · cases r with
    | inTime a => simpa using h.1 a
    | late => simpa using h.2

theorem keeps_command {c : Fleet.Command} {post : Log actions → c.Answer → Prop} :
    (command l c).Keeps κ post log ↔
      κ.allows log (.vendor l.command c) ∧
        (∀ a : c.Answer, κ.expects (.vendor l.command c) (.inTime a) →
          post (⟨.vendor l.command c, .inTime a⟩ :: log) a) ∧
        (κ.expects (.vendor l.command c) .late →
          post (⟨.vendor l.command c, .late⟩ :: log)
            (.error (.timeout c.kind (shownLimit l.command)))) := by
  unfold command
  simp only [keeps_bind, keeps_sayAll, ask, keeps_call, keeps_done]
  refine and_congr_right fun _ => ⟨fun h => ⟨fun a => ?_, ?_⟩, fun h r => ?_⟩
  · simpa using h (.inTime a)
  · simpa using h .late
  · cases r with
    | inTime a => simpa using h.1 a
    | late => simpa using h.2

/-- Publishing ends the same way whatever the registry says. -/
@[simp] theorem keeps_publish {p : Publication} {post : Log actions → Unit → Prop} :
    (publish l p).Keeps κ post log ↔
      κ.allows log (.publish l.command p) ∧
        ∀ r, κ.expects (.publish l.command p) r → post (⟨.publish l.command p, r⟩ :: log) () := by
  unfold publish
  simp only [keeps_bind, keeps_sayAll, ask, keeps_call, keeps_done]
  refine and_congr_right fun _ => forall_congr' fun r => imp_congr_right fun _ => ?_
  cases r with
  | inTime a => cases a <;> simp
  | late => simp

end Coordinator

end Interlock
