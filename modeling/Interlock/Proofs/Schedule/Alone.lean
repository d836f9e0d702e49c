import Interlock.Proofs.Program.Conduct
import Interlock.Schedule.Task

/-!
A coordinator program alone at a site, with nothing else going on. At a site that drops the notes
the spans around a program make no difference, so that what a program is to end with, and when, is
settled part by part. A program of base calls that has a deadline ends with nothing if it is cut off
there, and whatever was still to be done is not done.
-/
namespace Interlock.Schedule.Site

open Coordinator

variable {σ α β : Type}

/-- The site drops whatever it hears. -/
class Deaf (site : Site σ) : Prop where
  drops : ∀ e x, site.hear e x = x

/-- The program of base calls ends at the deadline or before, with a value or cut off, as the
condition says. -/
def BaseEnds (site : Site σ) (deadline : Option Nat) (p : Program site.base β)
    (post : Option β → Nat → σ → Prop) (now : Nat) (x : σ) : Prop :=
  post (site.runBase deadline [] p now x).1 (site.runBase deadline [] p now x).2.1
    (site.runBase deadline [] p now x).2.2

/-- The program ends with a value, at a time and in a state, as the condition says. -/
def Ends (site : Site σ) (p : Plan α) (post : α → Nat → σ → Prop) (now : Nat) (x : σ) : Prop :=
  post (site.runAlone [] p now x).1 (site.runAlone [] p now x).2.1 (site.runAlone [] p now x).2.2

variable {site : Site σ} {now : Nat} {x : σ} {deadline : Option Nat}

theorem BaseEnds.mono {p : Program site.base β} {post post' : Option β → Nat → σ → Prop}
    (h : site.BaseEnds deadline p post now x) (weaker : ∀ b t y, post b t y → post' b t y) :
    site.BaseEnds deadline p post' now x := weaker _ _ _ h

theorem baseEnds_congr {p : Program site.base β} {post post' : Option β → Nat → σ → Prop}
    (same : ∀ b t y, post b t y ↔ post' b t y) :
    site.BaseEnds deadline p post now x ↔ site.BaseEnds deadline p post' now x := same _ _ _

theorem Ends.mono {p : Plan α} {post post' : α → Nat → σ → Prop} (h : site.Ends p post now x)
    (weaker : ∀ a t y, post a t y → post' a t y) : site.Ends p post' now x := weaker _ _ _ h

/-- A program ends somehow. -/
theorem ends_of_forall {p : Plan α} {post : α → Nat → σ → Prop} (always : ∀ a t y, post a t y) :
    site.Ends p post now x := always _ _ _

section

variable {post : Option β → Nat → σ → Prop}

@[simp] theorem baseEnds_pure {b : β} :
    site.BaseEnds deadline (pure b) post now x ↔ post (some b) now x := Iff.rfl

/-- A call takes the time it takes. If it would end after the deadline it has no effect. -/
theorem baseEnds_call {d : Nat} {c : site.base.Call}
    {next : site.base.Answer c → Program site.base β} :
    site.BaseEnds (some d) (.call c next) post now x ↔
      let begun := site.start c now x
      let ended := site.finish c begun.1.2 begun.2
      if now < begun.1.1 ∧ d < begun.1.1 then post none (max now d) begun.2
      else site.BaseEnds (some d) (next ended.1) post (max now begun.1.1) ended.2 := by
  simp only [BaseEnds, runBase]
  split <;> exact Iff.rfl

end

/-- Without a deadline a program of base calls ends with a value, and not before it began. -/
theorem exists_runBase (p : Program site.base β) (stack : List Trace.Span) (now : Nat) (x : σ) :
    ∃ b t y, site.runBase none stack p now x = (some b, t, y) ∧ now ≤ t := by
  induction p generalizing stack now x with
  | done b => exact ⟨b, now, x, rfl, Nat.le_refl now⟩
  | note n rest ih => exact ih _ _ _
  | call c next ih =>
    obtain ⟨b, t, y, ends, later⟩ := ih _ stack (max now (site.start c now x).1.1) _
    exact ⟨b, t, y, ends, Nat.le_trans (Nat.le_max_left _ _) later⟩

/-- A deadline makes no difference to a program that ends by then. -/
theorem runBase_of_le {p : Program site.base β} {stack : List Trace.Span} {d : Nat}
    (inTime : (site.runBase none stack p now x).2.1 ≤ d) :
    site.runBase (some d) stack p now x = site.runBase none stack p now x := by
  induction p generalizing stack now x with
  | done b => rfl
  | note n rest ih => exact ih inTime
  | call c next ih =>
    simp only [runBase] at inTime ⊢
    obtain ⟨b, t, y, ends, later⟩ := exists_runBase
      (next (site.finish c (site.start c now x).1.2 (site.start c now x).2).1) stack
      (max now (site.start c now x).1.1) (site.finish c (site.start c now x).1.2
        (site.start c now x).2).2
    have due : (site.start c now x).1.1 ≤ d := by
      rw [ends] at inTime
      exact Nat.le_trans (Nat.le_max_right _ _) (Nat.le_trans later inTime)
    rw [if_neg fun cut => Nat.not_lt.2 due cut.2]
    exact ih _ inTime

section

variable {post : α → Nat → σ → Prop}

@[simp] theorem ends_pure {a : α} : site.Ends (pure a) post now x ↔ post a now x := Iff.rfl

/-- An action is carried out by base calls, with its limit as their deadline. -/
theorem ends_ask {a : Action} {post : a.Answer → Nat → σ → Prop} :
    site.Ends (Program.ask (I := actions) a) post now x ↔
      site.BaseEnds (a.limit?.map fun l => now + l.toNanos) (site.expand a x).1
        (fun v t y => post (a.answer v) t y) now (site.expand a x).2 := Iff.rfl

/-- A program goes on when its action has ended. -/
theorem runAlone_ask {a : Action} {next : a.Answer → Plan α} {stack : List Trace.Span}
    {v : Option a.Value} {t : Nat} {y : σ}
    (ends : site.runBase (a.limit?.map fun l => now + l.toNanos) stack (site.expand a x).1 now
      (site.expand a x).2 = (v, t, y)) :
    site.runAlone stack (Program.ask (I := actions) a >>= next) now x =
      site.runAlone stack (next (a.answer v)) t y := by
  change site.runAlone stack (.call a next) now x = _
  rw [runAlone]
  simp only [ends]

end

/-! What a program keeps to. -/

/-- A program of base calls that keeps to a conduct ends with a value as described, unless it is cut
off, where the answers that may come do come; and what the calls leave alone is as it was. -/
theorem runBase_keeps {κ : Conduct site.base} {post : β → Prop} {p : Program site.base β}
    {log : Log site.base} (left : σ → Prop) (keeps : p.Keeps κ (fun _ b => post b) log)
    (noted : ∀ n stack x, left x → left (site.note n stack x))
    (begun : ∀ c now x, left x → left (site.start c now x).2)
    (ended : ∀ log c ticket x, κ.allows log c → left x →
      κ.expects c (site.finish c ticket x).1 ∧ left (site.finish c ticket x).2)
    (stack : List Trace.Span) (start : left x) :
    (∀ b ∈ (site.runBase deadline stack p now x).1, post b) ∧
      left (site.runBase deadline stack p now x).2.2 := by
  induction p generalizing log stack now x with
  | done b =>
    refine ⟨fun b' mem => ?_, start⟩
    cases mem
    exact keeps
  | note n rest ih => exact ih keeps _ (noted n stack x start)
  | call c next ih =>
    have opened := begun c now x start
    obtain ⟨expected, kept⟩ := ended log c (site.start c now x).1.2 _ keeps.1 opened
    have rest := keeps.2 _ expected
    unfold runBase
    cases deadline with
    | none => exact ih _ rest stack kept
    | some d =>
      simp only
      split
      · exact ⟨nofun, opened⟩
      · exact ih _ rest stack kept

/-- A program that keeps to a conduct ends as described, where every action it is allowed is
answered as may be expected and keeps up what is known of the state. -/
theorem runAlone_keeps {κ : Conduct actions} {post : Log actions → α → Prop} {p : Plan α}
    {log : Log actions} (known : Log actions → σ → Prop) (keeps : p.Keeps κ post log)
    (noted : ∀ log n stack x, known log x → known log (site.note n stack x))
    (answered : ∀ log a stack now x, κ.allows log a → known log x →
      let e := site.runBase (a.limit?.map fun l => now + l.toNanos) stack (site.expand a x).1 now
        (site.expand a x).2
      κ.expects a (a.answer e.1) ∧ known (⟨a, a.answer e.1⟩ :: log) e.2.2)
    (stack : List Trace.Span) (start : known log x) :
    ∃ log, post log (site.runAlone stack p now x).1 ∧
      known log (site.runAlone stack p now x).2.2 := by
  induction p generalizing log stack now x with
  | done a => exact ⟨log, keeps, start⟩
  | note n rest ih => exact ih keeps _ (noted log n stack x start)
  | call a next ih =>
    obtain ⟨expected, kept⟩ := answered log a stack now x keeps.1 start
    exact ih _ (keeps.2 _ expected) stack kept

section

variable [site.Deaf]

theorem note_eq {stack : List Trace.Span} (n : Trace.Note) : site.note n stack x = x := by
  unfold note
  split
  · exact Deaf.drops _ _
  · rfl

theorem runBase_stack (p : Program site.base β) (stack stack' : List Trace.Span) :
    site.runBase deadline stack p now x = site.runBase deadline stack' p now x := by
  induction p generalizing stack stack' now x with
  | done b => rfl
  | note n rest ih =>
    rw [runBase, runBase, note_eq, note_eq]
    exact ih _ _
  | call c next ih =>
    simp only [runBase]
    cases deadline with
    | none => exact ih _ _ _
    | some d =>
      simp only
      split
      · rfl
      · exact ih _ _ _

theorem runAlone_stack (p : Plan α) (stack stack' : List Trace.Span) :
    site.runAlone stack p now x = site.runAlone stack' p now x := by
  induction p generalizing stack stack' now x with
  | done a => rfl
  | note n rest ih =>
    rw [runAlone, runAlone, note_eq, note_eq]
    exact ih _ _
  | call a next ih =>
    simp only [runAlone]
    rw [runBase_stack _ stack stack']
    exact ih _ _ _

@[simp] theorem baseEnds_note {n : Trace.Note} {rest : Program site.base β}
    {post : Option β → Nat → σ → Prop} :
    site.BaseEnds deadline (.note n rest) post now x ↔ site.BaseEnds deadline rest post now x := by
  simp only [BaseEnds, runBase, note_eq]
  rw [runBase_stack rest (n.spans []) []]

/-- What is cut off in its first part has no second. -/
@[simp] theorem baseEnds_bind {p : Program site.base α} {f : α → Program site.base β}
    {post : Option β → Nat → σ → Prop} :
    site.BaseEnds deadline (p >>= f) post now x ↔
      site.BaseEnds deadline p
        (fun a t y =>
          match a with
          | some a => site.BaseEnds deadline (f a) post t y
          | none => post none t y) now x := by
  change site.BaseEnds deadline (p.bind f) post now x ↔ _
  induction p generalizing now x with
  | done a => exact Iff.rfl
  | note n rest ih => exact baseEnds_note.trans (ih.trans baseEnds_note.symm)
  | call c next ih =>
    cases deadline with
    | none => exact ih _
    | some d =>
      refine baseEnds_call.trans (Iff.trans ?_ baseEnds_call.symm)
      simp only
      split
      · exact Iff.rfl
      · exact ih _

@[simp] theorem baseEnds_sayAll {ns : List Trace.Note} {post : Option Unit → Nat → σ → Prop} :
    site.BaseEnds deadline (Program.sayAll ns) post now x ↔ post (some ()) now x := by
  induction ns with
  | nil => exact Iff.rfl
  | cons n ns ih => exact baseEnds_note.trans ih

@[simp] theorem baseEnds_report {level : Trace.Level} {message : String} {fields : Trace.Fields}
    {post : Option Unit → Nat → σ → Prop} :
    site.BaseEnds deadline (Program.report level message fields) post now x ↔
      post (some ()) now x := baseEnds_note

variable {post : α → Nat → σ → Prop}

@[simp] theorem ends_note {n : Trace.Note} {rest : Plan α} :
    site.Ends (.note n rest) post now x ↔ site.Ends rest post now x := by
  simp only [Ends, runAlone, note_eq]
  rw [runAlone_stack rest (n.spans []) []]

@[simp] theorem ends_bind {p : Plan β} {f : β → Plan α} :
    site.Ends (p >>= f) post now x ↔ site.Ends p (fun b t y => site.Ends (f b) post t y) now x := by
  change site.Ends (p.bind f) post now x ↔ _
  induction p generalizing now x with
  | done b => exact Iff.rfl
  | note n rest ih => exact ends_note.trans (ih.trans ends_note.symm)
  | call a next ih => exact ih _

@[simp] theorem ends_sayAll {ns : List Trace.Note} {post : Unit → Nat → σ → Prop} :
    site.Ends (Program.sayAll ns) post now x ↔ post () now x := by
  induction ns with
  | nil => exact Iff.rfl
  | cons n ns ih => exact ends_note.trans ih

@[simp] theorem ends_report {level : Trace.Level} {message : String} {fields : Trace.Fields}
    {post : Unit → Nat → σ → Prop} :
    site.Ends (Program.report level message fields) post now x ↔ post () now x := ends_note

@[simp] theorem ends_inSpan {s : Trace.Span} {p : Plan α} :
    site.Ends (Program.inSpan s p) post now x ↔ site.Ends p post now x := by
  unfold Program.inSpan Program.say
  simp only [ends_bind, ends_note, ends_pure]
  exact Iff.rfl

/-- A store call that is cut off counts as failed. -/
theorem ends_callStore {l : Limits} {c : Store.Call} {post : c.Answer → Nat → σ → Prop} :
    site.Ends (callStore l c) post now x ↔
      site.BaseEnds (l.store.map fun d => now + d.toNanos) (site.expand (.store l.store c) x).1
        (fun v t y => post (v.getD (.error (.transaction (.timeout (shownLimit l.store))))) t y) now
        (site.expand (.store l.store c) x).2 := by
  unfold callStore
  rw [ends_bind, ends_sayAll, ends_bind, ends_ask]
  refine baseEnds_congr fun v t y => ?_
  cases v <;> simp [Action.answer]

/-- A command that is cut off counts as failed. -/
theorem ends_command {l : Limits} {c : Fleet.Command} {post : c.Answer → Nat → σ → Prop} :
    site.Ends (command l c) post now x ↔
      site.BaseEnds (l.command.map fun d => now + d.toNanos) (site.expand (.vendor l.command c) x).1
        (fun v t y => post (v.getD (.error (.timeout c.kind (shownLimit l.command)))) t y) now
        (site.expand (.vendor l.command c) x).2 := by
  unfold command
  rw [ends_bind, ends_sayAll, ends_bind, ends_ask]
  refine baseEnds_congr fun v t y => ?_
  cases v <;> simp [Action.answer]

end

end Interlock.Schedule.Site
