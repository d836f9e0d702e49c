import Interlock.Proofs.Program.Quiet

/-!
What a program assures whatever becomes of its calls. The calls act on a state, and each may end in
several ways. A program assures a condition if every call is made in a state that is safe for it,
and if the program ends in a state as the condition says. As a step of the program keeps all this,
it holds at any point at which somebody looks.
-/
namespace Interlock.Program

variable {I : Interface} {α β σ : Type} {effect : (c : I.Call) → σ → I.Answer c → σ → Prop}
  {safe : I.Call → σ → Prop} {x : σ}

/-- Every call of the program is made in a state that is safe for it, and the program ends as the
condition says, in whichever of the possible ways its calls end. -/
def Assures (effect : (c : I.Call) → σ → I.Answer c → σ → Prop) (safe : I.Call → σ → Prop) :
    Program I α → (α → σ → Prop) → σ → Prop
  | .done a, post, x => post a x
  | .note _ rest, post, x => rest.Assures effect safe post x
  | .call c next, post, x =>
    safe c x ∧ ∀ r y, effect c x r y → (next r).Assures effect safe post y

variable {post : α → σ → Prop}

theorem Assures.imp {safe' : I.Call → σ → Prop} {post' : α → σ → Prop} {p : Program I α}
    (assured : p.Assures effect safe post x) (safer : ∀ c y, safe c y → safe' c y)
    (weaker : ∀ a y, post a y → post' a y) : p.Assures effect safe' post' x := by
  induction p generalizing x with
  | done a => exact weaker a x assured
  | note n rest ih => exact ih assured
  | call c next ih => exact ⟨safer c x assured.1, fun r y done => ih r (assured.2 r y done)⟩

theorem Assures.mono {post' : α → σ → Prop} {p : Program I α}
    (assured : p.Assures effect safe post x) (weaker : ∀ a y, post a y → post' a y) :
    p.Assures effect safe post' x :=
  assured.imp (fun _ _ safe => safe) weaker

theorem assures_pure {a : α} : (pure a : Program I α).Assures effect safe post x ↔ post a x :=
  Iff.rfl

theorem assures_bind {p : Program I β} {f : β → Program I α} :
    (p >>= f).Assures effect safe post x ↔
      p.Assures effect safe (fun b y => (f b).Assures effect safe post y) x := by
  change (p.bind f).Assures effect safe post x ↔ _
  induction p generalizing x with
  | done b => exact Iff.rfl
  | note n rest ih => exact ih
  | call c next ih =>
    exact and_congr_right fun _ => forall_congr' fun r => forall_congr' fun y =>
      imp_congr_right fun _ => ih r

theorem Assures.heed {p : Program I α} (assured : p.Assures effect safe post x) :
    p.heed.Assures effect safe post x := by
  induction p with
  | done a => exact assured
  | note n rest ih => exact ih assured
  | call c next ih => exact assured

/-- The next call of two programs one after the other is one of the first, as long as it has one. -/
theorem heed_bind (p : Program I β) (f : β → Program I α) :
    (p >>= f).heed =
      match p.heed with
      | .done b => (f b).heed
      | .note n rest => .note n (rest >>= f)
      | .call c next => .call c fun r => next r >>= f := by
  change (p.bind f).heed = _
  induction p with
  | done b => rfl
  | note n rest ih => exact ih
  | call c next ih => rfl

theorem heed_ne_note (p : Program I α) (n : Trace.Note) (rest : Program I α) :
    p.heed ≠ .note n rest := by
  induction p with
  | done a => exact nofun
  | note m rest ih => exact ih
  | call c next ih => exact nofun

/-! Any point of a run. -/

/-- A point that a program comes to, with what is left of it: after some of its calls have ended in
one of the possible ways. -/
inductive Reaches (effect : (c : I.Call) → σ → I.Answer c → σ → Prop) :
    Program I α → σ → Program I α → σ → Prop
  | here {p : Program I α} {x : σ} : Reaches effect p x p x
  | goesOn {p q : Program I α} {c : I.Call} {next : I.Answer c → Program I α} {x y z : σ}
      {r : I.Answer c} (calls : p.heed = .call c next) (done : effect c x r y)
      (rest : Reaches effect (next r) y q z) : Reaches effect p x q z

/-- What is assured of a program is assured of what is left of it at any point. -/
theorem Assures.reaches {p q : Program I α} {y : σ} (assured : p.Assures effect safe post x)
    (reaches : Reaches effect p x q y) : q.Assures effect safe post y := by
  induction reaches with
  | here => exact assured
  | goesOn calls done rest ih =>
    have still := assured.heed
    rw [calls] at still
    exact ih (still.2 _ _ done)

/-- What is assured where each call has some effect is assured where each has an effect that looks
like one of those. -/
theorem Assures.of_simulates {τ : Type} {effect' : (c : I.Call) → τ → I.Answer c → τ → Prop}
    {safe' : I.Call → τ → Prop} {post' : α → τ → Prop} {R : σ → τ → Prop} {p : Program I α} {y : τ}
    (assured : p.Assures effect' safe' post' y) (same : R x y)
    (simulates : ∀ c x y r x', R x y → safe' c y → effect c x r x' →
      ∃ y', effect' c y r y' ∧ R x' y') :
    p.Assures effect (fun c x => ∃ y, R x y ∧ safe' c y) (fun a x => ∃ y, R x y ∧ post' a y) x := by
  induction p generalizing x y with
  | done a => exact ⟨y, same, assured⟩
  | note n rest ih => exact ih assured same
  | call c next ih =>
    refine ⟨⟨y, same, assured.1⟩, fun r x' done => ?_⟩
    obtain ⟨y', done', same'⟩ := simulates c x y r x' same assured.1 done
    exact ih r (assured.2 r y' done') same'

/-! Answers from a state. -/

/-- Every call that the program makes, answered at once from the state, is made where it may be. -/
def Permitted (answer : (c : I.Call) → σ → I.Answer c × σ) (may : I.Call → σ → Prop) :
    Program I α → σ → Prop
  | .done _, _ => True
  | .note _ rest, x => rest.Permitted answer may x
  | .call c next, x => may c x ∧ (next (answer c x).1).Permitted answer may (answer c x).2

section

variable {answer : (c : I.Call) → σ → I.Answer c × σ} {may : I.Call → σ → Prop}

theorem permitted_ask {c : I.Call} {next : I.Answer c → Program I α} {r : I.Answer c} {y : σ}
    (done : answer c x = (r, y)) (allowed : may c x) (rest : (next r).Permitted answer may y) :
    (ask c >>= next).Permitted answer may x := by
  refine ⟨allowed, ?_⟩
  rw [done]
  exact rest

theorem permitted_bind {p : Program I β} {f : β → Program I α} :
    (p >>= f).Permitted answer may x ↔
      p.Permitted answer may x ∧
        (f (p.runQuiet answer x).1).Permitted answer may (p.runQuiet answer x).2 := by
  change (p.bind f).Permitted answer may x ↔ _
  induction p generalizing x with
  | done b => exact ⟨fun rest => ⟨trivial, rest⟩, And.right⟩
  | note n rest ih => exact ih
  | call c next ih => exact (and_congr_right fun _ => ih _).trans and_assoc.symm

/-- Where every answer is one of the possible effects of its call, the program ends as assured. -/
theorem Assures.ends {p : Program I α} (assured : p.Assures effect safe post x)
    (permitted : p.Permitted answer may x)
    (answers : ∀ c x, may c x → effect c x (answer c x).1 (answer c x).2) :
    p.Ends answer post x := by
  induction p generalizing x with
  | done a => exact assured
  | note n rest ih => exact ih assured permitted
  | call c next ih =>
    obtain ⟨allowed, goesOn⟩ := permitted
    exact ih _ (assured.2 _ _ (answers c x allowed)) goesOn

end

end Interlock.Program
