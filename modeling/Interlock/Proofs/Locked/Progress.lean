import Interlock.Proofs.Locked.Standing

/-!
No transaction is stuck for good. With the lock free or in its own hands it can take each of its
steps to the end of its program, and then it does not have the lock. Who else has the lock can be
brought to his end first, so whoever calls can always still be answered.
-/
namespace Interlock.Locked

open Store

variable {d : Option Bytes} {x : System} {i : Nat} {t : Transaction}
  {strangers : Option Bytes → Option Bytes → Prop}

theorem Spares.unlocked {z : System} (spares : Spares i x z)
    (unlocked : x.files.lock = none ∨ x.files.lock = some (.transaction i)) :
    z.files.lock = none ∨ z.files.lock = some (.transaction i) := by
  by_cases owns : x.files.lock = some (.transaction i)
  · exact (spares.unlocks owns).symm
  · rcases spares.locks owns with same | ⟨-, taken⟩
    · rw [same]
      exact unlocked
    · exact .inr taken

namespace Sound

/-- A transaction that has returned does not have the lock. -/
theorem free_of_returned (sound : Sound d x) (there : x.transactions i = some t)
    {v : t.call.Answer} (returned : t.Returned v) :
    x.files.lock ≠ some (.transaction i) := by
  unfold Transaction.Returned at returned
  cases sound.standing i t there with
  | through free => exact free
  | inside owns changes once rest => exact absurd (rest ▸ returned) (not_returned_of_bind _ v)
  | before fresh before =>
    cases before with
    | queued free => exact free
    | refused free => exact free
    | away free => exact free
    | checking owns clear rest =>
      rw [rest] at returned
      cases returned
    | turnedAway owns gone rest =>
      rw [rest] at returned
      cases returned

/-- Nothing is missing for the next step of a transaction, if nobody else has the lock. -/
theorem ready (sound : Sound d x) (there : x.transactions i = some t)
    (unlocked : x.files.lock = none ∨ x.files.lock = some (.transaction i)) {s : FileStep}
    {next : s.Answer → Program fileSteps t.call.Answer} (calls : t.rest.heed = .call s next) :
    x.files.ready s = true := by
  cases sound.standing i t there with
  | through free changes once rest =>
    rw [rest] at calls
    cases calls
  | inside owns changes once rest works =>
    have still := works.heed
    rw [rest, Program.heed_bind] at calls
    split at calls
    · next todo =>
      cases calls
      rfl
    · cases calls
    · next todo =>
      rw [todo] at still
      cases calls
      exact still.1.2.2.2
  | before fresh before =>
    cases before with
    | queued free clear rest =>
      have none := unlocked.resolve_right free
      rcases rest with rest | rest
      · rw [rest] at calls
        cases calls
        rfl
      · rw [rest] at calls
        cases calls
        exact Option.isNone_iff_eq_none.2 none
    | refused free rest =>
      rw [rest] at calls
      cases calls
    | checking owns clear rest =>
      rw [rest] at calls
      cases calls
      rfl
    | turnedAway owns gone rest =>
      rw [rest] at calls
      cases calls
      rfl
    | away free gone rest =>
      rw [rest] at calls
      cases calls

/-- A transaction goes through to its end, if nobody else has the lock. -/
theorem goes_through {f : FileStore} {c : Call} {waits : Bool} {fault : Option StoreError}
    (p : Program fileSteps c.Answer) : ∀ {x : System} {rest : Program fileSteps c.Answer},
      Sound d x → x.transactions i = some ⟨f, c, rest, waits, fault⟩ → rest.heed = p.heed →
      x.files.lock = none ∨ x.files.lock = some (.transaction i) →
      ∃ y rest' v, System.Run strangers x y ∧ y.files.lock = none ∧
        y.transactions i = some ⟨f, c, rest', waits, fault⟩ ∧ rest'.heed = .done v ∧
          ∀ j, j ≠ i → y.transactions j = x.transactions j := by
  induction p with
  | note n p ih => exact fun sound there todo => ih sound there todo
  | done v =>
    intro x rest sound there todo unlocked
    have free := sound.free_of_returned (t := ⟨f, c, rest, waits, fault⟩) there todo
    exact ⟨x, rest, v, .refl, unlocked.resolve_right free, there, todo, fun _ _ => rfl⟩
  | call s next ih =>
    intro x rest sound there todo unlocked
    have ready := sound.ready (t := ⟨f, c, rest, waits, fault⟩) there unlocked todo
    obtain ⟨r, files, effect, clear⟩ := Files.effect_of_ready i waits ready
    have moved := sound.moved (t := ⟨f, c, rest, waits, fault⟩) there todo effect
    have still : (stepped x i ⟨f, c, rest, waits, fault⟩ next r files).transactions i =
        some ⟨f, c, next r, waits, fault⟩ := by
      rw [moved.there]
      simp [Transaction.answered, clear]
    obtain ⟨y, rest', v, run, none, known, returned, others⟩ :=
      ih r (sound.moves moved) still rfl (moved.spares.unlocked unlocked)
    refine ⟨y, rest', v, .head (.works (.moved there todo effect)) run, none, known, returned, ?_⟩
    exact fun j other => (others j other).trans (moved.spares.others j other)

/-- Whoever has the lock gives it back, and no other transaction takes a step. -/
theorem gives_back (sound : Sound d x) (there : x.transactions i = some t) :
    ∃ y, System.Run strangers x y ∧
      (y.files.lock = none ∨ y.files.lock = some (.transaction i)) ∧ y.transactions i = some t := by
  cases lock : x.files.lock with
  | none => exact ⟨x, .refl, .inl lock, there⟩
  | some owner =>
    cases owner with
    | stranger => exact ⟨_, .single (.works (.strangerLeaves lock)), .inl rfl, there⟩
    | transaction j =>
      by_cases own : j = i
      · exact ⟨x, .refl, .inr (own ▸ lock), there⟩
      · obtain ⟨u, known⟩ := Option.ne_none_iff_exists'.1 (sound.owner j lock)
        obtain ⟨y, rest, v, run, none, -, -, others⟩ :=
          goes_through u.rest sound known rfl (.inr lock)
        exact ⟨y, run, .inl none, (others i (Ne.symm own)).trans there⟩

/-- Whatever has happened, a transaction can still return, with no more steps refused and with its
caller waiting as before. -/
theorem can_return (sound : Sound d x) (there : x.transactions i = some t) :
    ∃ y rest v, System.Run strangers x y ∧ y.transactions i = some { t with rest := rest } ∧
      Transaction.Returned { t with rest := rest } v := by
  obtain ⟨y, before, unlocked, known⟩ := sound.gives_back there
  obtain ⟨z, rest, v, run, -, returns, returned, -⟩ :=
    goes_through t.rest (sound.run before) known rfl unlocked
  exact ⟨z, rest, v, before.trans run, returns, returned⟩

end Sound

end Interlock.Locked
