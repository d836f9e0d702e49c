import Interlock.Proofs.Locked.Progress

/-!
Transactions are serial, and none is late. The document is what its transactions leave one after the
other in the order in which they had the lock, and each is answered by what it found there, which
nothing can keep it from for good. What has become of a transaction is decided when it has returned
or its caller has given up: either it has had its turn, before all that begin later, or it never
will. Specification, section 4.1: Lock Record Store.
-/
namespace Interlock.Locked

open Store

variable {d : Option Bytes} {x y z : System} {i : Nat} {t : Transaction}
  {strangers : Option Bytes → Option Bytes → Prop}

/-- The transaction has returned, or its caller has given up. -/
def System.Decided (x : System) (i : Nat) : Prop :=
  ∃ t, x.transactions i = some t ∧ (t.waits = false ∨ ∃ v, t.Returned v)

/-- A transaction has its turn when it finds that its caller still waits. -/
theorem waits_of_passes {waits : Bool} {files files' : Files} {s : FileStep} {r : s.Answer}
    (effect : Effect i waits files s r files') (passes : s.passes r = true) : waits = true := by
  cases effect with
  | checkAbandoned => simpa [FileStep.passes] using passes
  | refused no => cases s <;> first | cases passes | cases no
  | _ => cases passes

/-- One step adds at most one transaction to the changes, one that is not decided. -/
theorem grows_of_step (step : System.Step strangers x z) :
    ∃ new, z.changes = new ++ x.changes ∧ ∀ i, .transaction i ∈ new → ¬ x.Decided i := by
  have nothing (same : z.changes = x.changes) :
      ∃ new, z.changes = new ++ x.changes ∧ ∀ i, .transaction i ∈ new → ¬ x.Decided i :=
    ⟨[], same, nofun⟩
  cases step with
  | begun free f c => exact nothing rfl
  | gaveUp there => exact nothing rfl
  | works works =>
    cases works with
    | strangerLocks free => exact nothing rfl
    | strangerWrites owns may => exact ⟨[_], rfl, by simp⟩
    | strangerLeaves owns => exact nothing rfl
    | @moved i t s r files next there calls effect =>
      cases passes : s.passes r with
      | false => exact ⟨[], rfl, nofun⟩
      | true =>
        refine ⟨[.transaction i], rfl, fun j listed => ?_⟩
        cases List.mem_singleton.1 listed
        rintro ⟨u, same, gone | ⟨v, returned⟩⟩
        · cases there.symm.trans same
          cases gone.symm.trans (waits_of_passes effect passes)
        · cases there.symm.trans same
          cases returned.symm.trans calls

theorem decided_of_step (step : System.Step strangers x z) (decided : x.Decided i) :
    z.Decided i := by
  obtain ⟨t, there, why⟩ := decided
  -- another transaction changes nothing about this one
  have apart {j : Nat} (other : i ≠ j) (u : Transaction) :
      Function.update x.transactions j (some u) i = some t :=
    (Function.update_of_ne other _ _).trans there
  cases step with
  | @begun j free f c =>
    have other : i ≠ j := fun same => by cases (same ▸ there).symm.trans free
    exact ⟨t, apart other _, why⟩
  | @gaveUp j u known =>
    by_cases own : i = j
    · subst own
      exact ⟨_, Function.update_self .., .inl rfl⟩
    · exact ⟨t, apart own _, why⟩
  | works works =>
    cases works with
    | strangerLocks free => exact ⟨t, there, why⟩
    | strangerWrites owns may => exact ⟨t, there, why⟩
    | strangerLeaves owns => exact ⟨t, there, why⟩
    | @moved j u s r files next known calls effect =>
      by_cases own : i = j
      · subst own
        cases there.symm.trans known
        refine ⟨_, Function.update_self .., ?_⟩
        rcases why with gone | ⟨v, returned⟩
        · exact .inl gone
        · cases returned.symm.trans calls
      · exact ⟨t, apart own _, why⟩

theorem decided_of_run (run : System.Run strangers x z) (decided : x.Decided i) : z.Decided i := by
  induction run with
  | refl => exact decided
  | tail _ step ih => exact decided_of_step step ih

/-- After any steps only transactions that were not decided before have been added to the
changes. -/
theorem grows_of_run (run : System.Run strangers x z) :
    ∃ new, z.changes = new ++ x.changes ∧ ∀ i, .transaction i ∈ new → ¬ x.Decided i := by
  induction run with
  | refl => exact ⟨[], rfl, nofun⟩
  | tail before step ih =>
    obtain ⟨new, grown, open_⟩ := ih
    obtain ⟨last, grown', open'⟩ := grows_of_step step
    refine ⟨last ++ new, by rw [grown', grown, List.append_assoc], fun i listed decided => ?_⟩
    rcases List.mem_append.1 listed with listed | listed
    · exact open' i listed (decided_of_run before decided)
    · exact open_ i listed decided

/-- A transaction that is decided has had its turn, or it never has one. -/
theorem never_of_decided (run : System.Run strangers x z) (decided : x.Decided i)
    (fresh : .transaction i ∉ x.changes) : .transaction i ∉ z.changes := by
  obtain ⟨new, grown, undecided⟩ := grows_of_run run
  rw [grown]
  exact fun listed => (List.mem_append.1 listed).elim (undecided i · decided) fresh

/-- Whatever begins after a transaction was decided finds its change, if there ever is one. -/
theorem earlier_of_decided {j : Nat} (sound : Sound d x) (run : System.Run strangers x z)
    (decided : x.Decided i) (unknown : x.transactions j = none) (mine : .transaction i ∈ z.changes)
    (theirs : .transaction j ∈ z.changes) :
    ∃ newer earlier, z.changes = newer ++ .transaction j :: earlier ∧ .transaction i ∈ earlier := by
  obtain ⟨new, grown, undecided⟩ := grows_of_run run
  have before : .transaction i ∈ x.changes := by
    by_contra fresh
    exact never_of_decided run decided fresh mine
  have after : .transaction j ∈ new := by
    rw [grown] at theirs
    exact (List.mem_append.1 theirs).resolve_right fun listed => sound.known j listed unknown
  obtain ⟨newer, older, split⟩ := List.append_of_mem after
  refine ⟨newer, older ++ x.changes, by rw [grown, split]; simp, ?_⟩
  exact List.mem_append_right older before

/-- A transaction keeps its store and its call. -/
theorem known_of_works (works : System.Works strangers x z) (there : z.transactions i = some t) :
    ∃ u, x.transactions i = some u ∧ t.store = u.store ∧ t.call = u.call := by
  cases works with
  | strangerLocks free => exact ⟨t, there, rfl, rfl⟩
  | strangerWrites owns may => exact ⟨t, there, rfl, rfl⟩
  | strangerLeaves owns => exact ⟨t, there, rfl, rfl⟩
  | @moved j u s r files next known calls effect =>
    by_cases own : i = j
    · subst own
      cases (Function.update_self ..).symm.trans there
      exact ⟨u, known, rfl, rfl⟩
    · exact ⟨t, (Function.update_of_ne own _ _).symm.trans there, rfl, rfl⟩

def System.Idle (x : System) : Prop :=
  ∀ i, x.files.lock = some (.transaction i) → .transaction i ∉ x.changes

/-- While every transaction is decided only others write. -/
theorem idle_of_works (sound : Sound d x) (idle : x.Idle)
    (decided : ∀ i t, x.transactions i = some t → x.Decided i)
    (works : System.Works strangers x z) :
    z.Idle ∧ (z.files.document = x.files.document ∨
      strangers x.files.document z.files.document) := by
  have fresh := fun i => never_of_decided (i := i) (.single (.works works))
  cases works with
  | strangerLocks free => exact ⟨nofun, .inl rfl⟩
  | strangerWrites owns may =>
    refine ⟨fun i mine => ?_, .inr may⟩
    cases owns.symm.trans mine
  | strangerLeaves owns => exact ⟨nofun, .inl rfl⟩
  | @moved i t s r files next there calls effect =>
    have moved := sound.moved there calls effect
    have same := moved.writes.resolve_right fun at_ => idle i at_.1 at_.2
    refine ⟨fun j owns listed => ?_, .inl same⟩
    have mine : .transaction i ∉ x.changes := by
      intro had
      cases sound.standing i t there with
      | before fresh => exact fresh had
      | inside holds => exact idle i holds had
      | through _ _ _ rest =>
        rw [rest] at calls
        cases calls
    have before : .transaction j ∈ x.changes := by
      rcases moved.spares.changes with same | ⟨-, grown⟩
      · exact same ▸ listed
      · have turn : .transaction i ∈ (stepped x i t next r files).changes :=
          grown ▸ List.mem_cons_self
        exact absurd turn (fresh i (decided i t there) mine)
    by_cases own : j = i
    · exact mine (own ▸ before)
    · exact idle j ((moved.spares.owner_iff own).1 owns) before

namespace Sound

/-- The document is what the changes leave, but for the last of them if it is still at work. -/
theorem document (sound : Sound d x) :
    x.files.document = x.content d x.changes ∨
      ∃ i earlier, x.changes = .transaction i :: earlier ∧
        x.files.lock = some (.transaction i) ∧ x.files.document = x.content d earlier := by
  have busy {i : Nat} (owns : x.files.lock = some (.transaction i))
      (listed : .transaction i ∈ x.changes) : ∃ i earlier, x.changes = .transaction i :: earlier ∧
        x.files.lock = some (.transaction i) ∧
          (x.files.document = x.content d x.changes ∨ x.files.document = x.content d earlier) := by
    obtain ⟨t, there⟩ := Option.ne_none_iff_exists'.1 (sound.owner i owns)
    cases sound.standing i t there with
    | before fresh => exact absurd listed fresh
    | through free => exact absurd owns free
    | @inside _ earlier changes once p rest works =>
      refine ⟨i, earlier, changes, owns, ?_⟩
      have still := works.heed
      cases todo : p.heed with
      | note n q => exact absurd todo (Program.heed_ne_note p n q)
      | call s next =>
        rw [todo] at still
        exact .inr still.1.2.1
      | done v =>
        rw [todo] at still
        rw [content_of_head changes there]
        exact .inl (congrArg Prod.snd still)
  by_cases idle : ∀ i, x.files.lock = some (.transaction i) → .transaction i ∉ x.changes
  · exact .inl (sound.settled idle)
  · obtain ⟨i, working⟩ := not_forall.1 idle
    obtain ⟨owns, listed⟩ := Classical.not_imp.1 working
    obtain ⟨i, earlier, changes, owns, done | todo⟩ := busy owns (not_not.1 listed)
    · exact .inl done
    · exact .inr ⟨i, earlier, changes, owns, todo⟩

/-- A transaction that returns has had its turn and answers by what it found there, or it has failed
before it had the lock, or its caller has given up. -/
theorem returned (sound : Sound d x) (there : x.transactions i = some t) {v : t.call.Answer}
    (returned : t.Returned v) :
    (∃ newer earlier, x.changes = newer ++ .transaction i :: earlier ∧
        v = (t.outcome (x.content d earlier)).1) ∨
      .transaction i ∉ x.changes ∧
        ((∃ e, v = t.call.fail e ∧ (t.call.precheck = .error e ∨ t.fault = some e)) ∨
          t.waits = false ∧ v = t.call.fail FileStore.abandoned) := by
  unfold Transaction.Returned at returned
  cases sound.standing i t there with
  | before fresh before =>
    refine .inr ⟨fresh, ?_⟩
    cases before with
    | queued free clear rest =>
      rcases rest with rest | rest
      · rw [rest] at returned
        cases returned
      · rw [rest] at returned
        cases returned
    | refused free rest why =>
      rw [rest] at returned
      cases returned
      exact .inl ⟨_, rfl, why⟩
    | checking owns clear rest =>
      rw [rest] at returned
      cases returned
    | turnedAway owns gone rest =>
      rw [rest] at returned
      cases returned
    | away free gone rest =>
      rw [rest] at returned
      cases returned
      exact .inr ⟨gone, rfl⟩
  | inside owns changes once rest works =>
    exact absurd (rest ▸ returned) (not_returned_of_bind _ v)
  | through lock changes once rest =>
    rw [rest] at returned
    cases returned
    exact .inl ⟨_, _, changes, rfl⟩

/-- Every transaction has its turn once. -/
theorem once_of_mem (sound : Sound d x) (listed : .transaction i ∈ x.changes) :
    ∃ newer earlier, x.changes = newer ++ .transaction i :: earlier ∧ .transaction i ∉ newer ∧
      .transaction i ∉ earlier := by
  obtain ⟨t, there⟩ := Option.ne_none_iff_exists'.1 (sound.known i listed)
  cases sound.standing i t there with
  | before fresh => exact absurd listed fresh
  | inside owns changes once => exact ⟨[], _, changes, List.not_mem_nil, once⟩
  | through _ changes once => exact ⟨_, _, changes, once⟩

/-- A transaction that has had its turn and has given the lock back has returned. -/
theorem returned_of_free (sound : Sound d x) (there : x.transactions i = some t)
    (listed : .transaction i ∈ x.changes) (free : x.files.lock ≠ some (.transaction i)) :
    ∃ newer earlier, x.changes = newer ++ .transaction i :: earlier ∧
      t.Returned (t.outcome (x.content d earlier)).1 := by
  cases sound.standing i t there with
  | before fresh => exact absurd listed fresh
  | inside owns => exact absurd owns free
  | through _ changes once rest => exact ⟨_, _, changes, congrArg Program.heed rest⟩

end Sound

/-- What one transaction after the other would have made of the document, and how they are
answered. -/
structure System.Serial (strangers : Option Bytes → Option Bytes → Prop) (d : Option Bytes)
    (x : System) : Prop where
  /-- The document is what the changes leave in the order of the lock, but for the last of them as
  long as it is at work. -/
  document : x.files.document = x.content d x.changes ∨
    ∃ i earlier, x.changes = .transaction i :: earlier ∧
      x.files.lock = some (.transaction i) ∧ x.files.document = x.content d earlier
  /-- Every transaction has its turn once. -/
  once : ∀ i, .transaction i ∈ x.changes → ∃ newer earlier,
    x.changes = newer ++ .transaction i :: earlier ∧ .transaction i ∉ newer ∧
      .transaction i ∉ earlier
  /-- Whoever has had its turn and has given the lock back has returned its outcome on the content
  it found, which the changes before it have left. -/
  turn : ∀ i t, x.transactions i = some t → .transaction i ∈ x.changes →
    x.files.lock ≠ some (.transaction i) → ∃ newer earlier,
      x.changes = newer ++ .transaction i :: earlier ∧
        t.Returned (t.outcome (x.content d earlier)).1
  /-- A transaction that was refused nothing and brings no time beyond the calendar has carried out
  its call on the table in that content: so it answers, and the content it leaves makes the table
  that the call makes. -/
  carried : ∀ i t newer earlier found, x.changes = newer ++ .transaction i :: earlier →
    x.transactions i = some t → t.fault = none → t.call.Dated →
    Document.tableOf t.store.path (x.content d earlier) = .ok found →
      (t.outcome (x.content d earlier)).1 = (t.call.apply found).1 ∧
        Document.tableOf t.store.path (x.content d (.transaction i :: earlier)) =
          .ok (t.call.apply found).2
  /-- Whoever waits is answered so, or by the failure that has kept it from the lock. -/
  answer : ∀ i t v, x.transactions i = some t → t.Returned v → t.waits = true →
    (∃ newer earlier, x.changes = newer ++ .transaction i :: earlier ∧
        v = (t.outcome (x.content d earlier)).1) ∨
      .transaction i ∉ x.changes ∧
        ∃ e, v = t.call.fail e ∧ (t.call.precheck = .error e ∨ t.fault = some e)
  /-- Every transaction can still return, its caller waiting or not as before, and without another
  refusal. -/
  pending : ∀ i t, x.transactions i = some t → ∃ y rest v,
    System.Run strangers x y ∧ y.transactions i = some { t with rest := rest } ∧
      Transaction.Returned { t with rest := rest } v

theorem Sound.serial (sound : Sound d x) : x.Serial strangers d where
  document := sound.document
  once _ listed := sound.once_of_mem listed
  turn _ _ there listed free := sound.returned_of_free there listed free
  carried i t newer earlier found _ there unfailed dated table := by
    have outcome : t.outcome (x.content d earlier) =
        t.store.applied t.call (x.content d earlier) := by
      rw [Transaction.outcome, unfailed, FileStore.outcome]
    have left : x.content d (.transaction i :: earlier) = (t.outcome (x.content d earlier)).2 := by
      simp only [System.content, System.left, there]
    rw [left, outcome]
    exact FileStore.applied_of_dated table dated
  answer i t v there returned waits := by
    rcases sound.returned there returned with turn | ⟨none, failed | ⟨gone, -⟩⟩
    · exact .inl turn
    · exact .inr ⟨none, failed⟩
    · cases waits.symm.trans gone
  pending _ _ there := sound.can_return there

/-- For any number of transactions of any stores of one document, in every run, where steps may be
refused, callers may give up and others may take the lock and write: the transactions are serial,
and whoever waits is answered by what its transaction found at its turn. A transaction whose caller
gives up before its turn never has one. And if a caller has given up, then whatever begins later and
has its turn finds the change of that transaction, or there never is one. -/
theorem serial_and_never_late (reached : System.Run strangers (.opening d) x)
    (later : System.Run strangers x z) :
    z.Serial strangers d ∧
      (∀ i t, x.transactions i = some t → t.waits = false → .transaction i ∉ x.changes →
        .transaction i ∉ z.changes) ∧
      ∀ i t j, x.transactions i = some t → t.waits = false → x.transactions j = none →
        .transaction j ∈ z.changes → .transaction i ∈ z.changes →
          ∃ newer earlier, z.changes = newer ++ .transaction j :: earlier ∧
            .transaction i ∈ earlier := by
  have before : Sound d x := (Sound.opening d).run reached
  have after : Sound d z := before.run later
  refine ⟨after.serial, ?_, ?_⟩
  · intro i t there gone fresh
    exact never_of_decided later ⟨t, there, .inl gone⟩ fresh
  · intro i t j there gone unknown theirs mine
    exact earlier_of_decided before later ⟨t, there, .inl gone⟩ unknown mine theirs

/-- An enrollment that has found its caller waiting. -/
def enrolling : System :=
  System.drive ((System.opening none).put 0
    (.new ⟨⟨"queue.json"⟩⟩ (.addIfAbsent (.waiting ⟨"s-1"⟩ ⟨"w-1"⟩ ⟨1⟩ ⟨0, 0⟩)))) [0, 0, 0]

/-- The same, now that its caller has given up. -/
def overdue : System :=
  match enrolling.transactions 0 with
  | some t => enrolling.put 0 { t with waits := false }
  | none => enrolling

/-- The enrollment goes on and writes, and a transaction that begins now has its turn after it. -/
def overtaken : System :=
  System.drive (overdue.put 1 (.new ⟨⟨"queue.json"⟩⟩ (.lockHolder ⟨"s-1"⟩)))
    [1, 0, 0, 0, 0, 0, 0, 1, 1]

/-- A caller gives up while its transaction is at the document. Whoever begins then finds what that
transaction has written. -/
theorem serial_and_never_late_overdue :
    System.Run (fun _ _ => False) (.opening none) overdue ∧
      System.Run (fun _ _ => False) overdue overtaken ∧ overdue.changes = [.transaction 0] ∧
      overdue.files.document = none ∧ overtaken.changes = [.transaction 1, .transaction 0] ∧
      overtaken.files.document.isSome = true ∧
      ∃ newer earlier, overtaken.changes = newer ++ .transaction 1 :: earlier ∧
        .transaction 0 ∈ earlier := by
  have begun : System.Run (fun _ _ => False) (.opening none) enrolling :=
    .head (.begun rfl _ _) (System.run_drive _ _)
  have gaveUp : System.Run (fun _ _ => False) (.opening none) overdue := .tail begun (.gaveUp rfl)
  have went : System.Run (fun _ _ => False) overdue overtaken :=
    .head (.begun rfl _ _) (System.run_drive _ _)
  have late := (serial_and_never_late gaveUp went).2.2 0 _ 1 rfl rfl rfl
  exact ⟨gaveUp, went, rfl, rfl, rfl, rfl, late List.mem_cons_self (by decide)⟩

end Interlock.Locked
