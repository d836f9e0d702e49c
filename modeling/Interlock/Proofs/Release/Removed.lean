import Interlock.Proofs.Evaluation.Failures
import Interlock.Proofs.Release.Course
import Interlock.Proofs.Store.Scans
import Mathlib.Data.List.Induction

/-!
What the removal of a worker from a space deletes and what it reports. A worker may have several
records in one space when its enrollments have raced, and waiting records beside its holder record;
a removal goes through all of them in the order of the table, the holder first. If nothing fails
they are all gone and no other record is. If a deletion fails without effect, those in front of it
are gone and all others are left. Specification, section 4.2: Priority Queue.
-/
namespace Interlock.Release

open Coordinator Store Fleet Interlock.Sequential Evaluation Program

/-! The report is about the records that were deleted. -/

/-- The first holder record, or else the last record, or else that there was none. -/
def report (rs : List Record) : Queue.Removal :=
  match rs.find? Record.isHolder with
  | some h => .holder h
  | none =>
    match rs.getLast? with
    | some r => .waiting r
    | none => .notEnrolled

theorem report_append (rs : List Record) (r : Record) :
    report (rs ++ [r]) = (report rs).add r := by
  unfold report
  rw [List.find?_append, List.getLast?_concat]
  cases rs.find? Record.isHolder with
  | some h => rfl
  | none =>
    have added : Queue.Removal.add (match rs.getLast? with
        | some q => .waiting q
        | none => .notEnrolled) r = if r.isHolder then .holder r else .waiting r := by
      cases rs.getLast? <;> rfl
    rw [Option.none_or, added, List.find?_singleton]
    cases r.isHolder <;> rfl

theorem foldl_add (rs : List Record) : rs.foldl Queue.Removal.add .notEnrolled = report rs := by
  induction rs using List.reverseRecOn with
  | nil => rfl
  | append_singleton rs r ih => rw [List.foldl_concat, ih, report_append]

variable {ε : Type} {W : Hazards ε} {l : Limits} {w : WorkerId} {s : SpaceId} {x : Scene Table ε}
  {log : Log actions} {t t' : Table} {r : Record} {rs front rest : List Record}

/-- Deletions that succeed report every record that they were given. -/
theorem deleteAll_reports (sofar : Queue.Removal) (rs : List Record) :
    (Queue.deleteAll l sofar rs).Ends (recorded W.answer)
      (fun a _ => ∀ removal, a = .ok removal → removal = rs.foldl Queue.Removal.add sofar)
      (log, x) := by
  induction rs generalizing x log sofar with
  | nil =>
    rintro removal ⟨⟩
    rfl
  | cons r rs ih =>
    rw [Queue.deleteAll, ends_bind]
    refine Hazards.store_ends (fun a e y _ _ _ => ?_) fun y _ => ih (sofar.add r)
    rw [ends_pure]
    rintro removal ⟨⟩

theorem remove_reports :
    (Queue.remove l w s).Ends (recorded W.answer)
      (fun a _ => ∀ removal, a = .ok removal → removal = report (x.state.find s w)) (log, x) := by
  unfold Queue.remove Queue.recordsOf
  rw [ends_bind]
  refine Hazards.read_ends rfl (fun a e y _ _ _ => ?_) fun y _ => ?_
  · rw [ends_pure]
    rintro removal ⟨⟩
  · simp only [Call.apply, ← foldl_add]
    exact deleteAll_reports .notEnrolled _

/-! What a table holds of a worker in a space. -/

def own (t : Table) (w : WorkerId) (s : SpaceId) : List Record :=
  t.records.filter fun r => r.worker == w && r.space == s

theorem mem_own : r ∈ own t w s ↔ r ∈ t.records ∧ r.worker = w ∧ r.space = s := by
  simp [own]

/-- The holder record comes before all others. -/
theorem pairwise_own (t : Table) (w : WorkerId) (s : SpaceId) :
    (own t w s).Pairwise fun _ later => later.isHolder = false := by
  refine (t.increasing_filter _).imp_of_mem fun {a b} ha hb lt => ?_
  refine Bool.eq_false_iff.2 fun holds => ?_
  obtain ⟨-, -, spaceA⟩ := mem_own.1 ha
  obtain ⟨-, -, spaceB⟩ := mem_own.1 hb
  cases first : a.isHolder with
  | false =>
    have gt := Record.order_holder_waiter holds first (spaceB.trans spaceA.symm)
    rw [Std.OrientedCmp.gt_of_lt gt] at lt
    cases lt
  | true =>
    have keyA := (Record.key_eq_holderOf_iff a s).2 ⟨first, spaceA⟩
    have keyB := (Record.key_eq_holderOf_iff b s).2 ⟨holds, spaceB⟩
    exact ne_of_order_lt lt (keyA.trans keyB.symm)

/-- Who has left with the first records of its own has left with nothing else. -/
theorem mem_deleteAll_own (split : own t w s = front ++ rest) :
    r ∈ (t.deleteAll front).records ↔ r ∈ t.records ∧ r ∉ front := by
  rw [Table.mem_deleteAll]
  refine and_congr_right fun stored => ?_
  constructor
  · intro others listed
    exact others r listed ⟨rfl, rfl⟩
  · rintro unlisted q listed ⟨key, -⟩
    have theirs : q ∈ own t w s := split ▸ List.mem_append_left rest listed
    exact unlisted (t.eq_of_key stored (mem_own.1 theirs).1 key ▸ listed)

/-- The first holder record among them is the one of the space, if it is theirs. -/
theorem find?_own_eq_some_iff {h : Record} :
    (own t w s).find? Record.isHolder = some h ↔ t.holder s = some h ∧ h.worker = w := by
  rw [Table.holder_eq_some_iff]
  constructor
  · intro found
    obtain ⟨stored, worker, space⟩ := mem_own.1 (List.mem_of_find?_eq_some found)
    exact ⟨⟨stored, List.find?_some found, space⟩, worker⟩
  · rintro ⟨⟨stored, holds, rfl⟩, rfl⟩
    have mine : h ∈ own t h.worker h.space := mem_own.2 ⟨stored, rfl, rfl⟩
    obtain ⟨q, found⟩ := Option.isSome_iff_exists.1 (List.find?_isSome.2 ⟨h, mine, holds⟩)
    obtain ⟨stored', -, space⟩ := mem_own.1 (List.mem_of_find?_eq_some found)
    have keyQ := (Record.key_eq_holderOf_iff q h.space).2 ⟨List.find?_some found, space⟩
    have keyH := (Record.key_eq_holderOf_iff h h.space).2 ⟨holds, rfl⟩
    rw [found, t.eq_of_key stored' stored (keyQ.trans keyH.symm)]

theorem find?_own_eq_none_iff : (own t w s).find? Record.isHolder = none ↔ ¬t.Holds w s := by
  simp only [Option.eq_none_iff_forall_ne_some, ne_eq, find?_own_eq_some_iff, Table.Holds,
    not_exists]

/-- What the removal of a worker from a space reports: the holder record, if the worker held the
space; the last of its records, if it only waited; or that it had none. -/
structure Reported (t : Table) (w : WorkerId) (s : SpaceId) (removal : Queue.Removal) : Prop where
  holder : ∀ h, removal = .holder h ↔ t.holder s = some h ∧ h.worker = w
  waiting : ∀ r, removal = .waiting r ↔ ¬t.Holds w s ∧ (own t w s).getLast? = some r
  notEnrolled : removal = .notEnrolled ↔ ∀ r ∈ t.records, ¬(r.worker = w ∧ r.space = s)

theorem reported (t : Table) (w : WorkerId) (s : SpaceId) :
    Reported t w s (report (own t w s)) := by
  have held {h : Record} := find?_own_eq_some_iff (t := t) (w := w) (s := s) (h := h)
  have unheld := find?_own_eq_none_iff (t := t) (w := w) (s := s)
  have nobody : own t w s = [] ↔ ∀ r ∈ t.records, ¬(r.worker = w ∧ r.space = s) := by
    simp [List.eq_nil_iff_forall_not_mem, mem_own]
  unfold report
  constructor
  case holder =>
    intro h
    rw [← held]
    cases (own t w s).find? Record.isHolder with
    | some q => simp
    | none => cases (own t w s).getLast? <;> simp
  case waiting =>
    intro r
    rw [← unheld]
    cases (own t w s).find? Record.isHolder with
    | some q => simp
    | none => cases (own t w s).getLast? <;> simp
  case notEnrolled =>
    rw [← nobody, ← List.getLast?_eq_none_iff]
    cases found : (own t w s).find? Record.isHolder with
    | some q =>
      have listed := List.ne_nil_of_mem (List.mem_of_find?_eq_some found)
      simp [listed]
    | none => cases (own t w s).getLast? <;> simp

/-! What a removal leaves. -/

/-- A removal of a worker from a space, accounted for by the calls it has made: either none of them
has failed, and then the worker has no record left in the space and nobody else has lost one; or one
has failed, and then the removal has stopped there, with the records gone that came before. A look
that fails comes before all of them. -/
structure Removed (l : Limits) (w : WorkerId) (s : SpaceId) (t : Table) (log : Log actions)
    (a : Except StoreError Queue.Removal) (t' : Table) : Prop where
  complete : (∀ e ∈ log, storeError? e = none) →
    (∃ removal, a = .ok removal ∧ Reported t w s removal) ∧
      ∀ r, r ∈ t'.records ↔ r ∈ t.records ∧ ¬(r.worker = w ∧ r.space = s)
  stopped : ∀ e ∈ log, ∀ error, storeError? e = some error →
    a = .error error ∧ ∃ front rest, own t w s = front ++ rest ∧
      (∀ answer, e = asked l (.find s w) answer → front = []) ∧
      (∀ r answer, e = asked l (.delete r) answer → rest.head? = some r) ∧
      ∀ r, r ∈ t'.records ↔ r ∈ t.records ∧ r ∉ front

/-- A look that succeeds and deletions that succeed are no failures. -/
theorem storeError?_eq_none_of_mem {e : Event}
    (logged : e ∈ (rs.map (deleted l)).reverse ++ [looked l w s t]) : storeError? e = none := by
  simp only [List.mem_append, List.mem_reverse, List.mem_map, List.mem_singleton] at logged
  rcases logged with ⟨r, -, rfl⟩ | rfl <;> rfl

theorem find_eq_own (t : Table) (w : WorkerId) (s : SpaceId) : t.find s w = own t w s :=
  t.find_eq_filter s w

variable {a : Except StoreError Queue.Removal} {error : StoreError}

/-- A removal that has stopped at a call that failed, the first one to do so. -/
theorem removed_of_failed {e : Event} (failed : storeError? e = some error)
    (quiet : ∀ e' ∈ log, storeError? e' = none) (split : own t w s = front ++ rest)
    (look : ∀ answer, e = asked l (.find s w) answer → front = [])
    (deletion : ∀ r answer, e = asked l (.delete r) answer → rest.head? = some r) :
    Removed l w s t (e :: log) (.error error) (t.deleteAll front) := by
  constructor
  case complete =>
    intro none_failed
    rw [none_failed e List.mem_cons_self] at failed
    cases failed
  case stopped =>
    intro e' logged error' failed'
    rcases List.mem_cons.1 logged with rfl | before
    · rw [failed] at failed'
      obtain rfl := Option.some.inj failed'
      exact ⟨rfl, front, rest, split, look, deletion, fun r => mem_deleteAll_own split⟩
    · rw [quiet e' before] at failed'
      cases failed'

/-- A removal that could not look. -/
theorem removed_of_unread {answer : Timed (Call.find s w).Answer}
    (fails : storeAnswer l (.find s w) answer = .error error) :
    Removed l w s t [asked l (.find s w) answer] (.error error) t := by
  have failed : storeError? (asked l (.find s w) answer) = some error := error?_of_storeAnswer fails
  exact removed_of_failed failed (List.forall_mem_nil _) (List.nil_append _).symm (fun _ _ => rfl)
    nofun

/-- A removal that has gone through all records. -/
theorem removed_of_done {removal : Queue.Removal} (reported : Reported t w s removal) :
    Removed l w s t (((own t w s).map (deleted l)).reverse ++ [looked l w s t]) (.ok removal)
      (t.deleteAll (own t w s)) := by
  constructor
  case complete =>
    refine fun _ => ⟨⟨removal, rfl, reported⟩, fun r => ?_⟩
    rw [← find_eq_own, Table.mem_deleteAll_find, and_comm (a := r.space = s)]
  case stopped =>
    intro e logged error failed
    rw [storeError?_eq_none_of_mem logged] at failed
    cases failed

/-- A removal that has stopped at a record. -/
theorem removed_of_stopped (split : own t w s = front ++ r :: rest)
    {answer : Timed (Call.delete r).Answer}
    (fails : storeAnswer l (.delete r) answer = .error error) :
    Removed l w s t
      (asked l (.delete r) answer :: (front.map (deleted l)).reverse ++ [looked l w s t])
      (.error error) (t.deleteAll front) := by
  have failed : storeError? (asked l (.delete r) answer) = some error := error?_of_storeAnswer fails
  refine removed_of_failed failed (fun e before => storeError?_eq_none_of_mem before) split nofun ?_
  intro q answer' same
  cases same
  rfl

theorem Removing.removed (harmless : ∀ k, ¬W.Lands k)
    (removing : Removing W l w s t log (a.map fun _ => ()) t')
    (reports : ∀ removal, a = .ok removal → removal = report (t.find s w)) :
    Removed l w s t log a t' := by
  rw [find_eq_own] at reports
  cases a with
  | ok removal =>
    obtain rfl := reports removal rfl
    obtain _ | ⟨⟨⟩⟩ := removing
    rw [find_eq_own]
    exact removed_of_done (reported t w s)
  | error error =>
    obtain ⟨-, fails⟩ | ⟨_ | ⟨split, -, fails, landed⟩⟩ := removing
    · exact removed_of_unread fails
    · obtain rfl := landed.resolve_right fun lands => harmless _ lands.1
      exact removed_of_stopped (find_eq_own t w s ▸ split) fails

/-- Whatever fails, as long as it fails without effect: a removal whose calls succeed deletes the
records of the worker in the space and no others, and reports what there was. A removal with a call
that fails ends with the error of that call, and the records that are gone are the first ones of the
worker in the space, up to the one that could not be deleted; its holder record comes first. -/
theorem remove_accounted (W : Hazards ε) (harmless : ∀ k, ¬W.Lands k) (l : Limits) (w : WorkerId)
    (s : SpaceId) (x : Scene Table ε) :
    ((own x.state w s).Pairwise fun _ later => later.isHolder = false) ∧
      (Queue.remove l w s).Ends (recorded W.answer)
        (fun a y => Removed l w s x.state y.1 a y.2.state) ([], x) := by
  refine ⟨pairwise_own x.state w s, ?_⟩
  refine (remove_course.and remove_reports).mono ?_
  rintro a ⟨log, y⟩ ⟨⟨new, rfl, removing⟩, reports⟩
  rw [List.append_nil]
  exact removing.removed harmless reports

/-- The third store call is late, and it has no effect. -/
def thirdLate : Hazards Nat where
  clock n := ((0, ⟨0, 0⟩), n)
  vendor _ n := (.late, n)
  registry _ n := (.late, n)
  store _ n := (if n = 2 then .failed false none else .carriedOut, n + 1)

/-- A worker holds a space and has two waiting records there as well; another waits between them. -/
def raced : Table where
  records :=
    [(Record.waiting ⟨"s-1"⟩ ⟨"w-1"⟩ ⟨1⟩ default).toHolder, .waiting ⟨"s-1"⟩ ⟨"w-1"⟩ ⟨2⟩ default,
      .waiting ⟨"s-1"⟩ ⟨"w-2"⟩ ⟨3⟩ default, .waiting ⟨"s-1"⟩ ⟨"w-1"⟩ ⟨4⟩ default]
  increasing := by unfold Increasing; decide
  valid := by decide

/-- The second of three deletions fails: the holder record is gone and the waiting ones are not. -/
theorem remove_accounted_raced :
    (Queue.remove {} ⟨"w-1"⟩ ⟨"s-1"⟩).Ends (recorded thirdLate.answer)
      (fun a y => Removed {} ⟨"w-1"⟩ ⟨"s-1"⟩ raced y.1 a y.2.state ∧ a.isOk = false ∧
        y.2.state = raced.erase (.holderOf ⟨"s-1"⟩)) ([], ⟨raced, {}, 0⟩) := by
  have harmless : ∀ k, ¬thirdLate.Lands k := by
    rintro k ⟨n, e, lands⟩
    simp only [thirdLate] at lands
    split at lands <;> cases lands
  have removed := (remove_accounted thirdLate harmless {} ⟨"w-1"⟩ ⟨"s-1"⟩ ⟨raced, {}, 0⟩).2
  refine removed.and ?_
  unfold Ends
  decide +kernel

end Interlock.Release
