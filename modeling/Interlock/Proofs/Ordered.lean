import Mathlib.Data.List.Sort

/-!
Lists in strictly ascending order. Such a list is determined by its members, so two ways to put
things in order, each once, give the same list. And lists of entries, where leaving out those under
one key leaves what is found under the others.
-/
namespace Interlock

/-- Lists with ascending keys that have the same members are the same list. -/
theorem eq_of_mem_iff_of_pairwise_lt {α κ : Type} (cmp : κ → κ → Ordering) [Std.OrientedCmp cmp]
    (key : α → κ) {as bs : List α} (ha : as.Pairwise fun a b => cmp (key a) (key b) = .lt)
    (hb : bs.Pairwise fun a b => cmp (key a) (key b) = .lt) (same : ∀ x, x ∈ as ↔ x ∈ bs) :
    as = bs := by
  have : Std.Asymm fun a b : α => cmp (key a) (key b) = .lt :=
    ⟨fun a b lt gt => by rw [Std.OrientedCmp.gt_of_lt gt] at lt; cases lt⟩
  exact List.Pairwise.eq_of_mem_iff ha hb same

section

variable {α : Type} [BEq α]

theorem eraseRepsBy_loop_eq (a : α) (as sofar : List α) :
    List.eraseRepsBy.loop (· == ·) a as sofar = sofar.reverse ++ (a :: as).eraseReps := by
  induction as generalizing a sofar with
  | nil => simp [List.eraseReps, List.eraseRepsBy, List.eraseRepsBy.loop]
  | cons b bs ih =>
    simp only [List.eraseReps, List.eraseRepsBy, List.eraseRepsBy.loop] at ih ⊢
    cases a == b with
    | true => exact ih a sofar
    | false => rw [ih b (a :: sofar), ih b [a], List.reverse_cons, List.append_assoc]; rfl

theorem eraseReps_cons_cons (a b : α) (bs : List α) :
    (a :: b :: bs).eraseReps =
      if a == b then (a :: bs).eraseReps else a :: (b :: bs).eraseReps := by
  simp only [List.eraseReps, List.eraseRepsBy, List.eraseRepsBy.loop]
  cases a == b with
  | true => rfl
  | false => exact eraseRepsBy_loop_eq b bs [a]

variable [LawfulBEq α]

theorem mem_eraseReps {x : α} {as : List α} : x ∈ as.eraseReps ↔ x ∈ as := by
  cases as with
  | nil => exact Iff.rfl
  | cons a as =>
    induction as generalizing a with
    | nil => exact Iff.rfl
    | cons b bs ih =>
      rw [eraseReps_cons_cons]
      split
      · next same =>
        obtain rfl := eq_of_beq same
        rw [ih, List.mem_cons, List.mem_cons, List.mem_cons, or_self_left]
      · simp only [List.mem_cons, ih]

/-- A sorted list without its repetitions is in strictly ascending order. -/
theorem pairwise_eraseReps [Ord α] [Std.TransOrd α] [Std.LawfulEqOrd α] {as : List α}
    (sorted : as.Pairwise fun a b => (compare a b).isLE = true) :
    as.eraseReps.Pairwise fun a b => compare a b = .lt := by
  cases as with
  | nil => exact List.Pairwise.nil
  | cons a as =>
    induction as generalizing a with
    | nil => exact List.pairwise_singleton _ _
    | cons b bs ih =>
      obtain ⟨above, sorted'⟩ := List.pairwise_cons.1 sorted
      rw [eraseReps_cons_cons]
      split
      · exact ih a (List.pairwise_cons.2
          ⟨fun x hx => above x (List.mem_cons_of_mem b hx), (List.pairwise_cons.1 sorted').2⟩)
      · next differ =>
        have below : compare a b = .lt := by
          cases order : compare a b with
          | lt => rfl
          | eq => exact absurd (beq_iff_eq.2 (Std.LawfulEqOrd.eq_of_compare order)) differ
          | gt => simpa [order] using above b List.mem_cons_self
        refine List.pairwise_cons.2 ⟨fun x hx => ?_, ih b sorted'⟩
        rcases List.mem_cons.1 (mem_eraseReps.1 hx) with rfl | behind
        · exact below
        · exact Std.TransCmp.lt_of_lt_of_isLE below ((List.pairwise_cons.1 sorted').1 x behind)

end

/-- Leaving out the entries under a key leaves what is found under another. -/
theorem lookup_filter_ne {κ β : Type} [BEq κ] [LawfulBEq κ] (entries : List (κ × β)) {k other : κ}
    (apart : other ≠ k) : (entries.filter (·.1 != k)).lookup other = entries.lookup other := by
  induction entries with
  | nil => rfl
  | cons e entries ih =>
    obtain ⟨key, b⟩ := e
    by_cases own : key = k
    · have skipped : (other == key) = false := by simpa [own] using apart
      rw [List.filter_cons_of_neg (by simpa using own), ih, List.lookup_cons, skipped]
    · rw [List.filter_cons_of_pos (by simpa using own), List.lookup_cons, List.lookup_cons, ih]

end Interlock
