import Mathlib.Algebra.GroupWithZero.Nat
import Mathlib.Data.List.Sort
import Mathlib.Order.Lattice

/-!
# Half-open ranges of natural numbers

`gaps` are what a sorted list leaves of an interval, and `runs` are the members of a predicate
gathered into maximal ranges by one pass over the numbers. The pass is kept as a `Ledger`, so that
it can stop and go on at any number.
-/

namespace Ranges

abbrev Range := Nat × Nat

def Inside (i : Nat) (r : Range) : Prop := r.1 ≤ i ∧ i < r.2

def Covered (l : List Range) (i : Nat) : Prop := ∃ r ∈ l, Inside i r

instance (i : Nat) (r : Range) : Decidable (Inside i r) :=
  inferInstanceAs (Decidable (r.1 ≤ i ∧ i < r.2))

instance (l : List Range) (i : Nat) : Decidable (Covered l i) :=
  inferInstanceAs (Decidable (∃ r ∈ l, Inside i r))

/-- Non-empty ranges in order, none reaching into the next. -/
structure Ordered (l : List Range) : Prop where
  filled : ∀ r ∈ l, r.1 < r.2
  apart : l.Pairwise (fun r r' => r.2 ≤ r'.1)

section Lists

variable {l l' : List Range} {r : Range} {i : Nat}

@[simp] theorem not_covered_nil : ¬ Covered [] i := by simp [Covered]

@[simp] theorem covered_cons : Covered (r :: l) i ↔ Inside i r ∨ Covered l i := by simp [Covered]

@[simp] theorem covered_append : Covered (l ++ l') i ↔ Covered l i ∨ Covered l' i := by
  simp [Covered, or_and_right, exists_or]

theorem Ordered.nil : Ordered [] := ⟨by simp, .nil⟩

theorem Ordered.cons (h : Ordered l) (filled : r.1 < r.2) (before : ∀ r' ∈ l, r.2 ≤ r'.1) :
    Ordered (r :: l) :=
  ⟨List.forall_mem_cons.mpr ⟨filled, h.filled⟩, List.pairwise_cons.mpr ⟨before, h.apart⟩⟩

theorem Ordered.snoc (h : Ordered l) (filled : r.1 < r.2) (after : ∀ r' ∈ l, r'.2 ≤ r.1) :
    Ordered (l ++ [r]) := by
  refine ⟨?_, List.pairwise_append.mpr ⟨h.apart, List.pairwise_singleton _ _, ?_⟩⟩
  · intro r' mem
    obtain mem | mem := List.mem_append.mp mem
    · exact h.filled r' mem
    · exact List.mem_singleton.mp mem ▸ filled
  · intro r' mem r'' mem'
    exact List.mem_singleton.mp mem' ▸ after r' mem

theorem Ordered.unique (h : Ordered l) {r' : Range} (mem : r ∈ l) (mem' : r' ∈ l)
    (inside : Inside i r) (inside' : Inside i r') : r = r' := by
  obtain ⟨from_, below⟩ := inside
  obtain ⟨from', below'⟩ := inside'
  induction l with
  | nil => cases mem
  | cons a l ih =>
    obtain ⟨before, apart⟩ := List.pairwise_cons.mp h.apart
    have filled := (List.forall_mem_cons.mp h.filled).2
    rcases List.mem_cons.mp mem with rfl | tail <;> rcases List.mem_cons.mp mem' with rfl | tail'
    · rfl
    · have later := before r' tail'
      omega
    · have later := before r tail
      omega
    · exact ih ⟨filled, apart⟩ tail tail'

theorem Ordered.sum_le (h : Ordered l) {start stop : Nat} (le : start ≤ stop)
    (from_ : ∀ r ∈ l, start ≤ r.1) (upTo : ∀ r ∈ l, r.2 ≤ stop) :
    start + (l.map fun r => r.2 - r.1).sum ≤ stop := by
  induction l generalizing start with
  | nil => simpa using le
  | cons r l ih =>
    obtain ⟨filled, rest⟩ := List.forall_mem_cons.mp h.filled
    obtain ⟨before, apart⟩ := List.pairwise_cons.mp h.apart
    obtain ⟨reached, upTo⟩ := List.forall_mem_cons.mp upTo
    have begun := from_ r List.mem_cons_self
    have tail := ih ⟨rest, apart⟩ reached before upTo
    simp only [List.map_cons, List.sum_cons]
    omega

end Lists

/-! ## What a list leaves of an interval -/

/-- The ranges between those of a list sorted by where they start. -/
def gaps : Nat → List Range → Nat → List Range
  | start, [], stop => if start < stop then [(start, stop)] else []
  | start, r :: l, stop =>
    (if start < r.1 then [(start, r.1)] else []) ++ gaps (max start r.2) l stop

section Gaps

variable {l : List Range} {start stop : Nat}

theorem le_of_mem_gaps {r : Range} (mem : r ∈ gaps start l stop) : start ≤ r.1 := by
  induction l generalizing start with
  | nil =>
    simp only [gaps] at mem
    split at mem
    · exact List.mem_singleton.mp mem ▸ Nat.le_refl start
    · cases mem
  | cons r' l ih =>
    obtain mem | mem := List.mem_append.mp mem
    · split at mem
      · exact List.mem_singleton.mp mem ▸ Nat.le_refl start
      · cases mem
    · exact (le_max_left start r'.2).trans (ih mem)

theorem le_of_mem_gaps_stop {r : Range} (within : ∀ r ∈ l, r.1 ≤ stop)
    (mem : r ∈ gaps start l stop) : r.2 ≤ stop := by
  induction l generalizing start with
  | nil =>
    simp only [gaps] at mem
    split at mem
    · exact List.mem_singleton.mp mem ▸ Nat.le_refl stop
    · cases mem
  | cons r' l ih =>
    have rest := List.forall_mem_cons.mp within
    obtain mem | mem := List.mem_append.mp mem
    · split at mem
      · exact List.mem_singleton.mp mem ▸ rest.1
      · cases mem
    · exact ih rest.2 mem

theorem ordered_gaps (filled : ∀ r ∈ l, r.1 ≤ r.2) : Ordered (gaps start l stop) := by
  induction l generalizing start with
  | nil =>
    simp only [gaps]
    split
    next lt => exact Ordered.nil.cons lt (by simp)
    · exact .nil
  | cons r l ih =>
    have rest := List.forall_mem_cons.mp filled
    have tail : Ordered (gaps (max start r.2) l stop) := ih rest.2
    simp only [gaps]
    split
    next lt =>
      refine tail.cons lt ?_
      intro r' mem
      have after := le_of_mem_gaps mem
      exact rest.1.trans ((le_max_right start r.2).trans after)
    · exact tail

theorem covered_gaps {i : Nat} (sorted : l.Pairwise (fun r r' => r.1 ≤ r'.1))
    (within : ∀ r ∈ l, r.1 ≤ stop) :
    Covered (gaps start l stop) i ↔ start ≤ i ∧ i < stop ∧ ¬ Covered l i := by
  induction l generalizing start with
  | nil =>
    simp only [gaps, not_covered_nil, not_false_eq_true, and_true]
    split
    · simp [Covered, Inside]
    · simp only [not_covered_nil, false_iff]
      omega
  | cons r l ih =>
    obtain ⟨first, sorted⟩ := List.pairwise_cons.mp sorted
    have rest := List.forall_mem_cons.mp within
    -- before the first range nothing is covered, since the others start later
    have early : i < r.1 → ¬ Covered l i := by
      rintro lt ⟨r', mem, inside⟩
      have later := first r' mem
      have reached := inside.1
      omega
    rw [gaps, covered_append, ih sorted rest.2, covered_cons]
    have bound := rest.1
    by_cases lt : i < r.1
    · have notAfter : ¬ (Inside i r ∨ Covered l i) := by
        rintro (inside | covered)
        · exact absurd inside.1 (by omega)
        · exact early lt covered
      simp only [notAfter, not_false_eq_true, and_true]
      split
      · simp only [Covered, List.mem_singleton, Inside, exists_eq_left]
        omega
      · simp only [not_covered_nil, false_or]
        omega
    · have notBefore : ¬ Covered (if start < r.1 then [(start, r.1)] else []) i := by
        split
        · rintro ⟨r', mem, inside⟩
          cases List.mem_singleton.mp mem
          exact lt inside.2
        · simp
      simp only [notBefore, false_or, Inside, not_or, not_and, not_lt, Nat.max_le]
      constructor
      · rintro ⟨⟨from_, past⟩, below, out⟩
        exact ⟨from_, below, fun _ => past, out⟩
      · rintro ⟨from_, below, past, out⟩
        exact ⟨⟨from_, past (Nat.not_lt.mp lt)⟩, below, out⟩

end Gaps

/-! ## The runs of a predicate -/

/-- The runs that are closed, and the one that may still grow. -/
structure Ledger where
  closed : List Range := []
  pending : Option Range := none
  deriving DecidableEq, Repr

def Ledger.flush (g : Ledger) : Ledger := ⟨g.closed ++ g.pending.toList, none⟩

def Ledger.note (g : Ledger) (i : Nat) (member : Bool) : Ledger :=
  if member then
    match g.pending with
    | some (start, stop) =>
      if stop = i then ⟨g.closed, some (start, i + 1)⟩ else ⟨g.flush.closed, some (i, i + 1)⟩
    | none => ⟨g.flush.closed, some (i, i + 1)⟩
  else g.flush

def sweep (p : Nat → Bool) : Nat → Ledger
  | 0 => {}
  | n + 1 => (sweep p n).note n (p n)

def runs (p : Nat → Bool) (n : Nat) : List Range := (sweep p n).flush.closed

@[simp] theorem Ledger.flush_flush (g : Ledger) : g.flush.flush = g.flush := by
  simp [Ledger.flush]

section Sweep

variable {p : Nat → Bool} {n m i : Nat}

theorem sweep_skip (lt : n < m) (none_ : ∀ i, n ≤ i → i < m → p i = false) :
    sweep p m = (sweep p n).flush := by
  induction m, lt using Nat.le_induction with
  | base => simp [sweep, Ledger.note, none_ n (Nat.le_refl n) (Nat.lt_succ_self n)]
  | succ m le ih =>
    have before := ih fun i from_ below => none_ i from_ (Nat.lt_succ_of_lt below)
    have last := none_ m (Nat.le_of_succ_le le) (Nat.lt_succ_self m)
    simp [sweep, Ledger.note, before, last]

structure Exact (p : Nat → Bool) (n : Nat) (l : List Range) : Prop where
  ordered : Ordered l
  below : ∀ r ∈ l, r.2 ≤ n
  covered : ∀ i, Covered l i ↔ i < n ∧ p i = true

theorem Exact.skip {l : List Range} (h : Exact p n l) (out : p n = false) : Exact p (n + 1) l where
  ordered := h.ordered
  below r mem := Nat.le_succ_of_le (h.below r mem)
  covered i := by
    rw [h.covered i]
    constructor
    · rintro ⟨lt, member⟩
      exact ⟨Nat.lt_succ_of_lt lt, member⟩
    · rintro ⟨lt, member⟩
      have ne : i ≠ n := fun same => by simp [same, out] at member
      exact ⟨by omega, member⟩

theorem Exact.start {l : List Range} (h : Exact p n l) (member : p n = true) :
    Exact p (n + 1) (l ++ [(n, n + 1)]) where
  ordered := h.ordered.snoc (Nat.lt_succ_self n) h.below
  below r mem := by
    obtain mem | mem := List.mem_append.mp mem
    · exact Nat.le_succ_of_le (h.below r mem)
    · exact List.mem_singleton.mp mem ▸ Nat.le_refl (n + 1)
  covered i := by
    rw [covered_append, h.covered i]
    simp only [Covered, List.mem_singleton, exists_eq_left, Inside]
    constructor
    · rintro (⟨lt, yes⟩ | ⟨from_, below⟩)
      · exact ⟨Nat.lt_succ_of_lt lt, yes⟩
      · exact ⟨below, (show i = n by omega) ▸ member⟩
    · rintro ⟨lt, yes⟩
      by_cases same : i = n
      · exact .inr (by omega)
      · exact .inl ⟨by omega, yes⟩

theorem Exact.grow {l : List Range} {start : Nat} (h : Exact p n (l ++ [(start, n)]))
    (member : p n = true) : Exact p (n + 1) (l ++ [(start, n + 1)]) where
  ordered := by
    have parts := List.pairwise_append.mp h.ordered.apart
    have filled := h.ordered.filled (start, n) (by simp)
    refine Ordered.snoc ⟨fun r mem => h.ordered.filled r (by simp [mem]), parts.1⟩
      (Nat.lt_succ_of_lt filled) ?_
    intro r mem
    exact parts.2.2 r mem (start, n) (by simp)
  below r mem := by
    obtain mem | mem := List.mem_append.mp mem
    · exact Nat.le_succ_of_le (h.below r (by simp [mem]))
    · exact List.mem_singleton.mp mem ▸ Nat.le_refl (n + 1)
  covered i := by
    have before := h.covered i
    have filled : start < n := h.ordered.filled (start, n) (by simp)
    rw [covered_append] at before ⊢
    simp only [Covered, List.mem_singleton, exists_eq_left, Inside] at before ⊢
    by_cases same : i = n
    · subst same
      simp only [member, Nat.lt_succ_self, and_self, iff_true]
      exact .inr ⟨Nat.le_of_lt filled, trivial⟩
    · have bounds : (start ≤ i ∧ i < n + 1 ↔ start ≤ i ∧ i < n) := by omega
      have below : (i < n + 1 ↔ i < n) := by omega
      rw [bounds, below]
      exact before

theorem sweep_exact : Exact p n ((sweep p n).closed ++ (sweep p n).pending.toList) := by
  induction n with
  | zero => exact ⟨by simpa [sweep] using Ordered.nil, by simp [sweep], by simp [sweep]⟩
  | succ n ih =>
    cases member : p n with
    | false => simpa [sweep, Ledger.note, member, Ledger.flush] using ih.skip member
    | true =>
      cases at_ : (sweep p n).pending with
      | none =>
        rw [at_] at ih
        simpa [sweep, Ledger.note, member, at_, Ledger.flush] using ih.start member
      | some r =>
        obtain ⟨start, stop⟩ := r
        rw [at_] at ih
        by_cases same : stop = n
        · subst same
          simpa [sweep, Ledger.note, member, at_] using ih.grow member
        · simpa [sweep, Ledger.note, member, at_, same, Ledger.flush] using ih.start member

theorem runs_exact : Exact p n (runs p n) := by
  simpa [runs, Ledger.flush] using sweep_exact (p := p) (n := n)

theorem le_of_mem_closed {r : Range} (mem : r ∈ (sweep p n).closed) : r.2 ≤ n :=
  (sweep_exact (p := p)).below r (List.mem_append_left _ mem)

end Sweep

end Ranges
