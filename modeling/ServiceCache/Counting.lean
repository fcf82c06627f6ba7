import Mathlib.Data.Nat.Count
import Mathlib.Logic.Function.Basic

/-!
# Counting the members of a numbered table

A shared counter usually stands for the number of table entries in some state.
-/

namespace Counting

theorem count_congr {p q : ℕ → Prop} [DecidablePred p] [DecidablePred q] {n : ℕ}
    (h : ∀ j < n, p j ↔ q j) : Nat.count p n = Nat.count q n := by
  induction n with
  | zero => simp
  | succ n ih =>
    have hn : p n ↔ q n := h n (Nat.lt_succ_self n)
    rw [Nat.count_succ, Nat.count_succ, ih (fun j hj => h j (Nat.lt_succ_of_lt hj))]
    simp only [hn]

theorem count_change {p q : ℕ → Prop} [DecidablePred p] [DecidablePred q] {n i : ℕ}
    (hi : i < n) (h : ∀ j < n, j ≠ i → (p j ↔ q j)) :
    Nat.count p n + (if q i then 1 else 0) = Nat.count q n + (if p i then 1 else 0) := by
  induction n with
  | zero => exact absurd hi (Nat.not_lt_zero i)
  | succ n ih =>
    rw [Nat.count_succ, Nat.count_succ]
    by_cases hin : i = n
    · subst hin
      have hsame : Nat.count p i = Nat.count q i :=
        count_congr (fun j hj => h j (Nat.lt_succ_of_lt hj) (Nat.ne_of_lt hj))
      omega
    · have hlt : i < n := by omega
      have hn : p n ↔ q n := h n (Nat.lt_succ_self n) (Ne.symm hin)
      have hprev := ih hlt (fun j hj => h j (Nat.lt_succ_of_lt hj))
      simp only [hn]
      omega

/-- How many of the first `n` entries of a table pass a test. -/
def tally {α : Type*} (p : α → Bool) (f : ℕ → α) (n : ℕ) : ℕ := Nat.count (fun j => p (f j)) n

section Tally

variable {α : Type*} {p : α → Bool} {f : ℕ → α} {n : ℕ}

theorem tally_update {i : ℕ} (hi : i < n) (a : α) :
    tally p (Function.update f i a) n + (if p (f i) then 1 else 0) =
      tally p f n + (if p a then 1 else 0) := by
  have moved := count_change (p := fun j => p (Function.update f i a j)) (q := fun j => p (f j))
    hi (fun j _ ne => by simp only [Function.update_of_ne ne])
  rw [Function.update_self] at moved
  exact moved

theorem tally_push (a : α) :
    tally p (Function.update f n a) (n + 1) = tally p f n + (if p a then 1 else 0) := by
  unfold tally
  rw [Nat.count_succ, Function.update_self]
  congr 1
  exact count_congr (fun j hj => by simp only [Function.update_of_ne (Nat.ne_of_lt hj)])

theorem tally_pos {i : ℕ} (hi : i < n) (h : p (f i) = true) : 0 < tally p f n := by
  have moved := count_change (p := fun j => p (f j)) (q := fun j => p (f j) ∧ j ≠ i) hi
    (fun j _ ne => by simp [ne])
  simp only [ne_eq, not_true_eq_false, and_false, if_false, h, if_true] at moved
  unfold tally
  omega

theorem tally_eq_zero (h : ∀ i, p (f i) = false) : tally p f n = 0 := by
  induction n with
  | zero => rfl
  | succ n ih =>
    unfold tally at ih ⊢
    simp [Nat.count_succ, ih, h n]

theorem tally_eq_self (h : ∀ i < n, p (f i) = true) : tally p f n = n := by
  induction n with
  | zero => rfl
  | succ n ih =>
    have before := ih fun i hi => h i (Nat.lt_succ_of_lt hi)
    unfold tally at before ⊢
    simp [Nat.count_succ, before, h n (Nat.lt_succ_self n)]

theorem tally_congr {g : ℕ → α} (h : ∀ i < n, p (f i) = p (g i)) : tally p f n = tally p g n :=
  count_congr fun i hi => by rw [h i hi]

theorem tally_add_le {q : α → Bool} (apart : ∀ i < n, p (f i) = true → q (f i) = false) :
    tally p f n + tally q f n ≤ n := by
  induction n with
  | zero => exact Nat.le_refl 0
  | succ n ih =>
    have before := ih fun i hi => apart i (Nat.lt_succ_of_lt hi)
    have last := apart n (Nat.lt_succ_self n)
    unfold tally at before ⊢
    rw [Nat.count_succ, Nat.count_succ]
    cases hp : p (f n) with
    | true =>
      rw [last hp, if_pos rfl, if_neg Bool.false_ne_true]
      omega
    | false =>
      rw [if_neg Bool.false_ne_true]
      split <;> omega

theorem tally_le : tally p f n ≤ n := Nat.count_le _

theorem all_of_tally (all : n ≤ tally p f n) {i : ℕ} (hi : i < n) : p (f i) = true := by
  cases fails : p (f i) with
  | true => rfl
  | false =>
    have other : 0 < tally (fun a => !p a) f n := tally_pos hi (by simp [fails])
    have both := tally_add_le (p := p) (q := fun a => !p a) (f := f) (n := n)
      fun j _ passes => by simp [passes]
    omega

end Tally

end Counting
