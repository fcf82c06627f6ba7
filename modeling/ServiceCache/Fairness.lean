import Mathlib.Order.Lattice
import Mathlib.Tactic.Push
import ServiceCache.Transition

/-!
# Runs that go on for ever

`Path.Fair` asks of one party, given by its events, that it moves again and again if it can. The
rule used below is `Path.Fair.stuck`: a fair party whose every move lowers a rank that nobody
raises comes to where it cannot move.
-/

namespace Transition.System

universe u v

variable {σ : Type u} {ε : Type v}

structure Path (S : System σ ε) where
  state : Nat → σ
  event : Nat → ε
  start : S.Initial (state 0)
  step : ∀ n, S.next (state n) (event n) = some (state (n + 1))

def Enabled (S : System σ ε) (mine : ε → Prop) (s : σ) : Prop :=
  ∃ e, mine e ∧ S.next s e ≠ none

namespace Path

variable {S : System σ ε} (p : S.Path)

theorem reachableBy {ok : σ → ε → Prop} (h : ∀ n, ok (p.state n) (p.event n)) (n : Nat) :
    S.ReachableBy ok (p.state n) := by
  induction n with
  | zero => exact .init p.start
  | succ n ih => exact .step ih (h n) (p.step n)

theorem reachable (n : Nat) : S.Reachable (p.state n) := p.reachableBy (fun _ => trivial) n

theorem enabled {mine : ε → Prop} {n : Nat} (moves : mine (p.event n)) :
    S.Enabled mine (p.state n) :=
  ⟨p.event n, moves, by simp [p.step n]⟩

/-- The party with these events moves again and again if it can move again and again. -/
def Fair (mine : ε → Prop) : Prop :=
  (∀ n, ∃ m ≥ n, S.Enabled mine (p.state m)) → ∀ n, ∃ m ≥ n, mine (p.event m)

variable {p} {mine : ε → Prop} {w : σ → Nat} {n : Nat}

theorem Fair.moves (fair : p.Fair mine) (able : ∀ m ≥ n, S.Enabled mine (p.state m)) :
    ∃ m ≥ n, mine (p.event m) :=
  fair (fun k => ⟨max k n, le_max_left k n, able _ (le_max_right k n)⟩) n

theorem rank_le (kept : ∀ m ≥ n, w (p.state (m + 1)) ≤ w (p.state m)) {m : Nat}
    (le : n ≤ m) : w (p.state m) ≤ w (p.state n) := by
  induction m, le using Nat.le_induction with
  | base => exact le_rfl
  | succ m le ih => exact (kept m le).trans ih

theorem quiet (kept : ∀ m ≥ n, w (p.state (m + 1)) ≤ w (p.state m))
    (lowered : ∀ m ≥ n, mine (p.event m) → w (p.state (m + 1)) < w (p.state m)) :
    ∃ k ≥ n, ∀ m ≥ k, ¬ mine (p.event m) := by
  induction at_ : w (p.state n) using Nat.strong_induction_on generalizing n with
  | _ x ih =>
    by_cases more : ∃ m ≥ n, mine (p.event m)
    · obtain ⟨m, le, moves⟩ := more
      have lower : w (p.state (m + 1)) < x :=
        at_ ▸ (lowered m le moves).trans_le (rank_le kept le)
      have later : ∀ k ≥ m + 1, k ≥ n := fun k h => le.trans ((Nat.le_succ m).trans h)
      obtain ⟨k, h, never⟩ := ih _ lower (fun k h => kept k (later k h))
        (fun k h => lowered k (later k h)) rfl
      exact ⟨k, later k h, never⟩
    · push Not at more
      exact ⟨n, le_rfl, more⟩

/-- A fair party whose moves each lower a rank comes to where it cannot move. -/
theorem Fair.stuck (fair : p.Fair mine)
    (kept : ∀ m ≥ n, w (p.state (m + 1)) ≤ w (p.state m))
    (lowered : ∀ m ≥ n, mine (p.event m) → w (p.state (m + 1)) < w (p.state m)) :
    ∃ k ≥ n, ∀ m ≥ k, ¬ S.Enabled mine (p.state m) := by
  obtain ⟨k, le, never⟩ := quiet kept lowered
  by_contra able
  push Not at able
  have again : ∀ i, ∃ m ≥ i, S.Enabled mine (p.state m) := by
    intro i
    obtain ⟨m, h, enabled⟩ := able (max i n) (le_max_right i n)
    exact ⟨m, (le_max_left i n).trans h, enabled⟩
  obtain ⟨m, h, moves⟩ := fair again k
  exact never m h moves

theorem fair_of_stuck (stuck : ∀ m ≥ n, ¬ S.Enabled mine (p.state m)) : p.Fair mine := by
  intro again
  obtain ⟨m, h, enabled⟩ := again n
  exact absurd enabled (stuck m h)

end Path

theorem ReachableBy.exists_path {S : System σ ε} {ok : σ → ε → Prop} {s : σ}
    (h : S.ReachableBy ok s) (state : Nat → σ) (event : Nat → ε) (start : state 0 = s)
    (goes : ∀ n, ok (state n) (event n) ∧ S.next (state n) (event n) = some (state (n + 1))) :
    ∃ (p : S.Path) (k : Nat), (∀ m, ok (p.state m) (p.event m)) ∧
      ∀ m, p.state (k + m) = state m ∧ p.event (k + m) = event m := by
  induction h generalizing state event with
  | init initial =>
    refine ⟨⟨state, event, start ▸ initial, fun n => (goes n).2⟩, 0, fun m => (goes m).1, ?_⟩
    intro m
    simp
  | @step s t e _ fine next ih =>
    have longer : ∀ n, ok (Nat.rec s (fun m _ => state m) n) (Nat.rec e (fun m _ => event m) n) ∧
        S.next (Nat.rec s (fun m _ => state m) n) (Nat.rec e (fun m _ => event m) n) =
          some (state n) := by
      intro n
      cases n with
      | zero => exact ⟨fine, start ▸ next⟩
      | succ n => exact goes n
    obtain ⟨p, k, all, tail⟩ := ih _ _ rfl longer
    refine ⟨p, k + 1, all, fun m => ?_⟩
    rw [Nat.add_assoc, Nat.add_comm 1 m]
    exact tail (m + 1)

end Transition.System
