import Mathlib.Data.List.Basic

/-!
# A notifier that wakes one waiter

A notification completes the oldest registered future, or is stored as the permit, which the next
poll of a fresh future takes. A future that was notified and is dropped without being polled again
hands its notification on. Futures are named by their owners; each owner has one at a time.
-/

namespace Notify

/-- `notified` are the futures with a notification their owners have not seen. -/
structure Notifier where
  permit : Bool := false
  waiters : List Nat := []
  notified : List Nat := []
  deriving DecidableEq, Repr

namespace Notifier

variable (n : Notifier)

def notifyOne : Notifier × Option Nat :=
  match n.waiters with
  | [] => ({ n with permit := true }, none)
  | w :: rest => ({ n with waiters := rest, notified := w :: n.notified }, some w)

def poll (i : Nat) : Notifier × Bool :=
  if n.permit then ({ n with permit := false }, true)
  else ({ n with waiters := n.waiters ++ [i] }, false)

def drop (i : Nat) : Notifier × Option Nat :=
  if i ∈ n.notified then { n with notified := n.notified.erase i }.notifyOne
  else ({ n with waiters := n.waiters.erase i }, none)

def weight (sent stored : Nat) : Nat := sent * n.notified.length + stored * n.permit.toNat

variable {sent stored : Nat}

theorem weight_notifyOne (le : stored ≤ sent) :
    n.notifyOne.1.weight sent stored ≤ n.weight sent stored + sent := by
  unfold notifyOne
  split
  · have bound : n.permit.toNat ≤ 1 := Bool.toNat_le n.permit
    simp only [weight, Bool.toNat_true]
    omega
  · simp only [weight, List.length_cons, Nat.mul_add]
    omega

theorem weight_poll (i : Nat) :
    (n.poll i).1.weight sent stored + (if (n.poll i).2 then stored else 0) =
      n.weight sent stored := by
  unfold poll
  split
  next permit => simp [weight, permit]
  next permit => simp [weight, permit]

theorem mul_length_erase {l : List Nat} {i : Nat} (mem : i ∈ l) (c : Nat) :
    c * (l.erase i).length + c = c * l.length := by
  rw [List.length_erase_of_mem mem, ← Nat.mul_succ, Nat.succ_eq_add_one,
    Nat.sub_add_cancel (List.length_pos_of_mem mem)]

theorem weight_drop (le : stored ≤ sent) (i : Nat) :
    (n.drop i).1.weight sent stored ≤ n.weight sent stored := by
  unfold drop
  split
  next mem =>
    have handed := weight_notifyOne { n with notified := n.notified.erase i } le
    have less := mul_length_erase mem sent
    simp only [weight] at handed ⊢
    omega
  · exact Nat.le_refl _

theorem drop_alone (lt : stored < sent) {i : Nat} (mem : i ∈ n.notified)
    (alone : n.waiters = []) :
    (n.drop i).1.weight sent stored < n.weight sent stored ∧ (n.drop i).2 = none := by
  have less := mul_length_erase mem sent
  simp only [drop, if_pos mem, notifyOne, alone, weight, Bool.toNat_true, and_true]
  omega

theorem drop_unnotified {i : Nat} (none_ : i ∉ n.notified) :
    (n.drop i).1.weight sent stored = n.weight sent stored ∧ (n.drop i).2 = none := by
  rw [drop, if_neg none_]
  exact ⟨rfl, rfl⟩

end Notifier

end Notify
