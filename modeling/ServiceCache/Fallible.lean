import Mathlib.Data.List.Forall2

/-!
# Fallible code

What a computation that ended well says of its parts.
-/

namespace ServiceCache.Fallible

variable {ε α β : Type}

def ensure (condition : Prop) [Decidable condition] (error : ε) : Except ε Unit :=
  if condition then .ok () else .error error

theorem ensure_ok {condition : Prop} [Decidable condition] {error : ε} {u : Unit}
    (h : ensure condition error = .ok u) : condition := by
  unfold ensure at h
  split at h
  · assumption
  · cases h

theorem bind_ok {x : Except ε α} {f : α → Except ε β} {b : β} (h : x >>= f = .ok b) :
    ∃ a, x = .ok a ∧ f a = .ok b := by
  cases x with
  | error e => cases h
  | ok a => exact ⟨a, rfl, h⟩

theorem mapError_ok {ε' : Type} {x : Except ε α} {f : ε → ε'} {a : α}
    (h : x.mapError f = .ok a) : x = .ok a := by
  cases x with
  | error e => cases h
  | ok b => exact congrArg _ (Except.ok.inj h)

theorem mapM_ok {f : α → Except ε β} {l : List α} {r : List β} (h : l.mapM f = .ok r) :
    List.Forall₂ (fun a b => f a = .ok b) l r := by
  induction l generalizing r with
  | nil =>
    cases h
    exact .nil
  | cons a l ih =>
    rw [List.mapM_cons] at h
    obtain ⟨b, first, h⟩ := bind_ok h
    obtain ⟨rest, others, h⟩ := bind_ok h
    cases h
    exact .cons first (ih others)

theorem exists_of_mem {P : α → β → Prop} {l : List α} {r : List β}
    (h : List.Forall₂ P l r) {a : α} (mem : a ∈ l) : ∃ b ∈ r, P a b := by
  induction h with
  | nil => cases mem
  | @cons _ b _ _ first rest ih =>
    rcases List.mem_cons.mp mem with rfl | mem
    · exact ⟨b, List.mem_cons_self, first⟩
    · obtain ⟨b, there, holds⟩ := ih mem
      exact ⟨b, List.mem_cons_of_mem _ there, holds⟩

theorem optionMapM_ok {f : α → Except ε β} {o : Option α} {r : Option β}
    (h : o.mapM f = .ok r) :
    o = none ∧ r = none ∨ ∃ a b, o = some a ∧ r = some b ∧ f a = .ok b := by
  cases o with
  | none =>
    cases h
    exact .inl ⟨rfl, rfl⟩
  | some a =>
    obtain ⟨b, first, h⟩ := bind_ok (f := fun b => pure (some b)) h
    cases h
    exact .inr ⟨a, b, rfl, rfl, first⟩

end ServiceCache.Fallible
