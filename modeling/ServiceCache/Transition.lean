import Mathlib.Logic.Relation

/-!
# Labelled transition systems with an executable step function

A system has a set of starting states and a partial step function; an event that is not enabled
leads nowhere. The parameter of `ReachableBy` restricts the steps a run may take, so that a
property of all runs and one of the runs that keep a condition have one induction rule.
-/

namespace Transition

universe u v

/-- Starting states, and the state an event leads to. -/
structure System (σ : Type u) (ε : Type v) where
  Initial : σ → Prop
  next : σ → ε → Option σ

/-- A step behind a guard was taken, so the guard held. -/
theorem guarded {σ : Type u} {p : Prop} [Decidable p] {x : Option σ} {t : σ}
    (h : (if p then x else none) = some t) : p ∧ x = some t :=
  (Option.ite_none_right_eq_some ..).mp h

namespace System

variable {σ : Type u} {ε : Type v} (S : System σ ε)

/-- The states of the runs whose steps all meet `ok`. -/
inductive ReachableBy (ok : σ → ε → Prop) : σ → Prop
  | init {s : σ} : S.Initial s → ReachableBy ok s
  | step {s t : σ} {e : ε} : ReachableBy ok s → ok s e → S.next s e = some t → ReachableBy ok t

/-- The states of all runs. -/
def Reachable (s : σ) : Prop := S.ReachableBy (fun _ _ => True) s

variable {S}

/-- What holds at the start and is kept by every admitted step holds all along.
The step case may also use that the state before the step was reached. -/
theorem ReachableBy.invariant {ok : σ → ε → Prop} {P : σ → Prop}
    (start : ∀ s, S.Initial s → P s)
    (kept : ∀ s e t, S.ReachableBy ok s → P s → ok s e → S.next s e = some t → P t)
    {s : σ} (h : S.ReachableBy ok s) : P s := by
  induction h with
  | init hs => exact start _ hs
  | step hr hok hn ih => exact kept _ _ _ hr ih hok hn

theorem ReachableBy.weaken {ok ok' : σ → ε → Prop} (le : ∀ s e, ok s e → ok' s e)
    {s : σ} (h : S.ReachableBy ok s) : S.ReachableBy ok' s := by
  induction h with
  | init hs => exact .init hs
  | step _ hok hn ih => exact .step ih (le _ _ hok) hn

theorem ReachableBy.reachable {ok : σ → ε → Prop} {s : σ} (h : S.ReachableBy ok s) :
    S.Reachable s := h.weaken (fun _ _ _ => trivial)

/-- The states that `s` leads to by steps that all meet `ok`. -/
inductive Leads (S : System σ ε) (ok : σ → ε → Prop) (s : σ) : σ → Prop
  | refl : Leads S ok s s
  | step {t u : σ} {e : ε} : Leads S ok s t → ok t e → S.next t e = some u → Leads S ok s u

theorem ReachableBy.leads {ok : σ → ε → Prop} {s t : σ} (h : S.ReachableBy ok s)
    (l : S.Leads ok s t) : S.ReachableBy ok t := by
  induction l with
  | refl => exact h
  | step _ hok hn ih => exact .step ih hok hn

variable (S)

/-- Runs a list of events, as long as each is enabled and meets `ok`. -/
def runBy (ok : σ → ε → Prop) [∀ s e, Decidable (ok s e)] : σ → List ε → Option σ
  | s, [] => some s
  | s, e :: es => if ok s e then (S.next s e).bind (fun t => runBy ok t es) else none

def run : σ → List ε → Option σ
  | s, [] => some s
  | s, e :: es => (S.next s e).bind (fun t => run t es)

variable {S}

theorem reachableBy_of_runBy {ok : σ → ε → Prop} [∀ s e, Decidable (ok s e)]
    {s t : σ} {es : List ε} (hs : S.ReachableBy ok s) (h : S.runBy ok s es = some t) :
    S.ReachableBy ok t := by
  induction es generalizing s with
  | nil =>
    simp only [runBy, Option.some.injEq] at h
    exact h ▸ hs
  | cons e es ih =>
    simp only [runBy] at h
    obtain ⟨hok, h⟩ := Transition.guarded h
    obtain ⟨u, hu, hrest⟩ := Option.bind_eq_some_iff.mp h
    exact ih (.step hs hok hu) hrest

theorem run_append (s : σ) (es es' : List ε) :
    S.run s (es ++ es') = (S.run s es).bind fun t => S.run t es' := by
  induction es generalizing s with
  | nil => rfl
  | cons e es ih =>
    change (S.next s e).bind (fun t => S.run t (es ++ es')) =
      ((S.next s e).bind fun t => S.run t es).bind _
    cases S.next s e with
    | none => rfl
    | some t => exact ih t

theorem reachable_of_run {s t : σ} {es : List ε} (hs : S.Reachable s)
    (h : S.run s es = some t) : S.Reachable t := by
  induction es generalizing s with
  | nil =>
    simp only [run, Option.some.injEq] at h
    exact h ▸ hs
  | cons e es ih =>
    obtain ⟨u, hu, hrest⟩ := Option.bind_eq_some_iff.mp h
    exact ih (.step hs trivial hu) hrest

/-- A run that goes through and ends in `P` reaches a state with `P`; on concrete events
the hypothesis is evaluated. -/
theorem exists_reachableBy_of_runBy {ok : σ → ε → Prop} [∀ s e, Decidable (ok s e)]
    {P : σ → Prop} [DecidablePred P] {s : σ} {l : List ε} (hs : S.ReachableBy ok s)
    (h : (S.runBy ok s l).any (fun t => decide (P t)) = true) :
    ∃ t, S.ReachableBy ok t ∧ P t := by
  obtain ⟨t, ht, hP⟩ := (Option.any_eq_true _ _).mp h
  exact ⟨t, reachableBy_of_runBy hs ht, of_decide_eq_true hP⟩

theorem exists_reachable_of_run {P : σ → Prop} [DecidablePred P] {s : σ} {l : List ε}
    (hs : S.Reachable s) (h : (S.run s l).any (fun t => decide (P t)) = true) :
    ∃ t, S.Reachable t ∧ P t := by
  obtain ⟨t, ht, hP⟩ := (Option.any_eq_true _ _).mp h
  exact ⟨t, reachable_of_run hs ht, of_decide_eq_true hP⟩

theorem run_invariant {P : σ → Prop} (kept : ∀ s e t, P s → S.next s e = some t → P t)
    {s t : σ} {es : List ε} (hs : P s) (h : S.run s es = some t) : P t := by
  induction es generalizing s with
  | nil =>
    simp only [run, Option.some.injEq] at h
    exact h ▸ hs
  | cons e es ih =>
    obtain ⟨u, hu, hrest⟩ := Option.bind_eq_some_iff.mp h
    exact ih (kept _ _ _ hs hu) hrest

end System

end Transition
