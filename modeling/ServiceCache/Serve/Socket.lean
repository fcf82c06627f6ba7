import ServiceCache.Transition
import Mathlib.Logic.Function.Basic

/-!
# Managers on one socket path

`run`, `claim_socket` and `serve_on`, for any number of managers. Each access to the path is a
step. Connecting succeeds when the path names a socket that some manager listens on, and binding
fails when the path exists.
-/

namespace ServiceCache.Serve.Socket

open Transition (System)

inductive Stage
  | testing
  | connecting
  | unlinking
  | binding
  | serving
  /-- `serve_on` is over, or has stopped listening; `run` is still to remove the path. -/
  | leaving
  | gone
  deriving DecidableEq, Repr

/-- What the path names: a file that a crashed manager left behind, or a manager's socket. -/
inductive File
  | stale
  | socket (m : Nat)
  deriving DecidableEq, Repr

structure State where
  managers : Nat
  path : Option File
  stage : Nat → Stage := fun _ => .testing

def State.set (s : State) (m : Nat) (stage : Stage) : State :=
  { s with stage := Function.update s.stage m stage }

def State.answers (s : State) : Bool :=
  match s.path with
  | some (.socket m) => s.stage m = .serving
  | _ => false

inductive Action
  | test
  | connect
  | unlink
  | bind
  | shutDown
  | remove
  | fail
  | crash
  deriving DecidableEq, Repr

def State.step (s : State) (m : Nat) (a : Action) : Option State :=
  match s.stage m, a with
  | .testing, .test => some (s.set m (if s.path.isSome then .connecting else .binding))
  | .connecting, .connect => some (s.set m (if s.answers then .gone else .unlinking))
  -- without a file the removal is an error
  | .unlinking, .unlink =>
    match s.path with
    | some _ => some { s.set m .binding with path := none }
    | none => some (s.set m .gone)
  | .binding, .fail => some (s.set m .gone)
  | .binding, .bind =>
    match s.path with
    | some _ => some (s.set m .leaving)
    | none => some { s.set m .serving with path := some (.socket m) }
  | .serving, .shutDown => some (s.set m .leaving)
  | .leaving, .remove => some { s.set m .gone with path := none }
  | _, .crash => some (s.set m .gone)
  | _, _ => none

def socketSystem : System State (Nat × Action) where
  Initial s := ∃ managers path, (path = none ∨ path = some .stale) ∧ s = { managers, path }
  next s e := if e.1 < s.managers then s.step e.1 e.2 else none

def State.Kept (s : State) : Prop :=
  ∀ m < s.managers, s.stage m = .serving → s.path = some (.socket m)

/-- Behind the test of the claim, or behind the end of `serve_on`: the manager may still remove what
the path names. -/
def Stage.pending : Stage → Bool
  | .unlinking | .binding | .leaving => true
  | _ => false

/-- The condition on a run: a manager binds while no other is on its way to a removal. -/
def Alone (s : State) (e : Nat × Action) : Prop :=
  e.2 = .bind → ∀ j < s.managers, j ≠ e.1 → (s.stage j).pending = false

instance (s : State) : Decidable s.Kept := inferInstanceAs (Decidable (∀ m < s.managers, _ → _))

instance (s : State) (e : Nat × Action) : Decidable (Alone s e) :=
  inferInstanceAs (Decidable (_ → ∀ j < s.managers, _ → _))

structure Held (s : State) : Prop where
  kept : s.Kept
  spared : ∀ m < s.managers, s.stage m = .serving → ∀ j < s.managers, j ≠ m →
    (s.stage j).pending = false

section Steps

variable {s : State} {i : Nat}

theorem set_stage (s : State) (i j : Nat) (x : Stage) :
    (s.set i x).stage j = if j = i then x else s.stage j := Function.update_apply ..

theorem Held.nobody (h : Held s) (lt : i < s.managers) (pending : (s.stage i).pending = true) {m : Nat}
    (bound : m < s.managers) : s.stage m ≠ .serving := by
  intro serving
  by_cases same : i = m
  · rw [same, serving] at pending
    cases pending
  · rw [h.spared m bound serving i lt same] at pending
    cases pending

theorem State.Kept.unique (h : s.Kept) {m j : Nat} (bound : m < s.managers) (lt : j < s.managers)
    (serving : s.stage m = .serving) (too : s.stage j = .serving) : m = j := by
  have same := (h m bound serving).symm.trans (h j lt too)
  simpa using same

theorem Held.move (h : Held s) {x : Stage} (serving : x ≠ .serving)
    (spares : x.pending = true → ∀ m < s.managers, s.stage m = .serving → m = i) :
    Held (s.set i x) where
  kept m bound at_ := by
    rw [set_stage] at at_
    split at at_
    · exact absurd at_ serving
    · exact h.kept m bound at_
  spared m bound at_ j lt other := by
    rw [set_stage] at at_ ⊢
    split at at_
    · exact absurd at_ serving
    next apart =>
      split
      · cases pending : x.pending with
        | false => rfl
        | true => exact absurd (spares pending m bound at_) apart
      · exact h.spared m bound at_ j lt other

theorem Held.vacant (none : ∀ m < s.managers, s.stage m ≠ .serving) : Held s :=
  ⟨fun m bound at_ => absurd at_ (none m bound), fun m bound at_ => absurd at_ (none m bound)⟩

theorem set_serving_ne {x : Stage} (serving : x ≠ .serving)
    (none : ∀ m < s.managers, s.stage m ≠ .serving) :
    ∀ m < s.managers, (s.set i x).stage m ≠ .serving := by
  intro m bound
  rw [set_stage]
  split
  · exact serving
  · exact none m bound

theorem Held.bind (free : s.path = none) (h : Held s)
    (alone : ∀ j < s.managers, j ≠ i → (s.stage j).pending = false) :
    Held { s.set i .serving with path := some (.socket i) } := by
  -- a manager that serves already would have the path
  have sole (m : Nat) (bound : m < s.managers) (at_ : (s.set i .serving).stage m = .serving) :
      m = i := by
    rw [set_stage] at at_
    split at at_
    next same => exact same
    · have kept := h.kept m bound at_
      rw [free] at kept
      cases kept
  refine ⟨fun m bound at_ => ?_, fun m bound at_ j below other => ?_⟩
  · rw [sole m bound at_]
  · rw [sole m bound at_] at other
    change ((s.set i .serving).stage j).pending = false
    rw [set_stage, if_neg other]
    exact alone j below other

end Steps

theorem held_reachable {s : State} (h : socketSystem.ReachableBy Alone s) : Held s := by
  refine h.invariant ?_ (fun s e s' _ held alone hn => ?_)
  · rintro _ ⟨managers, path, -, rfl⟩
    exact Held.vacant (by simp)
  obtain ⟨i, a⟩ := e
  simp only [socketSystem] at hn
  split at hn
  next lt =>
    unfold State.step at hn
    split at hn
    · -- the test: a served path exists
      next at_ =>
        cases hn
        refine held.move (by split <;> simp) (fun pending m bound serving => ?_)
        rw [held.kept m bound serving] at pending
        cases pending
    · -- a served path answers
      next at_ =>
        cases hn
        refine held.move (by split <;> simp) (fun pending m bound serving => ?_)
        simp [State.answers, held.kept m bound serving, serving, Stage.pending] at pending
    next at_ =>
      have none := fun m => held.nobody (m := m) lt (by rw [at_]; rfl)
      split at hn <;> cases hn
      · exact Held.vacant (set_serving_ne (by simp) none)
      · exact Held.vacant (set_serving_ne (by simp) none)
    · cases hn
      exact held.move (by simp) (by simp [Stage.pending])
    next at_ =>
      split at hn
      · cases hn
        have none := fun m => held.nobody (m := m) lt (by rw [at_]; rfl)
        exact Held.vacant (set_serving_ne (by simp) none)
      next free => cases hn; exact Held.bind free held (alone rfl)
    next at_ =>
      cases hn
      exact held.move (by simp) (fun _ m bound serving => held.kept.unique bound lt serving at_)
    next at_ =>
      cases hn
      have none := fun m => held.nobody (m := m) lt (by rw [at_]; rfl)
      exact Held.vacant (set_serving_ne (by simp) none)
    · cases hn
      exact held.move (by simp) (by simp [Stage.pending])
    · cases hn
  · cases hn

/-- In a run where managers bind alone, a manager that has bound the path keeps it until it begins to
shut down, and it is the only one. -/
theorem serving_keeps_path {s : State} (h : socketSystem.ReachableBy Alone s) :
    s.Kept ∧ ∀ m j, m < s.managers → j < s.managers → s.stage m = .serving → s.stage j = .serving →
      m = j := by
  have kept := (held_reachable h).kept
  exact ⟨kept, fun m j bound lt serving too => kept.unique bound lt serving too⟩

/-- One manager after another, on a path that a crash left behind. -/
theorem serving_keeps_path_twice : ∃ s : State, s.stage 1 = .serving ∧ s.path = some (.socket 1) := by
  obtain ⟨s, reach, two, serving⟩ : ∃ s, socketSystem.ReachableBy Alone s ∧ 1 < s.managers ∧
      s.stage 1 = .serving :=
    System.exists_reachableBy_of_runBy (s := { managers := 2, path := some .stale })
      (l := [(0, .test), (0, .connect), (0, .unlink), (0, .bind), (0, .shutDown), (0, .remove),
        (1, .test), (1, .bind)])
      (.init ⟨_, _, .inr rfl, rfl⟩) (by decide +kernel)
  exact ⟨s, serving, (serving_keeps_path reach).1 1 two serving⟩

/-- The removal behind a failed bind, the removal of a file that is no longer stale, and the removal at
the end of a shutdown each take the path from a serving manager. -/
theorem served_path_removed :
    (∃ s, socketSystem.Reachable s ∧ s.stage 0 = .serving ∧ s.path = none) ∧
    (∃ s, socketSystem.Reachable s ∧ s.stage 0 = .serving ∧ s.stage 1 = .serving ∧
      s.path = some (.socket 1)) ∧
    ∃ s, socketSystem.Reachable s ∧ s.stage 1 = .serving ∧ s.path = none := by
  refine ⟨?_, ?_, ?_⟩
  · exact System.exists_reachable_of_run (s := { managers := 2, path := none })
      (l := [(0, .test), (1, .test), (0, .bind), (1, .bind), (1, .remove)])
      (.init ⟨_, _, .inl rfl, rfl⟩) (by decide +kernel)
  · exact System.exists_reachable_of_run (s := { managers := 2, path := some .stale })
      (l := [(0, .test), (0, .connect), (1, .test), (1, .connect), (0, .unlink), (0, .bind),
        (1, .unlink), (1, .bind)])
      (.init ⟨_, _, .inr rfl, rfl⟩) (by decide +kernel)
  · exact System.exists_reachable_of_run (s := { managers := 2, path := none })
      (l := [(0, .test), (0, .bind), (0, .shutDown), (1, .test), (1, .connect), (1, .unlink),
        (1, .bind), (0, .remove)])
      (.init ⟨_, _, .inl rfl, rfl⟩) (by decide +kernel)

end ServiceCache.Serve.Socket
