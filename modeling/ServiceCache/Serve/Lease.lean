import ServiceCache.Transition
import Mathlib.Logic.Function.Basic

/-!
# The lease on an instance

`renew_instance`, the sweep's `remove_expired` and `delete_instance` on one registry entry, for any
number of renewals. A renewal looks the entry up under the registry's lock and restarts the lease
under the entry's; a sweep holds the first and compares the expiry with a time it read before.
-/

namespace ServiceCache.Serve.Lease

open Transition (System)

/-- Where a renewal stands. From `testing` to the end it holds the entry. -/
inductive RenewStage
  | idle
  | looking
  | testing
  | restarting
  | describing
  deriving DecidableEq, Repr

structure Renewal where
  stage : RenewStage := .idle
  ttl : Option Nat := none
  deriving DecidableEq, Repr

/-- Where the sweep stands. It holds the registry's lock while `testing` and `removing`, with the time
it read first. -/
inductive Sweep
  | idle
  | timed (now : Nat)
  | testing (now : Nat)
  | removing (now : Nat)
  | dropping
  deriving DecidableEq, Repr

/-- One instance. `grants` are the expiries that renewals answered with, `swept` and `stopped` say when
the sweep took the entry and when the last holder dropped it; these are history. -/
structure State where
  renewals : Nat
  now : Nat
  ttl : Nat
  expiresAt : Nat
  held : Bool := true
  running : Bool := true
  sweep : Sweep := .idle
  renewal : Nat → Renewal := fun _ => {}
  grants : List Nat := []
  swept : Option Nat := none
  stopped : Option Nat := none

def State.locked (s : State) : Bool :=
  match s.sweep with
  | .testing _ | .removing _ => true
  | _ => false

def State.set (s : State) (r : Nat) (q : Renewal) : State :=
  { s with renewal := Function.update s.renewal r q }

def State.renew (s : State) (ttl : Option Nat) : State :=
  { s with ttl := ttl.getD s.ttl, expiresAt := s.now + ttl.getD s.ttl }

def State.renewStep (s : State) (r : Nat) : Option State :=
  let q := s.renewal r
  match q.stage with
  | .idle => none
  | .looking =>
    if s.locked then none
    else some (s.set r { q with stage := if s.held then .testing else .idle })
  | .testing => some (s.set r { q with stage := if s.running then .restarting else .idle })
  | .restarting => some ((s.renew q.ttl).set r { q with stage := .describing })
  | .describing => some { s.set r { q with stage := .idle } with grants := s.expiresAt :: s.grants }

def State.sweepStep (s : State) : Option State :=
  match s.sweep with
  | .idle => some { s with sweep := .timed s.now }
  | .timed now => some { s with sweep := if s.held then .testing now else .idle }
  | .testing now => some { s with sweep := if s.expiresAt ≤ now then .removing now else .idle }
  | .removing _ => some { s with sweep := .dropping, held := false, swept := some s.now }
  | .dropping => some { s with sweep := .idle }

def State.Referenced (s : State) : Prop :=
  s.held = true ∨ s.sweep = .dropping ∨
    ∃ r < s.renewals, (s.renewal r).stage ≠ .idle ∧ (s.renewal r).stage ≠ .looking

instance (s : State) : Decidable s.Referenced :=
  inferInstanceAs (Decidable (_ ∨ _ ∨ ∃ r < s.renewals, _))

inductive Event
  | tick (d : Nat)
  | ask (r : Nat) (ttl : Option Nat)
  | renewal (r : Nat)
  | sweep
  | delete
  | exit
  | stop
  deriving DecidableEq, Repr

def State.step (s : State) : Event → Option State
  | .tick d => some { s with now := s.now + d }
  | .ask r ttl =>
    if (s.renewal r).stage = .idle then some (s.set r { stage := .looking, ttl }) else none
  | .renewal r => if r < s.renewals then s.renewStep r else none
  | .sweep => s.sweepStep
  | .delete => if s.locked then none else some { s with held := false }
  | .exit => some { s with running := false }
  | .stop => if s.stopped = none ∧ ¬ s.Referenced then some { s with stopped := some s.now } else none

def leaseSystem : System State Event where
  Initial s := ∃ renewals now ttl, s = { renewals, now, ttl, expiresAt := now + ttl }
  next := State.step

def Sweep.time : Sweep → Option Nat
  | .timed now | .testing now | .removing now => some now
  | _ => none

def Sweep.removes : Sweep → Bool
  | .removing _ => true
  | _ => false

def State.doomed (s : State) : Bool := s.swept.isSome || s.sweep.removes

/-- The condition on a run: a lease is restarted before the sweep has found the entry expired, and not
so that it ends before an expiry already answered. -/
def InTime (s : State) : Event → Prop
  | .renewal r => (s.renewal r).stage = .restarting →
      s.doomed = false ∧ ∀ e ∈ s.grants, e ≤ s.now + (s.renewal r).ttl.getD s.ttl
  | _ => True

instance (s : State) : (e : Event) → Decidable (InTime s e)
  | .renewal _ => inferInstanceAs (Decidable (_ → _ ∧ ∀ e ∈ s.grants, _))
  | .tick _ | .ask _ _ | .sweep | .delete | .exit | .stop => inferInstanceAs (Decidable True)

structure Granted (s : State) : Prop where
  grants : ∀ e ∈ s.grants, e ≤ s.expiresAt
  time : ∀ t, s.sweep.time = some t → t ≤ s.now
  removing : s.sweep.removes = true → ∀ t, s.sweep.time = some t → s.expiresAt ≤ t
  locked : s.locked = true → s.held = true
  swept : ∀ t, s.swept = some t → s.expiresAt ≤ t ∧ t ≤ s.now
  stopped : ∀ t, s.stopped = some t → s.held = false ∧ ∀ u, s.swept = some u → u ≤ t

section Steps

variable {s s' : State}

theorem Granted.renewal (h : Granted s) {r : Nat} (inTime : InTime s (.renewal r))
    (hn : s.renewStep r = some s') : Granted s' := by
  unfold State.renewStep at hn
  dsimp only at hn
  split at hn
  · cases hn
  · split at hn
    · cases hn
    · cases hn
      exact ⟨h.grants, h.time, h.removing, h.locked, h.swept, h.stopped⟩
  · cases hn
    exact ⟨h.grants, h.time, h.removing, h.locked, h.swept, h.stopped⟩
  next at_ =>
    cases hn
    obtain ⟨spared, later⟩ := inTime at_
    obtain ⟨unswept, unmarked⟩ : s.swept = none ∧ s.sweep.removes = false := by
      simpa [State.doomed] using spared
    refine ⟨later, h.time, fun removes => ?_, h.locked, fun t swept => ?_, h.stopped⟩
    · exact absurd (unmarked.symm.trans removes) (by simp)
    · exact absurd (unswept.symm.trans swept) (by simp)
  · cases hn
    refine ⟨fun e mem => ?_, h.time, h.removing, h.locked, h.swept, h.stopped⟩
    obtain rfl | mem := List.mem_cons.mp mem
    · exact Nat.le_refl _
    · exact h.grants e mem

theorem Granted.sweeps (h : Granted s) (hn : s.sweepStep = some s') : Granted s' := by
  unfold State.sweepStep at hn
  split at hn <;> cases hn
  · refine ⟨h.grants, fun t is => ?_, by simp [Sweep.removes], by simp [State.locked], h.swept,
      h.stopped⟩
    exact Nat.le_of_eq (Option.some.inj is).symm
  next now timed =>
    have time := h.time now (by rw [timed]; rfl)
    by_cases held : s.held = true
    · simp only [if_pos held]
      refine ⟨h.grants, fun t is => ?_, by simp [Sweep.removes], fun _ => held, h.swept, h.stopped⟩
      cases is
      exact time
    · simp only [if_neg held]
      exact ⟨h.grants, by simp [Sweep.time], by simp [Sweep.removes], by simp [State.locked],
        h.swept, h.stopped⟩
  next now testing =>
    have time := h.time now (by rw [testing]; rfl)
    have held : s.held = true := h.locked (by simp [State.locked, testing])
    by_cases expired : s.expiresAt ≤ now
    · simp only [if_pos expired]
      refine ⟨h.grants, fun t is => ?_, fun _ t is => ?_, fun _ => held, h.swept, h.stopped⟩
      · cases is
        exact time
      · cases is
        exact expired
    · simp only [if_neg expired]
      exact ⟨h.grants, by simp [Sweep.time], by simp [Sweep.removes], by simp [State.locked],
        h.swept, h.stopped⟩
  next now removing =>
    have expired := h.removing (by rw [removing]; rfl) now (by rw [removing]; rfl)
    have time := h.time now (by rw [removing]; rfl)
    have held : s.held = true := h.locked (by simp [State.locked, removing])
    refine ⟨h.grants, by simp [Sweep.time], by simp [Sweep.removes], by simp [State.locked],
      fun t is => ?_, fun t is => ?_⟩
    · cases is
      exact ⟨Nat.le_trans expired time, Nat.le_refl _⟩
    · exact absurd (h.stopped t is).1 (by simp [held])
  · exact ⟨h.grants, by simp [Sweep.time], by simp [Sweep.removes], by simp [State.locked], h.swept,
      h.stopped⟩

end Steps

theorem granted_reachable {s : State} (h : leaseSystem.ReachableBy InTime s) : Granted s := by
  refine h.invariant ?_ (fun s e s' _ granted inTime hn => ?_)
  · rintro _ ⟨renewals, now, ttl, rfl⟩
    exact ⟨by simp, by simp [Sweep.time], by simp [Sweep.removes], by simp [State.locked], by simp,
      by simp⟩
  cases e with
  | tick d =>
    cases hn
    refine ⟨granted.grants, fun t is => ?_, granted.removing, granted.locked, fun t is => ?_,
      granted.stopped⟩
    · exact Nat.le_add_right_of_le (granted.time t is)
    · exact (granted.swept t is).imp_right Nat.le_add_right_of_le
  | ask r ttl =>
    simp only [leaseSystem, State.step] at hn
    split at hn <;> cases hn
    exact ⟨granted.grants, granted.time, granted.removing, granted.locked, granted.swept,
      granted.stopped⟩
  | renewal r =>
    simp only [leaseSystem, State.step] at hn
    split at hn
    · exact granted.renewal inTime hn
    · cases hn
  | sweep => exact granted.sweeps hn
  | delete =>
    simp only [leaseSystem, State.step] at hn
    split at hn <;> cases hn
    next unlocked =>
      refine ⟨granted.grants, granted.time, granted.removing, fun locked => ?_, granted.swept,
        fun t is => ⟨rfl, (granted.stopped t is).2⟩⟩
      exact absurd locked unlocked
  | exit =>
    cases hn
    exact ⟨granted.grants, granted.time, granted.removing, granted.locked, granted.swept,
      granted.stopped⟩
  | stop =>
    simp only [leaseSystem, State.step] at hn
    split at hn <;> cases hn
    next unreferenced =>
      refine ⟨granted.grants, granted.time, granted.removing, granted.locked, granted.swept,
        fun t is => ?_⟩
      cases is
      refine ⟨?_, fun u swept => (granted.swept u swept).2⟩
      by_contra held
      exact unreferenced.2 (.inl (by simpa using held))

/-- In a run whose renewals are in time, the sweep takes the instance no earlier than any expiry that a
renewal answered with, and an instance it took is not stopped earlier either. -/
theorem granted_lease_kept {s : State} (h : leaseSystem.ReachableBy InTime s) :
    ∀ e ∈ s.grants, ∀ t, s.swept = some t → e ≤ t ∧ ∀ u, s.stopped = some u → e ≤ u := by
  have granted := granted_reachable h
  intro e mem t swept
  have reached := Nat.le_trans (granted.grants e mem) (granted.swept t swept).1
  exact ⟨reached, fun u stopped => Nat.le_trans reached ((granted.stopped u stopped).2 t swept)⟩

/-- A lease of ten that is renewed at nine is swept at nineteen. -/
theorem granted_lease_kept_renewed : ∃ s : State, s.grants = [19] ∧ s.swept = some 19 ∧
    ∀ e ∈ s.grants, e ≤ 19 := by
  obtain ⟨s, reach, granted, swept⟩ : ∃ s, leaseSystem.ReachableBy InTime s ∧ s.grants = [19] ∧
      s.swept = some 19 :=
    System.exists_reachableBy_of_runBy (s := { renewals := 1, now := 0, ttl := 10, expiresAt := 10 })
      (l := [.tick 9, .ask 0 none, .renewal 0, .renewal 0, .renewal 0, .renewal 0, .tick 10, .sweep,
        .sweep, .sweep, .sweep])
      (.init ⟨_, _, _, rfl⟩) (by decide +kernel)
  exact ⟨s, granted, swept, fun e mem => (granted_lease_kept reach e mem 19 swept).1⟩

/-- A renewal that has looked the instance up answers with an expiry of twenty after the sweep took the
instance at ten; and one that restarts the lease behind the sweep's test does too. -/
theorem swept_lease_granted :
    (∃ s, leaseSystem.Reachable s ∧ s.swept = some 10 ∧ s.grants = [20]) ∧
    ∃ s, leaseSystem.Reachable s ∧ s.swept = some 10 ∧ s.grants = [20] ∧ s.stopped = some 10 := by
  refine ⟨?_, ?_⟩
  · exact System.exists_reachable_of_run (s := { renewals := 1, now := 0, ttl := 10, expiresAt := 10 })
      (l := [.tick 10, .ask 0 none, .renewal 0, .sweep, .sweep, .sweep, .sweep, .renewal 0,
        .renewal 0, .renewal 0])
      (.init ⟨_, _, _, rfl⟩) (by decide +kernel)
  · exact System.exists_reachable_of_run (s := { renewals := 1, now := 0, ttl := 10, expiresAt := 10 })
      (l := [.tick 10, .ask 0 none, .renewal 0, .sweep, .sweep, .sweep, .renewal 0, .renewal 0,
        .renewal 0, .sweep, .sweep, .stop])
      (.init ⟨_, _, _, rfl⟩) (by decide +kernel)

end ServiceCache.Serve.Lease
