import Mathlib.Data.List.Basic
import Mathlib.Logic.Function.Basic
import Mathlib.Tactic.Simps.Basic
import ServiceCache.Transition

/-!
# Whom a kill reaches

A host that the manager spawned stays a zombie until `wait_gone` waits for it; a clone is reaped by
its template's `tick` at any time behind its end, or by the system's first process once the
template has died. A pid is free again once its process is reaped.

A process that ends closes its descriptors first, so the end of its channel can be read while it
is still there, and also long after. The watcher then calls `kill`.
-/

namespace ServiceCache.Signals

open Function
open Transition (System guarded)

inductive Origin
  | spawned
  | forked (template : Nat)
  | foreign
  deriving DecidableEq, Repr

def Origin.isClone : Origin → Bool
  | .forked _ => true
  | .spawned | .foreign => false

inductive Stage
  | running
  | closed
  | zombie
  | reaped
  deriving DecidableEq, Repr

structure Process where
  pid : Nat := 0
  origin : Origin := .foreign
  stage : Stage := .reaped

inductive Handle
  | unmade
  | held
  | ended
  | waiting
  | gone
  deriving DecidableEq, Repr

def Handle.live : Handle → Bool
  | .held | .ended | .waiting => true
  | .unmade | .gone => false

structure State where
  processes : Nat := 0
  process : Nat → Process := fun _ => {}
  handle : Nat → Handle := fun _ => .unmade
  /-- For every signal, the process its `HostProcess` was made for and the one that had the
  pid. -/
  signals : List (Nat × Option Nat) := []

def State.owner (s : State) (pid : Nat) : Option Nat :=
  (List.range s.processes).find? fun p =>
    decide ((s.process p).stage ≠ .reaped ∧ (s.process p).pid = pid)

def State.setStage (s : State) (p : Nat) (stage : Stage) : State :=
  { s with process := update s.process p { s.process p with stage } }

def State.setHandle (s : State) (p : Nat) (handle : Handle) : State :=
  { s with handle := update s.handle p handle }

@[simps! processes signals]
def State.add (s : State) (pid : Nat) (origin : Origin) (handle : Handle) : State :=
  { s with
    processes := s.processes + 1
    process := update s.process s.processes ⟨pid, origin, .running⟩
    handle := update s.handle s.processes handle }

def State.deliver (s : State) : Option Nat → State
  | none => s
  | some q => if (s.process q).stage = .running then s.setStage q .closed else s

def State.record (s : State) (p : Nat) (target : Option Nat) : State :=
  { s with signals := (p, target) :: s.signals }

def State.kill (s : State) (p : Nat) : State :=
  ((s.deliver (s.owner (s.process p).pid)).setHandle p .waiting).record p
    (s.owner (s.process p).pid)

inductive Event
  | spawn (pid : Nat)
  | fork (template pid : Nat)
  /-- The manager reads the reply to a fork and makes the clone's `HostProcess`. -/
  | announce (p : Nat)
  | start (pid : Nat)
  | close (p : Nat)
  | exit (p : Nat)
  | tick (template p : Nat)
  /-- A process that is not the manager's, or whose template has died, is reaped. -/
  | reap (p : Nat)
  | read (p : Nat)
  | kill (p : Nat)
  | stop (p : Nat)
  | wait (p : Nat)
  | drop (p : Nat)
  deriving DecidableEq, Repr

def State.elsewhere (s : State) (p : Nat) : Bool :=
  match (s.process p).origin with
  | .spawned => false
  | .forked t => (s.process t).stage = .zombie ∨ (s.process t).stage = .reaped
  | .foreign => true

def State.step (s : State) : Event → Option State
  | .spawn pid => if s.owner pid = none then some (s.add pid .spawned .held) else none
  | .fork t pid =>
    if (s.process t).stage = .running ∧ (s.process t).origin ≠ .foreign ∧ s.owner pid = none then
      some (s.add pid (.forked t) .unmade)
    else none
  | .announce p =>
    if p < s.processes ∧ s.handle p = .unmade ∧ (s.process p).origin.isClone then
      some (s.setHandle p .held)
    else none
  | .start pid => if s.owner pid = none then some (s.add pid .foreign .unmade) else none
  | .close p =>
    if (s.process p).stage = .running then some (s.setStage p .closed) else none
  | .exit p => if (s.process p).stage = .closed then some (s.setStage p .zombie) else none
  | .tick t p =>
    if (s.process t).stage = .running ∧ (s.process p).origin = .forked t ∧
        (s.process p).stage = .zombie then
      some (s.setStage p .reaped)
    else none
  | .reap p =>
    if (s.process p).stage = .zombie ∧ s.elsewhere p then some (s.setStage p .reaped) else none
  | .read p =>
    if s.handle p = .held ∧ (s.process p).stage ≠ .running then some (s.setHandle p .ended)
    else none
  | .kill p => if s.handle p = .held ∨ s.handle p = .ended then some (s.kill p) else none
  | .stop p =>
    if s.handle p = .held ∨ s.handle p = .ended then some (s.setHandle p .waiting) else none
  | .wait p =>
    if s.handle p = .waiting then
      if (s.process p).origin = .spawned then
        -- `Child::wait` reaps the host.
        if (s.process p).stage = .zombie then some ((s.setHandle p .gone).setStage p .reaped)
        else none
      else if (s.process p).stage ≠ .running then some (s.setHandle p .gone)
      else none
    else none
  | .drop p => if s.handle p = .held then some (s.setHandle p .gone) else none

def signalSystem : System State Event where
  Initial s := s = {}
  next := State.step

def State.RightlySent (s : State) : Prop := ∀ x ∈ s.signals, x.2 = some x.1

instance (s : State) : Decidable s.RightlySent :=
  inferInstanceAs (Decidable (∀ x ∈ s.signals, x.2 = some x.1))

/-- The condition on a step: a clone is killed only while it runs, its channel open. -/
def Present (s : State) : Event → Prop
  | .kill p => (s.process p).origin = .spawned ∨ (s.process p).stage = .running
  | _ => True

instance (s : State) : DecidablePred (Present s)
  | .kill p =>
    inferInstanceAs (Decidable ((s.process p).origin = .spawned ∨ (s.process p).stage = .running))
  | .spawn _ | .fork _ _ | .announce _ | .start _ | .close _ | .exit _ | .tick _ _ | .reap _
  | .read _ | .stop _ | .wait _ | .drop _ => .isTrue trivial

structure Kept (s : State) : Prop where
  fresh : ∀ p, s.processes ≤ p → (s.process p).stage = .reaped ∧ s.handle p = .unmade
  unique : ∀ p q, (s.process p).stage ≠ .reaped → (s.process q).stage ≠ .reaped →
    (s.process p).pid = (s.process q).pid → p = q
  spawned : ∀ p, (s.process p).origin = .spawned → (s.handle p).live = true →
    (s.process p).stage ≠ .reaped
  sent : s.RightlySent

section Owner

variable {s : State} {p q pid : Nat}

theorem State.owner_spec (h : s.owner pid = some p) :
    (s.process p).stage ≠ .reaped ∧ (s.process p).pid = pid := by
  have found := List.find?_some h
  exact of_decide_eq_true found

theorem State.owner_none (fresh : ∀ p, s.processes ≤ p → (s.process p).stage = .reaped)
    (h : s.owner pid = none) (present : (s.process p).stage ≠ .reaped) :
    (s.process p).pid ≠ pid := by
  intro same
  have known : p < s.processes := by
    by_contra beyond
    exact present (fresh p (Nat.le_of_not_lt beyond))
  have missed := List.find?_eq_none.mp h p (List.mem_range.mpr known)
  exact missed (decide_eq_true ⟨present, same⟩)

theorem Kept.owner_pid (h : Kept s) (present : (s.process p).stage ≠ .reaped) :
    s.owner (s.process p).pid = some p := by
  cases found : s.owner (s.process p).pid with
  | none => exact absurd rfl (State.owner_none (fun p le => (h.fresh p le).1) found present)
  | some q =>
    obtain ⟨alive, same⟩ := State.owner_spec found
    rw [h.unique q p alive present same]

end Owner

section Steps

variable {s t : State} {p q pid : Nat}

theorem kept_initial : Kept {} where
  fresh _ _ := ⟨rfl, rfl⟩
  unique _ _ present := absurd rfl present
  spawned _ _ live := absurd live (by simp [Handle.live])
  sent := by simp [State.RightlySent]

theorem Kept.known (h : Kept s) (present : (s.process p).stage ≠ .reaped) : p < s.processes := by
  by_contra beyond
  exact present (h.fresh p (Nat.le_of_not_lt beyond)).1

theorem State.setStage_process (s : State) (p q : Nat) (stage : Stage) :
    (s.setStage p stage).process q =
      if q = p then { s.process p with stage } else s.process q :=
  update_apply ..

theorem State.setStage_pid (s : State) (p q : Nat) (stage : Stage) :
    ((s.setStage p stage).process q).pid = (s.process q).pid := by
  rw [State.setStage_process]
  split
  next same => rw [same]
  · rfl

theorem State.setStage_origin (s : State) (p q : Nat) (stage : Stage) :
    ((s.setStage p stage).process q).origin = (s.process q).origin := by
  rw [State.setStage_process]
  split
  next same => rw [same]
  · rfl

theorem Kept.setStage (h : Kept s) {stage : Stage} (present : (s.process p).stage ≠ .reaped)
    (waited : (s.process p).origin = .spawned → (s.handle p).live = true → stage ≠ .reaped) :
    Kept (s.setStage p stage) := by
  have before : ∀ q, ((s.setStage p stage).process q).stage ≠ .reaped →
      (s.process q).stage ≠ .reaped := by
    intro q after
    rw [State.setStage_process] at after
    split at after
    next same => rwa [same]
    · exact after
  constructor
  · intro q beyond
    have other : q ≠ p := Nat.ne_of_gt (Nat.lt_of_lt_of_le (h.known present) beyond)
    rw [State.setStage_process, if_neg other]
    exact h.fresh q beyond
  · intro q r alive alive' same
    rw [State.setStage_pid, State.setStage_pid] at same
    exact h.unique q r (before q alive) (before r alive') same
  · intro q spawned live
    rw [State.setStage_origin] at spawned
    rw [State.setStage_process]
    split
    next same =>
      subst same
      exact waited spawned live
    · exact h.spawned q spawned live
  · exact h.sent

theorem Kept.setHandle (h : Kept s) {handle : Handle} (known : p < s.processes)
    (kept : (s.process p).origin = .spawned → handle.live = true →
      (s.process p).stage ≠ .reaped) : Kept (s.setHandle p handle) := by
  constructor
  · intro q beyond
    have other : q ≠ p := Nat.ne_of_gt (Nat.lt_of_lt_of_le known beyond)
    refine ⟨(h.fresh q beyond).1, ?_⟩
    show update s.handle p handle q = .unmade
    rw [update_of_ne other]
    exact (h.fresh q beyond).2
  · exact h.unique
  · intro q spawned live
    change (update s.handle p handle q).live = true at live
    rw [update_apply] at live
    split at live
    next same =>
      subst same
      exact kept spawned live
    · exact h.spawned q spawned live
  · exact h.sent

theorem State.add_process (s : State) (pid : Nat) (origin : Origin) (handle : Handle) (q : Nat) :
    (s.add pid origin handle).process q =
      if q = s.processes then ⟨pid, origin, .running⟩ else s.process q :=
  update_apply ..

theorem State.add_handle (s : State) (pid : Nat) (origin : Origin) (handle : Handle) (q : Nat) :
    (s.add pid origin handle).handle q = if q = s.processes then handle else s.handle q :=
  update_apply ..

theorem Kept.add (h : Kept s) {origin : Origin} {handle : Handle} (free : s.owner pid = none) :
    Kept (s.add pid origin handle) := by
  have unowned : ∀ q, (s.process q).stage ≠ .reaped → (s.process q).pid ≠ pid := fun q =>
    State.owner_none (fun p le => (h.fresh p le).1) free
  constructor
  · intro q beyond
    rw [State.add_processes] at beyond
    have other : q ≠ s.processes := Nat.ne_of_gt beyond
    rw [State.add_process, State.add_handle, if_neg other, if_neg other]
    exact h.fresh q (Nat.le_of_lt beyond)
  · intro q r alive alive' same
    rw [State.add_process] at alive same
    rw [State.add_process] at alive' same
    split at alive <;> split at alive'
    next here here' => rw [here, here']
    next here other =>
      rw [if_pos here, if_neg other] at same
      exact absurd same.symm (unowned r alive')
    next other here =>
      rw [if_neg other, if_pos here] at same
      exact absurd same (unowned q alive)
    next other other' =>
      rw [if_neg other, if_neg other'] at same
      exact h.unique q r alive alive' same
  · intro q spawned live
    rw [State.add_process] at spawned ⊢
    rw [State.add_handle] at live
    split
    · simp
    next other =>
      rw [if_neg other] at spawned live
      exact h.spawned q spawned live
  · exact h.sent

theorem Kept.deliver (h : Kept s) (target : Option Nat) : Kept (s.deliver target) := by
  cases target with
  | none => exact h
  | some q =>
    show Kept (if (s.process q).stage = .running then s.setStage q .closed else s)
    split
    next running =>
      apply h.setStage
      · rw [running]
        simp
      · intro _ _
        simp
    · exact h

theorem Kept.record (h : Kept s) : Kept (s.record p (some p)) where
  fresh := h.fresh
  unique := h.unique
  spawned := h.spawned
  sent := by
    intro x mem
    rcases List.mem_cons.mp mem with rfl | old
    · rfl
    · exact h.sent x old

theorem Kept.kill (h : Kept s) (present : (s.process p).stage ≠ .reaped) : Kept (s.kill p) := by
  have target := h.owner_pid present
  unfold State.kill
  rw [target]
  apply Kept.record
  have delivered := h.deliver (some p)
  have still : ((s.deliver (some p)).process p).stage ≠ .reaped := by
    simp only [State.deliver]
    split
    · rw [State.setStage_process, if_pos rfl]
      simp
    · exact present
  exact delivered.setHandle (delivered.known still) fun _ _ => still

theorem Kept.made (h : Kept s) (made : s.handle p ≠ .unmade) : p < s.processes := by
  by_contra beyond
  exact made (h.fresh p (Nat.le_of_not_lt beyond)).2

theorem Kept.pass (h : Kept s) (live : (s.handle p).live = true) (handle : Handle) :
    Kept (s.setHandle p handle) := by
  apply h.setHandle
  · apply h.made
    intro unmade
    rw [unmade] at live
    cases live
  · intro spawned _
    exact h.spawned p spawned live

theorem live_of_held (h : s.handle p = .held ∨ s.handle p = .ended) :
    (s.handle p).live = true := by
  rcases h with h | h <;> rw [h] <;> rfl

theorem Kept.wait (h : Kept s) (step : s.step (.wait p) = some t) : Kept t := by
  obtain ⟨waiting, step⟩ := guarded step
  have live : (s.handle p).live = true := by rw [waiting]; rfl
  split at step
  · obtain ⟨zombie, ⟨⟩⟩ := guarded step
    apply (h.pass live .gone).setStage
    · show (s.process p).stage ≠ .reaped
      rw [zombie]
      simp
    · intro _ kept
      rw [show (s.setHandle p .gone).handle p = .gone from update_self ..] at kept
      cases kept
  · obtain ⟨_, ⟨⟩⟩ := guarded step
    exact h.pass live .gone

theorem Kept.step {e : Event} (h : Kept s) (present : Present s e) (step : s.step e = some t) :
    Kept t := by
  cases e with
  | spawn pid =>
    obtain ⟨free, ⟨⟩⟩ := guarded step
    exact h.add free
  | fork t pid =>
    obtain ⟨⟨_, _, free⟩, ⟨⟩⟩ := guarded step
    exact h.add free
  | announce p =>
    obtain ⟨⟨known, _, clone⟩, ⟨⟩⟩ := guarded step
    apply h.setHandle known
    intro spawned
    rw [spawned] at clone
    cases clone
  | start pid =>
    obtain ⟨free, ⟨⟩⟩ := guarded step
    exact h.add free
  | close p =>
    obtain ⟨running, ⟨⟩⟩ := guarded step
    exact h.setStage (by simp [running]) (by simp)
  | exit p =>
    obtain ⟨closed, ⟨⟩⟩ := guarded step
    exact h.setStage (by simp [closed]) (by simp)
  | tick t p =>
    obtain ⟨⟨_, forked, zombie⟩, ⟨⟩⟩ := guarded step
    exact h.setStage (by simp [zombie]) (by simp [forked])
  | reap p =>
    obtain ⟨⟨zombie, elsewhere⟩, ⟨⟩⟩ := guarded step
    apply h.setStage (by simp [zombie])
    intro spawned
    simp [State.elsewhere, spawned] at elsewhere
  | read p =>
    obtain ⟨⟨held, _⟩, ⟨⟩⟩ := guarded step
    exact h.pass (live_of_held (.inl held)) .ended
  | kill p =>
    obtain ⟨held, ⟨⟩⟩ := guarded step
    apply h.kill
    rcases present with spawned | running
    · exact h.spawned p spawned (live_of_held held)
    · simp [running]
  | stop p =>
    obtain ⟨held, ⟨⟩⟩ := guarded step
    exact h.pass (live_of_held held) .waiting
  | wait p => exact h.wait step
  | drop p =>
    obtain ⟨held, ⟨⟩⟩ := guarded step
    exact h.pass (live_of_held (.inl held)) .gone

end Steps

/-- In every run in which clones are killed only while they run, each signal goes to the
process that its `HostProcess` was made for. -/
theorem signals_rightly_sent {s : State} (h : signalSystem.ReachableBy Present s) :
    s.RightlySent := by
  have kept : Kept s := by
    apply h.invariant
    · rintro _ rfl
      exact kept_initial
    · intro s e t _ kept present step
      exact kept.step present step
  exact kept.sent

/-- A clone is killed while it runs, and its host when it has ended. -/
theorem signals_rightly_sent_both : ∃ s, signalSystem.ReachableBy Present s ∧
    s.signals.length = 2 ∧ s.RightlySent := by
  have reached : ∃ s, signalSystem.ReachableBy Present s ∧ s.signals.length = 2 :=
    System.exists_reachableBy_of_runBy (s := {})
      (l := [.spawn 10, .fork 0 11, .announce 1, .kill 1, .exit 1, .tick 0 1, .start 11, .wait 1,
        .close 0, .read 0, .exit 0, .kill 0, .wait 0]) (.init rfl) (by decide +kernel)
  obtain ⟨s, run, two⟩ := reached
  exact ⟨s, run, two, signals_rightly_sent run⟩

/-- The watcher reads the end of a clone's channel; the template reaps the clone, another
process gets the pid, and the watcher kills that. -/
theorem watcher_kills_another : ∃ s, signalSystem.Reachable s ∧
    (s.signals = [(1, some 2)] ∧ (s.process 2).origin = .foreign ∧
      (s.process 2).stage = .closed ∧ ¬ s.RightlySent) :=
  System.exists_reachable_of_run (s := {})
    (l := [.spawn 10, .fork 0 11, .announce 1, .close 1, .read 1, .exit 1, .tick 0 1, .start 11,
      .kill 1]) (.init rfl) (by decide +kernel)

end ServiceCache.Signals
