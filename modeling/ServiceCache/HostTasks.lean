import Mathlib.Tactic.Simps.Basic
import ServiceCache.Counting
import ServiceCache.Transition

/-!
# Host tasks and the freeze

`HostTaskManager::task_shared` counts a future and spawns it on the runtime, whose one worker
polls it and, behind its end, takes the count back; a panic leaves the count. `freeze` reads the
count once, closes the gate, drains the guest, tells the worker to end when it parks next, and
returns when no thread is left.

A thread that is in `task_shared` keeps the drain from ending. The worker's queue is the runtime's
own: the worker may park with a future ready, though never within a poll.
-/

namespace ServiceCache.HostTasks

open Function
open Transition (System guarded)
open Counting

inductive Stage
  | unborn
  /-- Counted, not yet spawned. -/
  | counted
  | ready
  | waiting
  /-- It has returned; the count is not taken back. -/
  | returned
  | done
  | panicked
  | lost
  deriving DecidableEq, Repr

def Stage.inFlight : Stage → Bool
  | .counted | .ready | .waiting | .returned | .panicked | .lost => true
  | .unborn | .done => false

def Stage.finished : Stage → Bool
  | .returned | .done | .panicked => true
  | .unborn | .counted | .ready | .waiting | .lost => false

def Stage.abandon : Stage → Stage
  | .counted | .ready | .waiting | .returned | .lost => .lost
  | .unborn => .unborn
  | .done => .done
  | .panicked => .panicked

inductive Freezer
  | idle
  | checked
  | gateClosed
  | drained
  /-- `TOKIO_EXIT` is set. -/
  | exiting
  | frozen
  | refused
  | failed
  deriving DecidableEq, Repr

def Freezer.guestRuns : Freezer → Bool
  | .idle | .checked | .gateClosed | .refused | .failed => true
  | .drained | .exiting | .frozen => false

def Freezer.passed : Freezer → Bool
  | .checked | .gateClosed | .drained | .exiting | .frozen => true
  | .idle | .refused | .failed => false

structure State where
  count : Nat := 0
  tasks : Nat := 0
  task : Nat → Stage := fun _ => .unborn
  freezer : Freezer := .idle
  worker : Bool := true

inductive Outcome
  | pending
  | returns
  | panics
  deriving DecidableEq, Repr

def Outcome.stage : Outcome → Stage
  | .pending => .waiting
  | .returns => .returned
  | .panics => .panicked

inductive Event
  | call
  | spawn (i : Nat)
  | poll (i : Nat) (outcome : Outcome)
  | wake (i : Nat)
  | uncount (i : Nat)
  | check
  | closeGate
  | drain
  | setExit
  | park
  | finish
  | fail
  /-- The run goes on in a forked child, with a runtime of its own. -/
  | fork
  deriving DecidableEq, Repr

@[simps! count tasks freezer worker]
def State.move (s : State) (i : Nat) (stage : Stage) (count : Nat) : State :=
  { s with task := update s.task i stage, count }

@[simps! count tasks freezer worker]
def State.call (s : State) : State :=
  { s with
    task := update s.task s.tasks .counted
    count := s.count + 1
    tasks := s.tasks + 1 }

@[simps]
def State.freeze (s : State) (freezer : Freezer) : State := { s with freezer }

def State.park (s : State) : State := { s with worker := false }

def State.fork (s : State) : State :=
  { s with task := fun i => (s.task i).abandon, freezer := .idle, worker := true }

def State.step (s : State) : Event → Option State
  | .call => if s.freezer.guestRuns then some s.call else none
  | .spawn i => if s.task i = .counted then some (s.move i .ready s.count) else none
  | .poll i outcome =>
    if s.worker ∧ s.task i = .ready then some (s.move i outcome.stage s.count) else none
  | .wake i => if s.task i = .waiting then some (s.move i .ready s.count) else none
  | .uncount i => if s.task i = .returned then some (s.move i .done (s.count - 1)) else none
  | .check =>
    if s.freezer = .idle then some (s.freeze (if 0 < s.count then .refused else .checked))
    else none
  | .closeGate => if s.freezer = .checked then some (s.freeze .gateClosed) else none
  | .drain =>
    if s.freezer = .gateClosed ∧ ∀ i < s.tasks, s.task i ≠ .counted then
      some (s.freeze .drained)
    else none
  | .setExit => if s.freezer = .drained then some (s.freeze .exiting) else none
  | .park =>
    if s.freezer = .exiting ∧ ∀ i < s.tasks, s.task i ≠ .returned then some s.park else none
  | .finish =>
    if s.freezer = .exiting ∧ s.worker = false then some (s.freeze .frozen) else none
  | .fail =>
    if s.freezer = .gateClosed ∨ s.freezer = .exiting then some (s.freeze .failed) else none
  | .fork => if s.freezer = .frozen then some s.fork else none

def taskSystem : System State Event where
  Initial s := s = {}
  next := State.step

/-- The condition on a step: no future is given between the freeze's reading of the count
and the end of its drain, none panics, and the count is not read between a future's return
and its taking back. -/
def Calm (s : State) : Event → Prop
  | .call => s.freezer.passed = false
  | .poll _ outcome => outcome ≠ .panics
  | .check => ∀ i < s.tasks, s.task i ≠ .returned
  | _ => True

instance (s : State) : DecidablePred (Calm s)
  | .call => inferInstanceAs (Decidable (s.freezer.passed = false))
  | .poll _ outcome => inferInstanceAs (Decidable (outcome ≠ .panics))
  | .check => inferInstanceAs (Decidable (∀ i < s.tasks, s.task i ≠ .returned))
  | .spawn _ | .wake _ | .uncount _ | .closeGate | .drain | .setExit | .park | .finish
  | .fail | .fork => .isTrue trivial

def Stage.sane : Stage → Bool
  | .counted | .ready | .waiting | .returned | .done => true
  | .unborn | .panicked | .lost => false

structure Sound (s : State) : Prop where
  count : s.count = tally Stage.inFlight s.task s.tasks
  unborn : ∀ i, s.tasks ≤ i → s.task i = .unborn
  sane : ∀ i < s.tasks, (s.task i).sane = true
  settled : s.freezer.passed = true → ∀ i < s.tasks, s.task i = .done

section Steps

variable {s : State} {i : Nat}

theorem sound_initial : Sound {} where
  count := rfl
  unborn _ _ := rfl
  sane i lt := absurd lt (Nat.not_lt_zero i)
  settled passed := absurd passed (by decide)

theorem Sound.working (h : Sound s) (born : s.task i ≠ .unborn) (undone : s.task i ≠ .done) :
    i < s.tasks ∧ s.freezer.passed = false := by
  have lt : i < s.tasks := by
    by_contra beyond
    exact born (h.unborn i (by omega))
  refine ⟨lt, ?_⟩
  by_contra passed
  exact undone (h.settled (by simpa using passed) i lt)

theorem Sound.move (h : Sound s) {stage : Stage} {count : Nat} (born : s.task i ≠ .unborn)
    (undone : s.task i ≠ .done) (sane : stage.sane = true)
    (counted : count + (if (s.task i).inFlight then 1 else 0) =
      s.count + (if stage.inFlight then 1 else 0)) : Sound (s.move i stage count) := by
  obtain ⟨lt, early⟩ := h.working born undone
  constructor
  · have moved := tally_update (p := Stage.inFlight) (f := s.task) lt stage
    rw [← h.count] at moved
    show count = tally Stage.inFlight (update s.task i stage) s.tasks
    omega
  · intro j beyond
    have other : j ≠ i := Nat.ne_of_gt (Nat.lt_of_lt_of_le lt beyond)
    show update s.task i stage j = .unborn
    rw [update_of_ne other]
    exact h.unborn j beyond
  · intro j within
    show (update s.task i stage j).sane = true
    rw [update_apply]
    split
    · exact sane
    · exact h.sane j within
  · intro passed
    rw [State.move_freezer, early] at passed
    exact absurd passed Bool.false_ne_true

theorem Sound.call (h : Sound s) (early : s.freezer.passed = false) : Sound s.call := by
  constructor
  · show s.count + 1 = tally Stage.inFlight (update s.task s.tasks .counted) (s.tasks + 1)
    rw [tally_push, ← h.count]
    rfl
  · intro j beyond
    rw [State.call_tasks] at beyond
    show update s.task s.tasks .counted j = .unborn
    rw [update_of_ne (by omega)]
    exact h.unborn j (by omega)
  · intro j within
    show (update s.task s.tasks .counted j).sane = true
    rw [update_apply]
    split
    · rfl
    · rw [State.call_tasks] at within
      exact h.sane j (by omega)
  · intro passed
    rw [State.call_freezer, early] at passed
    exact absurd passed Bool.false_ne_true

theorem Sound.freeze (h : Sound s) {freezer : Freezer}
    (settled : freezer.passed = true → ∀ i < s.tasks, s.task i = .done) :
    Sound (s.freeze freezer) :=
  { h with settled }

theorem Sound.park (h : Sound s) : Sound s.park := { h with }

theorem Sound.fork (h : Sound s) (passed : s.freezer.passed = true) : Sound s.fork := by
  have same : (fun i => (s.task i).abandon) = s.task := by
    funext i
    by_cases lt : i < s.tasks
    · rw [h.settled passed i lt]
      rfl
    · rw [h.unborn i (Nat.le_of_not_lt lt)]
      rfl
  have forked : s.fork = { s with freezer := .idle, worker := true } := by
    unfold State.fork
    rw [same]
  rw [forked]
  exact ⟨h.count, h.unborn, h.sane, fun idle => absurd idle (by simp [Freezer.passed])⟩

theorem Stage.done_of_sane {stage : Stage} (sane : stage.sane = true)
    (landed : stage.inFlight = false) : stage = .done := by
  cases stage with
  | done => rfl
  | unborn | panicked | lost => cases sane
  | counted | ready | waiting | returned => cases landed

theorem Sound.done_of_zero (h : Sound s) (zero : s.count = 0) (lt : i < s.tasks) :
    s.task i = .done := by
  apply Stage.done_of_sane (h.sane i lt)
  by_contra flying
  have positive : 0 < tally Stage.inFlight s.task s.tasks := tally_pos lt (by simpa using flying)
  rw [← h.count, zero] at positive
  exact Nat.lt_irrefl 0 positive

theorem Sound.zero_of_done (h : Sound s) (done : ∀ i < s.tasks, s.task i = .done) :
    s.count = 0 := by
  rw [h.count]
  apply tally_eq_zero
  intro i
  by_cases lt : i < s.tasks
  · rw [done i lt]
    rfl
  · rw [h.unborn i (Nat.le_of_not_lt lt)]
    rfl

theorem Sound.check (h : Sound s) :
    Sound (s.freeze (if 0 < s.count then .refused else .checked)) := by
  apply h.freeze
  split
  · intro passed
    cases passed
  · intro _ i lt
    exact h.done_of_zero (by omega) lt

theorem Sound.poll (h : Sound s) {outcome : Outcome} (ready : s.task i = .ready)
    (calm : outcome ≠ .panics) : Sound (s.move i outcome.stage s.count) := by
  apply h.move
  · simp [ready]
  · simp [ready]
  · cases outcome with
    | pending | returns => rfl
    | panics => exact absurd rfl calm
  · rw [ready]
    cases outcome <;> rfl

theorem Sound.ready (h : Sound s) (early : s.task i = .counted ∨ s.task i = .waiting) :
    Sound (s.move i .ready s.count) := by
  apply h.move
  · rcases early with early | early <;> simp [early]
  · rcases early with early | early <;> simp [early]
  · rfl
  · rcases early with early | early <;> rw [early] <;> rfl

theorem Sound.uncount (h : Sound s) (returned : s.task i = .returned) :
    Sound (s.move i .done (s.count - 1)) := by
  have born : s.task i ≠ .unborn := by simp [returned]
  have undone : s.task i ≠ .done := by simp [returned]
  have positive : 0 < s.count := by
    rw [h.count]
    exact tally_pos (h.working born undone).1 (by rw [returned]; rfl)
  apply h.move born undone rfl
  simp only [returned, Stage.inFlight, if_true, Bool.false_eq_true, if_false]
  omega

theorem Sound.step {t : State} {e : Event} (h : Sound s) (calm : Calm s e)
    (step : s.step e = some t) : Sound t := by
  cases e with
  | call =>
    obtain ⟨_, ⟨⟩⟩ := guarded step
    exact h.call calm
  | spawn i =>
    obtain ⟨counted, ⟨⟩⟩ := guarded step
    exact h.ready (.inl counted)
  | poll i outcome =>
    obtain ⟨⟨_, ready⟩, ⟨⟩⟩ := guarded step
    exact h.poll ready calm
  | wake i =>
    obtain ⟨waiting, ⟨⟩⟩ := guarded step
    exact h.ready (.inr waiting)
  | uncount i =>
    obtain ⟨returned, ⟨⟩⟩ := guarded step
    exact h.uncount returned
  | check =>
    obtain ⟨_, ⟨⟩⟩ := guarded step
    exact h.check
  | closeGate =>
    obtain ⟨checked, ⟨⟩⟩ := guarded step
    exact h.freeze fun _ => h.settled (by rw [checked]; rfl)
  | drain =>
    obtain ⟨⟨closed, _⟩, ⟨⟩⟩ := guarded step
    exact h.freeze fun _ => h.settled (by rw [closed]; rfl)
  | setExit =>
    obtain ⟨drained, ⟨⟩⟩ := guarded step
    exact h.freeze fun _ => h.settled (by rw [drained]; rfl)
  | park =>
    obtain ⟨_, ⟨⟩⟩ := guarded step
    exact h.park
  | finish =>
    obtain ⟨⟨exiting, _⟩, ⟨⟩⟩ := guarded step
    exact h.freeze fun _ => h.settled (by rw [exiting]; rfl)
  | fail =>
    obtain ⟨_, ⟨⟩⟩ := guarded step
    exact h.freeze fun passed => absurd passed (by simp [Freezer.passed])
  | fork =>
    obtain ⟨frozen, ⟨⟩⟩ := guarded step
    exact h.fork (by rw [frozen]; rfl)

end Steps

theorem sound_of_reachableBy {s : State} (h : taskSystem.ReachableBy Calm s) : Sound s := by
  apply h.invariant
  · rintro _ rfl
    exact sound_initial
  · intro s e t _ inv calm step
    exact inv.step calm step

theorem Stage.done_of_finished {stage : Stage} (sane : stage.sane = true)
    (finished : stage.finished = true) (returned : stage ≠ .returned) : stage = .done := by
  cases stage with
  | done => rfl
  | returned => exact absurd rfl returned
  | panicked => cases sane
  | unborn | counted | ready | waiting | lost => cases finished

/-- In every run whose steps are calm, a freeze that returns has lost no future, and one that
finds every future finished is not refused for it. -/
theorem freeze_loses_no_task {s : State} (h : taskSystem.ReachableBy Calm s) :
    (s.freezer = .frozen → ∀ i < s.tasks, s.task i = .done) ∧
      ∀ t, Calm s .check → (∀ i < s.tasks, (s.task i).finished = true) →
        taskSystem.next s .check = some t → t.freezer ≠ .refused := by
  have inv := sound_of_reachableBy h
  constructor
  · intro frozen
    exact inv.settled (by rw [frozen]; rfl)
  · intro t calm finished step
    obtain ⟨_, ⟨⟩⟩ := guarded step
    have zero : s.count = 0 := by
      apply inv.zero_of_done
      intro i lt
      exact Stage.done_of_finished (inv.sane i lt) (finished i lt) (calm i lt)
    simp [zero]

/-- A future that is polled twice and returns before the freeze reads the count. -/
theorem freeze_loses_no_task_done :
    (∃ s, taskSystem.ReachableBy Calm s ∧ s.freezer = .frozen ∧ 0 < s.tasks ∧
      ∀ i < s.tasks, s.task i = .done) ∧
    ∃ s, taskSystem.ReachableBy Calm s ∧ s.freezer = .idle ∧ 0 < s.tasks ∧
      ∀ t, taskSystem.next s .check = some t → t.freezer ≠ .refused := by
  have frozen : ∃ s, taskSystem.ReachableBy Calm s ∧ (s.freezer = .frozen ∧ 0 < s.tasks) :=
    System.exists_reachableBy_of_runBy (s := {})
      (l := [.call, .spawn 0, .poll 0 .pending, .wake 0, .poll 0 .returns, .uncount 0, .check,
        .closeGate, .drain, .setExit, .park, .finish]) (.init rfl) (by decide +kernel)
  have finished : ∃ s, taskSystem.ReachableBy Calm s ∧ (s.freezer = .idle ∧ 0 < s.tasks ∧
      Calm s .check ∧ ∀ i < s.tasks, (s.task i).finished = true) :=
    System.exists_reachableBy_of_runBy (s := {})
      (l := [.call, .spawn 0, .poll 0 .pending, .wake 0, .poll 0 .returns, .uncount 0])
      (.init rfl) (by decide +kernel)
  constructor
  · obtain ⟨s, run, frozen, tasks⟩ := frozen
    exact ⟨s, run, frozen, tasks, (freeze_loses_no_task run).1 frozen⟩
  · obtain ⟨s, run, idle, tasks, calm, finished⟩ := finished
    exact ⟨s, run, idle, tasks, fun t => (freeze_loses_no_task run).2 t calm finished⟩

/-- A future given behind the check waits when the worker ends, and `freeze` returns; a
future that panicked stays counted, and `freeze` is refused for it. -/
theorem freeze_loses_a_task :
    (∃ s, taskSystem.Reachable s ∧ (s.freezer = .frozen ∧ s.tasks = 1 ∧ s.task 0 = .waiting)) ∧
      ∃ s, taskSystem.Reachable s ∧ ((∀ i < s.tasks, (s.task i).finished = true) ∧
        (taskSystem.next s .check).any (fun t => decide (t.freezer = .refused)) = true) := by
  constructor
  · exact System.exists_reachable_of_run (s := {})
      (l := [.check, .call, .spawn 0, .poll 0 .pending, .closeGate, .drain, .setExit, .park,
        .finish]) (.init rfl) (by decide +kernel)
  · exact System.exists_reachable_of_run (s := {})
      (l := [.call, .spawn 0, .poll 0 .panics]) (.init rfl) (by decide +kernel)

end ServiceCache.HostTasks
