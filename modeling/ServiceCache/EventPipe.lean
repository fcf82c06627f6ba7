import Mathlib.Logic.Function.Basic
import Mathlib.Tactic.Simps.Basic
import ServiceCache.Transition

/-!
# Event pipes across forks

A host creates its `EventPipe` once, in `Host::new`, and `rebuild` makes no new one, so the
child's descriptors are of the pipe that its template has. A frozen host has no thread but the
control loop, which goes on draining. Each read of `drain` is a step. A byte that a full pipe
does not take is not written, and changes nothing.
-/

namespace ServiceCache.EventPipe

open Function
open Transition (System guarded)

inductive Event
  | listening
  | runEnded
  | probed
  deriving DecidableEq, Repr

structure Byte where
  id : Nat
  writer : Nat
  event : Event
  deriving DecidableEq, Repr

inductive Stage
  | running
  | frozen
  | exited
  deriving DecidableEq, Repr

structure Process where
  pipe : Nat := 0
  stage : Stage := .exited
  deriving DecidableEq, Repr

structure State where
  processes : Nat := 0
  process : Nat → Process := fun _ => {}
  pipes : Nat := 0
  pipe : Nat → List Byte := fun _ => []
  /-- History: all bytes written, and those read with the process that read them. -/
  written : List Byte := []
  read : List (Byte × Nat) := []

def bufferLen : Nat := 64

@[simps]
def State.add (s : State) (x : Process) (pipes : Nat) : State :=
  { s with
    processes := s.processes + 1
    process := update s.process s.processes x
    pipes := pipes }

@[simps]
def State.setStage (s : State) (p : Nat) (stage : Stage) : State :=
  { s with process := update s.process p { s.process p with stage } }

@[simps]
def State.write (s : State) (p : Nat) (event : Event) : State :=
  { s with
    pipe := update s.pipe (s.process p).pipe
      (s.pipe (s.process p).pipe ++ [⟨s.written.length, p, event⟩])
    written := s.written ++ [⟨s.written.length, p, event⟩] }

/-- One read of `drain`; it takes nothing from an empty pipe. -/
@[simps]
def State.drain (s : State) (p : Nat) : State :=
  { s with
    pipe := update s.pipe (s.process p).pipe
      ((s.pipe (s.process p).pipe).drop bufferLen)
    read := s.read ++ ((s.pipe (s.process p).pipe).take bufferLen).map fun b => (b, p) }

inductive Action
  | start
  | freeze (p : Nat)
  | fork (p : Nat)
  | write (p : Nat) (event : Event)
  | drain (p : Nat)
  | exit (p : Nat)
  deriving DecidableEq, Repr

def State.step (s : State) : Action → Option State
  | .start => some (s.add { pipe := s.pipes, stage := .running } (s.pipes + 1))
  | .freeze p => if (s.process p).stage = .running then some (s.setStage p .frozen) else none
  | .fork p =>
    if (s.process p).stage = .frozen then
      some (s.add { pipe := (s.process p).pipe, stage := .running } s.pipes)
    else none
  | .write p event =>
    if (s.process p).stage = .running then some (s.write p event) else none
  | .drain p => if (s.process p).stage ≠ .exited then some (s.drain p) else none
  | .exit p => if (s.process p).stage ≠ .exited then some (s.setStage p .exited) else none

def pipeSystem : System State Action where
  Initial s := s = {}
  next := State.step

/-- Every byte is read by the process that wrote it, or stays in that process's pipe, where
its `wait` finds it; and nobody else has read it. -/
def State.Heard (s : State) : Prop :=
  (∀ b ∈ s.written, (b, b.writer) ∈ s.read ∨ b ∈ s.pipe (s.process b.writer).pipe) ∧
    ∀ x ∈ s.read, x.2 = x.1.writer

/-- No other process that has not exited shares the pipe of `p`. -/
def State.Sole (s : State) (p : Nat) : Prop :=
  ∀ q < s.processes, (s.process q).stage ≠ .exited →
    (s.process q).pipe = (s.process p).pipe → q = p

instance (s : State) : Decidable s.Heard := inferInstanceAs (Decidable ((∀ b ∈ s.written, _) ∧ _))

instance (s : State) (p : Nat) : Decidable (s.Sole p) :=
  inferInstanceAs (Decidable (∀ q < s.processes, _))

/-- The condition on a step: a notifier writes while its process has the pipe for itself, and
a fork finds it empty. -/
def Unshared (s : State) : Action → Prop
  | .write p _ => s.Sole p
  | .fork p => s.pipe (s.process p).pipe = []
  | _ => True

instance (s : State) : DecidablePred (Unshared s)
  | .write p _ => inferInstanceAs (Decidable (s.Sole p))
  | .fork p => inferInstanceAs (Decidable (s.pipe (s.process p).pipe = []))
  | .start => .isTrue trivial
  | .freeze _ => .isTrue trivial
  | .drain _ => .isTrue trivial
  | .exit _ => .isTrue trivial

structure Owned (s : State) : Prop where
  known : ∀ p, (s.process p).stage ≠ .exited → p < s.processes
  made : ∀ p < s.processes, (s.process p).pipe < s.pipes
  fresh : ∀ k, s.pipes ≤ k → s.pipe k = []
  waiting : ∀ k, ∀ b ∈ s.pipe k, b.writer < s.processes ∧
    ∀ q < s.processes, (s.process q).stage ≠ .exited → (s.process q).pipe = k → q = b.writer
  writers : ∀ b ∈ s.written, b.writer < s.processes
  heard : s.Heard

section Steps

variable {s : State} {p : Nat}

theorem owned_initial : Owned {} where
  known p alive := absurd rfl alive
  made p lt := absurd lt (Nat.not_lt_zero p)
  fresh _ _ := rfl
  waiting _ _ mem := by cases mem
  writers _ mem := by cases mem
  heard := ⟨by simp, by simp⟩

theorem Owned.add (h : Owned s) {x : Process} {pipes : Nat} (room : x.pipe < pipes)
    (more : s.pipes ≤ pipes) (empty : s.pipe x.pipe = []) :
    Owned (s.add x pipes) where
  known q alive := by
    rw [State.add_processes]
    rw [State.add_process, update_apply] at alive
    split at alive
    · omega
    · exact Nat.lt_succ_of_lt (h.known q alive)
  made q lt := by
    rw [State.add_processes] at lt
    rw [State.add_process, update_apply]
    split
    · exact room
    · exact Nat.lt_of_lt_of_le (h.made q (by omega)) more
  fresh k le := h.fresh k (Nat.le_trans more le)
  waiting k b mem := by
    rw [State.add_pipe] at mem
    obtain ⟨lt, owner⟩ := h.waiting k b mem
    refine ⟨Nat.lt_succ_of_lt lt, ?_⟩
    intro q bound alive same
    rw [State.add_processes] at bound
    rw [State.add_process, update_apply] at alive same
    split at same
    · rw [← same, empty] at mem
      cases mem
    next old =>
      rw [if_neg old] at alive
      exact owner q (by omega) alive same
  writers b mem := Nat.lt_succ_of_lt (h.writers b mem)
  heard := by
    refine ⟨?_, h.heard.2⟩
    intro b mem
    have old : b.writer ≠ s.processes := Nat.ne_of_lt (h.writers b mem)
    rw [State.add_process, update_of_ne old]
    exact h.heard.1 b mem

theorem setStage_pipe (s : State) (p q : Nat) (stage : Stage) :
    ((s.setStage p stage).process q).pipe = (s.process q).pipe := by
  rw [State.setStage_process, update_apply]
  split
  next same => rw [same]
  · rfl

theorem Owned.setStage (h : Owned s) (alive : (s.process p).stage ≠ .exited) (stage : Stage) :
    Owned (s.setStage p stage) := by
  have before : ∀ q, ((s.setStage p stage).process q).stage ≠ .exited →
      (s.process q).stage ≠ .exited := by
    intro q
    rw [State.setStage_process, update_apply]
    split
    next same => exact fun _ => same ▸ alive
    · exact id
  constructor
  · exact fun q living => h.known q (before q living)
  · intro q lt
    rw [setStage_pipe]
    exact h.made q lt
  · exact h.fresh
  · intro k b mem
    obtain ⟨lt, owner⟩ := h.waiting k b mem
    refine ⟨lt, ?_⟩
    intro q bound living same
    rw [setStage_pipe] at same
    exact owner q bound (before q living) same
  · exact h.writers
  · refine ⟨?_, h.heard.2⟩
    intro b mem
    rw [setStage_pipe]
    exact h.heard.1 b mem

theorem Owned.write (h : Owned s) (alive : (s.process p).stage ≠ .exited) (sole : s.Sole p)
    (event : Event) : Owned (s.write p event) where
  known := h.known
  made := h.made
  fresh k le := by
    have other : k ≠ (s.process p).pipe := by
      have := h.made p (h.known p alive)
      rw [State.write_pipes] at le
      omega
    rw [State.write_pipe, update_of_ne other]
    exact h.fresh k le
  waiting k b mem := by
    rw [State.write_pipe, update_apply] at mem
    split at mem
    next here =>
      rcases List.mem_append.mp mem with old | new
      · exact h.waiting k b (here ▸ old)
      · cases List.mem_singleton.mp new
        refine ⟨h.known p alive, ?_⟩
        intro q bound living same
        exact sole q bound living (same.trans here)
    · exact h.waiting k b mem
  writers b mem := by
    rcases List.mem_append.mp mem with old | new
    · exact h.writers b old
    · cases List.mem_singleton.mp new
      exact h.known p alive
  heard := by
    refine ⟨?_, h.heard.2⟩
    intro b mem
    rw [State.write_pipe, update_apply, State.write_process]
    rcases List.mem_append.mp mem with old | new
    · rcases h.heard.1 b old with read | waits
      · exact .inl read
      · right
        split
        next same => exact List.mem_append_left _ (same ▸ waits)
        · exact waits
    · cases List.mem_singleton.mp new
      right
      rw [if_pos rfl]
      exact List.mem_append_right _ List.mem_cons_self

theorem Owned.drain (h : Owned s) (alive : (s.process p).stage ≠ .exited) :
    Owned (s.drain p) := by
  have mine : ∀ b ∈ s.pipe (s.process p).pipe, b.writer = p := by
    intro b mem
    exact ((h.waiting _ b mem).2 p (h.known p alive) alive rfl).symm
  have less : ∀ k, ∀ b ∈ (s.drain p).pipe k, b ∈ s.pipe k := by
    intro k b
    rw [State.drain_pipe, update_apply]
    split
    next here => exact fun mem => here ▸ List.mem_of_mem_drop mem
    · exact id
  constructor
  · exact h.known
  · exact h.made
  · intro k le
    refine List.eq_nil_iff_forall_not_mem.mpr ?_
    intro b mem
    have old := less k b mem
    rw [h.fresh k le] at old
    cases old
  · exact fun k b mem => h.waiting k b (less k b mem)
  · exact h.writers
  · constructor
    · intro b mem
      rw [State.drain_read, State.drain_pipe, update_apply, State.drain_process]
      rcases h.heard.1 b mem with read | waits
      · exact .inl (List.mem_append_left _ read)
      · split
        next here =>
          rw [here] at waits
          rw [← List.take_append_drop bufferLen (s.pipe (s.process p).pipe)] at waits
          rcases List.mem_append.mp waits with taken | left
          · left
            refine List.mem_append_right _ (List.mem_map.mpr ⟨b, taken, ?_⟩)
            rw [mine b (List.mem_of_mem_take taken)]
          · exact .inr left
        · exact .inr waits
    · intro x mem
      rcases List.mem_append.mp mem with old | new
      · exact h.heard.2 x old
      · obtain ⟨b, taken, rfl⟩ := List.mem_map.mp new
        exact (mine b (List.mem_of_mem_take taken)).symm

theorem Owned.step (h : Owned s) {a : Action} {t : State} (ok : Unshared s a)
    (step : s.step a = some t) : Owned t := by
  cases a with
  | start =>
    cases step
    exact h.add (Nat.lt_succ_self _) (Nat.le_succ _) (h.fresh _ (Nat.le_refl _))
  | freeze p =>
    obtain ⟨running, ⟨⟩⟩ := guarded step
    exact h.setStage (by rw [running]; decide) _
  | fork p =>
    obtain ⟨frozen, ⟨⟩⟩ := guarded step
    have known : p < s.processes := h.known p (by rw [frozen]; decide)
    exact h.add (h.made p known) (Nat.le_refl _) ok
  | write p event =>
    obtain ⟨running, ⟨⟩⟩ := guarded step
    exact h.write (by rw [running]; decide) ok event
  | drain p =>
    obtain ⟨alive, ⟨⟩⟩ := guarded step
    exact h.drain alive
  | exit p =>
    obtain ⟨alive, ⟨⟩⟩ := guarded step
    exact h.setStage alive _

end Steps

/-- In every run in which notifiers write to a pipe that their process has for itself, and
forks find it empty, a process hears its own events and no other process takes them. -/
theorem events_heard {s : State} (h : pipeSystem.ReachableBy Unshared s) : s.Heard := by
  have owned : Owned s := by
    apply h.invariant
    · rintro _ rfl
      exact owned_initial
    · intro s a t _ owned ok step
      exact owned.step ok step
  exact owned.heard

/-- The listen event of a host is heard before it is frozen and forked. -/
theorem events_heard_listening :
    ∃ s, pipeSystem.ReachableBy Unshared s ∧ s.processes = 2 ∧ s.written ≠ [] ∧ s.Heard := by
  have reached : ∃ s, pipeSystem.ReachableBy Unshared s ∧ (s.processes = 2 ∧ s.written ≠ []) :=
    System.exists_reachableBy_of_runBy (s := {})
      (l := [.start, .write 0 .listening, .drain 0, .freeze 0, .fork 0, .drain 1])
      (.init rfl) (by decide +kernel)
  obtain ⟨s, run, two, some⟩ := reached
  exact ⟨s, run, two, some, events_heard run⟩

/-- A clone's run ends, and the template drains the byte that should wake the clone. -/
theorem clone_event_taken :
    ∃ s, pipeSystem.Reachable s ∧ (s.written = [⟨0, 1, .runEnded⟩] ∧
      s.read = [(⟨0, 1, .runEnded⟩, 0)] ∧ s.pipe (s.process 1).pipe = [] ∧
        (s.process 1).stage = .running ∧ ¬ s.Heard) :=
  System.exists_reachable_of_run (s := {})
    (l := [.start, .freeze 0, .fork 0, .write 1 .runEnded, .drain 0])
    (.init rfl) (by decide +kernel)

end ServiceCache.EventPipe
