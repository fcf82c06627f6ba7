import Mathlib.Data.Finset.Erase
import Mathlib.Data.Finset.Insert
import Mathlib.Logic.Function.Basic
import ServiceCache.Transition

/-!
# The connections a guest holds

A `TrackedStream` has a `ConnectionGuard`, which keeps its descriptor in a collection shared
with `HostNetworking`. The kernel opens the descriptor and the guard records it; the guard,
the first field, is dropped and then the stream closes the descriptor. Any thread may step in
between, and the kernel gives out any number that is not open.
-/

namespace ServiceCache.Connections

open Function
open Transition (System guarded)

inductive Open
  | listener
  | stream (n : Nat)
  | other
  deriving DecidableEq, Repr

inductive Stage
  | unborn
  | accepted (fd : Nat)
  /-- The guest holds the `TrackedStream`. -/
  | held (fd : Nat)
  /-- `_guard` is dropped, `inner` is not. -/
  | released (fd : Nat)
  | closed
  deriving DecidableEq, Repr

def Stage.fd : Stage → Option Nat
  | .accepted fd | .held fd | .released fd => some fd
  | .unborn | .closed => none

structure State where
  table : Nat → Option Open := fun _ => none
  adopted : Option Nat := none
  connections : Finset Nat := ∅
  stage : Nat → Stage := fun _ => .unborn
  accepts : Nat := 0

@[simps]
def State.setStage (s : State) (n : Nat) (stage : Stage) : State :=
  { s with stage := update s.stage n stage }

@[simps]
def State.setTable (s : State) (fd : Nat) (x : Option Open) : State :=
  { s with table := update s.table fd x }

/-- `try_accept_local` on a free number. -/
@[simps!]
def State.accept (s : State) (fd : Nat) : State :=
  { (s.setTable fd (some (.stream s.accepts))).setStage s.accepts (.accepted fd) with
    accepts := s.accepts + 1 }

@[simps! table stage]
def State.track (s : State) (n fd : Nat) : State :=
  { s.setStage n (.held fd) with connections := insert fd s.connections }

@[simp] theorem State.track_connections (s : State) (n fd : Nat) :
    (s.track n fd).connections = insert fd s.connections := rfl

@[simps! table stage]
def State.release (s : State) (n fd : Nat) : State :=
  { s.setStage n (.released fd) with connections := s.connections.erase fd }

@[simp] theorem State.release_connections (s : State) (n fd : Nat) :
    (s.release n fd).connections = s.connections.erase fd := rfl

@[simps!]
def State.close (s : State) (n fd : Nat) : State :=
  (s.setTable fd none).setStage n .closed

inductive Event
  | adopt (fd : Nat)
  | accept (fd : Nat)
  | track (n : Nat)
  | release (n : Nat)
  | close (n : Nat)
  | openOther (fd : Nat)
  | closeOther (fd : Nat)
  deriving DecidableEq, Repr

def State.step (s : State) : Event → Option State
  | .adopt fd =>
    if s.adopted = none ∧ s.table fd = none then
      some { s.setTable fd (some .listener) with adopted := some fd }
    else none
  | .accept fd => if s.adopted ≠ none ∧ s.table fd = none then some (s.accept fd) else none
  | .track n =>
    match s.stage n with
    | .accepted fd => some (s.track n fd)
    | _ => none
  | .release n =>
    match s.stage n with
    | .held fd => some (s.release n fd)
    | _ => none
  | .close n =>
    match s.stage n with
    | .released fd => some (s.close n fd)
    | _ => none
  | .openOther fd => if s.table fd = none then some (s.setTable fd (some .other)) else none
  | .closeOther fd => if s.table fd = some .other then some (s.setTable fd none) else none

def connectionSystem : System State Event where
  Initial s := s = {}
  next := State.step

def Stage.underWay : Stage → Bool
  | .accepted _ | .released _ => true
  | .unborn | .held _ | .closed => false

def State.Quiet (s : State) : Prop := ∀ n < s.accepts, (s.stage n).underWay = false

instance (s : State) : Decidable s.Quiet := inferInstanceAs (Decidable (∀ n < s.accepts, _))

inductive Shutdown
  | read
  | both
  deriving DecidableEq, Repr

inductive Errno
  | badf
  deriving DecidableEq, Repr

/-- `shutdown` of one descriptor: what was shut down, and how. A socket that is not
connected is no error. -/
def State.shutDown (s : State) (fd : Nat) (how : Shutdown) : Except Errno (Open × Shutdown) :=
  match s.table fd with
  | none => .error .badf
  | some x => .ok (x, how)

def State.shutDownAll (s : State) : List Nat → Except Errno (List (Open × Shutdown))
  | [] => .ok []
  | fd :: rest => do
      let x ← s.shutDown fd .both
      let xs ← s.shutDownAll rest
      return x :: xs

/-- `HostNetworking::shut_down_sockets`, with the order in which the set is walked. -/
def State.shutDownSockets (s : State) (order : List Nat) :
    Except Errno (List (Open × Shutdown)) :=
  match s.adopted with
  | none => s.shutDownAll order
  | some fd => do
      let x ← s.shutDown fd .read
      let xs ← s.shutDownAll order
      return x :: xs

/-- The table has each connection's descriptor for as long as it is open, and the shared
collection has those of the connections that the guest holds. -/
structure Tracked (s : State) : Prop where
  opened : ∀ n fd, (s.stage n).fd = some fd ↔ s.table fd = some (.stream n)
  listening : ∀ fd, s.adopted = some fd → s.table fd = some .listener
  listed : ∀ fd, fd ∈ s.connections ↔ ∃ n, s.stage n = .held fd
  unborn : ∀ n, s.accepts ≤ n → s.stage n = .unborn

section Steps

variable {s : State} {n fd : Nat}

theorem tracked_initial : Tracked {} where
  opened n fd := by simp [Stage.fd]
  listening fd h := by cases h
  listed fd := by simp
  unborn n _ := rfl

theorem Tracked.unique (h : Tracked s) {m : Nat} (first : (s.stage n).fd = some fd)
    (second : (s.stage m).fd = some fd) : n = m := by
  have same := (h.opened n fd).mp first
  rw [(h.opened m fd).mp second] at same
  cases same
  rfl

theorem Tracked.setTable (h : Tracked s) {x : Option Open}
    (before : ∀ n, s.table fd ≠ some (.stream n)) (after : ∀ n, x ≠ some (.stream n))
    {adopted : Option Nat}
    (listening : ∀ d, adopted = some d → update s.table fd x d = some .listener) :
    Tracked { s.setTable fd x with adopted := adopted } where
  opened n d := by
    rw [State.setTable_stage, h.opened n d, State.setTable_table]
    by_cases same : d = fd
    · subst same
      simp only [update_self, before n, after n]
    · rw [update_of_ne same]
  listening := listening
  listed := h.listed
  unborn := h.unborn

theorem Tracked.adopt (h : Tracked s) (free : s.table fd = none) :
    Tracked { s.setTable fd (some .listener) with adopted := some fd } := by
  apply h.setTable
  · simp [free]
  · simp
  · rintro d ⟨⟩
    exact update_self ..

theorem Tracked.listener_kept (h : Tracked s) (other : s.table fd ≠ some .listener)
    (x : Option Open) (d : Nat) (adopted : s.adopted = some d) :
    update s.table fd x d = some .listener := by
  have listening := h.listening d adopted
  have apart : d ≠ fd := by
    rintro rfl
    exact other listening
  rw [update_of_ne apart]
  exact listening

theorem Tracked.openOther (h : Tracked s) (free : s.table fd = none) :
    Tracked (s.setTable fd (some .other)) := by
  apply h.setTable
  · simp [free]
  · simp
  · exact h.listener_kept (by simp [free]) _

theorem Tracked.closeOther (h : Tracked s) (other : s.table fd = some .other) :
    Tracked (s.setTable fd none) := by
  apply h.setTable
  · simp [other]
  · simp
  · exact h.listener_kept (by simp [other]) _

theorem held_update (stage : Nat → Stage) (n : Nat) (x : Stage) (d : Nat) :
    (∃ m, update stage n x m = .held d) ↔
      x = .held d ∨ ∃ m, m ≠ n ∧ stage m = .held d := by
  constructor
  · rintro ⟨m, held⟩
    rw [update_apply] at held
    split at held
    · exact .inl held
    next other => exact .inr ⟨m, other, held⟩
  · rintro (rfl | ⟨m, other, held⟩)
    · exact ⟨n, update_self ..⟩
    · exact ⟨m, by rw [update_of_ne other, held]⟩

theorem held_other {stage : Nat → Stage} (before : ∀ d, stage n ≠ .held d) (d : Nat) :
    (∃ m, m ≠ n ∧ stage m = .held d) ↔ ∃ m, stage m = .held d := by
  constructor
  · rintro ⟨m, _, held⟩
    exact ⟨m, held⟩
  · rintro ⟨m, held⟩
    refine ⟨m, ?_, held⟩
    rintro rfl
    exact before d held

theorem Tracked.accept (h : Tracked s) (free : s.table fd = none) : Tracked (s.accept fd) where
  opened m d := by
    have unborn := h.unborn s.accepts (Nat.le_refl _)
    have apart := h.opened s.accepts d
    rw [unborn] at apart
    rw [State.accept_stage, State.accept_table, update_apply, update_apply,
      State.setTable_stage]
    by_cases new : m = s.accepts
    · by_cases same : d = fd
      · simp [new, same, Stage.fd]
      · simpa [new, same, Ne.symm same, Stage.fd] using apart
    · rw [if_neg new, h.opened m d]
      by_cases same : d = fd
      · simp [same, free, Ne.symm new]
      · rw [if_neg same]
  listening := h.listener_kept (by simp [free]) _
  listed d := by
    have unborn := h.unborn s.accepts (Nat.le_refl _)
    simp only [State.accept_stage, State.accept_connections]
    rw [held_update, held_other (by simp [unborn]), h.listed d]
    simp only [State.setTable_stage, reduceCtorEq, false_or]
  unborn m later := by
    rw [State.accept_accepts] at later
    have apart : m ≠ s.accepts := by omega
    rw [State.accept_stage, update_of_ne apart]
    exact h.unborn m (by omega)

theorem Tracked.track (h : Tracked s) (accepted : s.stage n = .accepted fd) :
    Tracked (s.track n fd) where
  opened m d := by
    rw [State.track_stage, State.track_table, ← h.opened m d, update_apply]
    split
    next same => rw [same, accepted]; rfl
    · rfl
  listening := h.listening
  listed d := by
    simp only [State.track_stage, State.track_connections]
    rw [held_update, held_other (by simp [accepted]), Finset.mem_insert, h.listed d]
    simp [eq_comm]
  unborn m later := by
    have unborn := h.unborn m later
    have apart : m ≠ n := by
      rintro rfl
      rw [unborn] at accepted
      cases accepted
    rw [State.track_stage, update_of_ne apart]
    exact unborn

theorem Tracked.release (h : Tracked s) (held : s.stage n = .held fd) :
    Tracked (s.release n fd) where
  opened m d := by
    rw [State.release_stage, State.release_table, ← h.opened m d, update_apply]
    split
    next same => rw [same, held]; rfl
    · rfl
  listening := h.listening
  listed d := by
    simp only [State.release_stage, State.release_connections]
    rw [held_update, Finset.mem_erase, h.listed d]
    constructor
    · rintro ⟨apart, m, also⟩
      refine .inr ⟨m, ?_, also⟩
      rintro rfl
      rw [held] at also
      cases also
      exact apart rfl
    · rintro (no | ⟨m, other, also⟩)
      · cases no
      · refine ⟨?_, m, also⟩
        rintro rfl
        exact other (h.unique (by rw [also]; rfl) (by rw [held]; rfl))
  unborn m later := by
    have unborn := h.unborn m later
    have apart : m ≠ n := by
      rintro rfl
      rw [unborn] at held
      cases held
    rw [State.release_stage, update_of_ne apart]
    exact unborn

theorem Tracked.close (h : Tracked s) (released : s.stage n = .released fd) :
    Tracked (s.close n fd) where
  opened m d := by
    have opened : s.table fd = some (.stream n) := (h.opened n fd).mp (by rw [released]; rfl)
    rw [State.close_stage, State.close_table, update_apply, update_apply,
      State.setTable_stage]
    by_cases same : m = n
    · subst same
      rw [if_pos rfl]
      by_cases here : d = fd
      · simp [here, Stage.fd]
      · rw [if_neg here, ← h.opened m d, released]
        simp [Stage.fd, Ne.symm here]
    · rw [if_neg same, h.opened m d]
      by_cases here : d = fd
      · simp [here, opened, Ne.symm same]
      · rw [if_neg here]
  listening := by
    have opened : s.table fd = some (.stream n) := (h.opened n fd).mp (by rw [released]; rfl)
    exact h.listener_kept (by simp [opened]) _
  listed d := by
    simp only [State.close_stage, State.close_connections]
    rw [held_update, held_other (by simp [released]), h.listed d]
    simp
  unborn m later := by
    have unborn := h.unborn m later
    have apart : m ≠ n := by
      rintro rfl
      rw [unborn] at released
      cases released
    rw [State.close_stage, update_of_ne apart]
    exact unborn

theorem Tracked.step (h : Tracked s) {e : Event} {t : State} (step : s.step e = some t) :
    Tracked t := by
  cases e with
  | adopt fd =>
    obtain ⟨⟨_, free⟩, ⟨⟩⟩ := guarded step
    exact h.adopt free
  | accept fd =>
    obtain ⟨⟨_, free⟩, ⟨⟩⟩ := guarded step
    exact h.accept free
  | track n =>
    cases at_ : s.stage n with
    | accepted fd =>
      simp only [State.step, at_, Option.some.injEq] at step
      exact step ▸ h.track at_
    | _ => simp [State.step, at_] at step
  | release n =>
    cases at_ : s.stage n with
    | held fd =>
      simp only [State.step, at_, Option.some.injEq] at step
      exact step ▸ h.release at_
    | _ => simp [State.step, at_] at step
  | close n =>
    cases at_ : s.stage n with
    | released fd =>
      simp only [State.step, at_, Option.some.injEq] at step
      exact step ▸ h.close at_
    | _ => simp [State.step, at_] at step
  | openOther fd =>
    obtain ⟨free, ⟨⟩⟩ := guarded step
    exact h.openOther free
  | closeOther fd =>
    obtain ⟨other, ⟨⟩⟩ := guarded step
    exact h.closeOther other

end Steps

theorem tracked_reachable {s : State} (h : connectionSystem.Reachable s) : Tracked s := by
  apply h.invariant
  · rintro _ rfl
    exact tracked_initial
  · intro s e t _ tracked _ step
    exact tracked.step step

/-! ## Shutting down -/

section ShutDown

variable {s : State}

theorem shutDownAll_eq {object : Nat → Open} {l : List Nat}
    (opened : ∀ fd ∈ l, s.table fd = some (object fd)) :
    s.shutDownAll l = .ok (l.map fun fd => (object fd, .both)) := by
  induction l with
  | nil => rfl
  | cons fd l ih =>
    have first : s.shutDown fd .both = .ok (object fd, .both) := by
      simp only [State.shutDown, opened fd List.mem_cons_self]
    have rest := ih fun x mem => opened x (List.mem_cons_of_mem fd mem)
    rw [State.shutDownAll, first, rest]
    rfl

theorem Tracked.shutDownAll (h : Tracked s) {order : List Nat}
    (walk : ∀ fd, fd ∈ order ↔ fd ∈ s.connections) :
    ∃ shut, s.shutDownAll order = .ok shut ∧
      ∀ x, x ∈ shut ↔ ∃ n fd, s.stage n = .held fd ∧ x = (.stream n, .both) := by
  have opened : ∀ fd ∈ order, s.table fd = some ((s.table fd).getD .other) := by
    intro fd mem
    obtain ⟨n, held⟩ := (h.listed fd).mp ((walk fd).mp mem)
    rw [(h.opened n fd).mp (by rw [held]; rfl)]
    rfl
  refine ⟨_, shutDownAll_eq opened, ?_⟩
  intro x
  rw [List.mem_map]
  constructor
  · rintro ⟨fd, mem, rfl⟩
    obtain ⟨n, held⟩ := (h.listed fd).mp ((walk fd).mp mem)
    refine ⟨n, fd, held, ?_⟩
    rw [(h.opened n fd).mp (by rw [held]; rfl)]
    rfl
  · rintro ⟨n, fd, held, rfl⟩
    refine ⟨fd, (walk fd).mpr ((h.listed fd).mpr ⟨n, held⟩), ?_⟩
    rw [(h.opened n fd).mp (by rw [held]; rfl)]
    rfl

theorem Tracked.shutDownSockets (h : Tracked s) {order : List Nat}
    (walk : ∀ fd, fd ∈ order ↔ fd ∈ s.connections) :
    ∃ shut, s.shutDownSockets order = .ok shut ∧
      ∀ x, x ∈ shut ↔ (s.adopted ≠ none ∧ x = (.listener, .read)) ∨
        ∃ n fd, s.stage n = .held fd ∧ x = (.stream n, .both) := by
  obtain ⟨shut, done, mem⟩ := h.shutDownAll walk
  cases adopted : s.adopted with
  | none =>
    refine ⟨shut, ?_, ?_⟩
    · simp only [State.shutDownSockets, adopted, done]
    · intro x
      simp only [mem x, ne_eq, not_true_eq_false, false_and, false_or]
  | some fd =>
    have first : s.shutDown fd .read = .ok (.listener, .read) := by
      simp only [State.shutDown, h.listening fd adopted]
    refine ⟨(.listener, .read) :: shut, ?_, ?_⟩
    · simp only [State.shutDownSockets, adopted, first, done]
      rfl
    · intro x
      simp only [List.mem_cons, mem x, ne_eq, reduceCtorEq, not_false_eq_true, true_and]

end ShutDown

/-- When no accept and no drop is under way, the collection has the descriptors of the
streams that the guest holds, each for one stream; these are all the accepted connections
that are open, and `shut_down_sockets` shuts down each of them, the listener, and nothing
else. -/
theorem connections_exact {s : State} (h : connectionSystem.Reachable s) (quiet : s.Quiet) :
    (∀ fd, fd ∈ s.connections ↔ ∃! n, s.stage n = .held fd) ∧
      (∀ n fd, s.table fd = some (.stream n) ↔ s.stage n = .held fd) ∧
      ∀ order : List Nat, (∀ fd, fd ∈ order ↔ fd ∈ s.connections) →
        ∃ shut, s.shutDownSockets order = .ok shut ∧
          ∀ x, x ∈ shut ↔ (s.adopted ≠ none ∧ x = (.listener, .read)) ∨
            ∃ n fd, s.table fd = some (.stream n) ∧ x = (.stream n, .both) := by
  have tracked := tracked_reachable h
  have opened : ∀ n fd, s.table fd = some (.stream n) ↔ s.stage n = .held fd := by
    intro n fd
    rw [← tracked.opened n fd]
    by_cases born : n < s.accepts
    · have still := quiet n born
      cases at_ : s.stage n with
      | held d => simp [Stage.fd]
      | unborn => simp [Stage.fd]
      | closed => simp [Stage.fd]
      | accepted d => rw [at_] at still; cases still
      | released d => rw [at_] at still; cases still
    · rw [tracked.unborn n (by omega)]
      simp [Stage.fd]
  refine ⟨?_, opened, ?_⟩
  · intro fd
    rw [tracked.listed fd]
    constructor
    · rintro ⟨n, held⟩
      refine ⟨n, held, ?_⟩
      intro m also
      exact tracked.unique (by rw [also]; rfl) (by rw [held]; rfl)
    · rintro ⟨n, held, _⟩
      exact ⟨n, held⟩
  · intro order walk
    simp only [opened]
    exact tracked.shutDownSockets walk

/-- A number is used again while another stream's drop is between its two steps. -/
theorem connections_exact_reused :
    ∃ s, connectionSystem.Reachable s ∧ s.Quiet ∧ s.stage 0 = .closed ∧ s.stage 2 = .held 5 ∧
      5 ∈ s.connections := by
  have reached : ∃ s, connectionSystem.Reachable s ∧
      (s.Quiet ∧ s.stage 0 = .closed ∧ s.stage 2 = .held 5) :=
    System.exists_reachable_of_run (s := {})
      (l := [.adopt 3, .accept 5, .track 0, .accept 6, .release 0, .track 1, .close 0, .release 1,
        .accept 5, .close 1, .openOther 6, .track 2])
      (.init rfl) (by decide +kernel)
  obtain ⟨s, run, quiet, closed, held⟩ := reached
  obtain ⟨exact_, opened, _⟩ := connections_exact run quiet
  refine ⟨s, run, quiet, closed, held, (exact_ 5).mpr ⟨2, held, ?_⟩⟩
  intro m also
  have same := ((opened m 5).mpr also).symm.trans ((opened 2 5).mpr held)
  simpa using same

end ServiceCache.Connections
