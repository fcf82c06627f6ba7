import Mathlib.Data.List.Basic
import ServiceCache.Transition

/-!
# Holding a requested instance

`hold_instance` renews the instance's lease of thirty seconds when ten seconds brought nothing.
Whatever ends a wait starts the next one anew. Time passes only where the program waits: in
`poll`, up to its timeout, and in `read_line`, until a line is there. A renewal is answered at
once. The UTF-8 check of a line is a parameter.
-/

namespace ServiceCache.Hold

open Transition (System guarded)

def requestTtl : Nat := 30000

def requestRenewInterval : Nat := 10000

def bufferCapacity : Nat := 8192

def newline : UInt8 := 10

inductive HoldEnd
  | released
  | exited (status : Option Int)
  | failed (text : String)
  deriving DecidableEq, Repr

/-- The manager's answer to a renewal; a refusal comes with the instance as it is then, if it
can be had: whether it has exited, and its status. -/
inductive Answer
  | renewed
  | unreachable
  | refused (current : Option (Bool × Option Int))
  deriving DecidableEq, Repr

inductive Stage
  | polling (since : Nat)
  | reading (line : List UInt8)
  | ended (outcome : HoldEnd)
  deriving DecidableEq, Repr

/-- `renewed` is the time of the last renewal, or of the start; `gaps` are the times between
two renewals, the latest first. Both are history. -/
structure State where
  now : Nat := 0
  stage : Stage := .polling 0
  pending : List UInt8 := []
  buffer : List UInt8 := []
  closed : Bool := false
  signal : Bool := false
  renewed : Nat := 0
  gaps : List Nat := []
  deriving DecidableEq, Repr

inductive Event
  | elapse (time : Nat)
  | input (bytes : List UInt8)
  | close
  | raise
  | interrupt
  | timeout (answer : Answer)
  | wake
  /-- A turn of `read_line`: a line of the buffer, or another read. -/
  | read
  deriving DecidableEq, Repr

namespace State

def Ready (s : State) : Prop := s.signal = true ∨ s.pending ≠ [] ∨ s.closed = true

instance (s : State) : Decidable s.Ready := inferInstanceAs (Decidable (_ ∨ _))

def Waits (s : State) (time : Nat) : Prop :=
  match s.stage with
  | .polling since => ¬ s.Ready ∧ s.now + time ≤ since + requestRenewInterval
  | .reading _ => newline ∉ s.buffer ∧ s.pending = [] ∧ s.closed = false
  | .ended _ => True

instance (s : State) (time : Nat) : Decidable (s.Waits time) :=
  match h : s.stage with
  | .polling since => decidable_of_iff (¬ s.Ready ∧ s.now + time ≤ since + requestRenewInterval)
      (by rw [Waits, h])
  | .reading _ => decidable_of_iff (newline ∉ s.buffer ∧ s.pending = [] ∧ s.closed = false)
      (by rw [Waits, h])
  | .ended _ => isTrue (by rw [Waits, h]; trivial)

def poll (s : State) : State := { s with stage := .polling s.now }

def leave (s : State) (outcome : HoldEnd) : State := { s with stage := .ended outcome }

def renew (s : State) : Answer → State
  | .renewed => { s.poll with renewed := s.now, gaps := (s.now - s.renewed) :: s.gaps }
  | .refused (some (true, status)) => s.leave (.exited status)
  | _ => s.leave (.failed "failed to renew the instance")

def gotLine (valid : List UInt8 → Bool) (s : State) (line : List UInt8) : State :=
  if !valid line then s.leave (.failed "failed to read stdin")
  else if line = [] then s.leave .released
  else s.poll

def readLine (valid : List UInt8 → Bool) (s : State) (line : List UInt8) : Option State :=
  if newline ∈ s.buffer then
    let upTo := s.buffer.takeWhile (· ≠ newline) ++ [newline]
    some ({ s with buffer := s.buffer.drop upTo.length }.gotLine valid (line ++ upTo))
  else if s.pending ≠ [] then
    some { s with
      stage := .reading (line ++ s.buffer)
      buffer := s.pending.take bufferCapacity
      pending := s.pending.drop bufferCapacity }
  else if s.closed then some ({ s with buffer := [] }.gotLine valid (line ++ s.buffer))
  else none

def step (valid : List UInt8 → Bool) (s : State) : Event → Option State
  | .elapse time => if s.Waits time then some { s with now := s.now + time } else none
  | .input bytes => if s.closed then none else some { s with pending := s.pending ++ bytes }
  | .close => some { s with closed := true }
  | .raise => some { s with signal := true }
  | .interrupt =>
    match s.stage with
    | .polling _ => some s.poll
    | _ => none
  | .timeout answer =>
    match s.stage with
    | .polling since =>
      if since + requestRenewInterval ≤ s.now ∧ ¬ s.Ready then some (s.renew answer) else none
    | _ => none
  | .wake =>
    match s.stage with
    | .polling _ =>
      if s.signal then some (s.leave .released)
      else if s.Ready then some { s with stage := .reading [] }
      else none
    | _ => none
  | .read =>
    match s.stage with
    | .reading line => s.readLine valid line
    | _ => none

end State

def system (valid : List UInt8 → Bool) : System State Event where
  Initial s := s = {}
  next s e := s.step valid e

/-- While the instance is held, its lease is running: no two renewals are farther apart, nor
is the last one farther back. -/
def State.InTime (s : State) : Prop :=
  (∀ gap ∈ s.gaps, gap ≤ requestTtl) ∧
    ((∀ outcome, s.stage ≠ .ended outcome) → s.now ≤ s.renewed + requestTtl)

/-- The condition on a step: a wait that is cut short, and so begins anew, is cut short at
most twenty seconds after the last renewal; and what cuts it short is no unfinished line. -/
def Prompt (s : State) : Event → Prop
  | .interrupt => s.now + requestRenewInterval ≤ s.renewed + requestTtl
  | .wake => s.now + requestRenewInterval ≤ s.renewed + requestTtl ∧
      (newline ∈ s.buffer ∨ newline ∈ s.pending ∨ s.closed = true)
  | .elapse _ | .input _ | .close | .raise | .timeout _ | .read => True

instance (s : State) (e : Event) : Decidable (Prompt s e) :=
  match e with
  | .interrupt => inferInstanceAs (Decidable (_ ≤ _))
  | .wake => inferInstanceAs (Decidable (_ ∧ _))
  | .elapse _ | .input _ | .close | .raise | .timeout _ | .read => isTrue trivial

/-! ## The invariant -/

def State.LineThere (s : State) : Prop :=
  newline ∈ s.buffer ∨ newline ∈ s.pending ∨ s.closed = true

def State.Spares (s : State) : Stage → Prop
  | .polling since => s.now ≤ since + requestRenewInterval ∧
      since + requestRenewInterval ≤ s.renewed + requestTtl
  | .reading _ => s.now + requestRenewInterval ≤ s.renewed + requestTtl ∧ s.LineThere
  | .ended _ => True

structure Sound (s : State) : Prop where
  gaps : ∀ gap ∈ s.gaps, gap ≤ requestTtl
  spares : s.Spares s.stage

theorem interval_le_ttl : requestRenewInterval ≤ requestTtl := by decide

theorem Sound.inTime {s : State} (h : Sound s) : s.InTime := by
  refine ⟨h.gaps, ?_⟩
  intro held
  have spares := h.spares
  cases stage : s.stage with
  | polling since =>
    rw [stage] at spares
    exact Nat.le_trans spares.1 spares.2
  | reading line =>
    rw [stage] at spares
    exact Nat.le_trans (Nat.le_add_right _ _) spares.1
  | ended outcome => exact absurd stage (held outcome)

theorem sound_poll {s : State} (gaps : ∀ gap ∈ s.gaps, gap ≤ requestTtl)
    (spare : s.now + requestRenewInterval ≤ s.renewed + requestTtl) : Sound s.poll :=
  ⟨gaps, Nat.le_add_right _ _, spare⟩

theorem sound_leave {s : State} (gaps : ∀ gap ∈ s.gaps, gap ≤ requestTtl) (outcome : HoldEnd) :
    Sound (s.leave outcome) :=
  ⟨gaps, trivial⟩

theorem sound_gotLine {valid : List UInt8 → Bool} {s : State}
    (gaps : ∀ gap ∈ s.gaps, gap ≤ requestTtl)
    (spare : s.now + requestRenewInterval ≤ s.renewed + requestTtl) (line : List UInt8) :
    Sound (s.gotLine valid line) := by
  unfold State.gotLine
  split
  · exact sound_leave gaps _
  · split
    · exact sound_leave gaps _
    · exact sound_poll gaps spare

theorem sound_readLine {valid : List UInt8 → Bool} {s t : State} {line : List UInt8}
    (gaps : ∀ gap ∈ s.gaps, gap ≤ requestTtl) (spares : s.Spares (.reading line))
    (turn : s.readLine valid line = some t) : Sound t := by
  unfold State.readLine at turn
  split at turn
  · cases turn
    apply sound_gotLine
    · exact gaps
    · exact spares.1
  next none =>
    split at turn
    · cases turn
      refine ⟨gaps, spares.1, ?_⟩
      rcases spares.2 with here | there | closed
      · exact absurd here none
      · rw [← List.take_append_drop bufferCapacity s.pending, List.mem_append] at there
        rcases there with first | rest
        · exact .inl first
        · exact .inr (.inl rest)
      · exact .inr (.inr closed)
    · split at turn
      · cases turn
        apply sound_gotLine
        · exact gaps
        · exact spares.1
      · cases turn

theorem sound_renew {s : State} {since : Nat} (gaps : ∀ gap ∈ s.gaps, gap ≤ requestTtl)
    (spares : s.Spares (.polling since)) (answer : Answer) : Sound (s.renew answer) := by
  unfold State.renew
  split
  · refine ⟨?_, Nat.le_add_right _ _, Nat.add_le_add_left interval_le_ttl _⟩
    intro gap mem
    rcases List.mem_cons.mp mem with rfl | mem
    · have last := Nat.le_trans spares.1 spares.2
      omega
    · exact gaps gap mem
  · exact sound_leave gaps _
  · exact sound_leave gaps _

theorem sound_elapse {s : State} {time : Nat} (h : Sound s) (waits : s.Waits time) :
    Sound { s with now := s.now + time } := by
  have spares := h.spares
  unfold State.Waits at waits
  refine ⟨h.gaps, ?_⟩
  cases stage : s.stage with
  | polling since =>
    rw [stage] at spares waits
    exact ⟨waits.2, spares.2⟩
  | reading line =>
    rw [stage] at spares waits
    obtain ⟨none, nothing, unclosed⟩ := waits
    rcases spares.2 with here | there | closed
    · exact absurd here none
    · rw [nothing] at there
      cases there
    · rw [closed] at unclosed
      cases unclosed
  | ended outcome => trivial

theorem Sound.step {valid : List UInt8 → Bool} {s t : State} {e : Event} (h : Sound s)
    (prompt : Prompt s e) (step : s.step valid e = some t) : Sound t := by
  have gaps := h.gaps
  have spares := h.spares
  cases e with
  | elapse time =>
    obtain ⟨waits, ⟨⟩⟩ := guarded step
    exact sound_elapse h waits
  | input bytes =>
    obtain ⟨-, ⟨⟩⟩ := (Option.ite_none_left_eq_some ..).mp step
    refine ⟨gaps, ?_⟩
    cases stage : s.stage with
    | polling since => rw [stage] at spares; exact spares
    | reading line =>
      rw [stage] at spares
      exact ⟨spares.1, spares.2.imp_right (Or.imp_left (List.mem_append_left _))⟩
    | ended outcome => trivial
  | close =>
    cases step
    refine ⟨gaps, ?_⟩
    cases stage : s.stage with
    | polling since => rw [stage] at spares; exact spares
    | reading line => rw [stage] at spares; exact ⟨spares.1, .inr (.inr rfl)⟩
    | ended outcome => trivial
  | raise =>
    cases step
    exact ⟨gaps, spares⟩
  | interrupt =>
    unfold State.step at step
    dsimp only at step
    split at step
    · cases step
      exact sound_poll gaps prompt
    · cases step
  | timeout answer =>
    unfold State.step at step
    dsimp only at step
    split at step
    next since stage =>
      obtain ⟨-, ⟨⟩⟩ := guarded step
      rw [stage] at spares
      exact sound_renew gaps spares answer
    · cases step
  | wake =>
    unfold State.step at step
    dsimp only at step
    split at step
    · split at step
      · cases step
        exact sound_leave gaps _
      · obtain ⟨-, ⟨⟩⟩ := guarded step
        exact ⟨gaps, prompt⟩
    · cases step
  | read =>
    unfold State.step at step
    dsimp only at step
    split at step
    next line stage =>
      rw [stage] at spares
      exact sound_readLine gaps spares step
    · cases step

/-- If every wait that is cut short begins anew in time for one more, and no unfinished line
cuts one short, then the lease is always running. -/
theorem lease_running (valid : List UInt8 → Bool) (s : State)
    (h : (system valid).ReachableBy Prompt s) : s.InTime := by
  refine Sound.inTime (h.invariant ?_ ?_)
  · rintro s rfl
    exact ⟨by simp, Nat.zero_le _, Nat.add_le_add_left interval_le_ttl _⟩
  · intro s e t _ sound prompt step
    exact sound.step prompt step

/-- A line after eighteen seconds, and the renewal ten seconds later. -/
theorem lease_running_with_line :
    ∃ s, (system fun _ => true).ReachableBy Prompt s ∧ s.gaps = [18000, 10000] ∧ s.InTime := by
  have run : ∃ s, (system fun _ => true).ReachableBy Prompt s ∧ s.gaps = [18000, 10000] :=
    System.exists_reachableBy_of_runBy (s := {})
      (l := [.elapse 10000, .timeout .renewed, .elapse 8000, .input [97, 10], .wake, .read, .read,
        .elapse 10000, .timeout .renewed]) (.init rfl) (by decide +kernel)
  obtain ⟨s, reached, gaps⟩ := run
  exact ⟨s, reached, gaps, lease_running _ s reached⟩

/-- A line every nine seconds puts the renewal off, and half a line does for as long as the
other half is missing. -/
theorem input_outlasts_lease :
    (∃ s, (system fun _ => true).Reachable s ∧ s.closed = false ∧ s.signal = false ∧
      s.gaps = [37000]) ∧
      ∃ s, (system fun _ => true).Reachable s ∧ s.closed = false ∧ s.signal = false ∧
        s.stage = .reading [] ∧ s.renewed + requestTtl < s.now := by
  constructor
  · exact System.exists_reachable_of_run (s := {})
      (l := [.elapse 9000, .input [10], .wake, .read, .read, .elapse 9000, .input [10], .wake,
        .read, .read, .elapse 9000, .input [10], .wake, .read, .read, .elapse 10000,
        .timeout .renewed]) (.init rfl) (by decide +kernel)
  · exact System.exists_reachable_of_run (s := {})
      (l := [.input [97], .wake, .read, .elapse 40000]) (.init rfl) (by decide +kernel)

end ServiceCache.Hold
