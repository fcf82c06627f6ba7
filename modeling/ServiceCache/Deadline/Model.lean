import ServiceCache.Transition

/-!
# The deadline of one blocking call

A call with a finite timeout may wait on its own thread first and hand over to the existing
path later. The model follows one such call against a clock that moves on between any two of
its steps. What interrupts, demotes or hands over the call is left open. Reading the clock and
starting the wait with what it said is one step.
-/

namespace ServiceCache.Deadline

inductive Call
  | futexWait
  | epollWait
  /-- `poll_oneoff` with one clock subscription; `SUBSCRIPTION_CLOCK_ABSTIME`. -/
  | pollClock (abstime : Bool)
  | sockConnect
  /-- A blocking read or write over this many buffers. -/
  | sockTransfer (buffers : Nat)
  deriving DecidableEq, Repr

inductive Stage
  | start
  | turn
  | direct
  | existing
  | general
  | ended (timedOut : Bool)
  deriving DecidableEq, Repr

structure Wait where
  began : Nat
  til : Option Nat
  deriving DecidableEq, Repr

/-- A call and the clock. `limit` is the last instant the host can represent. `taken` says when
`deadline` was computed, and `origin` when the timeout of the first wait began to count; these two and
`waits` are history. -/
structure State where
  call : Call
  /-- In nanoseconds; the instant itself for an absolute clock. -/
  timeout : Nat
  limit : Nat
  now : Nat
  stage : Stage := .start
  direct : Bool := false
  deadline : Option Nat := none
  til : Option Nat := none
  buffers : Nat := 0
  taken : Nat := 0
  origin : Option Nat := none
  waits : List Wait := []
  deriving DecidableEq, Repr

def State.checkedAdd (s : State) (d : Nat) : Option Nat :=
  if s.now + d ≤ s.limit then some (s.now + d) else none

def State.sleep (s : State) (abstime : Bool) : Nat := if abstime then s.timeout - s.now else s.timeout

def Call.buffers : Call → Nat
  | .sockTransfer n => n
  | _ => 0

def State.begin (s : State) (direct : Bool) : State :=
  let s := { s with direct, taken := s.now, buffers := s.call.buffers }
  match s.call with
  | .futexWait =>
    let deadline := s.checkedAdd s.timeout
    { s with deadline, stage := if direct && deadline.isSome then .turn else .existing }
  | .epollWait | .sockTransfer _ =>
    if direct then
      let deadline := s.checkedAdd s.timeout
      { s with deadline, stage := if deadline.isSome then .turn else .existing }
    else { s with stage := .existing }
  | .pollClock abstime =>
    -- a timeout of at most one nanosecond asks for what is ready now
    if s.timeout ≤ 1 then { s with stage := .ended true }
    else if direct && s.sleep abstime != 0 then
      let deadline := s.checkedAdd (s.sleep abstime)
      { s with deadline, stage := if deadline.isSome then .turn else .existing }
    else { s with stage := .existing }
  | .sockConnect =>
    if direct then { s with deadline := s.checkedAdd s.timeout, stage := .turn }
    else { s with stage := .existing }

def State.wait (s : State) (stage : Stage) (origin : Nat) (til : Option Nat) : State :=
  { s with
    stage, til, origin := some (s.origin.getD origin), waits := s.waits ++ [⟨s.now, til⟩] }

def State.rest (s : State) (deadline : Nat) : Nat := s.now + (deadline - s.now)

def State.goExisting (s : State) : State :=
  match s.call with
  | .futexWait =>
    match s.deadline with
    | some deadline => s.wait .general s.taken (some (s.rest deadline))
    | none => s.wait .general s.now (some (s.now + s.timeout))
  | .sockConnect =>
    if s.direct then
      match s.deadline with
      | some deadline =>
        if deadline ≤ s.now then { s with stage := .ended true }
        else s.wait .general s.taken (some (s.rest deadline))
      | none => s.wait .general s.taken none
    else s.wait .general s.now (some (s.now + s.timeout))
  | .pollClock abstime => s.wait .general s.now (some (s.now + s.sleep abstime))
  | .epollWait => s.wait .general s.now (some (s.now + s.timeout))
  | .sockTransfer _ =>
    { s.wait .general s.now (some (s.now + s.timeout)) with buffers := s.buffers - 1 }

def Call.rounds : Call → Bool
  | .epollWait | .sockConnect | .sockTransfer _ => true
  | _ => false

inductive Event
  | tick (d : Nat)
  | begin (direct : Bool)
  | go
  | answer
  | expire
  /-- The direct wait ends without an answer, and the call waits again. -/
  | round
  /-- A signal, a demotion, a change of the set, a host without the wait. -/
  | handOver
  /-- The existing path has filled a buffer, and the next one would block. -/
  | more
  deriving DecidableEq, Repr

def State.reached (s : State) : Bool :=
  match s.til with
  | some til => til ≤ s.now
  | none => false

def State.step (s : State) : Event → Option State
  | .tick d => some { s with now := s.now + d }
  | .begin direct => if s.stage = .start then some (s.begin direct) else none
  | .go =>
    match s.stage with
    | .turn => some (s.wait .direct s.taken s.deadline)
    | .existing => some s.goExisting
    | _ => none
  | .answer =>
    match s.stage with
    | .turn | .direct | .existing | .general => some { s with stage := .ended false }
    | _ => none
  | .expire =>
    match s.stage with
    | .direct | .general => if s.reached then some { s with stage := .ended true } else none
    | _ => none
  | .round => if s.stage = .direct ∧ s.call.rounds then some { s with stage := .turn } else none
  | .handOver =>
    match s.stage with
    | .turn | .direct => some { s with stage := .existing }
    | _ => none
  | .more =>
    if s.stage = .general ∧ 0 < s.buffers then some { s with stage := .existing } else none

def callSystem : Transition.System State Event where
  Initial s := ∃ call timeout limit now, s = { call, timeout, limit, now }
  next := State.step

end ServiceCache.Deadline
