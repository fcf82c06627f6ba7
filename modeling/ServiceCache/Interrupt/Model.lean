import Mathlib.Algebra.Group.Nat.Defs
import ServiceCache.Transition
import Mathlib.Logic.Function.Basic

/-!
# Signals and terminations against direct waits

One thread makes direct waits, one after another; any number of callers queue signals on it, mark
it finished, or end its waits. A wait captures the thread's interrupt generation, looks for what
is pending, and blocks in `futex_waitv`, which compares the generation and blocks at once, or in
`ppoll` on an eventfd that it registers before it compares.

The memory is sequentially consistent. A freeze is left out, so the gate
generation never moves.
-/

namespace ServiceCache.Interrupt

/-- The direct waits: `futex_wait`, the clock-only `poll_oneoff`, `direct_epoll_wait`,
`direct_poll_oneoff` and `direct_socket_wait`. -/
inductive WaitKind
  | futex
  | clock
  | epoll
  | poll
  | socket
  deriving DecidableEq, Repr

def WaitKind.onFutex : WaitKind → Bool
  | .futex | .clock => true
  | _ => false

inductive CallStage
  | idle
  | locking
  | pushing
  | flagging
  | unlocking
  | finishing
  | sending
  | bumping
  | wakingFutex
  | counting
  | wakingPoll
  deriving DecidableEq, Repr

structure Caller where
  stage : CallStage := .idle
  signal : Nat := 0
  call : Nat := 0
  deriving DecidableEq, Repr

inductive Stage
  | idle
  | capturing
  /-- `signals_pending() || should_exit()`, with the two reads of `try_finished`. -/
  | flagCheck
  | exitCheck
  | exitStatus
  | handlers
  | exiting
  | exitingStatus
  | ignoring
  | handling
  | popping
  | popLock
  | popClear
  | popTake
  /-- `signals_pending` behind `process_signals_and_exit`. -/
  | recheck
  /-- In `futex::wait`: about to call `futex_waitv`, blocked, about to load the generation. -/
  | requesting
  | asleep
  | signalled
  | registering
  | draining
  | comparing
  | polling
  | pollAsleep
  | unregistering
  | left
  deriving DecidableEq, Repr

/-- The waiting thread. `hit` says that the kernel's futex queue was woken for it, `readable` that
its eventfd holds a count, and `undrained` is what it remembers of that. `seenAt` is history: how
many interrupts there had been at the capture. -/
structure Waiter where
  stage : Stage := .idle
  kind : WaitKind := .futex
  expected : Nat := 0
  seenAt : Nat := 0
  taken : Bool := false
  /-- Deliver what is pending and start over, without the second look at the flag. -/
  again : Bool := false
  /-- A turn of `direct_poll_oneoff` with a deadline that has passed. -/
  probing : Bool := false
  hit : Bool := false
  listed : Bool := false
  readable : Bool := false
  undrained : Bool := false
  deriving DecidableEq, Repr

structure View where
  generation : Nat
  bumps : Nat
  pending : Bool
  finished : Bool
  status : Bool
  locked : Bool
  queued : Bool
  signalSet : Bool
  hasHandler : Bool

inductive Effect
  | none
  | lock
  | clear
  | take
  deriving DecidableEq, Repr

inductive Action
  | go
  | call (kind : WaitKind)
  /-- Guards reported events, so the sockets are only probed. -/
  | probe
  /-- Something outside the model ends the wait or sends it round: a descriptor or the guest word,
  the deadline, an error, a change of the set. -/
  | stop
  | round
  | hostSignal
  /-- A signal ends the thread or the call, or it is ignored; the part of
  `process_signals_and_exit` behind that may return before it asks `should_exit`. -/
  | deliver (ends looks : Bool)
  deriving DecidableEq, Repr

def Waiter.processed (w : Waiter) : Waiter :=
  if w.kind.onFutex then { w with stage := .requesting }
  else { w with stage := if w.again then .capturing else .recheck }

/-- The thread is not finished: a registered handler gets the signals. -/
def Waiter.running (w : Waiter) (v : View) : Waiter :=
  if v.signalSet && v.hasHandler then { w with stage := .popping } else w.processed

def Waiter.popped (w : Waiter) (v : View) (taken : Bool) : Waiter :=
  if v.signalSet then { w with stage := .handling, taken }
  else { w with stage := if taken then .ignoring else .exiting, taken }

def Waiter.found (w : Waiter) : Waiter :=
  if w.kind = .socket then { w with stage := .left }
  else { w with stage := .handlers, again := false }

def waiterStep (v : View) (w : Waiter) (a : Action) : Option (Waiter × Effect) :=
  match w.stage, a with
  | .idle, .call kind =>
    some ({ w with stage := .capturing, kind, probing := false, hit := false }, .none)
  | .capturing, .go =>
    some ({ w with
      stage := if w.kind.onFutex then .handlers else .flagCheck
      expected := v.generation, seenAt := v.bumps, probing := false }, .none)
  | .flagCheck, .probe =>
    if w.kind = .poll then some ({ w with stage := .registering, probing := true }, .none)
    else none
  | .flagCheck, .go =>
    some (if v.pending then w.found else { w with stage := .exitCheck }, .none)
  | .exitCheck, .go =>
    some ({ w with stage := if v.finished then .exitStatus else .registering }, .none)
  | .exitStatus, .go =>
    some (if v.status then w.found else { w with stage := .registering }, .none)
  -- `process_signals_and_exit`
  | .handlers, .go =>
    some ({ w with stage := if v.signalSet then .exiting else .popping }, .none)
  | .exiting, .go =>
    some (if v.finished then { w with stage := .exitingStatus } else w.running v, .none)
  | .exitingStatus, .go =>
    some (if v.status then { w with stage := .left } else w.running v, .none)
  | .ignoring, .deliver ends looks =>
    some (if ends then { w with stage := .left }
      else if looks then { w with stage := .exiting } else w.processed, .none)
  | .handling, .deliver ends _ =>
    some (if ends then { w with stage := .left } else w.processed, .none)
  -- `pop_signals`
  | .popping, .go =>
    some (if v.pending then { w with stage := .popLock } else w.popped v false, .none)
  | .popLock, .go => if v.locked then none else some ({ w with stage := .popClear }, .lock)
  | .popClear, .go => some ({ w with stage := .popTake }, .clear)
  | .popTake, .go => some (w.popped v v.queued, .take)
  | .recheck, .go => some ({ w with stage := if v.pending then .left else .capturing }, .none)
  -- `futex::wait`
  | .requesting, .go =>
    some (if v.generation = w.expected then { w with stage := .asleep, hit := false }
      else { w with stage := .signalled }, .none)
  | .requesting, .stop => some ({ w with stage := .left }, .none)
  | .asleep, .go => if w.hit then some ({ w with stage := .left }, .none) else none
  | .asleep, .stop => some ({ w with stage := .left }, .none)
  | .asleep, .hostSignal => some ({ w with stage := .signalled }, .none)
  | .signalled, .go =>
    some ({ w with stage := if v.generation = w.expected then .requesting else .left }, .none)
  -- `pollfd::wait`
  | .registering, .go => some ({ w with stage := .draining, listed := true }, .none)
  | .registering, .stop => some ({ w with stage := .left }, .none)
  | .registering, .round => some ({ w with stage := .capturing }, .none)
  | .draining, .go =>
    some ({ w with
      stage := .comparing, readable := w.readable && !w.undrained, undrained := false }, .none)
  | .comparing, .go =>
    some (if v.generation = w.expected then { w with stage := .polling }
      else { w with stage := .unregistering, again := true }, .none)
  | .polling, .go =>
    some (if w.readable then { w with stage := .draining, undrained := true }
      else if w.probing then { w with stage := .unregistering, again := false }
      else { w with stage := .pollAsleep }, .none)
  | .pollAsleep, .go =>
    if w.readable then some ({ w with stage := .draining, undrained := true }, .none) else none
  | .polling, .stop | .pollAsleep, .stop =>
    some ({ w with stage := .unregistering, again := false }, .none)
  | .pollAsleep, .hostSignal => some ({ w with stage := .draining }, .none)
  -- an interrupted `epoll_wait` or `poll_oneoff` delivers what is pending and goes round
  | .unregistering, .go =>
    some ({ w with
      listed := false
      stage := if w.again && !w.probing && w.kind != .socket then .handlers else .left }, .none)
  | .unregistering, .round => some ({ w with listed := false, stage := .capturing }, .none)
  | .left, .go => some ({ w with stage := .idle }, .none)
  | _, _ => none

inductive Holder
  | caller (j : Nat)
  | waiter
  deriving DecidableEq, Repr

/-- The thread's shared state, the callers and the waiting thread. `askers` are the calls whose
signal is in the queue, each with its signal and number, and `bumps` counts the interrupts. Both are
history. -/
structure State where
  callers : Nat
  signalSet : Bool
  hasHandler : Bool
  caller : Nat → Caller := fun _ => {}
  calls : Nat := 0
  lock : Option Holder := none
  queue : List Nat := []
  askers : List (Nat × Nat) := []
  pending : Bool := false
  finished : Bool := false
  status : Bool := false
  generation : Nat := 0
  bumps : Nat := 0
  others : Nat := 0
  waiter : Waiter := {}

def State.view (s : State) : View where
  generation := s.generation
  bumps := s.bumps
  pending := s.pending
  finished := s.finished
  status := s.status
  locked := s.lock.isSome
  queued := s.queue ≠ []
  signalSet := s.signalSet
  hasHandler := s.hasHandler

def State.apply (s : State) : Effect → State
  | .none => s
  | .lock => { s with lock := some .waiter }
  | .clear => { s with pending := false }
  | .take => { s with queue := [], askers := [], lock := none }

def State.setCaller (s : State) (j : Nat) (c : Caller) : State :=
  { s with caller := Function.update s.caller j c }

def State.push (s : State) (c : Caller) : List Nat :=
  if c.signal ∈ s.queue then s.queue else s.queue ++ [c.signal]

def State.waiterCount (s : State) : Nat := s.others + if s.waiter.listed then 1 else 0

def Waiter.wakeFutex (w : Waiter) : Waiter := if w.stage = .asleep then { w with hit := true } else w

def Waiter.wakePoll (w : Waiter) : Waiter := if w.listed then { w with readable := true } else w

inductive CallAction
  | go
  | signal (n : Nat)
  | finish
  /-- `interrupt_direct_wait`, a producer's waker. -/
  | interrupt
  deriving DecidableEq, Repr

/-- A step of a caller: `signal`, `set_status_finished` or `interrupt_direct_wait`. -/
def State.callerStep (s : State) (j : Nat) (a : CallAction) : Option State :=
  let c := s.caller j
  match c.stage, a with
  | .idle, .signal n =>
    some { s.setCaller j { stage := .locking, signal := n, call := s.calls } with
      calls := s.calls + 1 }
  | .locking, .go =>
    if s.lock = none then
      some { s.setCaller j { c with stage := .pushing } with lock := some (.caller j) }
    else none
  | .pushing, .go =>
    some { s.setCaller j { c with stage := .flagging } with
      queue := s.push c, askers := s.askers ++ [(c.signal, c.call)] }
  | .flagging, .go => some { s.setCaller j { c with stage := .unlocking } with pending := true }
  | .unlocking, .go => some { s.setCaller j { c with stage := .bumping } with lock := none }
  | .idle, .finish => some (s.setCaller j { c with stage := .finishing })
  | .finishing, .go => some { s.setCaller j { c with stage := .sending } with finished := true }
  | .sending, .go => some { s.setCaller j { c with stage := .bumping } with status := true }
  | .idle, .interrupt => some (s.setCaller j { c with stage := .bumping })
  | .bumping, .go =>
    some { s.setCaller j { c with stage := .wakingFutex } with
      generation := (s.generation + 1) % 2 ^ 32, bumps := s.bumps + 1 }
  | .wakingFutex, .go =>
    some { s.setCaller j { c with stage := .counting } with waiter := s.waiter.wakeFutex }
  | .counting, .go =>
    some (s.setCaller j { c with stage := if s.waiterCount = 0 then .idle else .wakingPoll })
  | .wakingPoll, .go =>
    some { s.setCaller j { c with stage := .idle } with waiter := s.waiter.wakePoll }
  | _, _ => none

inductive Event
  | caller (j : Nat) (a : CallAction)
  | waiter (a : Action)
  /-- `callback_signal` between two calls. -/
  | callback (hasHandler : Bool)
  | others (n : Nat)
  deriving DecidableEq, Repr

def State.step (s : State) : Event → Option State
  | .caller j a => if j < s.callers then s.callerStep j a else none
  | .waiter a => (waiterStep s.view s.waiter a).map fun (w, f) => { s.apply f with waiter := w }
  | .callback hasHandler =>
    if s.waiter.stage = .idle then some { s with signalSet := true, hasHandler } else none
  | .others n => some { s with others := n }

def interruptSystem : Transition.System State Event where
  Initial s := ∃ callers signalSet hasHandler, s = { callers, signalSet, hasHandler }
  next := State.step

end ServiceCache.Interrupt
