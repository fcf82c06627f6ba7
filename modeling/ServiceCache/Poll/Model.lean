import Mathlib.Data.List.Basic
import Mathlib.Algebra.Group.Nat.Defs
import ServiceCache.Transition

/-!
# The waits of `poll_oneoff` on the calling thread

A call with one clock subscription sleeps until its deadline. A call with sockets is served by
`direct_poll_oneoff`. What the thread asks of code outside the patches (a guard's poll, a signal
to process, a host descriptor) is answered by the event. Both clocks are counted in nanoseconds;
`Instant` and the monotonic clock are one clock.
-/

namespace ServiceCache.PollOneoff

open Transition

structure Bits where
  read : Bool := false
  write : Bool := false
  hup : Bool := false
  err : Bool := false
  rdhup : Bool := false
  deriving DecidableEq, Repr

def Bits.reported (level asked : Bits) : Bits where
  read := level.read && asked.read
  write := level.write && asked.write
  hup := level.hup
  err := level.err
  rdhup := level.rdhup && asked.rdhup

def Bits.any (b : Bits) : Bool := b.read || b.write || b.hup || b.err || b.rdhup

inductive EventType
  | clock
  | fdRead
  | fdWrite
  deriving DecidableEq, Repr

inductive Errno
  | success
  | io
  | other (code : Nat)
  deriving DecidableEq, Repr

structure Event where
  userdata : Nat
  error : Errno := .success
  type_ : EventType
  nbytes : Nat := 0
  hangup : Bool := false
  deriving DecidableEq, Repr

structure DirectSub where
  write : Bool
  userdata : Nat
  deriving DecidableEq, Repr

def DirectSub.type_ (sub : DirectSub) : EventType := if sub.write then .fdWrite else .fdRead

/-- `direct_sub_kind`. -/
def DirectSub.wanted (sub : DirectSub) : Bits :=
  if sub.write then { write := true } else { read := true, rdhup := true }

def directSubEvent (sub : DirectSub) (revents : Bits) (nbytes : Nat) : Option Event :=
  let ended := revents.rdhup || revents.hup
  let failed := revents.err
  let ready := revents.read && sub.wanted.read || revents.write && sub.wanted.write
  if !failed && !ready && !ended then none
  else
    let unread := !sub.write && decide (0 < nbytes)
    let (count, error) :=
      if failed then (0, Errno.io)
      else if ended && !unread then (0, Errno.success)
      else (1, Errno.success)
    some { userdata := sub.userdata, error, type_ := sub.type_, nbytes := count,
           hangup := count == 0 }

/-! ## Clocks -/

inductive ClockId
  | realtime
  | monotonic
  deriving DecidableEq, Repr

/-- `SubscriptionClock`, with its userdata. -/
structure Clock where
  id : ClockId
  timeout : Nat
  absolute : Bool
  userdata : Nat
  timeout_lt : timeout < 2 ^ 64 := by decide
  deriving DecidableEq, Repr

structure Readings where
  monotonic : Nat
  realtime : Nat
  deriving DecidableEq, Repr

def Readings.of (r : Readings) : ClockId → Nat
  | .realtime => r.realtime
  | .monotonic => r.monotonic

def instantMax : Nat := 2 ^ 63 * 10 ^ 9

def checkedAdd (now timeout : Nat) : Option Nat :=
  if now + timeout ≤ instantMax then some (now + timeout) else none

/-- The sleep of the clock-only call; an absolute time is taken to be on the monotonic clock. -/
def Clock.sleep (c : Clock) (monotonic : Nat) : Nat :=
  if c.absolute then c.timeout - monotonic else c.timeout

/-- The deadline of the clock-only call, from a reading of the monotonic clock and a later one of
`Instant::now`; without one the general path runs. -/
def clockOnlyDeadline (c : Clock) (monotonic now : Nat) : Option Nat :=
  if 1 < c.timeout ∧ c.sleep monotonic ≠ 0 then checkedAdd now (c.sleep monotonic) else none

def Clock.remaining (c : Clock) (start : Readings) : Nat :=
  if c.absolute then c.timeout - start.of c.id else c.timeout

def timeToSleep (clocks : List Clock) (start : Readings) : Option Nat :=
  (clocks.map (·.remaining start)).min?

def directPollDeadline (now : Nat) : Option Nat → Option (Option Nat)
  | none => some none
  | some 0 => some (some now)
  | some timeout => (checkedAdd now timeout).map some

inductive Source
  | direct (i : Nat)
  | guard (j : Nat)
  | clock (k : Nat)
  deriving DecidableEq, Repr

abbrev Reported := Source × Event

def Clock.event (c : Clock) : Event := { userdata := c.userdata, type_ := .clock }

def tagged {α : Type} (tag : Nat → Source) (f : α → Nat → List Event) (l : List α) :
    List Reported :=
  l.zipIdx.flatMap fun (a, i) => (f a i).map (tag i, ·)

def directClockEvents (clocks : List Clock) : List Reported :=
  tagged .clock (fun c _ => [c.event]) clocks

/-! ## The call -/

/-- A call of `direct_poll_oneoff`: its sockets, the number of its other descriptors, and its
clocks with the readings at the start. The realtime clock may be set forward at any time, and
back if `setBack`. -/
structure Call where
  direct : List DirectSub
  guards : Nat
  clocks : List Clock
  start : Readings
  setBack : Bool
  start_lt : start.monotonic < 2 ^ 64 := by decide

inductive Reason
  | setTooLarge
  | deadlineOverflow
  | descriptorUnresolvable
  | signalUndeliverable
  | hostUnavailable
  deriving DecidableEq, Repr

inductive Outcome
  | events (l : List Reported)
  | timeout (l : List Reported)
  | errno (e : Errno)
  | fallthrough (reason : Option Reason)
  | error
  deriving DecidableEq, Repr

inductive HostPollFdResult
  | timedOut
  | interrupted
  | unavailable
  deriving DecidableEq, Repr

inductive Stage
  | sorting
  | arming
  | turning
  | polling
  | resolving
  | checking
  | processing
  /-- In `try_suspend_on_pollfd`: before it, in the host loop, before the two compares, and in
  the kernel. -/
  | suspending
  | entering
  | comparingGate
  | comparingWord
  | waiting
  | again
  | handling
  | answered (o : Outcome)
  deriving DecidableEq, Repr

/-- The thread in the call, what it shares with the others, and the clocks. `produced`, `lapsed`
and `at_` are history: the events of the guards, the sockets that were not ready at some time
since the call began, and the readings at the answer. -/
structure State where
  now : Nat
  realtime : Nat
  word : UInt32
  gate : UInt32
  level : Nat → Bits
  signals : Bool
  exit : Bool
  epoch : Nat
  stage : Stage := .sorting
  deadline : Option Nat := none
  turnDeadline : Option Nat := none
  captured : UInt32 := 0
  gateExpected : UInt32 := 0
  epochSeen : Nat := 0
  events : List Reported := []
  probing : Bool := false
  produced : List Reported := []
  lapsed : Nat → Bool
  at_ : Readings := ⟨0, 0⟩

/-- What `process_signals_and_exit` does: an error of its own, an error code for the call, or
nothing, and then a signal may be left. -/
inductive Processed
  | error
  | errno (e : Errno)
  | done (left : Bool)
  deriving DecidableEq, Repr

/-- What ends `ppoll`. `ready` comes with what `still_readable` found. -/
inductive Kernel
  | eintr
  | failed
  | interrupt
  | expired
  | ready (nbytes : List Nat)
  deriving DecidableEq, Repr

inductive Step
  | sort (refused : Bool)
  | arm
  | turn (fails : Bool)
  | guards (answers : List (List Event))
  | resolve (gone : Bool)
  | check
  | process (p : Processed)
  | suspend (possible : Bool)
  | enter (available : Bool)
  | compareGate
  | compareWord
  | kernel (k : Kernel)
  /-- A freeze takes the thread, which enters the wait again when it is back. -/
  | retire
  /-- Another thread, or a peer: a waker or a signal moves the word, the gate is closed, a signal
  is queued, the thread is finished, a fork rebuilds the descriptors, a socket changes. -/
  | wake
  | closeGate
  | signal
  | terminate
  | fork
  | level (i : Nat) (bits : Bits)
  | tick (n : Nat)
  | setRealtime (r : Nat)
  deriving DecidableEq, Repr

def directPollCap : Nat := 64

section Call

variable (call : Call)

def State.answer (s : State) (o : Outcome) : State :=
  { s with stage := .answered o, at_ := ⟨s.now, s.realtime⟩ }

def guardEvents (answers : List (List Event)) : List Reported :=
  tagged .guard (fun l _ => l) answers

def State.revents (s : State) (i : Nat) (sub : DirectSub) : Bits :=
  (s.level i).reported sub.wanted

def State.anyReady (s : State) : Bool :=
  call.direct.zipIdx.any fun (sub, i) => (s.revents i sub).any

def State.directEvents (s : State) (nbytes : List Nat) : List Reported :=
  tagged .direct
    (fun sub i => (directSubEvent sub (s.revents i sub) (nbytes.getD i 0)).toList) call.direct

def directPollAnswer (events : List Reported) : Outcome :=
  if events = [] then .fallthrough (some .descriptorUnresolvable) else .events events

def State.waited (s : State) (r : HostPollFdResult) : State :=
  if s.probing then s.answer (.events s.events)
  else
    match r with
    | .interrupted => { s with stage := .handling }
    | .timedOut => s.answer (.timeout (directClockEvents call.clocks))
    | .unavailable =>
      if s.epoch ≠ s.epochSeen then { s with stage := .turning }
      else s.answer (.fallthrough (some .hostUnavailable))

def State.kernel (s : State) : Kernel → Option State
  | .eintr => some { s with stage := .comparingGate }
  | .failed => some (s.waited call .unavailable)
  | .interrupt =>
    if s.anyReady call = false then some { s with stage := .comparingGate } else none
  | .expired =>
    if s.anyReady call = false ∧ s.turnDeadline.any (· ≤ s.now) then
      some (s.waited call .timedOut)
    else none
  | .ready nbytes =>
    if s.anyReady call = true then
      let events := s.events ++ s.directEvents call nbytes
      if s.probing then some ({ s with events }.answer (.events events))
      else some { s with stage := .again, events }
    else none

def State.step (s : State) (e : Step) : Option State :=
  match s.stage, e with
  | .sorting, .sort refused =>
    some (if directPollCap < call.direct.length then
        s.answer (.fallthrough (some .setTooLarge))
      else if refused ∨ call.direct = [] then s.answer (.fallthrough none)
      else { s with stage := .arming })
  | .arming, .arm =>
    some (match directPollDeadline s.now (timeToSleep call.clocks call.start) with
      | none => s.answer (.fallthrough (some .deadlineOverflow))
      | some deadline => { s with stage := .turning, deadline })
  | .turning, .turn fails =>
    some (if fails then s.answer .error
      else { s with stage := .polling, captured := s.word, events := [] })
  | .polling, .guards answers =>
    if answers.length = call.guards then
      some { s with
        stage := .resolving, events := guardEvents answers
        produced := s.produced ++ guardEvents answers }
    else none
  | .resolving, .resolve gone =>
    some (if gone then s.answer (directPollAnswer s.events) else { s with stage := .checking })
  | .checking, .check =>
    let probing := !s.events.isEmpty
    some (if !probing && (s.signals || s.exit) then { s with stage := .processing, probing }
      else
        { s with
          stage := .suspending, probing
          turnDeadline := if probing then some s.now else s.deadline })
  | .processing, .process p =>
    some (match p with
      | .error => s.answer .error
      | .errno e => s.answer (.errno e)
      | .done true => { s.answer (.fallthrough (some .signalUndeliverable)) with signals := true }
      | .done false => { s with stage := .turning, signals := false })
  | .suspending, .suspend possible =>
    let s := { s with epochSeen := s.epoch }
    some (if possible then { s with stage := .entering } else s.waited call .unavailable)
  | .entering, .enter available =>
    some (if available then { s with stage := .comparingGate, gateExpected := s.gate }
      else s.waited call .unavailable)
  | .comparingGate, .compareGate =>
    some (if s.gate ≠ s.gateExpected then s.waited call .interrupted
      else { s with stage := .comparingWord })
  | .comparingWord, .compareWord =>
    some (if s.word ≠ s.captured then s.waited call .interrupted
      else { s with stage := .waiting })
  | .waiting, .kernel k => s.kernel call k
  | .comparingGate, .retire | .comparingWord, .retire | .waiting, .retire =>
    some { s with stage := .entering }
  | .again, .guards answers =>
    if answers.length = call.guards then
      let events := s.events ++ guardEvents answers
      let s := { s with events, produced := s.produced ++ guardEvents answers }
      some (if events = [] then { s with stage := .turning } else s.answer (.events events))
    else none
  | .handling, .process p =>
    some (match p with
      | .error => s.answer .error
      | .errno e => s.answer (.errno e)
      | .done left => { s with stage := .turning, signals := left })
  -- the others
  | _, .wake => some { s with word := s.word + 1 }
  | _, .closeGate => some { s with gate := s.gate + 1 }
  | _, .signal => some { s with signals := true }
  | _, .terminate => some { s with exit := true }
  | _, .fork => some { s with epoch := s.epoch + 1 }
  | _, .level i bits =>
    some { s with
      level := Function.update s.level i bits
      lapsed := fun j => s.lapsed j || j == i && call.direct[i]?.any fun sub =>
        !(bits.reported sub.wanted).any }
  | _, .tick n => some { s with now := s.now + n, realtime := s.realtime + n }
  | _, .setRealtime r =>
    if call.setBack = true ∨ s.realtime ≤ r then some { s with realtime := r } else none
  | _, _ => none

def Call.lapses (level : Nat → Bits) (i : Nat) : Bool :=
  call.direct[i]?.any fun sub => !((level i).reported sub.wanted).any

def State.start (word gate : UInt32) (level : Nat → Bits) (signals exit : Bool) (epoch : Nat) :
    State :=
  { now := call.start.monotonic, realtime := call.start.realtime, word, gate, level, signals, exit,
    epoch, lapsed := call.lapses level }

def directPoll : System State Step where
  Initial s := ∃ word gate level signals exit epoch,
    s = State.start call word gate level signals exit epoch
  next := State.step call

end Call

end ServiceCache.PollOneoff
