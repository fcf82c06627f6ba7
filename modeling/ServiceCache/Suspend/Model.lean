import Mathlib.Algebra.Group.Nat.Defs
import ServiceCache.Transition
import Mathlib.Logic.Function.Basic

/-!
# Guest threads as coroutines, the freeze gate, drain and resurrection

A guest thread is an OS thread whose `host_loop` drives one registered coroutine. A freeze closes
the gate, drains the loops and leaves a process of one thread; a forked child gives every
registered coroutine a fresh thread. A step is one access to something another thread can touch.

Sequentially consistent atomics. A parked thread may go on at any time, as
`std::thread::park` allows, and a kernel wait may give any answer at any time.
-/

namespace ServiceCache.Suspend

open Function

inductive WaitKind
  | future
  | futex
  | pollFd
  deriving DecidableEq, Repr

inductive Answer
  | done
  | timedOut
  | interrupted
  | unavailable
  deriving DecidableEq, Repr

/-- A wait as its coroutine yielded it. `seq` tells the waits of a coroutine apart; `epoch`
is what `try_suspend_on_pollfd` read from `POLLFD_EPOCH`. -/
structure Wait where
  kind : WaitKind
  seq : Nat
  epoch : Nat
  deriving DecidableEq, Repr

/-- Where a coroutine's own stack stands. `tls` stands for the per-thread state
(`ThreadStateHooks`) its frames rely on when it goes on. -/
inductive Frame
  | unstarted
  | running
  | suspended (wait : Wait) (tls : Nat)
  | finished
  deriving DecidableEq, Repr

/-- History of one resume out of a wait: the result the coroutine found, the `POLLFD_EPOCH` at
which it was stored, and the one at which it was consumed. -/
structure Resumption where
  wait : Wait
  answer : Option Answer
  storedIn : Nat
  epoch : Nat
  deriving DecidableEq, Repr

/-- `GuestCoro`. `result` is the cell on the suspended stack the wait is answered through
(`SuspendedFutex::result`, `SuspendedPollFd::result`, `Fused::done`); `storedIn`, `yielded` and
`resumed` are history, latest first, and no step reads them but to extend them. -/
structure Coro where
  frame : Frame := .unstarted
  pending : Option Wait := none
  threadState : Option Nat := none
  result : Option Answer := none
  storedIn : Nat := 0
  yielded : List Wait := []
  resumed : List Resumption := []
  deriving DecidableEq, Repr

def Coro.started (c : Coro) : Bool :=
  match c.frame with
  | .unstarted => false
  | _ => true

/-- Where an OS thread stands in `run_guest_thread`, `host_loop`, the waits and `retire`. -/
inductive Stage
  /-- At the start of `run_guest_thread`; the coroutine is not registered yet. -/
  | spawned
  /-- At the start of the closure `resurrect_all` hands to `spawn`. -/
  | revived
  | starting
  /-- At the head of the loop, with the local `pending`. -/
  | top
  /-- In `wait_ready`, `wait_futex` or `wait_pollfd`, before anything shared was touched. -/
  | waiting
  | knocking
  /-- `try_enter` has counted the thread and not looked at the gate. -/
  | entering
  | barred
  /-- Admitted to poll the future or to prepare the kernel wait. -/
  | inside
  | polled
  | parked
  /-- `GATE_EPOCH` was read; about to look at the gate once more. -/
  | armed
  /-- The request for the kernel is built; about to leave. -/
  | requested
  | asleep
  /-- The kernel answered; about to look at the gate. -/
  | woken
  | answered
  /-- The wait, if any, is over; about to `try_enter` for the next resume. -/
  | ready
  | admitting
  | admitted
  | running
  /-- The coroutine suspended; `resume_here` has not recorded the wait. -/
  | yielded
  | recorded
  | returned
  | unregistered
  | dropping
  | retiring
  | captured
  /-- Out of the loop; the thread has nothing left to do but end. -/
  | exiting
  | gone
  deriving DecidableEq, Repr

/-- An OS thread: `coro` numbers the coroutine it drives, `wait` is `host_loop`'s local
`pending` and then the argument of the wait, `answer` is what a poll or the kernel gave. -/
structure Thread where
  coro : Nat := 0
  stage : Stage := .gone
  wait : Option Wait := none
  answer : Option Answer := none
  gateExpected : Nat := 0
  tls : Nat := 0
  spawner : Option Nat := none
  deriving DecidableEq, Repr

structure Statics where
  active : Nat := 0
  gateClosed : Bool := false
  gateEpoch : Nat := 0
  hostLoops : Nat := 0
  pollfdEpoch : Nat := 0
  registry : List Nat := []
  deriving DecidableEq, Repr

def Statics.enter (g : Statics) : Statics := { g with active := g.active + 1 }

def Statics.leave (g : Statics) : Statics := { g with active := g.active - 1 }

/-- A thread's next access, or what the environment gives it: the outcome of a poll, the
kernel's answer, or what the guest code does while it runs. -/
inductive Action
  | go
  | poll (ready : Bool)
  | answer (a : Answer)
  | spawn
  | suspend (kind : WaitKind) (tls : Nat)
  | finish
  deriving DecidableEq, Repr

def Coro.complete (c : Coro) (g : Statics) (a : Option Answer) : Coro :=
  { c with result := a, storedIn := g.pollfdEpoch }

/-- `Fused::poll`: a future that is done is not polled again. -/
def Coro.poll (c : Coro) (g : Statics) (ready : Bool) : Coro :=
  if ready && c.result.isNone then c.complete g (some .done) else c

/-- `resume_here` up to the switch to the coroutine's stack, which finds the result of the wait
it was suspended in. -/
def Coro.resume (c : Coro) (g : Statics) : Coro :=
  { c with
    pending := none
    frame := .running
    resumed := match c.frame with
      | .suspended w _ => ⟨w, c.result, c.storedIn, g.pollfdEpoch⟩ :: c.resumed
      | _ => c.resumed }

def Coro.newWait (c : Coro) (g : Statics) (kind : WaitKind) : Wait :=
  ⟨kind, c.yielded.length, g.pollfdEpoch⟩

def Coro.suspend (c : Coro) (w : Wait) (tls : Nat) : Coro :=
  { c with frame := .suspended w tls, result := none, yielded := w :: c.yielded }

/-- The first lines of the three waits: a stored result ends a direct wait, and a descriptor
wait of an earlier epoch is answered without the kernel. -/
def beginWait (g : Statics) (t : Thread) (c : Coro) (w : Wait) : Thread × Coro :=
  match w.kind with
  | .future => ({ t with stage := .knocking }, c)
  | .futex => ({ t with stage := if c.result.isSome then .ready else .knocking }, c)
  | .pollFd =>
    if c.result.isSome then ({ t with stage := .ready }, c)
    else if w.epoch ≠ g.pollfdEpoch then
      ({ t with stage := .ready }, c.complete g (some .unavailable))
    else ({ t with stage := .knocking }, c)

/-- What a thread does next, from the statics, its own state and its coroutine. Spawning a
thread is left to `State.next`. -/
def step (g : Statics) (t : Thread) (c : Coro) (a : Action) :
    Option (Statics × Thread × Coro) :=
  match t.stage, a with
  -- `run_guest_thread`, and the closure of `resurrect_all`
  | .spawned, .go =>
    some ({ g with registry := g.registry ++ [t.coro] }, { t with stage := .starting }, c)
  | .revived, .go =>
    some (g, { t with stage := .starting, wait := c.pending, tls := c.threadState.getD t.tls }, c)
  -- `host_loop`
  | .starting, .go => some ({ g with hostLoops := g.hostLoops + 1 }, { t with stage := .top }, c)
  | .top, .go =>
    some (g, { t with stage := if t.wait.isSome then .waiting else .ready }, c)
  | .ready, .go => some (g.enter, { t with stage := .admitting }, c)
  | .admitting, .go =>
    some (g, { t with stage := if c.started && g.gateClosed then .barred else .admitted }, c)
  | .admitted, .go => some (g, { t with stage := .running, wait := none }, c.resume g)
  | .running, .suspend kind tls =>
    let w := c.newWait g kind
    some (g, { t with stage := .yielded, wait := some w, tls }, c.suspend w tls)
  | .yielded, .go => some (g, { t with stage := .recorded }, { c with pending := t.wait })
  | .recorded, .go => some (g.leave, { t with stage := .top }, c)
  | .running, .finish => some (g, { t with stage := .returned }, { c with frame := .finished })
  | .returned, .go =>
    some ({ g with registry := g.registry.filter (· ≠ t.coro) },
      { t with stage := .unregistered }, c)
  | .unregistered, .go => some (g.leave, { t with stage := .dropping }, c)
  | .dropping, .go => some ({ g with hostLoops := g.hostLoops - 1 }, { t with stage := .exiting }, c)
  -- `wait_ready`, `wait_futex`, `wait_pollfd`
  | .waiting, .go => t.wait.map fun w => (g, beginWait g t c w)
  | .knocking, .go => some (g.enter, { t with stage := .entering }, c)
  | .entering, .go => some (g, { t with stage := if g.gateClosed then .barred else .inside }, c)
  | .barred, .go => some (g.leave, { t with stage := .retiring }, c)
  | .inside, .poll ready =>
    if t.wait.map (·.kind) = some .future then
      some (g, { t with stage := .polled, answer := (c.poll g ready).result }, c.poll g ready)
    else none
  | .polled, .go =>
    some (g.leave, { t with stage := if t.answer.isSome then .ready else .parked }, c)
  | .parked, .go => some (g, { t with stage := .knocking }, c)
  | .inside, .go =>
    if t.wait.map (·.kind) = some .future then none
    else some (g, { t with stage := .armed, gateExpected := g.gateEpoch }, c)
  | .armed, .go => some (g, { t with stage := if g.gateClosed then .barred else .requested }, c)
  | .requested, .go => some (g.leave, { t with stage := .asleep }, c)
  | .asleep, .answer a => some (g, { t with stage := .woken, answer := some a }, c)
  | .woken, .go => some (g, { t with stage := if g.gateClosed then .retiring else .answered }, c)
  | .answered, .go => some (g, { t with stage := .ready }, c.complete g t.answer)
  -- `retire`
  | .retiring, .go => some (g, { t with stage := .captured }, { c with threadState := some t.tls })
  | .captured, .go => some ({ g with hostLoops := g.hostLoops - 1 }, { t with stage := .exiting }, c)
  | .exiting, .go => some (g, { t with stage := .gone }, c)
  | _, _ => none

/-- `FreezeError`, and `freeze`'s own failure when threads remain. -/
inductive FreezeError
  | timeout (active hostLoops coroutines : Nat)
  | threadsRemain
  | notSuspended (id : Nat)
  | spawn
  deriving DecidableEq, Repr

/-- Where the freezing thread stands, in the parent up to `frozen` and then in a child. -/
inductive Freezer
  | idle
  | closing
  | draining
  | ending
  | drained (coroutines : Nat)
  /-- `freeze` has seen its own thread alone. -/
  | frozen
  | forked
  /-- `resurrect_all` has checked its entries and moved `POLLFD_EPOCH`. -/
  | reviving (entries : List Nat)
  /-- `resurrect_all` has opened the gate and has these entries left. -/
  | spawning (entries : List Nat)
  | failed (error : FreezeError)
  deriving DecidableEq, Repr

structure State where
  statics : Statics := {}
  coro : Nat → Coro := fun _ => {}
  nextId : Nat := 0
  thread : Nat → Thread := fun _ => {}
  threads : Nat := 0
  freezer : Freezer := .idle

def State.driven (s : State) (i : Nat) : Coro := s.coro (s.thread i).coro

def State.addThread (s : State) (t : Thread) : State :=
  { s with thread := update s.thread s.threads t, threads := s.threads + 1 }

def State.spawn (s : State) (i : Nat) : State :=
  let s' := s.addThread { coro := s.nextId, stage := .spawned, spawner := some i }
  { s' with coro := update s.coro s.nextId {}, nextId := s.nextId + 1 }

def State.put (s : State) (i : Nat) (r : Statics × Thread × Coro) : State :=
  { s with
    statics := r.1
    thread := update s.thread i r.2.1
    coro := update s.coro (s.thread i).coro r.2.2 }

def State.guestStep (s : State) (i : Nat) (a : Action) : Option State :=
  if a = .spawn then
    if (s.thread i).stage = .running then some (s.spawn i) else none
  else (step s.statics (s.thread i) (s.driven i) a).map (s.put i)

def Statics.timeoutError (g : Statics) : FreezeError :=
  .timeout g.active g.hostLoops g.registry.length

def Statics.closeGate (g : Statics) : Statics := { g with gateClosed := true }

def Statics.moveGateEpoch (g : Statics) : Statics :=
  { g with gateEpoch := (g.gateEpoch + 1) % 2 ^ 32 }

def Statics.movePollfdEpoch (g : Statics) : Statics :=
  { g with pollfdEpoch := g.pollfdEpoch + 1 }

def Statics.openGate (g : Statics) : Statics := { g with gateClosed := false }

def State.unsuspended (s : State) : Option Nat :=
  s.statics.registry.find? fun c => (s.coro c).started && (s.coro c).pending.isNone

/-- Whether a deadline or a spawn fails the freezing thread's next step. -/
inductive Outcome
  | ok
  | fails
  deriving DecidableEq, Repr

/-- `close_gate`, `drain`, the wait of `freeze` for its last thread, `fork`, and in the child
`resurrect_all`. A run goes on in the child; the parent stays frozen. -/
def State.freezerStep (s : State) (o : Outcome) : Option State :=
  match s.freezer, o with
  | .idle, .ok => some { s with statics := s.statics.closeGate, freezer := .closing }
  | .closing, .ok => some { s with statics := s.statics.moveGateEpoch, freezer := .draining }
  | .draining, .ok => if s.statics.active = 0 then some { s with freezer := .ending } else none
  | .draining, .fails =>
    if s.statics.active = 0 then none
    else some { s with freezer := .failed s.statics.timeoutError }
  | .ending, .ok =>
    if s.statics.hostLoops = 0 then some { s with freezer := .drained s.statics.registry.length }
    else none
  | .ending, .fails =>
    if s.statics.hostLoops = 0 then none
    else some { s with freezer := .failed s.statics.timeoutError }
  -- `thread_count() == 1`
  | .drained _, .ok =>
    if ∀ i < s.threads, (s.thread i).stage = .gone then some { s with freezer := .frozen }
    else none
  | .drained _, .fails =>
    if ∀ i < s.threads, (s.thread i).stage = .gone then none
    else some { s with freezer := .failed .threadsRemain }
  -- only the forking thread lives in the child
  | .frozen, .ok => some { s with thread := fun _ => {}, freezer := .forked }
  | .forked, .ok =>
    match s.unsuspended with
    | some c => some { s with freezer := .failed (.notSuspended c) }
    | none =>
      some { s with
        statics := s.statics.movePollfdEpoch
        freezer := .reviving s.statics.registry }
  | .reviving entries, .ok =>
    some { s with statics := s.statics.openGate, freezer := .spawning entries }
  | .spawning (c :: entries), .ok =>
    some { s.addThread { coro := c, stage := .revived } with freezer := .spawning entries }
  | .spawning (_ :: _), .fails => some { s with freezer := .failed .spawn }
  | .spawning [], .ok => some { s with freezer := .idle }
  | _, _ => none

inductive Event
  | guest (thread : Nat) (action : Action)
  | freezer (outcome : Outcome)
  deriving DecidableEq, Repr

def goes (i n : Nat) : List Event := List.replicate n (.guest i .go)

def State.next (s : State) : Event → Option State
  | .guest i a => s.guestStep i a
  | .freezer o => s.freezerStep o

end ServiceCache.Suspend
