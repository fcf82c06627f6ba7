import Mathlib.Algebra.Group.Nat.Defs
import ServiceCache.Transition
import Mathlib.Logic.Function.Basic

/-!
# Guest futex waits on one word

A waiter waits in the kernel (`futex_waitv` on its interrupt generation, the gate generation and
the guest word) or, where that is not possible or was interrupted, in the runtime's futex table.
Any number of guest threads share the word; signals, a freeze and the loss of the kernel backend
come in between at any step.

The kernel compares and blocks atomically, and a waiter that was woken on the
guest word reports that word, whatever else woke it.
-/

namespace ServiceCache.Futex

open Function

inductive HostFutexResult
  | woken
  | timedOut
  | interrupted
  | unavailable
  deriving DecidableEq, Repr

inductive Support
  | unknown
  | supported
  | unavailable
  | disabled
  deriving DecidableEq, Repr

def Support.wakes : Support → Bool
  | .supported | .disabled => true
  | _ => false

inductive Gate
  | open_
  | stored
  | moved
  | closed
  deriving DecidableEq, Repr

/-- Where a guest thread stands in `futex_wait`, `wait_futex`, `futex::wait`, `futex_wake` or
`futex_wake_all`. -/
inductive Stage
  | idle
  /-- The interrupt generation is captured. -/
  | called
  /-- On the direct path, about to read the word. -/
  | reading
  /-- In `try_suspend_on_futex`, about to ask for the backend once more. -/
  | suspending
  /-- Suspended; its loop is about to `try_enter` in `wait_futex`. -/
  | waiting
  | entered
  /-- `GATE_EPOCH` is read; about to look at the gate once more. -/
  | armed
  | requesting
  | asleep
  /-- `EAGAIN`, about to load the generations. -/
  | again
  /-- `EAGAIN` and unchanged generations, about to load the word. -/
  | againWord
  /-- `EINTR`, about to load the generations. -/
  | signalled
  /-- `futex::wait` returned; about to look at the gate. -/
  | answered
  /-- The result is stored; about to `try_enter` for the resume. -/
  | stored
  /-- Its loop retired without a result, or with one. -/
  | retired
  | kept
  | resumed
  | fallback
  | registered
  /-- Suspended on its `FutexPoller`. -/
  | tabled
  /-- In `futex_wake`, about to wake in the kernel, and then in the table. -/
  | waking
  | wakingTable
  /-- In `futex_wake_all`, about to wake in the kernel, and then in the table. -/
  | wakingAll
  | wakingAllTable
  deriving DecidableEq, Repr

/-- A guest thread. `hitWord` and `hitGeneration` say which of its words a sleeping thread was
woken on; `returned` is `ret_woken` of its last `futex_wait`. The rest is history: when the call
began, when it last found its expected value and went to wait, whether `futex_wake` counted it,
and for a waker the value it stored last and when its call began. -/
structure Thread where
  stage : Stage := .idle
  expected : Nat := 0
  timed : Bool := false
  interruptExpected : Nat := 0
  gateExpected : Nat := 0
  hitWord : Bool := false
  hitGeneration : Bool := false
  result : Option HostFutexResult := none
  returned : Option Bool := none
  callAt : Nat := 0
  lookAt : Nat := 0
  counted : Bool := false
  storedValue : Nat := 0
  storedAt : Nat := 0
  beganAt : Nat := 0
  deriving DecidableEq, Repr

/-- What a thread reads of the process: the word, the gate, its interrupt generation, the
backend, whether its entry is in the table, and the time. -/
structure View where
  word : Nat
  gateClosed : Bool
  gateEpoch : Nat
  interrupt : Nat
  support : Support
  inTable : Bool
  now : Nat

inductive Effect
  | none
  | register
  | unregister
  | disable
  deriving DecidableEq, Repr

/-- A thread's next access, or what decides it: the route of a wait, a deadline that has passed,
a host signal, an error of the kernel, and the waiter a `futex_wake` picks. -/
inductive Action
  | wait (expected : Nat) (timed : Bool)
  | route (direct : Bool)
  | go
  | deadline
  | hostSignal
  | error
  | wake
  | pick (waiter : Nat)
  | wakeAll
  | store (value : Nat)
  deriving DecidableEq, Repr

def Thread.give (t : Thread) (r : HostFutexResult) : Thread :=
  { t with stage := .answered, result := some r }

def Thread.finish (t : Thread) (woken : Bool) : Thread :=
  { t with stage := .idle, returned := some woken }

def Thread.changed (t : Thread) (v : View) : Bool :=
  v.gateEpoch != t.gateExpected || v.interrupt != t.interruptExpected

/-- The kernel finds all three words unchanged and blocks, or answers `EAGAIN`. -/
def Thread.block (t : Thread) (v : View) : Thread :=
  if v.word = t.expected ∧ t.changed v = false then
    { t with stage := .asleep, hitWord := false, hitGeneration := false, lookAt := v.now }
  else { t with stage := .again }

/-- A waiter's step: `futex_wait` and what it calls. Behind the registration stands the
runtime's own code, which inserts the entry before it reads the word and then waits for the
entry to go. -/
def waitStep (v : View) (t : Thread) (a : Action) : Option (Thread × Effect) :=
  match t.stage, a with
  | .idle, .wait expected timed =>
    some ({ t with
      stage := .called, expected, timed, interruptExpected := v.interrupt, result := none,
      returned := none, counted := false, callAt := v.now }, .none)
  -- a word that is shared, unstable or out of reach of the backend goes to the table
  | .called, .route false => some ({ t with stage := .fallback }, .none)
  | .called, .route true =>
    if v.support = .supported then some ({ t with stage := .reading }, .none) else none
  | .reading, .go =>
    if v.word ≠ t.expected then some (t.finish true, .none)
    else some ({ t with stage := .suspending }, .none)
  | .suspending, .go =>
    some ({ t with stage := if v.support = .supported then .waiting else .fallback }, .none)
  -- `wait_futex`
  | .waiting, .go => some ({ t with stage := if v.gateClosed then .retired else .entered }, .none)
  | .entered, .go => some ({ t with stage := .armed, gateExpected := v.gateEpoch }, .none)
  | .armed, .go =>
    some ({ t with stage := if v.gateClosed then .retired else .requesting }, .none)
  -- `futex::wait`
  | .requesting, .go => some (t.block v, .none)
  | .requesting, .error => some (t.give .unavailable, .disable)
  | .asleep, .go =>
    if t.hitWord then some (t.give .woken, .none)
    else if t.hitGeneration then some (t.give .interrupted, .none)
    else none
  | .asleep, .deadline =>
    if t.timed && !t.hitWord && !t.hitGeneration then some (t.give .timedOut, .none) else none
  | .asleep, .hostSignal =>
    if !t.hitWord && !t.hitGeneration then some ({ t with stage := .signalled }, .none) else none
  | .signalled, .go =>
    some (if t.changed v then t.give .interrupted else { t with stage := .requesting }, .none)
  | .again, .go =>
    some (if t.changed v then t.give .interrupted else { t with stage := .againWord }, .none)
  | .againWord, .go =>
    some (if v.word ≠ t.expected then t.give .woken else { t with stage := .requesting }, .none)
  | .againWord, .deadline =>
    if v.word = t.expected ∧ t.timed then some (t.give .timedOut, .none) else none
  -- back in `wait_futex`: a closed gate drops the answer
  | .answered, .go =>
    some (if v.gateClosed then { t with stage := .retired, result := none }
      else { t with stage := .stored }, .none)
  | .stored, .go => some ({ t with stage := if v.gateClosed then .kept else .resumed }, .none)
  -- back in `futex_wait`
  | .resumed, .go =>
    some (match t.result with
      | some .woken => t.finish true
      | some .timedOut => t.finish false
      | _ => { t with stage := .fallback }, .none)
  | .fallback, .go => some ({ t with stage := .registered }, .register)
  | .registered, .go =>
    if v.word ≠ t.expected then some (t.finish true, .unregister)
    else some ({ t with stage := .tabled, lookAt := v.now }, .none)
  | .tabled, .go => if v.gateClosed || v.inTable then none else some (t.finish true, .none)
  | .tabled, .deadline =>
    if t.timed && !v.gateClosed && v.inTable then some (t.finish false, .unregister) else none
  | _, _ => none

/-- History of a completed `futex_wake_all`: the value its thread had stored last, when, and
when the call began. -/
structure Notice where
  value : Nat
  storedAt : Nat
  beganAt : Nat
  deriving DecidableEq, Repr

/-- One process lineage: a fork goes on in the child. `wordAt` and `notices` are history. -/
structure State where
  word : Nat
  threads : Nat
  support : Support := .unknown
  gate : Gate := .open_
  gateEpoch : Nat := 0
  interrupt : Nat → Nat := fun _ => 0
  table : List Nat := []
  thread : Nat → Thread := fun _ => {}
  clock : Nat := 0
  wordAt : Nat → Nat := fun _ => 0
  notices : List Notice := []

def State.view (s : State) (i : Nat) : View where
  word := s.word
  gateClosed := s.gate != .open_
  gateEpoch := s.gateEpoch
  interrupt := s.interrupt i
  support := s.support
  inTable := s.table.contains i
  now := s.clock

def State.setThread (s : State) (i : Nat) (t : Thread) : State :=
  { s with thread := update s.thread i t }

def State.effect (s : State) (i : Nat) : Effect → State
  | .none => s
  | .register => { s with table := s.table ++ [i] }
  | .unregister => { s with table := s.table.filter (· ≠ i) }
  | .disable => { s with support := .disabled }

def Thread.queued (t : Thread) : Bool := t.stage == .asleep && !t.hitWord

def Thread.hit (t : Thread) : Thread := if t.queued then { t with hitWord := true } else t

def Thread.disturb (t : Thread) : Thread :=
  if t.stage = .asleep then { t with hitGeneration := true } else t

def State.anyQueued (s : State) : Bool :=
  (List.range s.threads).any fun j => (s.thread j).queued

/-- A waker's step: a store, `futex_wake` and `futex_wake_all`. -/
def State.wakeStep (s : State) (i : Nat) (a : Action) : Option State :=
  let t := s.thread i
  match t.stage, a with
  | .idle, .store value =>
    some { s.setThread i { t with storedValue := value, storedAt := s.clock } with word := value }
  | .idle, .wake => some (s.setThread i { t with stage := .waking })
  | .waking, .pick j =>
    if s.support.wakes && (s.thread j).queued then
      some ((s.setThread j { s.thread j with hitWord := true, counted := true }).setThread i
        { t with stage := .idle })
    else none
  | .waking, .go =>
    if s.support.wakes && s.anyQueued then none
    else some (s.setThread i { t with stage := .wakingTable })
  | .wakingTable, .pick j =>
    if j ∈ s.table then
      some { s.setThread i { t with stage := .idle } with table := s.table.filter (· ≠ j) }
    else none
  | .wakingTable, .go =>
    if s.table = [] then some (s.setThread i { t with stage := .idle }) else none
  | .idle, .wakeAll => some (s.setThread i { t with stage := .wakingAll, beganAt := s.clock })
  | .wakingAll, .go =>
    let woken : State :=
      if s.support.wakes then { s with thread := fun j => (s.thread j).hit } else s
    some (woken.setThread i { t with stage := .wakingAllTable })
  | .wakingAllTable, .go =>
    some { s.setThread i { t with stage := .idle } with
      table := []
      notices := ⟨t.storedValue, t.storedAt, t.beganAt⟩ :: s.notices }
  | _, _ => none

/-- `close_gate`: the flag, the generation, and the wake of everybody asleep on it. -/
def State.closeGate (s : State) : Option State :=
  match s.gate with
  | .open_ => some { s with gate := .stored }
  | .stored => some { s with gate := .moved, gateEpoch := (s.gateEpoch + 1) % 2 ^ 32 }
  | .moved => some { s with gate := .closed, thread := fun j => (s.thread j).disturb }
  | .closed => none

def Stage.suspended : Stage → Bool
  | .idle | .retired | .kept | .tabled => true
  | _ => false

/-- `resurrect_all` re-enters the recorded wait of each coroutine. -/
def Thread.revive (t : Thread) : Thread :=
  match t.stage with
  | .retired => { t with stage := .waiting }
  | .kept => { t with stage := .stored }
  | _ => t

/-- The freeze comes to its end, the process forks, and the run goes on in the child. -/
def State.resurrect (s : State) : Option State :=
  if s.gate = .closed ∧ ∀ i < s.threads, (s.thread i).stage.suspended = true then
    some { s with gate := .open_, thread := fun i => (s.thread i).revive }
  else none

inductive Event
  | thread (i : Nat) (a : Action)
  /-- The first question for the backend probes the kernel. -/
  | probe (supported : Bool)
  /-- `interrupt_waits`, in its two steps. -/
  | interrupt (i : Nat)
  | interruptWake (i : Nat)
  | closeGate
  | resurrect
  deriving DecidableEq, Repr

def State.threadStep (s : State) (i : Nat) (a : Action) : Option State :=
  if i < s.threads then
    match waitStep (s.view i) (s.thread i) a with
    | some (t, effect) => some ((s.effect i effect).setThread i t)
    | none => s.wakeStep i a
  else none

def State.step (s : State) : Event → Option State
  | .thread i a => s.threadStep i a
  | .probe supported =>
    if s.support = .unknown then
      some { s with support := if supported then .supported else .unavailable }
    else none
  | .interrupt i =>
    some { s with interrupt := update s.interrupt i ((s.interrupt i + 1) % 2 ^ 32) }
  | .interruptWake i => some (s.setThread i (s.thread i).disturb)
  | .closeGate => s.closeGate
  | .resurrect => s.resurrect

def State.tick (s t : State) : State :=
  { t with clock := s.clock + 1, wordAt := update s.wordAt s.clock s.word }

def futexSystem : Transition.System State Event where
  Initial s := ∃ word threads, s = { word, threads }
  next s e := (s.step e).map s.tick

end ServiceCache.Futex
