import Mathlib.Data.Nat.Notation
import Mathlib.Logic.Function.Basic
import ServiceCache.Transition

/-!
# The wait on host descriptors

Any number of threads call `pollfd::wait`, each with an interrupt word of its choice, and any number
call `pollfd::wake`. A step is one access to what the threads share. The memory is sequentially
consistent, which is what the two fences are there for. An entry holds its thread in place of the
thread's eventfd. An eventfd's count is not bounded; a write to a full one would leave it readable.
-/

namespace ServiceCache.PollFd

open Function
open Transition

/-! ## Descriptors -/

structure HostPollFd where
  fd : Int
  events : BitVec 16
  revents : BitVec 16 := 0#16
  nbytes : Nat := 0
  deriving DecidableEq, Repr

def hostPollRead : BitVec 16 := 1#16
def hostPollWrite : BitVec 16 := 2#16
def hostPollHup : BitVec 16 := 4#16
def hostPollErr : BitVec 16 := 8#16
def hostPollRdhup : BitVec 16 := 16#16
def hostPollFdsMax : Nat := 64

def pollin : BitVec 16 := 0x1#16
def pollout : BitVec 16 := 0x4#16
def pollerr : BitVec 16 := 0x8#16
def pollhup : BitVec 16 := 0x10#16
def pollnval : BitVec 16 := 0x20#16
def pollrdhup : BitVec 16 := 0x2000#16

def mapBits (bits source target : BitVec 16) : BitVec 16 :=
  if bits &&& source ≠ 0#16 then target else 0#16

def pollEvents (wanted : HostPollFd) : BitVec 16 :=
  mapBits wanted.events hostPollRead pollin ||| mapBits wanted.events hostPollWrite pollout |||
    mapBits wanted.events hostPollRdhup pollrdhup

def hostRevents (revents : BitVec 16) : BitVec 16 :=
  mapBits revents pollin hostPollRead ||| mapBits revents pollout hostPollWrite |||
    mapBits revents pollhup hostPollHup ||| mapBits revents pollrdhup hostPollRdhup |||
    mapBits revents (pollerr ||| pollnval) hostPollErr

/-- What `ppoll` reports of a descriptor in this condition: what was asked for, and what needs no
asking. -/
def HostPollFd.reported (wanted : HostPollFd) (condition : BitVec 16) : BitVec 16 :=
  condition &&& (pollEvents wanted ||| pollerr ||| pollhup ||| pollnval)

def HostPollFd.answered (wanted : HostPollFd) (revents : BitVec 16) (stillReadable : Bool) :
    HostPollFd :=
  { wanted with
    revents := hostRevents revents
    nbytes := if hostRevents revents &&& (hostPollRdhup ||| hostPollHup) ≠ 0#16 then stillReadable.toNat
      else 0 }

/-! ## Threads -/

inductive HostPollFdResult
  | ready
  | timedOut
  | interrupted
  | unavailable
  deriving DecidableEq, Repr

/-- A word a wait was given, and its expected value. `since` is history: the number of the change
since which it has differed, or 0 if it did when the wait began. -/
structure Watch where
  address : Nat := 0
  expected : BitVec 32 := 0
  since : Option Nat := none
  deriving DecidableEq, Repr

def Watch.note (address : Nat) (value : BitVec 32) (n : Nat) (w : Watch) : Watch :=
  if w.address = address then
    { w with since := if value = w.expected then none else some (w.since.getD n) }
  else w

inductive Stage
  | outside (result : Option HostPollFdResult)
  /-- In `register`, before the lock and under it. -/
  | registering
  | counting
  | draining
  | loadingGate
  | loadingWord
  | reading
  | entering (read : Nat) (timeout : Option Nat)
  | blocked (read entered : Nat) (timeout : Option Nat)
  /-- In `unregister`, before the lock and under it. -/
  | unregistering (result : HostPollFdResult)
  | uncounting (result : HostPollFdResult)
  deriving DecidableEq, Repr

/-- `eventfd` is the thread's interrupt descriptor, if it has one, with its count; `slots` is what
`ppoll` said of the descriptors. `undrained` is the hint; a wait works on a copy, which no other
thread reads either. `turns` and `written` are history: the times `ppoll` reported the interrupt
descriptor alone, and the counts there were on it. -/
structure Thread where
  stage : Stage := .outside none
  eventfd : Option Nat := none
  undrained : Bool := false
  gate : Watch := {}
  word : Watch := {}
  deadline : Option Nat := none
  fds : List HostPollFd := []
  slots : List (BitVec 16) := []
  turns : Nat := 0
  written : Nat := 0
  deriving DecidableEq, Repr

namespace Thread

variable (t : Thread)

def count : Nat := t.eventfd.getD 0

def readable : Bool := 0 < t.count

def note (address : Nat) (value : BitVec 32) (n : Nat) : Thread :=
  { t with gate := t.gate.note address value n, word := t.word.note address value n }

def write : Thread :=
  match t.eventfd with
  | some count => { t with eventfd := some (count + 1), written := t.written + 1 }
  | none => t

def drain : Thread :=
  if t.undrained then
    { t with stage := .loadingGate, undrained := false, eventfd := t.eventfd.map fun _ => 0 }
  else { t with stage := .loadingGate }

/-- `ppoll` found these conditions; a descriptor that is asked still holds bytes or does not. -/
def answer (conditions : List (BitVec 16 × Bool)) : Thread :=
  let slots := t.fds.zipWith (fun fd c => fd.reported c.1) conditions
  let fds := t.fds.zipWith (fun fd c => fd.answered (fd.reported c.1) c.2) conditions
  if slots.any (· ≠ 0#16) then
    { t with stage := .unregistering .ready, undrained := t.readable, slots, fds }
  else { t with stage := .draining, undrained := t.readable, slots, turns := t.turns + 1 }

def close : Thread :=
  match t.eventfd with
  | some _ => { t with eventfd := none, undrained := false }
  | none => t

end Thread

/-! ## The table and its users -/

structure Waiter where
  word : Nat
  interrupt : Nat
  deriving DecidableEq, Repr

/-- A call of `wake`; `began` is history: the changes made when it began. -/
structure Wake where
  address : Option Nat
  began : Nat
  deriving DecidableEq, Repr

def Wake.names (w : Wake) (word : Nat) : Bool := w.address.all (· = word)

inductive Waker
  | idle
  | counting (w : Wake)
  | locking (w : Wake)
  | writing (w : Wake) (todo : List Waiter)
  deriving DecidableEq, Repr

inductive Holder
  | thread (i : Nat)
  | waker (j : Nat)
  deriving DecidableEq, Repr

inductive Support
  | unknown
  | supported
  | unavailable
  | disabled
  deriving DecidableEq, Repr

/-- `changes` and `finished` are history: how often a word was changed, and the wakes that have
returned. -/
structure State where
  threads : Nat → Thread
  wakers : Nat → Waker
  words : Nat → BitVec 32
  waiters : List Waiter := []
  count : Nat := 0
  lock : Option Holder := none
  support : Support := .unknown
  now : Nat := 0
  changes : Nat := 0
  finished : List Wake := []

structure HostPollFdWait where
  fds : List HostPollFd
  interrupt : Nat
  interruptExpected : BitVec 32
  gate : Nat
  gateExpected : BitVec 32
  deadline : Option Nat
  deriving DecidableEq, Repr

def swapRemove {α : Type} (l : List α) (k : Nat) : List α :=
  match l.getLast? with
  | some last => (l.set k last).dropLast
  | none => l

inductive Answer
  | error
  | eintr
  | timedOut
  | ready (conditions : List (BitVec 16 × Bool))
  deriving DecidableEq, Repr

namespace State

variable (s : State)

def modify (i : Nat) (f : Thread → Thread) : State :=
  { s with threads := update s.threads i (f (s.threads i)) }

def setStage (i : Nat) (stage : Stage) : State := s.modify i fun t => { t with stage }

def setWaker (j : Nat) (w : Waker) : State := { s with wakers := update s.wakers j w }

def watch (address : Nat) (expected : BitVec 32) : Watch :=
  { address, expected, since := if s.words address = expected then none else some 0 }

def entry (i : Nat) : Waiter := ⟨(s.threads i).word.address, i⟩

def enter (request : HostPollFdWait) (t : Thread) : Thread :=
  { t with
    stage := .registering
    eventfd := some t.count
    gate := s.watch request.gate request.gateExpected
    word := s.watch request.interrupt request.interruptExpected
    deadline := request.deadline
    fds := request.fds }

def call (i : Nat) (request : HostPollFdWait) (created : Bool) : State :=
  if s.support ≠ .supported then s.setStage i (.outside (some .unavailable))
  else if request.fds.length = 0 ∨ hostPollFdsMax < request.fds.length then
    s.setStage i (.outside (some .unavailable))
  else if (s.threads i).eventfd.isSome ∨ created then s.modify i (s.enter request)
  else { s with support := .disabled }.setStage i (.outside (some .unavailable))

def unregister (w : Waiter) : List Waiter :=
  match s.waiters.idxOf? w with
  | some k => swapRemove s.waiters k
  | none => s.waiters

def thread (i : Nat) : Option State :=
  let t := s.threads i
  match t.stage with
  | .registering =>
    if s.lock = none then
      some ({ s with
        lock := some (.thread i), waiters := s.waiters ++ [s.entry i] }.setStage i .counting)
    else none
  | .counting => some ({ s with count := s.waiters.length, lock := none }.setStage i .draining)
  | .draining => some (s.modify i Thread.drain)
  | .loadingGate =>
    some (s.setStage i (if s.words t.gate.address = t.gate.expected then .loadingWord
      else .unregistering .interrupted))
  | .loadingWord =>
    some (s.setStage i (if s.words t.word.address = t.word.expected then .reading
      else .unregistering .interrupted))
  | .reading => some (s.setStage i (.entering s.now (t.deadline.map (· - s.now))))
  | .entering read timeout => some (s.setStage i (.blocked read s.now timeout))
  | .unregistering r =>
    if s.lock = none then
      some ({ s with
        lock := some (.thread i), waiters := s.unregister (s.entry i) }.setStage i (.uncounting r))
    else none
  | .uncounting r => some ({ s with count := s.waiters.length, lock := none }.setStage i (.outside (some r)))
  | .outside _ | .blocked .. => none

def ppoll (i : Nat) (answer : Answer) : Option State :=
  let t := s.threads i
  match t.stage with
  | .blocked _ entered timeout =>
    match answer with
    | .error => some ({ s with support := .disabled }.setStage i (.unregistering .unavailable))
    | .eintr => some (s.setStage i .draining)
    | .timedOut =>
      if t.readable = false ∧ timeout.any (entered + · ≤ s.now) = true then
        some (s.setStage i (.unregistering .timedOut))
      else none
    | .ready conditions =>
      if conditions.length = t.fds.length ∧
          (t.readable || (t.fds.zipWith (fun fd c => fd.reported c.1) conditions).any (· ≠ 0#16)) then
        some (s.modify i fun t => t.answer conditions)
      else none
  | _ => none

def finish (j : Nat) (w : Wake) : State := { s.setWaker j .idle with finished := w :: s.finished }

def waker (j : Nat) : Option State :=
  match s.wakers j with
  | .idle => none
  | .counting w => some (if s.count = 0 then s.finish j w else s.setWaker j (.locking w))
  | .locking w =>
    if s.lock = none then
      some ({ s with lock := some (.waker j) }.setWaker j (.writing w s.waiters))
    else none
  | .writing w (e :: todo) =>
    some ((if w.names e.word then s.modify e.interrupt Thread.write else s).setWaker j (.writing w todo))
  | .writing w [] => some ({ s with lock := none }.finish j w)

def change (address : Nat) (value : BitVec 32) : State :=
  { s with
    words := update s.words address value
    changes := s.changes + 1
    threads := fun i => (s.threads i).note address value (s.changes + 1) }

end State

inductive Event
  /-- A thread calls `wait`; an eventfd is created, if it needs one, or not. -/
  | call (i : Nat) (request : HostPollFdWait) (created : Bool)
  | thread (i : Nat)
  | ppoll (i : Nat) (answer : Answer)
  | wake (j : Nat) (address : Option Nat)
  | waker (j : Nat)
  | change (address : Nat) (value : BitVec 32)
  | tick
  | retire (i : Nat)
  | exit (i : Nat)
  /-- `supported`, with `DISABLE_DIRECT_POLL` set or not. -/
  | decide (disable : Bool)
  deriving DecidableEq, Repr

def Stage.isOutside : Stage → Bool
  | .outside _ => true
  | _ => false

def State.step (s : State) : Event → Option State
  | .call i request created =>
    if (s.threads i).stage.isOutside then some (s.call i request created) else none
  | .thread i => s.thread i
  | .ppoll i answer => s.ppoll i answer
  | .wake j address =>
    if s.wakers j = .idle then some (s.setWaker j (.counting ⟨address, s.changes⟩)) else none
  | .waker j => s.waker j
  | .change address value => some (s.change address value)
  | .tick => some { s with now := s.now + 1 }
  | .retire i =>
    if (s.threads i).stage.isOutside ∧ s.lock = none then some (s.modify i Thread.close) else none
  | .exit i => if (s.threads i).stage.isOutside then some (s.modify i Thread.close) else none
  | .decide disable =>
    some (if s.support = .unknown then
      { s with support := if disable then .unavailable else .supported } else s)

def pollfd : System State Event where
  Initial s := ∃ (eventfd : Nat → Option Nat) (undrained : Nat → Bool) (words : Nat → BitVec 32),
    s = {
      threads := fun i =>
        { eventfd := eventfd i, undrained := undrained i, written := (eventfd i).getD 0 }
      wakers := fun _ => .idle
      words }
  next := State.step

end ServiceCache.PollFd
