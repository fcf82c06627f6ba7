import ServiceCache.Transition
import Mathlib.Logic.Function.Basic

/-!
# One epoll set with direct-served subscriptions

A subscription on a socket is served by the selector, through a dispatcher on the socket, or by
the thread that waits on the set. Registration claims it for the second kind and then looks for
threads in the general wait; a thread on its way there counts itself in and then looks for
claimed subscriptions, which it demotes.

A step is one access to what the threads share. `epoll_ctl` around `prepare_add`, `prepare_mod`,
`apply_del` and `restore_subscription` is as the registration describes it: a change that cannot
be registered is rolled back, and the restored subscription is registered again.
-/

namespace ServiceCache.Epoll

open Function

/-- What a descriptor number names: `source` is an event notification or a readable pipe,
`file` a descriptor without handlers. -/
inductive Target
  | closed
  | socket (k : Nat)
  | source
  | file
  deriving DecidableEq, Repr

/-- `EpollSubState`. `broken` says that `EPOLLERR` and `EPOLLHUP` were queued for it. -/
structure Sub where
  fd : Nat := 0
  /-- Neither `EPOLLET` nor `EPOLLONESHOT`. -/
  level : Bool := false
  direct : Bool := false
  directSocket : Option Nat := none
  broken : Bool := false
  deriving DecidableEq, Repr

inductive Purpose
  | enter
  | check
  | collect
  | watch
  deriving DecidableEq, Repr

inductive Stage
  | idle
  /-- In `register_epoll_handler_inner`, about to `get_fd_inode`, and to `poll_fd_guard`. -/
  | inode
  | polling
  /-- In `claim_direct_serving_when`: the two halves of `clear_direct`, the look at the candidate,
  the two halves of `set_direct`, the count, and the two halves of `clear_direct` again. -/
  | claiming
  | claimingSocket
  | deciding
  | naming
  | flagging
  | counting
  | refusing
  | refusingSocket
  /-- In `install_epoll_handler`, with and without a dispatcher to install. -/
  | installing
  | subscribing
  | failed
  | collecting
  | picking
  | demoted
  | demotedSocket
  /-- In `epoll_wait`: about to look for direct-served subscriptions, in `direct_epoll_wait`,
  about to `enter_blocking`, about to look again, and in the general wait. -/
  | waiting
  | direct
  | entering
  | checking
  | general
  | scanning (purpose : Purpose)
  deriving DecidableEq, Repr

inductive Rollback
  | remove
  | restore (previous : Nat)
  | keep
  deriving DecidableEq, Repr

/-- A guest thread with the locals of its call. `guard` is its `BlockingWaitGuard`. -/
structure Thread where
  stage : Stage := .idle
  sub : Nat := 0
  allowDirect : Bool := false
  expected : Option Nat := none
  mode : Target := .closed
  rollback : Rollback := .keep
  toScan : List Nat := []
  found : List Nat := []
  todo : List Nat := []
  guard : Bool := false
  deriving DecidableEq, Repr

/-- History of a demotion: the socket it installed a dispatcher on, or whether the subscription
was still the set's and was reported broken. -/
structure Outcome where
  sub : Nat
  socket : Option Nat
  current : Bool
  reported : Bool
  deriving DecidableEq, Repr

/-- `claims` is history: the sockets a subscription was claimed on. -/
structure State where
  threads : Nat
  fds : Nat → Target := fun _ => .closed
  subs : Nat := 0
  sub : Nat → Sub := fun _ => {}
  set : List (Nat × Nat) := []
  locked : Bool := false
  dispatcher : Nat → Bool := fun _ => false
  blocking : Nat := 0
  thread : Nat → Thread := fun _ => {}
  claims : List (Nat × Nat) := []
  outcomes : List Outcome := []

def State.current (s : State) (fd : Nat) : Option Nat := s.set.lookup fd

def State.target (s : State) (p : Nat) : Target := s.fds (s.sub p).fd

def State.isCurrent (s : State) (p : Nat) : Bool := s.current (s.sub p).fd == some p

inductive Effect
  | none
  | insert (fd : Nat) (level : Bool)
  | remove (fd : Nat)
  | restore (fd previous : Nat)
  | flag (p : Nat) (value : Bool)
  | unname (p : Nat)
  | name (p k : Nat)
  | lock
  | unlock
  | enter
  | leave
  | install (k : Nat)
  /-- `set_handler` failed, and the second, best-effort one left this behind. -/
  | refuse (k : Nat) (left : Bool)
  /-- A demotion ends with the dispatcher on a socket, without any, or with a report. -/
  | attach (p k : Nat)
  | unattached (p : Nat)
  | produce (p : Nat)
  deriving DecidableEq, Repr

def State.setSub (s : State) (p : Nat) (sub : Sub) : State :=
  { s with sub := update s.sub p sub }

def State.without (s : State) (fd : Nat) : List (Nat × Nat) := s.set.filter (·.1 ≠ fd)

def State.apply (s : State) : Effect → State
  | .none => s
  | .insert fd level =>
    { s.setSub s.subs { fd, level } with subs := s.subs + 1, set := (fd, s.subs) :: s.without fd }
  | .remove fd => { s with set := s.without fd }
  | .restore fd previous => { s with set := (fd, previous) :: s.without fd }
  | .flag p value => s.setSub p { s.sub p with direct := value }
  | .unname p => s.setSub p { s.sub p with directSocket := none }
  | .name p k =>
    { s.setSub p { s.sub p with directSocket := some k } with claims := (p, k) :: s.claims }
  | .lock => { s with locked := true }
  | .unlock => { s with locked := false }
  | .enter => { s with blocking := s.blocking + 1 }
  | .leave => { s with blocking := s.blocking - 1 }
  | .install k => { s with dispatcher := update s.dispatcher k true }
  | .refuse k left => { s with dispatcher := update s.dispatcher k left }
  | .attach p k =>
    { s with
      dispatcher := update s.dispatcher k true
      outcomes := ⟨p, some k, s.isCurrent p, false⟩ :: s.outcomes }
  | .unattached p => { s with outcomes := ⟨p, none, s.isCurrent p, false⟩ :: s.outcomes }
  | .produce p =>
    { s.setSub p { s.sub p with broken := (s.sub p).broken || s.isCurrent p } with
      outcomes := ⟨p, none, s.isCurrent p, s.isCurrent p⟩ :: s.outcomes }

/-- What decides a step: the guest's call, an error of the callee, the answers of the runtime
and of the backend, a reason to demote that does not lie in the set, and an answer to the call. -/
inductive Action
  | go
  | add (fd : Nat) (level : Bool)
  | modify (fd : Nat) (level : Bool)
  | delete (fd : Nat)
  | wait
  | fail
  | refused (left : Bool)
  | decide (available hostFd : Bool)
  | demote
  | answer
  deriving DecidableEq, Repr

def directPollCap : Nat := 64

def Thread.scanned (t : Thread) (found : List Nat) : Purpose → Thread
  | .enter => { t with stage := if found = [] then .entering else .direct }
  | .check => { t with stage := if found = [] then .general else .collecting }
  | .collect => { t with stage := .picking, todo := found }
  | .watch =>
    { t with stage :=
        if found = [] then .entering
        else if directPollCap < found.length then .collecting else .direct }

def Purpose.stops : Purpose → Bool
  | .enter | .check => true
  | .collect | .watch => false

/-- `poll_fd_guard` answered. A demotion wants the socket the subscription was polled on. -/
def Thread.guarded (t : Thread) : Target → Thread × Effect
  | .closed => ({ t with stage := .failed }, .none)
  | .file =>
    if t.expected.isSome then ({ t with stage := .failed }, .none)
    else if t.allowDirect then ({ t with stage := .idle }, .none)
    else ({ t with stage := .demoted }, .unattached t.sub)
  | mode =>
    if t.expected.isSome && mode != .socket (t.expected.getD 0) then
      ({ t with stage := .failed }, .none)
    else ({ t with stage := if t.allowDirect then .claiming else .installing, mode }, .none)

def Thread.installed (t : Thread) : Thread × Effect :=
  match t.allowDirect, t.mode with
  | true, .socket k => ({ t with stage := .idle }, .install k)
  | true, _ => ({ t with stage := .idle }, .none)
  | false, .socket k => ({ t with stage := .demoted }, .attach t.sub k)
  | false, _ => ({ t with stage := .demoted }, .unattached t.sub)

def Thread.failed (t : Thread) (fd : Nat) : Thread × Effect :=
  if t.allowDirect then
    match t.rollback with
    | .remove => ({ t with stage := .idle }, .remove fd)
    | .restore previous =>
      ({ t with stage := .inode, sub := previous, rollback := .keep }, .restore fd previous)
    | .keep => ({ t with stage := .idle }, .none)
  else ({ t with stage := .demoted }, .produce t.sub)

def Thread.scan (t : Thread) (s : State) (purpose : Purpose) : Thread × Effect :=
  ({ t with stage := .scanning purpose, toScan := s.set.map (·.2), found := [] }, .lock)

def Thread.register (t : Thread) (s : State) (rollback : Rollback) : Thread :=
  { t with stage := .inode, sub := s.subs, allowDirect := true, expected := none, rollback }

def threadStep (s : State) (t : Thread) (a : Action) : Option (Thread × Effect) :=
  match t.stage, a with
  | .idle, .add fd level =>
    some (match s.current fd with
      | some _ => (t, .none)
      | none => (t.register s .remove, .insert fd level))
  | .idle, .modify fd level =>
    some (match s.current fd with
      | some previous => (t.register s (.restore previous), .insert fd level)
      | none => (t, .none))
  | .idle, .delete fd => some (t, .remove fd)
  | .idle, .wait => some ({ t with stage := .waiting }, .none)
  -- `register_epoll_handler_inner`
  | .inode, .go =>
    some ({ t with stage := if s.target t.sub = .closed then .failed else .polling }, .none)
  | .polling, .fail => some ({ t with stage := .failed }, .none)
  | .polling, .go => some (t.guarded (s.target t.sub))
  -- `claim_direct_serving_when`
  | .claiming, .go => some ({ t with stage := .claimingSocket }, .flag t.sub false)
  | .claimingSocket, .go => some ({ t with stage := .deciding }, .unname t.sub)
  | .deciding, .decide available hostFd =>
    some (match t.mode with
      | .socket _ =>
        { t with stage :=
            if available && (s.sub t.sub).level && hostFd then .naming else .installing }
      | _ => { t with stage := .installing }, .none)
  | .naming, .go =>
    match t.mode with
    | .socket k => some ({ t with stage := .flagging }, .name t.sub k)
    | _ => none
  | .flagging, .go => some ({ t with stage := .counting }, .flag t.sub true)
  | .counting, .go =>
    some ({ t with stage := if s.blocking = 0 then .subscribing else .refusing }, .none)
  | .refusing, .go => some ({ t with stage := .refusingSocket }, .flag t.sub false)
  | .refusingSocket, .go => some ({ t with stage := .installing }, .unname t.sub)
  -- `install_epoll_handler`
  | .installing, .go => some t.installed
  | .installing, .refused left =>
    match t.mode with
    | .socket k => some ({ t with stage := .failed }, .refuse k left)
    | _ => none
  | .subscribing, .go => some ({ t with stage := .idle }, .none)
  | .failed, .go => some (t.failed (s.sub t.sub).fd)
  -- `demote_direct_with`
  | .collecting, .go => some (t.scan s .collect)
  | .picking, .go =>
    some (match t.todo with
      | [] => { t with stage := if t.guard then .general else .entering }
      | p :: _ =>
        { t with
          stage := .inode, sub := p, allowDirect := false
          expected := (s.sub p).directSocket }, .none)
  | .demoted, .go =>
    some ({ t with stage := .demotedSocket, todo := t.todo.tail }, .flag t.sub false)
  | .demotedSocket, .go => some ({ t with stage := .picking }, .unname t.sub)
  -- `epoll_wait`
  | .waiting, .go => some (t.scan s .enter)
  | .direct, .answer => some ({ t with stage := .idle }, .none)
  | .direct, .demote => some ({ t with stage := .collecting }, .none)
  | .direct, .go => some (t.scan s .watch)
  | .entering, .go => some ({ t with stage := .checking, guard := true }, .enter)
  | .checking, .go => some (t.scan s .check)
  | .general, .answer => some ({ t with stage := .idle, guard := false }, .leave)
  | .scanning purpose, .go =>
    some (match t.toScan with
      | [] => (t.scanned t.found purpose, .unlock)
      | p :: rest =>
        if (s.sub p).direct then
          if purpose.stops then (t.scanned [p] purpose, .unlock)
          else ({ t with toScan := rest, found := t.found ++ [p] }, .none)
        else ({ t with toScan := rest }, .none))
  | _, _ => none

def Stage.takesLock : Stage → Action → Bool
  | .idle, .wait => false
  | .idle, _ | .failed, _ | .collecting, _ | .waiting, _ | .checking, _ | .direct, .go => true
  | _, _ => false

def State.setThread (s : State) (i : Nat) (t : Thread) : State :=
  { s with thread := update s.thread i t }

inductive Event
  | thread (i : Nat) (a : Action)
  /-- A guest thread closes, opens or duplicates a descriptor. -/
  | descriptor (fd : Nat) (target : Target)
  /-- Another set or another wait changes what is on a socket. -/
  | handler (k : Nat) (dispatcher : Bool)
  deriving DecidableEq, Repr

def State.step (s : State) : Event → Option State
  | .thread i a =>
    if i < s.threads ∧ ((s.thread i).stage.takesLock a && s.locked) = false then
      (threadStep s (s.thread i) a).map fun (t, f) => (s.apply f).setThread i t
    else none
  | .descriptor fd target => some { s with fds := update s.fds fd target }
  | .handler k b => some { s with dispatcher := update s.dispatcher k b }

def epollSystem : Transition.System State Event where
  Initial s := ∃ threads fds, s = { threads, fds }
  next := State.step

end ServiceCache.Epoll
