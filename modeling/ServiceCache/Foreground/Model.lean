import Mathlib.Logic.Function.Basic
import Mathlib.Tactic.Simps.Basic
import ServiceCache.Transition

/-!
# The foreground command with clones

`run_with_clones` reads at most one event of the template a turn, and on a signal or a line it
freezes the template if it is not frozen and forks `count` clones. `reply` puts the exits it reads
ahead of the reply into `template.events`; `fork` then reads the clone's announcement on the
clone's own channel.

Freezes and forks succeed here unless the guest ends on its own before it is frozen. The template
reports each clone once, behind its end, when it has reaped it; the pid of a reaped clone may be
given to a later one. A message names its clone; the pid and the status it carries are that
clone's.
-/

namespace ServiceCache.Foreground

open Function
open Transition (System)

inductive Fate
  | unborn
  | running
  | exited (status : Int)
  /-- Reaped; the report is in the channel. -/
  | reported (status : Int)
  | known (status : Int)
  deriving DecidableEq, Repr

def Fate.unreaped : Fate → Bool
  | .running | .exited _ => true
  | .unborn | .reported _ | .known _ => false

def Fate.isReported : Fate → Bool
  | .reported _ => true
  | .unborn | .running | .exited _ | .known _ => false

def Fate.unread : Fate → Bool
  | .running | .exited _ | .reported _ => true
  | .unborn | .known _ => false

def Fate.ended : Fate → Bool
  | .exited _ | .reported _ | .known _ => true
  | .unborn | .running => false

def Fate.status : Fate → Int
  | .exited status | .reported status | .known status => status
  | .unborn | .running => 0

def Fate.learn : Fate → Fate
  | .reported status => .known status
  | fate => fate

structure Clone where
  pid : Nat := 0
  fate : Fate := .unborn

inductive Message
  | frozen
  | forked (i : Nat)
  | exited (i : Nat)
  | guestExited (status : Int)
  deriving DecidableEq, Repr

def Message.isReply : Message → Bool
  | .frozen | .forked _ => true
  | .exited _ | .guestExited _ => false

def Message.isExit : Message → Bool
  | .exited _ => true
  | .frozen | .forked _ | .guestExited _ => false

inductive Request
  | freeze
  | fork
  deriving DecidableEq, Repr

inductive Stage
  | polling
  /-- Behind it, with what was ready and is not looked at. -/
  | woken (template signal stdin : Bool)
  | freezing
  | awaitingFrozen
  /-- Before a request to fork, with the number of clones to fork. -/
  | forking (left : Nat)
  | awaiting (left : Nat)
  | announcing (left i : Nat)
  | returned (status : Int)
  | failed
  deriving DecidableEq, Repr

def Stage.awaits : Stage → Bool
  | .awaitingFrozen | .awaiting _ => true
  | _ => false

def Stage.waits : Stage → Bool
  | .polling | .woken .. => true
  | _ => false

inductive Template
  | serving
  | frozen
  | gone
  deriving DecidableEq, Repr

structure State where
  template : Template := .serving
  request : Option Request := none
  channel : List Message := []
  born : Nat := 0
  clone : Nat → Clone := fun _ => {}
  stage : Stage := .polling
  clones : List Nat := []
  frozen : Bool := false
  cloneFailed : Bool := false
  events : List Message := []
  signal : Bool := false
  terminal : Bool := true
  lines : Nat := 0
  inputEnded : Bool := false

inductive Event
  | poll
  | readEvent
  | look
  | send
  | recv
  | announced
  | serveFreeze
  | serveFork (pid : Nat)
  | report (i : Nat)
  | guestExits (status : Int)
  | exit (i : Nat) (status : Int)
  | signalled
  | line
  | endInput
  | idle
  deriving DecidableEq, Repr

def Event.working : Event → Bool
  | .poll | .readEvent | .look | .send | .recv | .announced | .serveFreeze | .serveFork _
  | .report _ => true
  | .guestExits _ | .exit _ _ | .signalled | .line | .endInput | .idle => false

def Event.requests : Event → Bool
  | .signalled | .line => true
  | _ => false

@[simps]
def State.setStage (s : State) (stage : Stage) : State := { s with stage }

def State.stdinReady (s : State) : Bool := s.terminal && (decide (0 < s.lines) || s.inputEnded)

def State.poll (s : State) : State :=
  s.setStage (.woken (!s.channel.isEmpty) s.signal s.stdinReady)

def Stage.forkNext (left : Nat) : Stage := if left = 0 then .polling else .forking left

def State.learn (s : State) (i : Nat) (rest : List Message) : State :=
  { s with
    channel := rest
    clone := update s.clone i { s.clone i with fate := (s.clone i).fate.learn } }

/-- `clones.retain(|clone| clone.pid() != pid)`. -/
def State.retain (s : State) (i : Nat) : List Nat :=
  s.clones.filter fun j => decide ((s.clone j).pid ≠ (s.clone i).pid)

def State.cloneExited (s : State) (i : Nat) (rest : List Message) (signal stdin : Bool) : State :=
  { s.learn i rest with
    clones := s.retain i
    cloneFailed := s.cloneFailed || decide ((s.clone i).fate.status ≠ 0)
    stage :=
      if s.retain i = [] then
        .returned (if s.cloneFailed || decide ((s.clone i).fate.status ≠ 0) then 1 else 0)
      else .woken false signal stdin }

def State.readEvent (s : State) (signal stdin : Bool) (rest : List Message) : Message → State
  | .exited i => s.cloneExited i rest signal stdin
  | .guestExited status => { s with channel := rest, stage := .returned status }
  | .frozen | .forked _ => { s with channel := rest, stage := .failed }

def State.turn (s : State) (count : Nat) (fork : Bool) : Stage :=
  if fork then if s.frozen then .forkNext count else .freezing else .polling

/-- The signal and the line that were ready are consumed; either is a request to fork, the
end of input is not. -/
def State.look (s : State) (count : Nat) (signal stdin : Bool) : State :=
  { s with
    signal := s.signal && !signal
    lines := if stdin then s.lines - 1 else s.lines
    terminal := s.terminal && !(stdin && s.lines == 0)
    stage := s.turn count (signal || (stdin && s.lines != 0)) }

def State.send (s : State) : Option State :=
  match s.stage with
  | .freezing => some { s with request := some .freeze, stage := .awaitingFrozen }
  | .forking left => some { s with request := some .fork, stage := .awaiting left }
  | _ => none

/-- What `reply` does with a message, and its caller with the reply. -/
def State.recv (s : State) (count : Nat) (rest : List Message) : Message → State
  | .exited i => { s.learn i rest with events := s.events ++ [.exited i] }
  | .guestExited _ => { s with channel := rest, stage := .failed }
  | .frozen =>
    if s.stage = .awaitingFrozen then
      { s with channel := rest, frozen := true, stage := .forkNext count }
    else { s with channel := rest, stage := .failed }
  | .forked i =>
    match s.stage with
    | .awaiting left => { s with channel := rest, stage := .announcing left i }
    | _ => { s with channel := rest, stage := .failed }

def State.announced (s : State) : Option State :=
  match s.stage with
  | .announcing left i =>
    some { s with clones := s.clones ++ [i], stage := .forkNext (left - 1) }
  | _ => none

@[simps! template request channel born stage clones frozen cloneFailed events signal terminal
  lines inputEnded]
def State.bear (s : State) (pid : Nat) : State :=
  { s with
    request := none
    channel := s.channel ++ [.forked s.born]
    born := s.born + 1
    clone := update s.clone s.born ⟨pid, .running⟩ }

def State.setFate (s : State) (i : Nat) (fate : Fate) : State :=
  { s with clone := update s.clone i { s.clone i with fate } }

@[simps]
def State.push (s : State) (m : Message) : State := { s with channel := s.channel ++ [m] }

def State.report (s : State) (i : Nat) : Option State :=
  match (s.clone i).fate with
  | .exited status => some ((s.setFate i (.reported status)).push (.exited i))
  | _ => none

def State.step (count : Nat) (s : State) : Event → Option State
  | .poll =>
    if s.stage = .polling ∧ (s.channel ≠ [] ∨ s.signal ∨ s.stdinReady) then some s.poll
    else none
  | .readEvent =>
    match s.stage, s.channel with
    | .woken true signal stdin, m :: rest => some (s.readEvent signal stdin rest m)
    | _, _ => none
  | .look =>
    match s.stage with
    | .woken false signal stdin => some (s.look count signal stdin)
    | _ => none
  | .send => s.send
  | .recv =>
    match s.channel with
    | m :: rest => if s.stage.awaits then some (s.recv count rest m) else none
    | [] => none
  | .announced => s.announced
  | .serveFreeze =>
    if s.request = some .freeze ∧ s.template = .serving then
      some ({ s with template := .frozen, request := none }.push .frozen)
    else none
  | .serveFork pid =>
    if s.request = some .fork ∧ s.template = .frozen ∧
        ∀ i < s.born, (s.clone i).fate.unreaped → (s.clone i).pid ≠ pid then
      some (s.bear pid)
    else none
  | .report i => s.report i
  | .guestExits status =>
    if s.template = .serving then
      some ({ s with template := .gone }.push (.guestExited status))
    else none
  | .exit i status =>
    if (s.clone i).fate = .running then some (s.setFate i (.exited status)) else none
  | .signalled => some { s with signal := true }
  | .line => if s.inputEnded then none else some { s with lines := s.lines + 1 }
  | .endInput => some { s with inputEnded := true }
  | .idle => some s

def cloneSystem (count : Nat) : System State Event where
  Initial s := s = {}
  next := State.step count

/-- The condition on a step: `reply` does not take the report of an exit. -/
def Prompt (s : State) : Event → Prop
  | .recv => s.channel.head?.any Message.isExit = false
  | _ => True

instance (s : State) : DecidablePred (Prompt s)
  | .recv => inferInstanceAs (Decidable (s.channel.head?.any Message.isExit = false))
  | .poll | .readEvent | .look | .send | .announced | .serveFreeze | .serveFork _ | .report _
  | .guestExits _ | .exit _ _ | .signalled | .line | .endInput | .idle => .isTrue trivial

end ServiceCache.Foreground
