import ServiceCache.Control.Pairing
import ServiceCache.Counting

/-!
# The owner of a frozen template

`serve_forks` with `drain_events`, and `HostProcess::fork` with its two waits: for the host's
reply, then for the clone's announcement. The host, its clones and the clock go on in between.

The host is frozen, so it only answers a request to fork and reports the clones
that `waitpid` gave it, each once and after its end. When the host's process
ends, so do its clones. `EINTR`, the log and the `alive` flag are left out.
-/

namespace ServiceCache.Owner

open Transition (System)
open Counting (tally)
open Control (Reply Link)

inductive End
  | forkFailed
  | hostGone
  | expired
  | stopped
  deriving DecidableEq, Repr

inductive Stage
  | waiting
  | forking
  | announcing (clone : Nat)
  | draining (exits : Nat)
  | checking
  | ended (how : End)
  deriving DecidableEq, Repr

def Stage.inFork : Stage → Bool
  | .forking | .announcing _ => true
  | _ => false

def Stage.acknowledged : Stage → Nat
  | .announcing _ => 1
  | _ => 0

def Stage.exits : Stage → Nat
  | .draining exits => exits
  | _ => 0

def Stage.isEnded : Stage → Bool
  | .ended _ => true
  | _ => false

/-- A clone, with the times of its fork and its end, and whether the host reaped it. `link` is the
manager's end of its channel. -/
structure Clone where
  born : Nat := 0
  ended : Option Nat := none
  reaped : Bool := false
  link : Link := {}
  deriving DecidableEq, Repr

def Clone.alive (c : Clone) : Bool := c.ended.isNone

def Clone.AliveAt (c : Clone) (τ : Nat) : Prop := c.born ≤ τ ∧ ∀ e, c.ended = some e → τ < e

def Clone.endAt (now : Nat) (c : Clone) : Clone := { c with ended := some (c.ended.getD now) }

/-- `host` is the channel to the host, `up` says that its process runs and `asked` that it has a request
to answer. Clones are numbered in the order of their forks. What follows `clones` is history: the
`Forked` replies that were read, and whether a subtraction saturated. -/
structure State where
  ttl : Nat
  now : Nat
  idleSince : Nat
  children : Nat := 0
  stage : Stage := .waiting
  host : Link := {}
  up : Bool := true
  asked : Bool := false
  clone : Nat → Clone := fun _ => {}
  clones : Nat := 0
  acknowledged : Nat := 0
  saturated : Bool := false

inductive Event
  | tick (d : Nat)
  /-- A `Command::Fork`; `made` says whether the channel and the listener could be made. -/
  | fork (made : Bool)
  | reply
  /-- Sending, `recv` or `poll` fails, or the channel is at its end. -/
  | fails
  | timeout
  | drain
  | drained
  | check
  | disconnected
  | hostForks (endpoint : Nat)
  | hostRefuses (text : String)
  | hostReaps (k : Nat) (status : Int)
  | hostDies
  | cloneSends (k : Nat) (r : Reply)
  | cloneEnds (k : Nat)
  deriving DecidableEq, Repr

def State.live (s : State) : Nat := tally Clone.alive s.clone s.clones

def State.consumed (s : State) : Nat := s.host.arrived.length

namespace State

def setClone (s : State) (k : Nat) (c : Clone) : State := { s with clone := Function.update s.clone k c }

def setLink (s : State) (k : Nat) (l : Link) : State := s.setClone k { s.clone k with link := l }

def hostEnds (s : State) : State :=
  { s with up := false, asked := false, clone := fun k => (s.clone k).endAt s.now }

def finish (s : State) (how : End) : State := { s.hostEnds with stage := .ended how }

def uncount (s : State) (n : Nat) : State :=
  { s with children := s.children - n, saturated := s.saturated || decide (s.children < n) }

def countEvent (s : State) (event : Reply) : State := if event.isChild then s.uncount 1 else s

def restart (s : State) : State := if s.children = 0 then { s with idleSince := s.now } else s

def takeEvents (s : State) : State :=
  { s with host := { s.host with taken := s.host.taken ++ s.host.events, events := [] } }

def forked (s : State) : State :=
  let counted := { s with children := s.children + 1 }
  { (s.host.events.foldl countEvent counted.takeEvents).restart with stage := .waiting }

def fork (s : State) (made : Bool) : Option State :=
  match s.stage with
  | .waiting =>
    some (if made then { s with stage := .forking, asked := s.up } else s.finish .forkFailed)
  | _ => none

def reply (s : State) : Option State :=
  match s.stage with
  | .forking =>
    s.host.reply.map fun
      | (l, .event) => { s with host := l }
      | (l, .reply _ (.forked pid _)) =>
        { s with host := l, stage := .announcing pid, acknowledged := s.acknowledged + 1 }
      | (l, _) => { s with host := l }.finish .forkFailed
  | .announcing k =>
    (s.clone k).link.reply.map fun
      | (l, .event) => s.setLink k l
      | (l, .reply _ (.forked _ _)) => (s.setLink k l).forked
      | (l, _) => (s.setLink k l).finish .forkFailed
  | _ => none

def fails (s : State) : Option State :=
  match s.stage with
  | .forking | .announcing _ => some (s.finish .forkFailed)
  | .draining _ => some (s.finish .hostGone)
  | _ => none

def drain (s : State) : Option State :=
  match s.stage, s.host.replies with
  | .draining exits, (_, r) :: _ =>
    s.host.readEvent.map fun l =>
      match r with
      | .exited _ _ _ =>
        { s with host := l, stage := .draining (if r.isChild then exits + 1 else exits) }
      | _ => { s with host := l }.finish .hostGone
  | _, _ => none

def settle (s : State) (exits : Nat) : State :=
  { if 0 < exits then (s.uncount exits).restart else s with stage := .checking }

def check (s : State) : State :=
  if s.children = 0 ∧ s.ttl ≤ s.now - s.idleSince then s.finish .expired
  else { s with stage := .waiting }

def send (s : State) (r : Reply) : State :=
  { s with host := { s.host with replies := s.host.replies ++ [(none, r)] } }

def hostForks (s : State) (endpoint : Nat) : State :=
  { (s.setClone s.clones { born := s.now }).send (.forked s.clones endpoint) with
    asked := false
    clones := s.clones + 1 }

def hostReaps (s : State) (k : Nat) (status : Int) : State :=
  (s.setClone k { s.clone k with reaped := true }).send (.exited .child status (some k))

def step (s : State) : Event → Option State
  | .tick d => some { s with now := s.now + d }
  | .fork made => s.fork made
  | .reply => s.reply
  | .fails => s.fails
  | .timeout => if s.stage = .waiting then some { s with stage := .draining 0 } else none
  | .drain => s.drain
  | .drained =>
    match s.stage with
    | .draining exits => if s.host.replies = [] ∧ s.up then some (s.settle exits) else none
    | _ => none
  | .check => if s.stage = .checking then some s.check else none
  | .disconnected => if s.stage = .waiting then some (s.finish .stopped) else none
  | .hostForks endpoint => if s.up ∧ s.asked then some (s.hostForks endpoint) else none
  | .hostRefuses text =>
    if s.up ∧ s.asked then some { s.send (.error text) with asked := false } else none
  | .hostReaps k status =>
    if s.up ∧ k < s.clones ∧ (s.clone k).alive = false ∧ (s.clone k).reaped = false then
      some (s.hostReaps k status)
    else none
  | .hostDies => if s.up then some s.hostEnds else none
  | .cloneSends k r =>
    if k < s.clones ∧ (s.clone k).alive then
      let l := (s.clone k).link
      some (s.setLink k { l with replies := l.replies ++ [(none, r)] })
    else none
  | .cloneEnds k =>
    if k < s.clones ∧ (s.clone k).alive then some (s.setClone k ((s.clone k).endAt s.now)) else none

end State

/-- `serve_forks` from its first line, on a host that was just frozen. -/
def owner : System State Event where
  Initial s := ∃ ttl now, s = { ttl, now, idleSince := now }
  next := State.step

end ServiceCache.Owner
