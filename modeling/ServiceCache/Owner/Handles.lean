import ServiceCache.Transition
import Mathlib.Logic.Function.Basic

/-!
# Where the handles of hosts end up

Every `HostProcess` value from the time it exists: with an owner, in the reply to a fork, in the
future that awaits it, in `fill_recipe` and `adopt` before their thread runs, and in the watcher
of an instance. A future can be dropped wherever it awaits. `kill` and `stop` return from
`wait_gone` once the process has ended; a value that is merely dropped closes its channel and
leaves its `Child` unreaped.

A host may end at any time; whether it does when it is told to is the assumption under which
`wait_gone` returns.
-/

namespace ServiceCache.Owner.Disposal

open Transition (System)

inductive Purpose
  | recipe
  | adoption
  deriving DecidableEq, Repr

/-- Who has a `HostProcess`, or the channel it will be made of. -/
inductive Place
  | preparing
  | starting
  | initializing
  | freezing
  | readying
  | serving
  /-- Its owner, in `fork`, with the handle of the new clone. -/
  | forking (clone : Nat)
  /-- The `fork` of a template, before the host's reply. -/
  | asked (template ask : Nat)
  /-- The `fork` of a template, before the announcement. -/
  | announcing (template ask : Nat)
  | sent (ask : Nat)
  | received (ask : Nat)
  | watched
  | leaving
  | waited
  | dropped
  deriving DecidableEq, Repr

/-- `child` says that `HostProcess::spawn` made it, and `ready` that a fill still waits for its owner. -/
structure HostProcess where
  child : Bool := false
  running : Bool := false
  ready : Bool := false
  place : Place := .dropped
  deriving DecidableEq, Repr

/-- A `Command::Fork`: whether it is still to be taken, and whether its future still waits. -/
structure Ask where
  template : Nat := 0
  purpose : Purpose := .adoption
  queued : Bool := false
  waiting : Bool := false
  deriving DecidableEq, Repr

structure State where
  host : Nat → HostProcess := fun _ => {}
  hosts : Nat := 0
  ask : Nat → Ask := fun _ => {}
  asks : Nat := 0

inductive Event
  | spawn
  | prepared (h : Nat) (ok : Bool)
  | started (h : Nat) (ok : Bool)
  | initialized (h : Nat) (ok : Bool)
  | frozen (h : Nat) (ok : Bool)
  | readied (h : Nat)
  | request (template : Nat) (purpose : Purpose)
  /-- `serve_forks` takes a command; `made` says whether the channel and the listener could be made. -/
  | fork (h ask : Nat) (made : Bool)
  | answered (h : Nat) (ok : Bool)
  | announced (h : Nat) (ok : Bool)
  | take (h : Nat)
  /-- `adopt`, or the end of `fill_recipe`; `made` says whether the thread could be made. -/
  | thread (h : Nat) (made : Bool)
  | cancel (ask : Nat)
  | cancelFill (h : Nat)
  /-- `serve_forks` or `watch` is done with its host. -/
  | leave (h : Nat)
  | ends (h : Nat)
  | waited (h : Nat)
  deriving DecidableEq, Repr

namespace State

def set (s : State) (h : Nat) (p : HostProcess) : State := { s with host := Function.update s.host h p }

def move (s : State) (h : Nat) (place : Place) : State := s.set h { s.host h with place }

def setAsk (s : State) (a : Nat) (ask : Ask) : State := { s with ask := Function.update s.ask a ask }

def outcome (s : State) (h : Nat) (before ok_ failed : Place) (ok : Bool) : Option State :=
  if (s.host h).place = before then some (s.move h (if ok then ok_ else failed)) else none

def fork (s : State) (h a : Nat) (made : Bool) : State :=
  let s := s.setAsk a { s.ask a with queued := false }
  if made then
    { (s.move h (.forking s.hosts)).set s.hosts { place := .asked h a } with hosts := s.hosts + 1 }
  else s.move h .leaving

/-- `fork` failed: the clone's channel is dropped, and the owner kills its host. -/
def forkFails (s : State) (h c : Nat) : State := (s.move c .dropped).move h .leaving

def answered (s : State) (c : Nat) (ok : Bool) : Option State :=
  match (s.host c).place with
  | .asked h a =>
    if (s.host h).place = .forking c then
      some (if ok then s.set c { s.host c with running := true, place := .announcing h a }
        else s.forkFails h c)
    else none
  | _ => none

def announced (s : State) (c : Nat) (ok : Bool) : Option State :=
  match (s.host c).place with
  | .announcing h a =>
    if (s.host h).place = .forking c then
      some (if ok then (s.move c (if (s.ask a).waiting then .sent a else .dropped)).move h .serving
        else s.forkFails h c)
    else none
  | _ => none

def take (s : State) (c : Nat) : Option State :=
  match (s.host c).place with
  | .sent a => some (s.move c (.received a))
  | _ => none

def thread (s : State) (c : Nat) (made : Bool) : Option State :=
  match (s.host c).place with
  | .received a =>
    some (match made, (s.ask a).purpose with
      | true, .recipe => s.set c { s.host c with ready := true, place := .initializing }
      | true, .adoption => s.move c .watched
      | false, _ => s.move c .dropped)
  | _ => none

def cancel (s : State) (a : Nat) : State :=
  { s.setAsk a { s.ask a with waiting := false } with
    host := fun c =>
      if (s.host c).place = .sent a then { s.host c with place := .dropped } else s.host c }

def step (s : State) : Event → Option State
  | .spawn =>
    some { s.set s.hosts { child := true, running := true, ready := true, place := .preparing } with
      hosts := s.hosts + 1 }
  | .prepared h ok => s.outcome h .preparing .starting .leaving ok
  | .started h ok => s.outcome h .starting .freezing .leaving ok
  | .initialized h ok => s.outcome h .initializing .freezing .leaving ok
  -- `freeze_and_serve` returns without `kill`
  | .frozen h ok => s.outcome h .freezing .readying .dropped ok
  | .readied h => s.outcome h .readying .serving .leaving (s.host h).ready
  | .request template purpose =>
    some { s.setAsk s.asks { template, purpose, queued := true, waiting := true } with
      asks := s.asks + 1 }
  | .fork h a made =>
    if (s.host h).place = .serving ∧ (s.ask a).queued = true ∧ (s.ask a).template = h then
      some (s.fork h a made)
    else none
  | .answered c ok => s.answered c ok
  | .announced c ok => s.announced c ok
  | .take c => s.take c
  | .thread c made => s.thread c made
  | .cancel a => some (s.cancel a)
  | .cancelFill h => some (s.set h { s.host h with ready := false })
  | .leave h =>
    if (s.host h).place = .serving ∨ (s.host h).place = .watched then some (s.move h .leaving) else none
  | .ends h => some (s.set h { s.host h with running := false })
  | .waited h =>
    if (s.host h).place = .leaving ∧ (s.host h).running = false then some (s.move h .waited) else none

end State

def disposal : System State Event where
  Initial s := s = {}
  next := State.step

/-! ## What becomes of a handle -/

/-- A spawned host is served by its owner, or it has ended and was waited for; the channel of a clone
is with an owner or a watcher, or it is closed. -/
def HostProcess.accounted (p : HostProcess) : Bool :=
  match p.place with
  | .serving | .forking _ => true
  | .watched | .dropped => !p.child
  | .waited => !p.running
  | _ => false

def Place.level : Place → Nat
  | .asked _ _ => 10
  | .announcing _ _ => 9
  | .sent _ => 8
  | .received _ => 7
  | .preparing => 6
  | .starting | .initializing => 5
  | .freezing => 4
  | .readying => 3
  | .serving | .forking _ | .watched => 2
  | .leaving => 1
  | .waited | .dropped => 0

def HostProcess.rank (p : HostProcess) : Nat := 2 * p.place.level + p.running.toNat

/-- The next steps of whoever has the handle, one for each outcome; in `wait_gone`, that of the host. -/
def State.outcomes (s : State) (h : Nat) : List Event :=
  match (s.host h).place with
  | .preparing => [.prepared h true, .prepared h false]
  | .starting => [.started h true, .started h false]
  | .initializing => [.initialized h true, .initialized h false]
  | .freezing => [.frozen h true, .frozen h false]
  | .readying => [.readied h]
  | .asked _ _ => [.answered h true, .answered h false]
  | .announcing _ _ => [.announced h true, .announced h false]
  | .sent _ => [.take h]
  | .received _ => [.thread h true, .thread h false]
  | .leaving => if (s.host h).running then [.ends h] else [.waited h]
  | _ => []

def Place.ofClone : Place → Bool
  | .asked _ _ | .announcing _ _ | .sent _ | .received _ | .watched | .dropped => true
  | _ => false

def Place.template? : Place → Option Nat
  | .asked h _ | .announcing h _ => some h
  | _ => none

def Freezes (s : State) : Event → Prop
  | .frozen h ok => ok = true ∨ (s.host h).child = false
  | _ => True

instance (s : State) (e : Event) : Decidable (Freezes s e) :=
  match e with
  | .frozen _ _ => inferInstanceAs (Decidable (_ ∨ _))
  | .spawn | .prepared _ _ | .started _ _ | .initialized _ _ | .readied _ | .request _ _ | .fork _ _ _
  | .answered _ _ | .announced _ _ | .take _ | .thread _ _ | .cancel _ | .cancelFill _ | .leave _
  | .ends _ | .waited _ => .isTrue trivial

end ServiceCache.Owner.Disposal
