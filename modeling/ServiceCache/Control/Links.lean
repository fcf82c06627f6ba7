import ServiceCache.Control.Turns

/-!
# The manager's end of the control channels

`HostProcess` over the channels to any number of hosts. A channel delivers frames in
order. Requests carry a number, and what a host sends in answer carries the request's:
both are history, the frames have none. The manager asks only when no call on the channel
is under way, and no more behind a `recv` that failed.
-/

namespace ServiceCache.Control

open Function

inductive Handle
  /-- Made for the clone of a fork that is not answered yet. -/
  | reserved
  | idle
  | asked (id : Nat) (frame : Frame)
  | announcing
  | gone
  deriving DecidableEq, Repr

/-- A channel. `owner` is the host at its other end and `events` is that of `HostProcess`; what follows
is history: the channel a clone was asked for on, every frame the host sent, the exits of clones that
were read (and whether they went to `events`), what `take_events` took, and what `request` returned. -/
structure Link where
  handle : Handle := .gone
  owner : Option Nat := none
  requests : List (Nat × Frame) := []
  replies : List (Option Nat × Reply) := []
  events : List Reply := []
  parent : Option Nat := none
  sent : List Reply := []
  arrived : List (Reply × Bool) := []
  taken : List Reply := []
  returned : List (Nat × Option Nat × Reply) := []
  deriving DecidableEq, Repr

/-- `current` is history: the request the host is at. -/
structure State where
  hosts : Family := {}
  channel : Nat → Nat := fun _ => 0
  current : Nat → Option Nat := fun _ => none
  link : Nat → Link := fun _ => {}
  nextLink : Nat := 0
  nextId : Nat := 0

inductive Event
  | spawn (manifest : Manifest)
  | act (p : Nat) (a : Act)
  | request (c : Nat) (q : Request) (address : Nat)
  | reply (c : Nat)
  | closed (c : Nat)
  | fails (c : Nat)
  | readEvent (c : Nat)
  | waitExit (c : Nat)
  | takeEvents (c : Nat)
  | stop (c : Nat)
  | drop (c : Nat)

inductive Got
  | reply (tag : Option Nat) (r : Reply)
  | failed
  | event
  deriving DecidableEq, Repr

def Frame.control? (f : Frame) : Option Nat :=
  match f.message, f.fds with
  | .fork, [control, _] => some control
  | _, _ => none

def Reply.isForked : Reply → Bool
  | .forked _ _ => true
  | _ => false

namespace Link

def reply (l : Link) : Option (Link × Got) :=
  match l.replies with
  | [] => none
  | (tag, r) :: rest =>
    let l := { l with replies := rest }
    match r with
    | .error _ => some (l, .failed)
    | .exited .guest _ _ => some (l, .failed)
    | .exited .child _ _ =>
      some ({ l with events := l.events ++ [r], arrived := l.arrived ++ [(r, true)] }, .event)
    | r => some (l, .reply tag r)

def readEvent (l : Link) : Option Link :=
  match l.replies with
  | [] => none
  | (_, r) :: rest =>
    some { l with
      replies := rest
      arrived := if r.isChild then l.arrived ++ [(r, false)] else l.arrived }

/-- One turn of `wait_exit`, which keeps the events that are not the guest's exit. -/
def waitExit (l : Link) : Option Link :=
  match l.replies with
  | [] => none
  | (_, r) :: rest =>
    some { l with
      replies := rest
      events := if r.isChild then l.events ++ [r] else l.events
      arrived := if r.isChild then l.arrived ++ [(r, true)] else l.arrived }

end Link

namespace State

def setLink (s : State) (c : Nat) (l : Link) : State := { s with link := update s.link c l }

def mode (s : State) (c : Nat) : Option Mode :=
  (s.link c).owner.bind fun p => (s.hosts.host p).map fun h => h.stage.mode

def settle (s : State) (frame : Frame) (forked : Bool) : State :=
  match frame.control? with
  | none => s
  | some d =>
    match (s.link d).handle with
    | .reserved =>
      s.setLink d { s.link d with handle := if forked then .announcing else .gone }
    | _ => s

def reply (s : State) (c : Nat) : Option State :=
  match (s.link c).handle with
  | .asked id frame =>
    (s.link c).reply.map fun
      | (l, .event) => s.setLink c l
      | (l, .failed) => (s.setLink c { l with handle := .idle }).settle frame false
      | (l, .reply tag r) =>
        (s.setLink c
          { l with handle := .idle, returned := l.returned ++ [(id, tag, r)] }).settle frame
            r.isForked
  | .announcing =>
    (s.link c).reply.map fun
      | (l, .event) => s.setLink c l
      | (l, .failed) => s.setLink c { l with handle := .gone }
      | (l, .reply _ r) => s.setLink c { l with handle := if r.isForked then .idle else .gone }
  | _ => none

def giveUp (s : State) (c : Nat) (after : Handle) : Option State :=
  match (s.link c).handle with
  | .asked _ frame => some ((s.setLink c { s.link c with handle := after }).settle frame false)
  | .announcing => some (s.setLink c { s.link c with handle := .gone })
  | _ => none

def frame (s : State) (q : Request) (address : Nat) : Frame :=
  match q with
  | .start => ⟨q, [address]⟩
  | .fork => ⟨q, [s.nextLink, address]⟩
  | q => ⟨q, []⟩

def request (s : State) (c : Nat) (q : Request) (address : Nat) : State :=
  let frame := s.frame q address
  let l := s.link c
  let s := { s with nextId := s.nextId + 1 }.setLink c
    { l with handle := .asked s.nextId frame, requests := l.requests ++ [(s.nextId, frame)] }
  if q = .fork then
    { s.setLink s.nextLink { handle := .reserved, parent := some c } with nextLink := s.nextLink + 1 }
  else s

def stop (s : State) (c : Nat) : State :=
  let frame : Frame := { message := .stop }
  let l := s.link c
  { s with nextId := s.nextId + 1 }.setLink c
    { l with handle := .gone, requests := l.requests ++ [(s.nextId, frame)] }

/-- The number a frame goes out with: an answer has that of the request at hand, a refusal that of the
request that was just read. -/
def tagged (current read : Option Nat) : Sent → Option Nat × Reply
  | .answer r => (current, r)
  | .refusal r => (read, r)
  | .event r | .announcement r => (none, r)

/-- The host `p` was `h` and takes a step, in which it read the request `read`, if any. -/
def deliver (s : State) (p : Nat) (h : Host) (effect : Effect) (read : Option Nat) : State :=
  let c := s.channel p
  let l := s.link c
  let frames := effect.sent.map (tagged (s.current p) read)
  let current := match effect.host.stage.mode with
    | .request => if h.stage.mode = .idle then read else s.current p
    | _ => none
  let next := s.hosts.next
  let s := { s with
    hosts := s.hosts.take p effect
    current := update s.current p current }.setLink c
      { l with replies := l.replies ++ frames, sent := l.sent ++ frames.map Prod.snd }
  match effect.child with
  | none => s
  | some (d, _) =>
    { s.setLink d { s.link d with owner := some next } with
      channel := update s.channel next d
      current := update s.current next none }

def act (s : State) (p : Nat) (a : Act) : Option State :=
  (s.hosts.host p).bind fun h => (h.step s.hosts.next a).bind fun effect =>
    let c := s.channel p
    match a with
    | .recv (some frame) =>
      match (s.link c).requests with
      | (id, first) :: rest =>
        if first = frame then
          some ((s.setLink c { s.link c with requests := rest }).deliver p h effect (some id))
        else none
      | [] => none
    | .recv none =>
      if (s.link c).requests = [] ∧ (s.link c).handle = .gone then some (s.deliver p h effect none)
      else none
    | _ => some (s.deliver p h effect none)

def spawn (s : State) (manifest : Manifest) : State :=
  { s.setLink s.nextLink { handle := .idle, owner := some s.hosts.next } with
    hosts := s.hosts.spawn manifest
    channel := update s.channel s.hosts.next s.nextLink
    current := update s.current s.hosts.next none
    nextLink := s.nextLink + 1 }

def step (s : State) : Event → Option State
  | .spawn manifest => some (s.spawn manifest)
  | .act p a => s.act p a
  | .request c q address =>
    if (s.link c).handle = .idle ∧ q ≠ .stop then some (s.request c q address) else none
  | .reply c => s.reply c
  | .closed c =>
    if (s.link c).replies = [] ∧ (s.mode c = none ∨ s.mode c = some .ended) then s.giveUp c .idle
    else none
  | .fails c => s.giveUp c .gone
  | .readEvent c =>
    if (s.link c).handle = .idle then (s.link c).readEvent.map (s.setLink c) else none
  | .waitExit c =>
    if (s.link c).handle = .idle then (s.link c).waitExit.map (s.setLink c) else none
  | .takeEvents c =>
    if (s.link c).handle = .idle then
      some (s.setLink c
        { s.link c with taken := (s.link c).taken ++ (s.link c).events, events := [] })
    else none
  | .stop c =>
    if (s.link c).handle = .idle then some (s.stop c) else none
  | .drop c =>
    if (s.link c).handle = .idle then some (s.setLink c { s.link c with handle := .gone }) else none

end State

def control : Transition.System State Event where
  Initial s := s = {}
  next := State.step

end ServiceCache.Control
