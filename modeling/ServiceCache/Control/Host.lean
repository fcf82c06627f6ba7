import ServiceCache.Transition
import Mathlib.Logic.Function.Basic

/-!
# The host process

The control loop of a host: `Host::serve` with `tick` and `handle`, the loops of
`start` and `wait_run`, `freeze`, and `fork` with the `rebuild` of the child.
Between its steps the guest, the runs, the probe and the clones go on. What a step
sends is sorted by where in the code it is sent: in answer to the request at hand, to
one that comes while the host is busy, unprompted, or as a clone's first frame.

Operations that fail for reasons of their own take the error's text from the
step. A host that is killed, or whose channel fails, `die`s. The recipe and the
process title are left out, and of the event pipe the byte for an ended run.
-/

namespace ServiceCache.Control

open Function

inductive Phase
  | fresh
  | prepared
  | running (ready : Bool)
  | frozen
  deriving DecidableEq, Repr

inductive Run
  | prepare
  | guest
  | initializer
  | child
  deriving DecidableEq, Repr

inductive Request
  | prepare
  | start
  | runInitializer
  | freeze
  | fork
  | stop
  deriving DecidableEq, Repr

/-- Socket addresses are numbers. -/
inductive Reply
  | ready (endpoint : Nat)
  | exited (run : Run) (status : Int) (pid : Option Nat)
  | frozen (coroutines : Nat)
  | forked (pid endpoint : Nat)
  | error (text : String)
  deriving DecidableEq, Repr

/-- A request with its descriptors: a listening socket is its address, a control end its channel. -/
structure Frame where
  message : Request
  fds : List Nat := []
  deriving DecidableEq, Repr

structure Manifest where
  prepare : Bool := false
  ready : Bool := false
  initializer : Bool := false
  deriving DecidableEq, Repr

inductive Probe
  | running
  | passed
  | failed (summary : String)
  deriving DecidableEq, Repr

inductive Job
  | prepare
  | initializer
  deriving DecidableEq, Repr

/-- Where the control loop is. `busy` is the run that `wait_run` waits for, if it does. -/
inductive Stage
  | waiting (busy : Option Job)
  | ticking (busy : Option Job) (readable : Bool)
  | reaping (busy : Option Job) (readable : Bool)
  | compacting
  | receiving (busy : Option Job)
  | handling (frame : Frame)
  | checking (job : Job)
  | starting
  | started (readable : Bool)
  /-- `refuse_while_busy` in `start`. -/
  | startReceiving
  | freezing
  | rebuilding (listener : Nat)
  | announcing
  | ended
  deriving DecidableEq, Repr

/-- `guest` is the handle with the status once the guest has exited; `exited` are the clones that are
not reaped. `scans` is history: the phase at each slice of the zero-page scan. -/
structure Host where
  pid : Nat
  manifest : Manifest
  phase : Phase := .fresh
  guest : Option (Option Int) := none
  run : Option Int := none
  passed : Option Nat := none
  adopted : Option Nat := none
  listening : Bool := false
  probed : Bool := false
  probe : Option Probe := none
  sharedMemory : Bool := false
  compaction : Bool := false
  exited : List (Nat × Int) := []
  stage : Stage := .waiting none
  scans : List Phase := []
  deriving DecidableEq, Repr

inductive Sent
  | answer (r : Reply)
  | refusal (r : Reply)
  | event (r : Reply)
  | announcement (r : Reply)
  deriving DecidableEq, Repr

def Sent.reply : Sent → Reply
  | .answer r | .refusal r | .event r | .announcement r => r

/-- What a step does: the host after it, what it sends, and the clone it forks with its channel. -/
structure Effect where
  host : Host
  sent : List Sent := []
  child : Option (Nat × Host) := none
  deriving DecidableEq, Repr

inductive RebuildStep
  | inherit
  | reshare
  | runtime
  | replace
  | selector
  | resurrect
  deriving DecidableEq, Repr

inductive Act
  | poll (readable : Bool)
  | tick
  | reap
  | compact (done : Bool)
  | recv (frame : Option Frame)
  /-- `handle`, with the errors of the two operations that can fail in it. -/
  | handle (first second : Option String)
  | check
  /-- One turn of the loop of `start`, with the errors of `endpoint` and of starting the probe. -/
  | turn (endpoint probe : Option String)
  | froze (result : Except String Nat)
  | rebuild (fails : RebuildStep → Option String)
  | announce (endpoint : Option String)
  | die
  | runEnds (status : Int)
  | guestExits (status : Int)
  /-- `bind_tcp` on the guest's port, which loses the socket if it cannot be registered. -/
  | bind (registered : Bool)
  | listen
  | probeEnds (failed : Option String)
  | childExits (pid : Nat) (status : Int)

namespace Host

def new (pid : Nat) (manifest : Manifest) : Host := { pid, manifest }

def answer (h : Host) (r : Reply) : Effect :=
  { host := { h with stage := .waiting none }, sent := [.answer r] }

def refuse (h : Host) (text : String) : Effect := h.answer (.error text)

def goTo (h : Host) (stage : Stage) : Effect := { host := { h with stage } }

def fail : Option String → Except String Unit
  | some text => .error text
  | none => .ok ()

def endpoint (h : Host) (fails : Option String) : Except String Nat :=
  match h.adopted.or h.passed with
  | some address => (fail fails).map fun _ => address
  | none => .error "no listening socket was passed"

def handlePrepare (h : Host) (first second : Option String) : Effect :=
  if h.phase ≠ .fresh then h.refuse "prepare is only accepted before anything has run"
  else if h.manifest.prepare then
    match first.or second with
    | some text => h.refuse text
    | none => { h with run := none }.goTo (.checking .prepare)
  else { h with phase := .prepared }.answer (.exited .prepare 0 none)

def handleStart (h : Host) (fds : List Nat) (first second : Option String) : Effect :=
  if h.phase ≠ .fresh ∧ h.phase ≠ .prepared then
    h.refuse "start is only accepted once, before the guest runs"
  else
    match fds with
    | [listener] =>
      if h.adopted.isSome then h.refuse "the guest has already bound its listening socket"
      else
        match first, second with
        | some text, _ => h.refuse text
        | none, some text => { h with passed := some listener }.refuse text
        | none, none =>
          { h with passed := some listener, guest := some none, phase := .running false }.goTo
            .starting
    | _ => h.refuse "start needs exactly one descriptor, the listening socket"

def handleInitialize (h : Host) (first second : Option String) : Effect :=
  if h.phase ≠ .running true then h.refuse "initialize is only accepted while the guest is ready"
  else if h.manifest.initializer then
    match h.endpoint first, second with
    | .error text, _ => h.refuse text
    | .ok _, some text => h.refuse text
    | .ok _, none => { h with run := none }.goTo (.checking .initializer)
  else h.refuse "the manifest has no initializer"

def handleFreeze (h : Host) : Effect :=
  if h.phase ≠ .running true then h.refuse "freeze is only accepted while the guest is ready"
  else { h with phase := .frozen }.goTo .freezing

/-- `fork`: the parent answers, and the child starts as its copy, without children of its own. -/
def handleFork (h : Host) (fds : List Nat) (first second : Option String) (pid : Nat) : Effect :=
  if h.phase ≠ .frozen then h.refuse "fork is only accepted on a frozen host"
  else
    match fds with
    | [control, listener] =>
      match first.or second with
      | some text => h.refuse text
      | none =>
        { h.answer (.forked pid listener) with
          child := some (control,
            { h with pid, exited := [], scans := [], stage := .rebuilding listener }) }
    | _ =>
      h.refuse "fork needs two descriptors: the child's control end and its listening socket"

def handle (h : Host) (frame : Frame) (first second : Option String) (pid : Nat) : Effect :=
  match frame.message with
  | .prepare => h.handlePrepare first second
  | .start => h.handleStart frame.fds first second
  | .runInitializer => h.handleInitialize first second
  | .freeze => h.handleFreeze
  | .fork => h.handleFork frame.fds first second pid
  | .stop => h.goTo .ended

/-- `tick` up to the reaping: the pipe is drained, and an exited guest ends the host. -/
def tick (h : Host) (busy : Option Job) (readable : Bool) : Effect :=
  let h := { h with listening := false, probed := false }
  match h.guest.join with
  | some status =>
    if h.phase ≠ .frozen then
      { host := { h with stage := .ended }, sent := [.event (.exited .guest status none)] }
    else h.goTo (.reaping busy readable)
  | none => h.goTo (.reaping busy readable)

def ticked (busy : Option Job) (readable : Bool) : Stage :=
  if readable then .receiving busy
  else match busy with
    | some job => .checking job
    | none => .compacting

def reap (h : Host) (busy : Option Job) (readable : Bool) : Effect :=
  match h.exited with
  | (pid, status) :: rest =>
    { host := { h with exited := rest }, sent := [.event (.exited .child status (some pid))] }
  | [] => h.goTo (ticked busy readable)

def compact (h : Host) (done : Bool) : Effect :=
  if h.compaction then
    { h with scans := h.scans ++ [h.phase], compaction := !done }.goTo (.waiting none)
  else h.goTo (.waiting none)

def busyWith : Job → String
  | .prepare => "Prepare is running"
  | .initializer => "Initializer is running"

/-- `refuse_while_busy`; `loop` is the top of the loop it is called in. -/
def refuseWhileBusy (h : Host) (frame : Option Frame) (why : String) (loop : Stage) : Effect :=
  match frame with
  | none => h.goTo .ended
  | some frame =>
    if frame.message = .stop then h.goTo .ended
    else { h.goTo loop with sent := [.refusal (.error ("busy: " ++ why))] }

def finished (h : Host) (job : Job) (status : Int) : Effect :=
  match job with
  | .prepare => { h with phase := .prepared }.answer (.exited .prepare status none)
  | .initializer => h.answer (.exited .initializer status none)

def becomeReady (h : Host) (endpoint : Option String) : Effect :=
  let h := { h with phase := .running true }
  match h.endpoint endpoint with
  | .ok address => h.answer (.ready address)
  | .error text => h.refuse text

def probeFailure (summary : String) : String :=
  "the guest did not answer its readiness probe within 30s: " ++ summary

def startProbed (h : Host) (probed readable : Bool) (endpoint : Option String) : Effect :=
  if probed then
    match h.probe with
    | some .passed => h.becomeReady endpoint
    | some (.failed summary) => h.refuse (probeFailure summary)
    | _ => h.refuse (probeFailure "the probe ended without an outcome")
  else
    match h.guest.join with
    | some status => h.answer (.exited .guest status none)
    | none => h.goTo (if readable then .startReceiving else .starting)

def turn (h : Host) (readable : Bool) (endpoint probe : Option String) : Effect :=
  let listening := h.listening
  let probed := h.probed
  let h := { h with listening := false, probed := false }
  if listening then
    if h.manifest.ready then
      if h.probe.isNone then
        match h.endpoint endpoint, probe with
        | .error text, _ => h.refuse text
        | .ok _, some text => h.refuse text
        | .ok _, none => { h with probe := some .running }.startProbed probed readable endpoint
      else h.startProbed probed readable endpoint
    else h.becomeReady endpoint
  else h.startProbed probed readable endpoint

def froze (h : Host) : Except String Nat → Effect
  | .ok coroutines =>
    { h with sharedMemory := true, compaction := true }.answer (.frozen coroutines)
  | .error text => { host := { h with stage := .ended }, sent := [.answer (.error text)] }

def rebuilt (h : Host) (listener : Nat) (fails : RebuildStep → Option String) :
    Except String Host := do
  fail (fails .inherit)
  if h.sharedMemory = false then throw "the frozen host has no shared-memory snapshot"
  fail (fails .reshare)
  fail (fails .runtime)
  if h.adopted.isNone then throw "the guest has not bound its listening socket"
  fail (fails .replace)
  fail (fails .selector)
  fail (fails .resurrect)
  return { h with adopted := some listener }

def rebuild (h : Host) (listener : Nat) (fails : RebuildStep → Option String) : Effect :=
  match h.rebuilt listener fails with
  | .ok h => { h with phase := .running true, compaction := false }.goTo .announcing
  | .error text => { host := { h with stage := .ended }, sent := [.announcement (.error text)] }

def announce (h : Host) (endpoint : Option String) : Effect :=
  match h.endpoint endpoint with
  | .ok address =>
    { h.goTo (.waiting none) with sent := [.announcement (.forked h.pid address)] }
  | .error _ => h.goTo .ended

def loopStep (h : Host) (fresh : Nat) : Act → Option Effect
  | .poll readable =>
    match h.stage with
    | .waiting busy => some (h.goTo (.ticking busy readable))
    | .starting => some (h.goTo (.started readable))
    | _ => none
  | .tick =>
    match h.stage with
    | .ticking busy readable => some (h.tick busy readable)
    | _ => none
  | .reap =>
    match h.stage with
    | .reaping busy readable => some (h.reap busy readable)
    | _ => none
  | .compact done => if h.stage = .compacting then some (h.compact done) else none
  | .recv frame =>
    match h.stage with
    | .receiving none =>
      match frame with
      | some frame => some (h.goTo (.handling frame))
      | none => some (h.goTo .ended)
    | .receiving (some job) => some (h.refuseWhileBusy frame (busyWith job) (.checking job))
    | .startReceiving => some (h.refuseWhileBusy frame "the guest is starting" .starting)
    | _ => none
  | .handle first second =>
    match h.stage with
    | .handling frame => some (h.handle frame first second fresh)
    | _ => none
  | .check =>
    match h.stage with
    | .checking job =>
      match h.run with
      | some status => some (h.finished job status)
      | none => some (h.goTo (.waiting (some job)))
    | _ => none
  | .turn endpoint probe =>
    match h.stage with
    | .started readable => some (h.turn readable endpoint probe)
    | _ => none
  | .froze result => if h.stage = .freezing then some (h.froze result) else none
  | .rebuild fails =>
    match h.stage with
    | .rebuilding listener => some (h.rebuild listener fails)
    | _ => none
  | .announce endpoint => if h.stage = .announcing then some (h.announce endpoint) else none
  | .die => if h.stage = .ended then none else some (h.goTo .ended)
  | _ => none

def besideStep (h : Host) : Act → Option Host
  | .runEnds status => if h.run = none then some { h with run := some status } else none
  | .guestExits status =>
    if h.guest = some none then some { h with guest := some (some status) } else none
  | .bind registered =>
    match h.passed with
    | some address =>
      some { h with
        passed := none
        adopted := if registered then some address else h.adopted }
    | none => none
  | .listen => if h.adopted.isSome then some { h with listening := true } else none
  | .probeEnds failed =>
    if h.probe = some .running then
      some { h with
        probe := some (match failed with
          | some summary => .failed summary
          | none => .passed)
        probed := true }
    else none
  | .childExits pid status => some { h with exited := h.exited ++ [(pid, status)] }
  | _ => none

def step (h : Host) (fresh : Nat) (a : Act) : Option Effect :=
  match h.besideStep a with
  | some h => some { host := h }
  | none => h.loopStep fresh a

end Host

structure Family where
  host : Nat → Option Host := fun _ => none
  next : Nat := 0

def Family.take (s : Family) (p : Nat) (effect : Effect) : Family :=
  let host := update s.host p (some effect.host)
  match effect.child with
  | some (_, child) => { host := update host s.next (some child), next := s.next + 1 }
  | none => { s with host }

def Family.spawn (s : Family) (manifest : Manifest) : Family :=
  { host := update s.host s.next (some (Host.new s.next manifest)), next := s.next + 1 }

inductive FamilyEvent
  | spawn (manifest : Manifest)
  | act (p : Nat) (a : Act)

def Family.step (s : Family) : FamilyEvent → Option Family
  | .spawn manifest => some (s.spawn manifest)
  | .act p a => (s.host p).bind fun h => (h.step s.next a).map (s.take p)

def family : Transition.System Family FamilyEvent where
  Initial s := s = {}
  next := Family.step

end ServiceCache.Control
