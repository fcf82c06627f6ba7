import Mathlib.Logic.Function.Basic
import Mathlib.Tactic.Simps.Basic
import ServiceCache.Transition

/-!
# The template cache of a serving manager

`Templates::obtain`, `forget` and `prune`, the two forks of `create_instance`, the owner threads
(`base_owner`, `recipe_owner`, `serve_forks`) and the host processes they own. An event is one
step of one request or one owner between two points where others can run.

A template is named by the host process it freezes, so a handle
(`Template { commands, alive }`) is a host's number. Nothing counts references:
a handle exists where a slot or a request's local variable holds one. Hosts (`t`,
`p`), slots (`sl`) and requests (`r`) are numbered in the order they come up.
-/

namespace ServiceCache.Templates

open Function

structure Manifest where
  name : String
  version : String

/-- `recipe` is the digest of the recipe's bytes; `none` is the base template. -/
structure Key where
  name : String
  version : String
  recipe : Option (List UInt8)
  deriving DecidableEq

structure Config where
  sha256 : List UInt8 → List UInt8
  ttl : Nat

def Key.new (cfg : Config) (manifest : Manifest) (recipe : Option (List UInt8)) : Key :=
  ⟨manifest.name, manifest.version, recipe.map cfg.sha256⟩

/-- Where a host's owner thread stands. `killing` and `stopping` are about to end
the host, the first after a failure, the second when disconnected or expired. -/
inductive OwnerPhase
  | unowned
  | preparing
  | serving
  | killing
  | stopping
  | ended
  deriving DecidableEq

/-- A host process with its owner thread's state. `ancestors` are the processes
it was forked from, its own parent first; `exits` are the clone exits its
control channel holds that the owner has not read yet. -/
structure Host where
  ancestors : List Nat := []
  exited : Bool := false
  reported : Bool := false
  phase : OwnerPhase := .unowned
  alive : Bool := true
  ready : Option Bool := none
  commands : List Nat := []
  children : Nat := 0
  exits : Nat := 0
  idleSince : Nat := 0

structure Slot where
  key : Key := ⟨"", "", none⟩
  template : Option Nat := none
  lockedBy : Option Nat := none

/-- The await points of a `create_instance` call. `obtain` goes through `slot`,
`lock`, `check` and a fill once for the base and, with a recipe, once more. -/
inductive Stage
  | slot
  | lock
  | check
  | fill
  | forkBase
  | fork
  | forking
  | forget
  | adopt
  | done (created : Bool)
  deriving DecidableEq

/-- A call's local variables. `template` is the handle of the first `obtain`, kept
to the end of the call; `handle` is the one being forked. Inside `obtain`, `slot`
is the slot in hand and `guard` the one locked; `baseSlot` is the base's slot,
which the second `slot` only shadows, and `base` the base at hand. A fill holds
the sender of the template it waits for in `filling`. `reply` is the answer on
the fork's channel, `some none` for an error or a dropped sender. -/
structure Request where
  manifest : Manifest := ⟨"", ""⟩
  recipe : Option (List UInt8) := none
  retry : Bool := false
  template : Option Nat := none
  stage : Stage := .done false
  baseSlot : Option Nat := none
  base : Option Nat := none
  slot : Option Nat := none
  guard : Option Nat := none
  filling : Option Nat := none
  handle : Option Nat := none
  reply : Option (Option Nat) := none

structure State where
  slots : Key → Option Nat := fun _ => none
  slot : Nat → Slot := fun _ => {}
  nextSlot : Nat := 0
  host : Nat → Host := fun _ => {}
  nextHost : Nat := 0
  request : Nat → Request := fun _ => {}
  arrived : Nat := 0
  now : Nat := 0

/-! ## Handles -/

def Request.HoldsSlot (q : Request) (sl : Nat) : Prop :=
  q.baseSlot = some sl ∨ q.slot = some sl ∨ q.guard = some sl

def Request.Holds (q : Request) (h : Nat) : Prop :=
  q.template = some h ∨ q.base = some h ∨ q.filling = some h ∨ q.handle = some h

instance (q : Request) (sl : Nat) : Decidable (q.HoldsSlot sl) :=
  inferInstanceAs (Decidable (_ ∨ _ ∨ _))

instance (q : Request) (h : Nat) : Decidable (q.Holds h) :=
  inferInstanceAs (Decidable (_ ∨ _ ∨ _ ∨ _))

namespace State

def SlotHeld (s : State) (sl : Nat) : Prop :=
  ∃ r < s.arrived, (s.request r).HoldsSlot sl

def Mapped (s : State) (sl : Nat) : Prop := s.slots (s.slot sl).key = some sl

def TemplateHeld (s : State) (h : Nat) : Prop :=
  ∃ r < s.arrived, (s.request r).Holds h

def Connected (s : State) (h : Nat) : Prop :=
  (∃ sl < s.nextSlot, (s.Mapped sl ∨ s.SlotHeld sl) ∧ (s.slot sl).template = some h) ∨
    s.TemplateHeld h

/-- A clone dies with the process it was forked from. -/
def Running (s : State) (p : Nat) : Prop :=
  (s.host p).exited = false ∧ ∀ a ∈ (s.host p).ancestors, (s.host a).exited = false

def RunningDescendant (s : State) (h : Nat) : Prop :=
  ∃ p < s.nextHost, h ∈ (s.host p).ancestors ∧ s.Running p

instance (s : State) (sl : Nat) : Decidable (s.SlotHeld sl) :=
  inferInstanceAs (Decidable (∃ r < s.arrived, _))

instance (s : State) (sl : Nat) : Decidable (s.Mapped sl) :=
  inferInstanceAs (Decidable (_ = _))

instance (s : State) (h : Nat) : Decidable (s.TemplateHeld h) :=
  inferInstanceAs (Decidable (∃ r < s.arrived, _))

instance (s : State) (h : Nat) : Decidable (s.Connected h) :=
  inferInstanceAs (Decidable ((∃ sl < s.nextSlot, _) ∨ _))

instance (s : State) (p : Nat) : Decidable (s.Running p) :=
  inferInstanceAs (Decidable (_ ∧ ∀ a ∈ (s.host p).ancestors, _))

instance (s : State) (h : Nat) : Decidable (s.RunningDescendant h) :=
  inferInstanceAs (Decidable (∃ p < s.nextHost, _))

/-! ## Updates -/

@[simps]
def setRequest (s : State) (r : Nat) (q : Request) : State :=
  { s with request := update s.request r q }

@[simps]
def setSlot (s : State) (sl : Nat) (c : Slot) : State :=
  { s with slot := update s.slot sl c }

@[simps]
def setHost (s : State) (h : Nat) (c : Host) : State :=
  { s with host := update s.host h c }

@[simps]
def removeSlot (s : State) (key : Key) : State :=
  { s with slots := update s.slots key none }

/-- The receiver goes: every queued fork's answer channel is dropped. -/
@[simps]
def dropCommands (s : State) (h : Nat) : State :=
  { s with
    request := fun r =>
      if r ∈ (s.host h).commands then { s.request r with reply := some none } else s.request r
    host := update s.host h { s.host h with commands := [] } }

end State

/-! ## `create_instance` -/

def Request.leave (q : Request) : Request :=
  { q with baseSlot := none, base := none, slot := none, guard := none, filling := none }

def Request.finish (q : Request) (created : Bool) : Request :=
  { q.leave with stage := .done created, template := none, handle := none }

/-- `obtain` returned `t`: the first handle is kept as `template`, the second is a
temporary. -/
def Request.obtained (q : Request) (t : Nat) : Request :=
  { q.leave with
    stage := .fork
    template := if q.retry then q.template else some t
    handle := some t }

/-- The slot in hand gave the template `t`. If it is the base and there is a
recipe, the recipe's turn comes; else `obtain` returns. -/
def Request.got (q : Request) (t : Nat) : Request :=
  if q.base = none ∧ q.recipe ≠ none then
    { q with
      stage := .slot
      baseSlot := q.slot
      base := some t
      slot := none
      guard := none
      filling := none }
  else q.obtained t

def unlock (s : State) (sl : Nat) : State :=
  s.setSlot sl { s.slot sl with lockedBy := none }

/-- `*slot = Some(template.clone())`, and the guard goes. -/
def store (s : State) (sl : Nat) (t : Nat) : State :=
  s.setSlot sl { s.slot sl with template := some t, lockedBy := none }

def Request.key (cfg : Config) (q : Request) : Key :=
  Key.new cfg q.manifest (if q.base = none then none else q.recipe)

def slotFor (s : State) (key : Key) : State × Nat :=
  match s.slots key with
  | some sl => (s, sl)
  | none =>
    ({ s with
        slots := update s.slots key (some s.nextSlot)
        slot := update s.slot s.nextSlot { key }
        nextSlot := s.nextSlot + 1 }, s.nextSlot)

def slotStep (cfg : Config) (s : State) (r : Nat) : Option State :=
  if (s.request r).stage = .slot then
    let found := slotFor s ((s.request r).key cfg)
    some (found.1.setRequest r { s.request r with stage := .lock, slot := some found.2 })
  else none

def lockStep (s : State) (r : Nat) : Option State :=
  match (s.request r).stage, (s.request r).slot with
  | .lock, some sl =>
    if (s.slot sl).lockedBy = none then
      some ((s.setSlot sl { s.slot sl with lockedBy := some r }).setRequest r
        { s.request r with stage := .check, guard := some sl })
    else none
  | _, _ => none

def State.aliveIn (s : State) (sl : Nat) : Option Nat :=
  (s.slot sl).template.filter (fun t => (s.host t).alive)

def send (s : State) (r : Nat) (t : Nat) (stage : Stage) : State :=
  (s.setHost t { s.host t with commands := (s.host t).commands ++ [r] }).setRequest r
    { s.request r with reply := none, stage := stage }

def spawnBase (s : State) (r : Nat) : State :=
  ({ s with
      host := update s.host s.nextHost { phase := .preparing }
      nextHost := s.nextHost + 1 }).setRequest r
    { s.request r with stage := .fill, filling := some s.nextHost }

def giveUp (s : State) (r : Nat) (sl : Nat) : State :=
  (unlock s sl).setRequest r ((s.request r).finish false)

/-- The look into the locked slot: an alive template is cloned and the guard
goes; else the fill begins under the lock. `spawned` is whether the owner thread
could be created. -/
def checkStep (s : State) (r : Nat) (spawned : Bool) : Option State :=
  match (s.request r).stage, (s.request r).guard with
  | .check, some sl =>
    match s.aliveIn sl, (s.request r).base with
    | some t, _ => some ((unlock s sl).setRequest r ((s.request r).got t))
    | none, none => some (if spawned then spawnBase s r else giveUp s r sl)
    | none, some b =>
      some (if (s.host b).phase = .ended then giveUp s r sl else send s r b .forkBase)
  | _, _ => none

def filledStep (s : State) (r : Nat) : Option State :=
  match (s.request r).stage, (s.request r).guard, (s.request r).filling with
  | .fill, some sl, some t =>
    match (s.host t).ready with
    | some true => some ((store s sl t).setRequest r ((s.request r).got t))
    | some false => some (giveUp s r sl)
    | none => none
  | _, _, _ => none

/-- A fork of the call failed: the first is forgotten and retried, the second is
the call's error. -/
def forkFailed (s : State) (r : Nat) : State :=
  s.setRequest r
    (if (s.request r).retry then (s.request r).finish false
      else { s.request r with stage := .forget, handle := none })

def sendStep (s : State) (r : Nat) : Option State :=
  match (s.request r).stage, (s.request r).handle with
  | .fork, some t =>
    some (if (s.host t).phase = .ended then forkFailed s r else send s r t .forking)
  | _, _ => none

def spawnRecipe (s : State) (r : Nat) (p : Nat) : State :=
  (s.setHost p { s.host p with phase := .preparing }).setRequest r
    { s.request r with reply := none, stage := .fill, filling := some p }

def answerStep (s : State) (r : Nat) (spawned : Bool) : Option State :=
  match (s.request r).stage, (s.request r).reply, (s.request r).guard with
  | .forkBase, some (some p), some sl =>
    some (if spawned then spawnRecipe s r p else giveUp s r sl)
  | .forkBase, some none, some sl => some (giveUp s r sl)
  | .forking, some (some _), _ =>
    some (s.setRequest r { s.request r with reply := none, stage := .adopt, handle := none })
  | .forking, some none, _ => some (forkFailed s r)
  | _, _, _ => none

/-- `Templates::forget`: the key's slot leaves the map, whatever it holds by now. -/
def forgetStep (cfg : Config) (s : State) (r : Nat) : Option State :=
  if (s.request r).stage = .forget then
    some ((s.removeSlot (Key.new cfg (s.request r).manifest (s.request r).recipe)).setRequest r
      { s.request r with retry := true, stage := .slot })
  else none

def adoptStep (s : State) (r : Nat) : Option State :=
  if (s.request r).stage = .adopt then
    some (s.setRequest r ((s.request r).finish true))
  else none

/-! ## `Templates::prune` -/

def retained (s : State) (sl : Nat) : Bool :=
  decide (s.SlotHeld sl) || (s.slot sl).lockedBy.isSome || (s.aliveIn sl).isSome

def prune (s : State) : State :=
  { s with slots := fun key => (s.slots key).filter (retained s) }

/-! ## The owner threads -/

def preparedStep (s : State) (t : Nat) (ok : Bool) : Option State :=
  let h := s.host t
  if h.phase = .preparing then
    if ok then
      if s.Running t then
        some (s.setHost t { h with phase := .serving, ready := some true, idleSince := s.now })
      else none
    else some (s.setHost t { h with phase := .ended, ready := some false, exited := true })
  else none

/-- The host's record after a served fork, before which `k` clone exits came in;
the subtraction saturates, as in the source. -/
def Host.forked (now : Nat) (h : Host) (k : Nat) (rest : List Nat) : Host :=
  let children := h.children + 1 - k
  { h with
    commands := rest
    children := children
    exits := h.exits - k
    idleSince := if children = 0 then now else h.idleSince }

def cloned (s : State) (t : Nat) (k : Nat) (r : Nat) (rest : List Nat) : State :=
  { s with
    host := update
      (update s.host t ((s.host t).forked s.now k rest))
      s.nextHost { ancestors := t :: (s.host t).ancestors }
    nextHost := s.nextHost + 1
    request := update s.request r
      { s.request r with reply := some (some s.nextHost) } }

def serveForkStep (s : State) (t : Nat) (k : Nat) : Option State :=
  match (s.host t).phase, (s.host t).commands with
  | .serving, r :: rest =>
    if s.Running t ∧ k ≤ (s.host t).exits then some (cloned s t k r rest) else none
  | _, _ => none

/-- `host.fork()` failed: the template is given up. The error is sent in the same
step: until the request reads it, nobody can tell. -/
def forkFailsStep (s : State) (t : Nat) : Option State :=
  match (s.host t).phase, (s.host t).commands with
  | .serving, r :: rest =>
    some ((s.setHost t { s.host t with alive := false, phase := .killing, commands := rest
      }).setRequest r { s.request r with reply := some none })
  | _, _ => none

def endOwner (s : State) (t : Nat) : State :=
  let dropped := s.dropCommands t
  dropped.setHost t { dropped.host t with exited := true, phase := .ended }

def killStep (s : State) (t : Nat) : Option State :=
  if (s.host t).phase = .killing then some (endOwner s t) else none

def hostGoneStep (s : State) (t : Nat) : Option State :=
  let h := s.host t
  if h.phase = .serving ∧ h.commands = [] then
    some (s.setHost t { h with alive := false, phase := .killing })
  else none

def Host.drained (now : Nat) (h : Host) : Host :=
  let children := h.children - h.exits
  { h with
    children := children
    exits := 0
    idleSince := if 0 < h.exits ∧ children = 0 then now else h.idleSince }

def timeoutStep (cfg : Config) (s : State) (t : Nat) : Option State :=
  let h := s.host t
  if h.phase = .serving ∧ h.commands = [] then
    let d := h.drained s.now
    some (s.setHost t
      (if d.children = 0 ∧ cfg.ttl ≤ s.now - d.idleSince then
        { d with alive := false, phase := .stopping }
      else d))
  else none

def disconnectedStep (s : State) (t : Nat) : Option State :=
  let h := s.host t
  if h.phase = .serving ∧ h.commands = [] ∧ ¬ s.Connected t then
    some (s.setHost t { h with alive := false, phase := .stopping })
  else none

def stopStep (s : State) (t : Nat) : Option State :=
  if (s.host t).phase = .stopping then some (endOwner s t) else none

/-! ## The processes -/

def exitStep (s : State) (p : Nat) : Option State :=
  if p < s.nextHost then some (s.setHost p { s.host p with exited := true }) else none

def reportTo (s : State) (t : Nat) : State :=
  s.setHost t { s.host t with exits := (s.host t).exits + 1 }

def reportStep (s : State) (p : Nat) : Option State :=
  match (s.host p).ancestors with
  | t :: _ =>
    if p < s.nextHost ∧ (s.host t).exited = false ∧ (s.host p).reported = false ∧
        ¬ s.Running p then
      some (reportTo (s.setHost p { s.host p with reported := true }) t)
    else none
  | [] => none

/-! ## The system -/

inductive Call
  | slot
  | lock
  | check (spawned : Bool)
  | filled
  | send
  | answer (spawned : Bool)
  | forget
  | adopt

inductive Turn
  | prepared (ok : Bool)
  | serveFork (k : Nat)
  | forkFails
  | kill
  | hostGone
  | timeout
  | disconnected
  | stop

inductive Event
  | arrive (manifest : Manifest) (recipe : Option (List UInt8))
  | call (r : Nat) (c : Call)
  | prune
  | owner (t : Nat) (turn : Turn)
  | exit (p : Nat)
  | report (p : Nat)
  | tick

def arrive (s : State) (manifest : Manifest) (recipe : Option (List UInt8)) : State :=
  { s with
    request := update s.request s.arrived { manifest, recipe, stage := .slot }
    arrived := s.arrived + 1 }

def callStep (cfg : Config) (s : State) (r : Nat) : Call → Option State
  | .slot => slotStep cfg s r
  | .lock => lockStep s r
  | .check spawned => checkStep s r spawned
  | .filled => filledStep s r
  | .send => sendStep s r
  | .answer spawned => answerStep s r spawned
  | .forget => forgetStep cfg s r
  | .adopt => adoptStep s r

def ownerStep (cfg : Config) (s : State) (t : Nat) : Turn → Option State
  | .prepared ok => preparedStep s t ok
  | .serveFork k => serveForkStep s t k
  | .forkFails => forkFailsStep s t
  | .kill => killStep s t
  | .hostGone => hostGoneStep s t
  | .timeout => timeoutStep cfg s t
  | .disconnected => disconnectedStep s t
  | .stop => stopStep s t

def next (cfg : Config) (s : State) : Event → Option State
  | .arrive manifest recipe => some (arrive s manifest recipe)
  | .call r c => callStep cfg s r c
  | .prune => some (prune s)
  | .owner t turn => ownerStep cfg s t turn
  | .exit p => exitStep s p
  | .report p => reportStep s p
  | .tick => some { s with now := s.now + 1 }

def cache (cfg : Config) : Transition.System State Event where
  Initial s := s = {}
  next := next cfg

end ServiceCache.Templates
