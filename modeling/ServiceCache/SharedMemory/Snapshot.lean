import ServiceCache.SharedMemory.Model

/-!
# Freezing shared memory, forking, sharing again

A host lives through any number of generations: it runs, is frozen, and a child of it runs on.
-/

namespace ServiceCache.SharedMemory

def State.snapshotMappings (s : State) (o : Nat) : Except IoError (List RegisteredMapping) :=
  let mappings := (s.process.object o).registered
  if mappings.any (fun m => m.hostAddress = none) then .error .noHostAddress else .ok mappings

/-- The mapping of one byte, in the sharing `replace_backing` is asked for. A frozen one is
left out of every fork. -/
def backing (shared : Bool) (file offset : Nat) : Cell :=
  if shared then .shared file offset else .priv file offset none true

def remapOne (file : Nat) (shared : Bool) (space : Nat → Cell) (m : RegisteredMapping) :
    Nat → Cell :=
  match m.hostAddress with
  | none => space
  | some h => overlay space h (m.stop - m.start) fun i => backing shared file (m.start + i)

def remap (file : Nat) (shared : Bool) (space : Nat → Cell) (mappings : List RegisteredMapping) :
    Nat → Cell :=
  mappings.foldl (remapOne file shared) space

variable (ops : FileOps)

def State.replaceBacking (s : State) (o : Nat) (mappings : List RegisteredMapping)
    (shared : Bool) : Except IoError State := do
  let source := s.content o
  let replacement ← copyData ops source (.zeros source.len) 0 source.len
  let file := s.kernel.next
  .ok (((s.createMemfd replacement).setSpace
    (remap file shared s.process.space mappings)).setObject o { s.process.object o with file })

/-- `SharedMemorySnapshot`: objects with the mappings they had when they were frozen. -/
def Snapshot := List (Nat × List RegisteredMapping)

def State.freezeObjects (s : State) : List Nat → Except IoError (State × Snapshot)
  | [] => .ok (s, [])
  | o :: os => do
      let mappings ← s.snapshotMappings o
      if mappings = [] then s.freezeObjects os
      else
        let t ← s.replaceBacking ops o mappings false
        let (frozen, snapshot) ← t.freezeObjects os
        .ok (frozen, (o, mappings) :: snapshot)

def State.freeze (s : State) : Except IoError (State × Snapshot) :=
  s.freezeObjects ops s.process.mapped

def State.reshareAfterFork (s : State) : Snapshot → Except IoError State
  | [] => .ok s
  | (o, mappings) :: rest => do
      let t ← s.replaceBacking ops o mappings true
      t.reshareAfterFork rest

/-- A native fork: the child has the parent's memory, less what is `MADV_DONTFORK`. -/
@[simps]
def Process.forked (p : Process) : Process :=
  { p with space := fun a =>
      match p.space a with
      | .priv _ _ _ true => .unmapped
      | cell => cell }

def State.generation (s : State) : Except IoError State := do
  let (frozen, snapshot) ← s.freeze ops
  State.reshareAfterFork ops ⟨frozen.kernel, frozen.process.forked⟩ snapshot

def State.generations (s : State) : Nat → Except IoError State
  | 0 => .ok s
  | n + 1 => do
      let t ← s.generation ops
      t.generations n

inductive HostEvent
  | op (op : Op)
  | generation

def hostNext (s : State) : HostEvent → Option State
  | .op op => op.apply s
  | .generation => (s.generation ops).toOption

def host : Transition.System State HostEvent where
  Initial s := s = {}
  next := hostNext ops

structure Tree where
  kernel : Kernel
  processes : List Process

def forkChildren (k : Kernel) (frozen : Process) (snapshot : Snapshot) :
    Nat → Except IoError (Kernel × List Process)
  | 0 => .ok (k, [])
  | n + 1 => do
      let child ← State.reshareAfterFork ops ⟨k, frozen.forked⟩ snapshot
      let (kernel, children) ← forkChildren child.kernel frozen snapshot n
      .ok (kernel, child.process :: children)

def State.cloneTree (s : State) (n : Nat) : Except IoError Tree := do
  let (frozen, snapshot) ← s.freeze ops
  let (kernel, children) ← forkChildren ops frozen.kernel frozen.process snapshot n
  .ok ⟨kernel, frozen.process :: children⟩

end ServiceCache.SharedMemory
