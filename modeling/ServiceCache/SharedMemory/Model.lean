import Mathlib.Algebra.Group.Int.Defs
import Mathlib.Algebra.Group.Nat.Defs
import Mathlib.Logic.Function.Basic
import ServiceCache.SharedMemory.Memfd
import ServiceCache.Transition

/-!
# Shared-memory objects, their mappings and the address space of a host

A host process holds `/dev/shm` objects, each backed by a memfd, and any number of guest processes
whose linear memories overlay ranges of these objects. The kernel's files are common to all host
processes; everything else a native fork copies.

Left out: timestamps, the futex tables of the objects, the parsing of paths, and the
weak references of `MAPPED_OBJECTS` to objects that are gone (they have no mapping,
so `freeze` skips them either way). File and mmap calls succeed.
-/

namespace ServiceCache.SharedMemory

open Function

structure Kernel where
  next : Nat := 0
  file : Nat → Memfd := fun _ => .empty

inductive Cell
  | unmapped
  | anon (b : UInt8)
  /-- A byte of a `MAP_SHARED` mapping. -/
  | shared (file offset : Nat)
  /-- A byte of a `MAP_PRIVATE` mapping, copied or not, and whether `MADV_DONTFORK`. -/
  | priv (file offset : Nat) (copy : Option UInt8) (dontFork : Bool)
deriving DecidableEq

structure RegisteredMapping where
  start : Nat
  stop : Nat
  hostAddress : Option Nat := none
deriving DecidableEq, Repr

structure Object where
  file : Nat := 0
  nextMapping : Nat := 1
  mappings : Nat → Option RegisteredMapping := fun _ => none

def Object.registered (x : Object) : List RegisteredMapping :=
  (List.range x.nextMapping).filterMap x.mappings

/-- `SharedMemoryMapping`: a guest process's record of one overlay. -/
structure Mapping where
  object : Nat
  id : Nat
  address : Nat
  len : Nat
  fileOffset : Nat
deriving DecidableEq, Repr

/-- A guest process: where its linear memory is, how much of the reserved range is
accessible, and `shared_memory_mappings`. -/
structure Guest where
  base : Nat
  size : Nat
  reserved : Nat
  mappings : List Mapping := []

structure Name where
  root : Nat
  name : String
deriving DecidableEq, Repr

structure Handle where
  object : Nat
  name : Name
  readable : Bool
  writable : Bool
  append : Bool
  cursor : Nat

/-- A guest descriptor. Its rights come from the options the handle was opened with, so
a descriptor that may be mapped has a handle that may be written. -/
structure Fd where
  handle : Handle
  rights : Bool
  writable_of_rights : rights = true → handle.writable = true

structure Process where
  space : Nat → Cell := fun _ => .unmapped
  object : Nat → Object := fun _ => {}
  nextObject : Nat := 0
  mapped : List Nat := []
  files : Name → Option Nat := fun _ => none
  fd : Nat → Option Fd := fun _ => none
  nextFd : Nat := 0
  guest : Nat → Option Guest := fun _ => none
  nextGuest : Nat := 0

structure State where
  kernel : Kernel := {}
  process : Process := {}

inductive FsError
  | permissionDenied | alreadyExists | entryNotFound | invalidInput
deriving DecidableEq, Repr

inductive Errno
  | success | inval | overflow | exist | fault | access | badf
deriving DecidableEq, Repr

def wasmPageSize : Nat := 65536

def hostPageSize : Nat := 4096

def State.content (s : State) (o : Nat) : Memfd := s.kernel.file (s.process.object o).file

@[simps]
def State.setFile (s : State) (f : Nat) (m : Memfd) : State :=
  { s with kernel.file := update s.kernel.file f m }

@[simps]
def State.setObject (s : State) (o : Nat) (x : Object) : State :=
  { s with process.object := update s.process.object o x }

@[simps]
def State.setSpace (s : State) (space : Nat → Cell) : State :=
  { s with process.space := space }

@[simps]
def State.setFd (s : State) (d : Nat) (x : Option Fd) : State :=
  { s with process.fd := update s.process.fd d x }

@[simps]
def State.setGuest (s : State) (g : Nat) (x : Option Guest) : State :=
  { s with process.guest := update s.process.guest g x }

/-- `memfd_create`. -/
@[simps]
def State.createMemfd (s : State) (m : Memfd) : State :=
  { s with
    kernel.next := s.kernel.next + 1
    kernel.file := update s.kernel.file s.kernel.next m }

/-! ## Files -/

structure OpenOptions where
  read : Bool
  write : Bool
  create : Bool := false
  createNew : Bool := false
  append : Bool := false
  truncate : Bool := false

def State.newObject (s : State) (name : Name) : State :=
  { s.createMemfd .empty with
    process.object := update s.process.object s.process.nextObject
      { file := s.kernel.next }
    process.nextObject := s.process.nextObject + 1
    process.files := update s.process.files name (some s.process.nextObject) }

/-- `SharedMemoryObject::set_len`: a mapped range is never cut off. -/
def State.setLen (s : State) (o n : Nat) : Except FsError State :=
  if (s.process.object o).registered.any (fun m => n < m.stop) then .error .permissionDenied
  else .ok (s.setFile (s.process.object o).file ((s.content o).setLen n))

def State.handleFor (s : State) (name : Name) (conf : OpenOptions) (o : Nat) : Handle where
  object := o
  name := name
  readable := conf.read
  writable := conf.write
  append := conf.append
  cursor := if conf.append then (s.content o).len else 0

def State.addFd (s : State) (name : Name) (conf : OpenOptions) (o : Nat) : State :=
  let fd : Fd := ⟨s.handleFor name conf o, conf.read && conf.write, by simp [State.handleFor]⟩
  { s.setFd s.process.nextFd (some fd) with process.nextFd := s.process.nextFd + 1 }

def State.openObject (s : State) (name : Name) (conf : OpenOptions) (o : Nat) :
    State × Except FsError Nat :=
  if conf.truncate then
    if conf.write then
      match s.setLen o 0 with
      | .error e => (s, .error e)
      | .ok t => (t.addFd name conf o, .ok t.process.nextFd)
    else (s, .error .permissionDenied)
  else (s.addFd name conf o, .ok s.process.nextFd)

def State.open (s : State) (name : Name) (conf : OpenOptions) : State × Except FsError Nat :=
  if !conf.read && !conf.write then (s, .error .permissionDenied)
  else
    match s.process.files name with
    | some o => if conf.createNew then (s, .error .alreadyExists) else s.openObject name conf o
    | none =>
      if !conf.create && !conf.createNew then (s, .error .entryNotFound)
      else (s.newObject name).openObject name conf s.process.nextObject

def State.close (s : State) (d : Nat) : State := s.setFd d none

def State.removeFile (s : State) (name : Name) : State × Except FsError Unit :=
  match s.process.files name with
  | none => (s, .error .entryNotFound)
  | some _ => ({ s with process.files := update s.process.files name none }, .ok ())

/-- `unlink` of a handle: only while its name still means its object. -/
def State.unlink (s : State) (h : Handle) : State × Except FsError Unit :=
  if s.process.files h.name = some h.object then
    ({ s with process.files := update s.process.files h.name none }, .ok ())
  else (s, .error .entryNotFound)

def Fd.withCursor (x : Fd) (cursor : Nat) : Fd :=
  ⟨{ x.handle with cursor }, x.rights, x.writable_of_rights⟩

def State.read (s : State) (d : Nat) (x : Fd) (n : Nat) : State × Except FsError (List UInt8) :=
  if x.handle.readable then
    let m := s.content x.handle.object
    let amount := min n (m.len - x.handle.cursor)
    (s.setFd d (some (x.withCursor (x.handle.cursor + amount))),
      .ok (m.slice x.handle.cursor amount))
  else (s, .error .permissionDenied)

def State.write (s : State) (d : Nat) (x : Fd) (bs : List UInt8) :
    State × Except FsError Nat :=
  if x.handle.writable then
    let m := s.content x.handle.object
    let offset := if x.handle.append then m.len else x.handle.cursor
    ((s.setFile (s.process.object x.handle.object).file (m.writeAt offset bs)).setFd d
      (some (x.withCursor (offset + bs.length))), .ok bs.length)
  else (s, .error .permissionDenied)

def State.truncate (s : State) (d : Nat) (x : Fd) (n : Nat) : State × Except FsError Unit :=
  if x.handle.writable then
    match s.setLen x.handle.object n with
    | .error e => (s, .error e)
    | .ok t => (t.setFd d (some (x.withCursor (min x.handle.cursor n))), .ok ())
  else (s, .error .permissionDenied)

inductive SeekFrom
  | start (offset : Nat)
  | fromEnd (delta : Int)
  | current (delta : Int)

def State.seekPosition (s : State) (h : Handle) : SeekFrom → Int
  | .start offset => offset
  | .fromEnd delta => (s.content h.object).len + delta
  | .current delta => h.cursor + delta

def State.seek (s : State) (d : Nat) (x : Fd) (position : SeekFrom) :
    State × Except FsError Nat :=
  let newPosition := s.seekPosition x.handle position
  if 0 ≤ newPosition ∧ newPosition < 2 ^ 64 then
    (s.setFd d (some (x.withCursor newPosition.toNat)), .ok newPosition.toNat)
  else (s, .error .invalidInput)

/-! ## Mappings -/

/-- `mmap` with `MAP_FIXED`: the range now shows the file from `offset` on. -/
def overlay (space : Nat → Cell) (address len : Nat) (cell : Nat → Cell) : Nat → Cell :=
  fun a => if address ≤ a ∧ a < address + len then cell (a - address) else space a

/-- The new registration of `register_mapping`, whose address is not known yet. -/
@[simps]
def State.register (s : State) (o fileOffset len : Nat) : State :=
  { s with
    process.object := update s.process.object o
      { s.process.object o with
        nextMapping := (s.process.object o).nextMapping + 1
        mappings := update (s.process.object o).mappings (s.process.object o).nextMapping
          (some ⟨fileOffset, fileOffset + len, none⟩) }
    -- remember_mapped_object
    process.mapped :=
      if o ∈ s.process.mapped then s.process.mapped else s.process.mapped ++ [o] }

def State.registerMapping (s : State) (o fileOffset len : Nat) : Except Errno (State × Nat) :=
  if 2 ^ 64 ≤ fileOffset + len then .error .overflow
  else if len = 0 ∨ (s.content o).len < fileOffset + len then .error .inval
  else .ok (s.register o fileOffset len, (s.process.object o).nextMapping)

def State.unregisterMapping (s : State) (o id : Nat) : State :=
  s.setObject o { s.process.object o with
    mappings := update (s.process.object o).mappings id none }

def State.setHostAddress (s : State) (o id hostAddress : Nat) : State :=
  s.setObject o { s.process.object o with
    mappings := update (s.process.object o).mappings id
      (((s.process.object o).mappings id).map fun m => { m with hostAddress := some hostAddress }) }

def State.overlaySharedFile (s : State) (base : Nat) (m : Mapping) : State :=
  s.setSpace (overlay s.process.space (base + m.address) m.len
    (fun i => .shared (s.process.object m.object).file (m.fileOffset + i)))

def State.mapIn (s : State) (base : Nat) (m : Mapping) : State :=
  (s.overlaySharedFile base m).setHostAddress m.object m.id (base + m.address)

def State.pushMapping (s : State) (g : Nat) (m : Mapping) : State :=
  s.setGuest g ((s.process.guest g).map fun x => { x with mappings := x.mappings ++ [m] })

def State.dropMapping (s : State) (g : Nat) (m : Mapping) : State :=
  (s.unregisterMapping m.object m.id).setGuest g
    ((s.process.guest g).map fun x => { x with mappings := x.mappings.filter (· ≠ m) })

def Process.sharedMemoryObject (p : Process) (d : Nat) : Except Errno Nat :=
  match p.fd d with
  | none => .error .badf
  | some x => if x.rights then .ok x.handle.object else .error .access

def State.fdMap (s : State) (g d address len fileOffset : Nat) : State × Errno :=
  if len = 0 ∨ address % wasmPageSize ≠ 0 ∨ len % wasmPageSize ≠ 0 ∨
      fileOffset % wasmPageSize ≠ 0 then (s, .inval)
  else if 2 ^ 64 ≤ address + len then (s, .overflow)
  else
    match s.process.guest g with
    | none => (s, .fault)
    | some guest =>
      match s.process.sharedMemoryObject d with
      | .error e => (s, e)
      | .ok o =>
        if guest.mappings.any (fun m => address < m.address + m.len ∧ m.address < address + len)
        then (s, .exist)
        else
          match s.registerMapping o fileOffset len with
          | .error e => (s, e)
          | .ok (t, id) =>
            let m : Mapping := ⟨o, id, address, len, fileOffset⟩
            -- the overlay must lie inside the linear memory; else the mapping is dropped
            if guest.size < address + len then (t.unregisterMapping o id, .inval)
            else ((t.mapIn guest.base m).pushMapping g m, .success)

def State.fdUnmap (s : State) (g address len : Nat) : State × Errno :=
  if len = 0 ∨ address % wasmPageSize ≠ 0 ∨ len % wasmPageSize ≠ 0 then (s, .inval)
  else
    match s.process.guest g with
    | none => (s, .fault)
    | some guest =>
      match guest.mappings.find? (fun m => m.address = address ∧ m.len = len) with
      | none => (s, .inval)
      | some m =>
        if guest.size < address + len then (s, .inval)
        else
          -- restore_private_anonymous, then the mapping is dropped
          ((s.setSpace (overlay s.process.space (guest.base + address) len
            fun _ => .anon 0)).dropMapping g m, .success)

/-! ## Guest memory -/

def load (k : Kernel) (p : Process) (a : Nat) : UInt8 :=
  match p.space a with
  | .unmapped => 0
  | .anon b => b
  | .shared f offset => (k.file f).byte offset
  | .priv f offset none _ => (k.file f).byte offset
  | .priv _ _ (some b) _ => b

/-- Copy on write: the private bytes of the page of `a` are copied from the file. -/
def copyPage (k : Kernel) (space : Nat → Cell) (a : Nat) : Nat → Cell := fun b =>
  match space b with
  | .priv f offset none dontFork =>
    if b / hostPageSize = a / hostPageSize then
      .priv f offset (some ((k.file f).byte offset)) dontFork
    else .priv f offset none dontFork
  | cell => cell

def State.store (s : State) (a : Nat) (b : UInt8) : State :=
  match s.process.space a with
  | .unmapped => s
  | .anon _ => s.setSpace (update s.process.space a (.anon b))
  | .shared f offset => s.setFile f ((s.kernel.file f).poke offset b)
  | .priv f offset _ dontFork =>
    s.setSpace (update (copyPage s.kernel s.process.space a) a
      (.priv f offset (some b) dontFork))

def Process.Free (p : Process) (base reserved : Nat) : Prop :=
  ∀ g < p.nextGuest, ∀ x ∈ p.guest g, base + reserved ≤ x.base ∨ x.base + x.reserved ≤ base

instance (p : Process) (base reserved : Nat) : Decidable (p.Free base reserved) := by
  unfold Process.Free; infer_instance

def State.addGuest (s : State) (x : Guest) (cell : Nat → Cell) : State :=
  let t := s.setSpace (overlay s.process.space x.base x.size cell)
  { t.setGuest s.process.nextGuest (some x) with process.nextGuest := s.process.nextGuest + 1 }

def State.spawn (s : State) (base size reserved : Nat) : Option State :=
  if size ≤ reserved ∧ s.process.Free base reserved then
    some (s.addGuest { base, size, reserved } fun _ => .anon 0)
  else none

def State.grow (s : State) (g size : Nat) : Option State := do
  let x ← s.process.guest g
  if x.size ≤ size ∧ size ≤ x.reserved then
    some ((s.setSpace (overlay s.process.space (x.base + x.size) (size - x.size)
      fun _ => .anon 0)).setGuest g (some { x with size }))
  else none

/-- `fork_clone` of every mapping into the child's list; it panics where one no longer
fits. -/
def State.forkClones (s : State) (child : Nat) : List Mapping → Option State
  | [] => some s
  | m :: ms =>
    match s.registerMapping m.object m.fileOffset m.len with
    | .error _ => none
    | .ok (t, id) => (t.pushMapping child { m with id }).forkClones child ms

/-- `proc_fork`: the child gets a copy of the memory, all of it anonymous, and the
registrations of its overlays. -/
def State.procFork (s : State) (g base : Nat) : Option State := do
  let x ← s.process.guest g
  if s.process.Free base x.reserved then
    (s.addGuest { x with base, mappings := [] } fun i =>
      .anon (load s.kernel s.process (x.base + i))).forkClones s.process.nextGuest x.mappings
  else none

def State.restore (s : State) (g i : Nat) : Option State := do
  let x ← s.process.guest g
  let m ← x.mappings[i]?
  some (s.mapIn x.base m)

def State.recycle (s : State) (g : Nat) : Option State := do
  let x ← s.process.guest g
  let t := x.mappings.foldl (fun t m => t.dropMapping g m) s
  some ((t.setSpace (overlay s.process.space x.base x.reserved fun _ => .unmapped)).setGuest g none)

def State.guestStore (s : State) (g address : Nat) (b : UInt8) : Option State := do
  let x ← s.process.guest g
  if address < x.size then some (s.store (x.base + address) b) else none

inductive Op
  | open (name : Name) (conf : OpenOptions)
  | close (d : Nat)
  | removeFile (name : Name)
  | unlink (d : Nat)
  | read (d n : Nat)
  | write (d : Nat) (bs : List UInt8)
  | seek (d : Nat) (position : SeekFrom)
  | setLen (d n : Nat)
  | fdMap (g d address len fileOffset : Nat)
  | fdUnmap (g address len : Nat)
  | store (g address : Nat) (b : UInt8)
  | spawn (base size reserved : Nat)
  | grow (g size : Nat)
  | procFork (g base : Nat)
  | restore (g i : Nat)
  | recycle (g : Nat)

def Op.apply (s : State) : Op → Option State
  | .open name conf => some (s.open name conf).1
  | .close d => some (s.close d)
  | .removeFile name => some (s.removeFile name).1
  | .unlink d => (s.process.fd d).map fun x => (s.unlink x.handle).1
  | .read d n => (s.process.fd d).map fun x => (s.read d x n).1
  | .write d bs => (s.process.fd d).map fun x => (s.write d x bs).1
  | .seek d position => (s.process.fd d).map fun x => (s.seek d x position).1
  | .setLen d n => (s.process.fd d).map fun x => (s.truncate d x n).1
  | .fdMap g d address len fileOffset => some (s.fdMap g d address len fileOffset).1
  | .fdUnmap g address len => some (s.fdUnmap g address len).1
  | .store g address b => s.guestStore g address b
  | .spawn base size reserved => s.spawn base size reserved
  | .grow g size => s.grow g size
  | .procFork g base => s.procFork g base
  | .restore g i => s.restore g i
  | .recycle g => s.recycle g

end ServiceCache.SharedMemory
