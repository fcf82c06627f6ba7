import Mathlib.Algebra.Group.Nat.Defs
import Mathlib.Data.List.Perm.Basic
import Mathlib.Logic.Function.Basic
import ServiceCache.Fallible
import ServiceCache.SharedMemory.Model
import ServiceCache.Transition

/-!
# The records of a guest process's overlays

`fd_map` and `fd_unmap` write to the mapping list of the process, the count beside it, the number
of overlays of the `Mmap`, and the memory's entry in `LINEAR_MEMORIES`. A call may fail between
any two of these writes. What a call finds is part of the call: whether the guest has a memory,
what its descriptor names, and whether `metadata`, `try_clone` and `mmap` succeed. A call runs
under the write lock of the list. The ids of an object's registrations do not wrap around.
-/

namespace ServiceCache.SharedMemory.Overlays

open Function
open Fallible (bind_ok)
open Transition (System guarded)

inductive Errno
  | inval | overflow | exist | fault | access | badf | nodev | io
  deriving DecidableEq, Repr

/-! ## The linear memory -/

structure Mmap where
  totalSize : Nat
  pageSize : Nat
  overlayCount : Nat := 0
  deriving DecidableEq, Repr

def Mmap.validateOverlayRange (m : Mmap) (start len fileOffset : Nat) : Except String Unit :=
  if len = 0 then .error "shared mapping length must not be zero"
  else if start % m.pageSize ≠ 0 ∨ len % m.pageSize ≠ 0 then
    .error "shared mapping range is not host-page aligned"
  else if fileOffset % m.pageSize ≠ 0 then
    .error "shared mapping file offset is not host-page aligned"
  else if 2 ^ 64 ≤ start + len then .error "shared mapping range overflows"
  else if m.totalSize < start + len then .error "shared mapping range is outside the allocation"
  else .ok ()

/-- `mmap` is what the system call returns, an error as its text. -/
def Mmap.overlaySharedFile (m : Mmap) (start len fileOffset : Nat) (mmap : Except String Unit) :
    Except String Mmap := do
  m.validateOverlayRange start len fileOffset
  if 2 ^ 63 ≤ fileOffset then throw "shared mapping file offset does not fit off_t"
  mmap
  return { m with overlayCount := m.overlayCount + 1 }

def Mmap.restorePrivateAnonymous (m : Mmap) (start len : Nat) (mmap : Except String Unit) :
    Except String Mmap := do
  m.validateOverlayRange start len 0
  mmap
  return { m with overlayCount := m.overlayCount - 1 }

structure RegisteredMemory where
  definition : Nat
  overlays : List (Nat × Nat) := []
  deriving DecidableEq, Repr

def RegisteredMemory.set (e : RegisteredMemory) (start len : Nat) (live : Bool) :
    RegisteredMemory :=
  let retained := e.overlays.filter (· ≠ (start, len))
  { e with overlays := if live then retained ++ [(start, len)] else retained }

def setOverlay (definition start len : Nat) (live : Bool) :
    List RegisteredMemory → List RegisteredMemory
  | [] => []
  | e :: memories =>
    if e.definition = definition then e.set start len live :: memories
    else e :: setOverlay definition start len live memories

def entry (definition : Nat) (memories : List RegisteredMemory) : Option RegisteredMemory :=
  memories.find? (·.definition = definition)

structure Memory where
  definition : Nat
  base : Nat
  size : Nat
  alloc : Mmap
  deriving DecidableEq, Repr

def Memory.checkRange (m : Memory) (start len : Nat) : Except String Unit :=
  if 2 ^ 64 ≤ start then .error "shared mapping address is too large"
  else if 2 ^ 64 ≤ len then .error "shared mapping length is too large"
  else if 2 ^ 64 ≤ start + len then .error "shared mapping range overflows"
  else if m.size < start + len then
    .error "shared mapping range is outside the WebAssembly memory"
  else .ok ()

/-! ## A guest process -/

structure Object where
  size : Nat := 0
  nextMapping : Nat := 1
  mappings : Nat → Option RegisteredMapping := fun _ => none

structure State where
  memory : Memory
  registry : List RegisteredMemory
  object : Nat → Object
  mappings : List Mapping := []
  count : Nat := 0

def State.overlays (s : State) : List (Nat × Nat) :=
  ((entry s.memory.definition s.registry).map (·.overlays)).getD []

def State.overlaySharedFile (s : State) (start len fileOffset : Nat)
    (mmap : Except String Unit) : Except String State := do
  s.memory.checkRange start len
  let alloc ← s.memory.alloc.overlaySharedFile start len fileOffset mmap
  return { s with
    memory.alloc := alloc
    registry := setOverlay s.memory.definition start len true s.registry }

def State.restorePrivateAnonymous (s : State) (start len : Nat)
    (mmap : Except String Unit) : Except String State := do
  s.memory.checkRange start len
  let alloc ← s.memory.alloc.restorePrivateAnonymous start len mmap
  return { s with
    memory.alloc := alloc
    registry := setOverlay s.memory.definition start len false s.registry }

def State.setRegistration (s : State) (o id : Nat) (m : Option RegisteredMapping) : State :=
  let x := s.object o
  { s with
    object := update s.object o { x with mappings := update x.mappings id m } }

def State.addRegistration (s : State) (o fileOffset len : Nat) : State :=
  let x := s.object o
  { s with
    object := update s.object o { x with
      nextMapping := x.nextMapping + 1
      mappings := update x.mappings x.nextMapping
        (some ⟨fileOffset, fileOffset + len, none⟩) } }

/-- Returns the id. `metadata` says whether the size of the file could be read; it is 0 if not. -/
def State.registerMapping (s : State) (o fileOffset len : Nat) (metadata : Bool) :
    Except Errno (State × Nat) :=
  if 2 ^ 64 ≤ fileOffset + len then .error .overflow
  else if len = 0 ∨ (if metadata then (s.object o).size else 0) < fileOffset + len then
    .error .inval
  else .ok (s.addRegistration o fileOffset len, (s.object o).nextMapping)

def State.unregisterMapping (s : State) (o id : Nat) : State := s.setRegistration o id none

def State.setMappingHostAddress (s : State) (o id address : Nat) : State :=
  s.setRegistration o id
    (((s.object o).mappings id).map fun m => { m with hostAddress := some address })

def State.write (s : State) (f : State → State × Except Errno Unit) :
    State × Except Errno Unit :=
  let r := f s
  ({ r.1 with count := r.1.mappings.length }, r.2)

structure MapCall where
  address : Nat
  len : Nat
  fileOffset : Nat
  hasMemory : Bool := true
  object : Except Errno Nat
  metadata : Bool := true
  tryClone : Bool := true
  mmap : Except String Unit := .ok ()

structure UnmapCall where
  address : Nat
  len : Nat
  hasMemory : Bool := true
  mmap : Except String Unit := .ok ()

def State.mapLocked (c : MapCall) (o : Nat) (s : State) : State × Except Errno Unit :=
  if s.mappings.any fun m => c.address < m.address + m.len ∧ m.address < c.address + c.len then
    (s, .error .exist)
  else
    match s.registerMapping o c.fileOffset c.len c.metadata with
    | .error e => (s, .error e)
    | .ok (t, id) =>
      -- On every return below the mapping is dropped, until it is in the list.
      if ¬ c.tryClone then (t.unregisterMapping o id, .error .io)
      else
        match t.overlaySharedFile c.address c.len c.fileOffset c.mmap with
        | .error _ => (t.unregisterMapping o id, .error .inval)
        | .ok u =>
          let v := u.setMappingHostAddress o id (u.memory.base + c.address)
          ({ v with mappings := v.mappings ++ [⟨o, id, c.address, c.len, c.fileOffset⟩] },
            .ok ())

def State.fdMap (s : State) (c : MapCall) : State × Except Errno Unit :=
  if c.len = 0 ∨ c.address % wasmPageSize ≠ 0 ∨ c.len % wasmPageSize ≠ 0 ∨
      c.fileOffset % wasmPageSize ≠ 0 then (s, .error .inval)
  else if 2 ^ 64 ≤ c.address + c.len then (s, .error .overflow)
  else if ¬ c.hasMemory then (s, .error .fault)
  else
    match c.object with
    | .error e => (s, .error e)
    | .ok o => s.write (State.mapLocked c o)

def swapRemove {α : Type*} (l : List α) (i : Nat) : List α :=
  match l.getLast? with
  | none => []
  | some last => (l.set i last).dropLast

def State.unmapLocked (c : UnmapCall) (s : State) : State × Except Errno Unit :=
  match s.mappings.findIdx? fun m => m.address = c.address ∧ m.len = c.len with
  | none => (s, .error .inval)
  | some i =>
    match s.restorePrivateAnonymous c.address c.len c.mmap with
    | .error _ => (s, .error .inval)
    | .ok t =>
      let u := { t with mappings := swapRemove t.mappings i }
      match t.mappings[i]? with
      | none => (u, .ok ())
      | some m => (u.unregisterMapping m.object m.id, .ok ())

def State.fdUnmap (s : State) (c : UnmapCall) : State × Except Errno Unit :=
  if c.len = 0 ∨ c.address % wasmPageSize ≠ 0 ∨ c.len % wasmPageSize ≠ 0 then (s, .error .inval)
  else if ¬ c.hasMemory then (s, .error .fault)
  else s.write (State.unmapLocked c)

inductive Call
  | fdMap (c : MapCall)
  | fdUnmap (c : UnmapCall)

def State.call (s : State) : Call → State × Except Errno Unit
  | .fdMap c => s.fdMap c
  | .fdUnmap c => s.fdUnmap c

inductive Event
  | call (c : Call)
  | grow (size : Nat)
  | resize (o size : Nat)

def State.step (s : State) : Event → Option State
  | .call c => some (s.call c).1
  | .grow size => if s.memory.size ≤ size then some { s with memory.size := size } else none
  | .resize o size =>
    some { s with object := update s.object o { s.object o with size } }

structure State.Fresh (s : State) : Prop where
  mappings : s.mappings = []
  count : s.count = 0
  overlayCount : s.memory.alloc.overlayCount = 0
  registered : ∃ e, entry s.memory.definition s.registry = some e ∧ e.overlays = []
  unused : ∀ o id, (s.object o).nextMapping ≤ id → (s.object o).mappings id = none

def guest : System State Event where
  Initial := State.Fresh
  next := State.step

/-! ## What one operation changes -/

@[simp]
theorem entry_setOverlay (d start len : Nat) (live : Bool) (l : List RegisteredMemory) :
    entry d (setOverlay d start len live l) = (entry d l).map (·.set start len live) := by
  induction l with
  | nil => rfl
  | cons e l ih =>
    by_cases same : e.definition = d
    · simp [entry, setOverlay, same, RegisteredMemory.set]
    · simpa [entry, setOverlay, same] using ih

theorem Mmap.overlaySharedFile_ok {m n : Mmap} {start len fileOffset : Nat}
    {mmap : Except String Unit} (h : m.overlaySharedFile start len fileOffset mmap = .ok n) :
    n = { m with overlayCount := m.overlayCount + 1 } := by
  obtain ⟨_, -, h⟩ := bind_ok h
  split at h
  · cases h
  · obtain ⟨_, -, h⟩ := bind_ok h
    cases h
    rfl

theorem Mmap.restorePrivateAnonymous_ok {m n : Mmap} {start len : Nat}
    {mmap : Except String Unit} (h : m.restorePrivateAnonymous start len mmap = .ok n) :
    n = { m with overlayCount := m.overlayCount - 1 } := by
  obtain ⟨_, -, h⟩ := bind_ok h
  obtain ⟨_, -, h⟩ := bind_ok h
  cases h
  rfl

theorem Memory.checkRange_ok {m : Memory} {start len : Nat} (h : m.checkRange start len = .ok ()) :
    start + len ≤ m.size := by
  unfold Memory.checkRange at h
  iterate 3
    split at h
    · cases h
  split at h
  · cases h
  next inside => exact Nat.le_of_not_lt inside

def State.record (s : State) (overlayCount start len : Nat) (live : Bool) : State where
  memory := { s.memory with alloc := { s.memory.alloc with overlayCount } }
  registry := setOverlay s.memory.definition start len live s.registry
  object := s.object
  mappings := s.mappings
  count := s.count

theorem State.overlaySharedFile_ok {s t : State} {start len fileOffset : Nat}
    {mmap : Except String Unit} (h : s.overlaySharedFile start len fileOffset mmap = .ok t) :
    start + len ≤ s.memory.size ∧
      t = s.record (s.memory.alloc.overlayCount + 1) start len true := by
  obtain ⟨_, inside, h⟩ := bind_ok h
  obtain ⟨alloc, counted, h⟩ := bind_ok h
  cases h
  rw [Mmap.overlaySharedFile_ok counted]
  exact ⟨Memory.checkRange_ok inside, rfl⟩

theorem State.restorePrivateAnonymous_ok {s t : State} {start len : Nat}
    {mmap : Except String Unit} (h : s.restorePrivateAnonymous start len mmap = .ok t) :
    t = s.record (s.memory.alloc.overlayCount - 1) start len false := by
  obtain ⟨_, -, h⟩ := bind_ok h
  obtain ⟨alloc, counted, h⟩ := bind_ok h
  cases h
  rw [Mmap.restorePrivateAnonymous_ok counted]
  rfl

theorem swapRemove_perm {α : Type*} {l : List α} {i : Nat} (h : i < l.length) :
    l.Perm (l[i] :: swapRemove l i) := by
  obtain rfl | ⟨init, last, rfl⟩ := l.eq_nil_or_concat'
  · cases h
  · simp only [swapRemove, List.getLast?_concat]
    by_cases inner : i < init.length
    · -- The last element stands where the removed one stood.
      rw [List.set_append_left _ _ inner, List.dropLast_concat, List.getElem_append_left inner]
      calc init ++ [last]
        _ |>.Perm (last :: init) := List.perm_append_singleton ..
        _ |>.Perm (last :: init[i] :: init.eraseIdx i) :=
            ((List.getElem_cons_eraseIdx_perm inner).symm).cons _
        _ |>.Perm (init[i] :: last :: init.eraseIdx i) := .swap ..
        _ |>.Perm (init[i] :: init.set i last) :=
            ((List.set_perm_cons_eraseIdx inner last).symm).cons _
    · obtain rfl : i = init.length := by
        rw [List.length_append, List.length_singleton] at h
        omega
      simp [List.perm_append_singleton]

/-! ## Registrations -/

def State.Unused (s : State) : Prop :=
  ∀ o id, (s.object o).nextMapping ≤ id → (s.object o).mappings id = none

theorem State.setRegistration_object (s : State) (o id p : Nat) (m : Option RegisteredMapping) :
    ((s.setRegistration o id m).object p).nextMapping = (s.object p).nextMapping ∧
      ((s.setRegistration o id m).object p).mappings =
        if p = o then update (s.object o).mappings id m else (s.object p).mappings := by
  by_cases same : p = o
  · subst same
    simp [State.setRegistration]
  · simp [State.setRegistration, same]

theorem State.addRegistration_object (s : State) (o fileOffset len p : Nat) :
    (s.addRegistration o fileOffset len).object p =
      if p = o then
        { s.object o with
          nextMapping := (s.object o).nextMapping + 1
          mappings := update (s.object o).mappings (s.object o).nextMapping
            (some ⟨fileOffset, fileOffset + len, none⟩) }
      else s.object p :=
  update_apply ..

theorem State.registerMapping_ok {s t : State} {o fileOffset len id : Nat} {metadata : Bool}
    (h : s.registerMapping o fileOffset len metadata = .ok (t, id)) :
    t = s.addRegistration o fileOffset len ∧ id = (s.object o).nextMapping := by
  unfold State.registerMapping at h
  by_cases wraps : 2 ^ 64 ≤ fileOffset + len
  · rw [if_pos wraps] at h
    cases h
  rw [if_neg wraps] at h
  by_cases outside : len = 0 ∨ (if metadata then (s.object o).size else 0) < fileOffset + len
  · rw [if_pos outside] at h
    cases h
  rw [if_neg outside] at h
  cases h
  exact ⟨rfl, rfl⟩

theorem State.Unused.addRegistration {s : State} (unused : s.Unused) (o fileOffset len : Nat) :
    (s.addRegistration o fileOffset len).Unused := by
  intro p id later
  rw [State.addRegistration_object] at later ⊢
  by_cases same : p = o
  · simp only [if_pos same] at later ⊢
    rw [update_of_ne (by omega)]
    exact unused o id (by omega)
  · simp only [if_neg same] at later ⊢
    exact unused p id later

theorem State.Unused.setRegistration {s : State} (unused : s.Unused) {o id : Nat}
    {m : Option RegisteredMapping} (h : (s.object o).mappings id = none → m = none) :
    (s.setRegistration o id m).Unused := by
  intro p i later
  rw [(s.setRegistration_object o id p m).1] at later
  rw [(s.setRegistration_object o id p m).2]
  split
  next same =>
    subst same
    by_cases this : i = id
    · subst this
      rw [update_self]
      exact h (unused p i later)
    · rw [update_of_ne this]
      exact unused p i later
  · exact unused p i later

theorem State.registrations_dropped {s : State} (unused : s.Unused) (o fileOffset len p : Nat) :
    (((s.addRegistration o fileOffset len).unregisterMapping o (s.object o).nextMapping).object
      p).mappings = (s.object p).mappings := by
  rw [State.unregisterMapping, (State.setRegistration_object ..).2]
  simp only [State.addRegistration_object]
  split
  next same =>
    subst same
    simp only [if_true, update_idem]
    exact update_eq_self_iff.mpr (unused p _ (Nat.le_refl _)).symm
  · rfl

/-! ## What one call does -/

structure State.Unchanged (s t : State) : Prop where
  mappings : t.mappings = s.mappings
  count : t.count = s.count
  memory : t.memory = s.memory
  registry : t.registry = s.registry
  registrations : ∀ o, (t.object o).mappings = (s.object o).mappings

theorem State.Unchanged.refl (s : State) : s.Unchanged s := ⟨rfl, rfl, rfl, rfl, fun _ => rfl⟩

theorem State.unchanged_dropped {s t : State} (unused : s.Unused) {o fileOffset len : Nat}
    (h : (s.addRegistration o fileOffset len).unregisterMapping o (s.object o).nextMapping = t) :
    s.Unchanged t ∧ t.Unused := by
  subst h
  exact ⟨⟨rfl, rfl, rfl, rfl, State.registrations_dropped unused o fileOffset len⟩,
    (unused.addRegistration o _ _).setRegistration fun _ => rfl⟩

def Apart (a b : Mapping) : Prop :=
  a.address + a.len ≤ b.address ∨ b.address + b.len ≤ a.address

theorem Apart.symm {a b : Mapping} (h : Apart a b) : Apart b a := Or.symm h

def range (m : Mapping) : Nat × Nat := (m.address, m.len)

structure Mapped (c : MapCall) (s t : State) (m : Mapping) : Prop where
  range : range m = (c.address, c.len)
  apart : ∀ n ∈ s.mappings, Apart n m
  inside : m.address + m.len ≤ s.memory.size
  memory : t.memory = (s.record (s.memory.alloc.overlayCount + 1) m.address m.len true).memory
  registry : t.registry = setOverlay s.memory.definition m.address m.len true s.registry
  mappings : t.mappings = s.mappings ++ [m]
  unused : t.Unused

structure Unmapped (s t : State) (m : Mapping) : Prop where
  memory : t.memory = (s.record (s.memory.alloc.overlayCount - 1) m.address m.len false).memory
  registry : t.registry = setOverlay s.memory.definition m.address m.len false s.registry
  mappings : s.mappings.Perm (m :: t.mappings)
  unused : t.Unused

theorem State.mapLocked_cases {s : State} (unused : s.Unused) (c : MapCall) (o : Nat) :
    (∃ e, (s.mapLocked c o).2 = .error e ∧
        s.Unchanged (s.mapLocked c o).1 ∧ (s.mapLocked c o).1.Unused) ∨
      (s.mapLocked c o).2 = .ok () ∧ ∃ m, Mapped c s (s.mapLocked c o).1 m := by
  unfold State.mapLocked
  split
  · exact .inl ⟨_, rfl, .refl s, unused⟩
  next free =>
  split
  · exact .inl ⟨_, rfl, .refl s, unused⟩
  next t id registered =>
  obtain ⟨rfl, rfl⟩ := State.registerMapping_ok registered
  split
  · exact .inl ⟨_, rfl, State.unchanged_dropped unused rfl⟩
  split
  · exact .inl ⟨_, rfl, State.unchanged_dropped unused rfl⟩
  next u overlaid =>
  obtain ⟨inside, rfl⟩ := State.overlaySharedFile_ok overlaid
  refine .inr ⟨rfl, _, ⟨rfl, ?_, inside, rfl, rfl, rfl, ?_⟩⟩
  · intro n mem
    simp only [List.any_eq_true, decide_eq_true_eq, not_exists, not_and] at free
    have := free n mem
    simp only [Apart]
    omega
  · refine State.Unused.setRegistration (unused.addRegistration o _ _) ?_
    intro missing
    exact congrArg (Option.map _) missing

theorem State.unmapLocked_cases {s : State} (unused : s.Unused) (c : UnmapCall) :
    (∃ e, (s.unmapLocked c).2 = .error e ∧ (s.unmapLocked c).1 = s) ∨
      (s.unmapLocked c).2 = .ok () ∧ ∃ m, Unmapped s (s.unmapLocked c).1 m := by
  unfold State.unmapLocked
  split
  · exact .inl ⟨_, rfl, rfl⟩
  next i found =>
  split
  · exact .inl ⟨_, rfl, rfl⟩
  next t restored =>
  obtain rfl := State.restorePrivateAnonymous_ok restored
  obtain ⟨bound, same, -⟩ := List.findIdx?_eq_some_iff_getElem.mp found
  simp only [decide_eq_true_eq] at same
  have here : (s.record (s.memory.alloc.overlayCount - 1) c.address c.len false).mappings[i]? =
      some s.mappings[i] := List.getElem?_eq_getElem bound
  simp only [here]
  refine .inr ⟨trivial, s.mappings[i], ⟨?_, ?_, swapRemove_perm bound, ?_⟩⟩
  · rw [same.1, same.2]
    rfl
  · rw [same.1, same.2]
    rfl
  · exact State.Unused.setRegistration unused fun _ => rfl

/-! ## The records agree -/

structure Agrees (s : State) : Prop where
  aligned : ∀ m ∈ s.mappings,
    m.len ≠ 0 ∧ m.address % wasmPageSize = 0 ∧ m.len % wasmPageSize = 0
  inside : ∀ m ∈ s.mappings, m.address + m.len ≤ s.memory.size
  apart : s.mappings.Pairwise Apart
  count : s.count = s.mappings.length
  overlayCount : s.memory.alloc.overlayCount = s.mappings.length
  registered : ∃ e, entry s.memory.definition s.registry = some e ∧
    e.overlays.Perm (s.mappings.map range)
  unused : s.Unused

theorem agrees_fresh {s : State} (h : s.Fresh) : Agrees s := by
  obtain ⟨mappings, count, overlayCount, ⟨e, found, empty⟩, unused⟩ := h
  refine ⟨?_, ?_, ?_, ?_, ?_, ⟨e, found, ?_⟩, unused⟩
  all_goals simp [mappings, count, overlayCount, empty]

theorem range_ne {a b : Mapping} (h : Apart a b) (nonempty : a.len ≠ 0) : range a ≠ range b := by
  intro same
  obtain ⟨address, len⟩ := Prod.mk.inj same
  unfold Apart at h
  omega

theorem retained {l : List Mapping} {m : Mapping} (apart : ∀ n ∈ l, Apart n m)
    (nonempty : ∀ n ∈ l, n.len ≠ 0) :
    (l.map range).filter (· ≠ (m.address, m.len)) = l.map range := by
  apply List.filter_eq_self.mpr
  intro r mem
  obtain ⟨n, listed, rfl⟩ := List.mem_map.mp mem
  exact decide_eq_true (range_ne (apart n listed) (nonempty n listed))

theorem Agrees.of_unchanged {s t : State} (a : Agrees s) (h : s.Unchanged t) (unused : t.Unused) :
    Agrees t := by
  obtain ⟨mappings, count, memory, registry, -⟩ := h
  exact ⟨mappings ▸ a.aligned, by rw [mappings, memory]; exact a.inside, mappings ▸ a.apart,
    by rw [mappings, count]; exact a.count, by rw [mappings, memory]; exact a.overlayCount,
    by rw [mappings, memory, registry]; exact a.registered, unused⟩

theorem Agrees.map {s t : State} {c : MapCall} {m : Mapping} (a : Agrees s) (h : Mapped c s t m)
    (aligned : c.len ≠ 0 ∧ c.address % wasmPageSize = 0 ∧ c.len % wasmPageSize = 0) :
    Agrees { t with count := t.mappings.length } := by
  obtain ⟨address, len⟩ := Prod.mk.inj h.range
  obtain ⟨e, found, overlays⟩ := a.registered
  refine ⟨?_, ?_, ?_, rfl, ?_, ?_, h.unused⟩
  · intro n mem
    rw [h.mappings, List.mem_append, List.mem_singleton] at mem
    obtain mem | rfl := mem
    · exact a.aligned n mem
    · rwa [address, len]
  · intro n mem
    rw [h.mappings, List.mem_append, List.mem_singleton] at mem
    rw [h.memory]
    obtain mem | rfl := mem
    · exact a.inside n mem
    · exact h.inside
  · rw [h.mappings]
    refine List.pairwise_append.mpr ⟨a.apart, List.pairwise_singleton .., ?_⟩
    intro n mem k single
    rw [List.mem_singleton.mp single]
    exact h.apart n mem
  · rw [h.memory, h.mappings, List.length_append, List.length_singleton, ← a.overlayCount]
    rfl
  · refine ⟨e.set m.address m.len true, ?_, ?_⟩
    · rw [h.memory, h.registry]
      exact (entry_setOverlay ..).trans (congrArg _ found)
    · rw [h.mappings, List.map_append]
      refine List.Perm.append_right _ ?_
      rw [← retained h.apart fun n mem => (a.aligned n mem).1]
      exact overlays.filter _

theorem Agrees.unmap {s t : State} {m : Mapping} (a : Agrees s) (h : Unmapped s t m) :
    Agrees { t with count := t.mappings.length } := by
  have sub : ∀ n ∈ t.mappings, n ∈ s.mappings := fun n mem =>
    h.mappings.mem_iff.mpr (List.mem_cons_of_mem _ mem)
  obtain ⟨apart, rest⟩ := List.pairwise_cons.mp ((h.mappings.pairwise_iff Apart.symm).mp a.apart)
  obtain ⟨e, found, overlays⟩ := a.registered
  refine ⟨fun n mem => a.aligned n (sub n mem), ?_, rest, rfl, ?_, ?_, h.unused⟩
  · intro n mem
    rw [h.memory]
    exact a.inside n (sub n mem)
  · rw [h.memory]
    show s.memory.alloc.overlayCount - 1 = t.mappings.length
    rw [a.overlayCount, h.mappings.length_eq]
    rfl
  · refine ⟨e.set m.address m.len false, ?_, ?_⟩
    · rw [h.memory, h.registry]
      exact (entry_setOverlay ..).trans (congrArg _ found)
    · -- The range that goes is in the list once.
      have gone := (overlays.trans (h.mappings.map range)).filter (· ≠ (m.address, m.len))
      rw [List.map_cons, List.filter_cons_of_neg (by simp [range]),
        retained (fun n mem => (apart n mem).symm) fun n mem => (a.aligned n (sub n mem)).1] at gone
      exact gone

theorem State.Unchanged.counted {s t : State} (h : s.Unchanged t)
    (count : s.count = s.mappings.length) :
    s.Unchanged { t with count := t.mappings.length } :=
  ⟨h.mappings, by rw [count, ← h.mappings], h.memory, h.registry, h.registrations⟩

def Settled (s : State) (r : State × Except Errno Unit) : Prop :=
  (∃ e, r.2 = .error e ∧ s.Unchanged r.1 ∧ r.1.Unused) ∨ r.2 = .ok () ∧ Agrees r.1

theorem Agrees.refused {s : State} (a : Agrees s) (e : Errno) : Settled s (s, .error e) :=
  .inl ⟨e, rfl, .refl s, a.unused⟩

theorem Agrees.fdMap {s : State} (a : Agrees s) (c : MapCall) : Settled s (s.fdMap c) := by
  unfold State.fdMap
  split
  · exact a.refused _
  next valid =>
  split
  · exact a.refused _
  split
  · exact a.refused _
  split
  · exact a.refused _
  next o _ =>
  obtain ⟨e, failed, same, unused⟩ | ⟨ok, m, mapped⟩ := State.mapLocked_cases a.unused c o
  · exact .inl ⟨e, failed, same.counted a.count, unused⟩
  · exact .inr ⟨ok, a.map mapped (by omega)⟩

theorem Agrees.fdUnmap {s : State} (a : Agrees s) (c : UnmapCall) : Settled s (s.fdUnmap c) := by
  unfold State.fdUnmap
  split
  · exact a.refused _
  split
  · exact a.refused _
  obtain ⟨e, failed, same⟩ | ⟨ok, m, unmapped⟩ := State.unmapLocked_cases a.unused c
  · have unchanged : s.Unchanged (s.unmapLocked c).1 := by
      rw [same]
      exact .refl s
    have unused : (s.unmapLocked c).1.Unused := by
      rw [same]
      exact a.unused
    exact .inl ⟨e, failed, unchanged.counted a.count, unused⟩
  · exact .inr ⟨ok, a.unmap unmapped⟩

theorem Agrees.call {s : State} (a : Agrees s) (c : Call) : Settled s (s.call c) := by
  cases c with
  | fdMap c => exact a.fdMap c
  | fdUnmap c => exact a.fdUnmap c

theorem Agrees.step {s t : State} {e : Event} (a : Agrees s) (h : s.step e = some t) :
    Agrees t := by
  cases e with
  | call c =>
    cases h
    obtain ⟨_, -, same, unused⟩ | ⟨-, agrees⟩ := a.call c
    · exact a.of_unchanged same unused
    · exact agrees
  | grow size =>
    obtain ⟨larger, ⟨⟩⟩ := guarded h
    exact ⟨a.aligned, fun m mem => Nat.le_trans (a.inside m mem) larger, a.apart, a.count,
      a.overlayCount, a.registered, a.unused⟩
  | resize o size =>
    cases h
    refine ⟨a.aligned, a.inside, a.apart, a.count, a.overlayCount, a.registered, ?_⟩
    intro p id later
    simp only [update_apply] at later ⊢
    split at later
    next same =>
      subst same
      simpa using a.unused p id later
    next other =>
      simpa [other] using a.unused p id later

theorem Agrees.of_reachable {s : State} (h : guest.Reachable s) : Agrees s := by
  apply h.invariant
  · intro s fresh
    exact agrees_fresh fresh
  · intro s e t _ a _ step
    exact a.step step

theorem Agrees.overlays {s : State} (a : Agrees s) :
    s.overlays.Perm (s.mappings.map range) := by
  obtain ⟨e, found, overlays⟩ := a.registered
  rw [State.overlays, found]
  exact overlays

/-- Whatever calls a guest process has made, its mappings are disjoint ranges of whole pages
inside its memory, the count, the allocation and the registry have exactly these ranges, and a
call that fails changes none of it. -/
theorem calls_keep_records {s : State} (h : guest.Reachable s) :
    s.mappings.Pairwise Apart ∧
    (∀ m ∈ s.mappings, m.address % wasmPageSize = 0 ∧ m.len % wasmPageSize = 0 ∧
      m.address + m.len ≤ s.memory.size) ∧
    s.count = s.mappings.length ∧
    s.memory.alloc.overlayCount = s.mappings.length ∧
    s.overlays.Perm (s.mappings.map range) ∧
    ∀ (c : Call) (e : Errno), (s.call c).2 = .error e → s.Unchanged (s.call c).1 := by
  have a := Agrees.of_reachable h
  refine ⟨a.apart, ?_, a.count, a.overlayCount, a.overlays, ?_⟩
  · intro m mem
    obtain ⟨-, address, len⟩ := a.aligned m mem
    exact ⟨address, len, a.inside m mem⟩
  · intro c e failed
    obtain ⟨_, -, same, -⟩ | ⟨ok, -⟩ := a.call c
    · exact same
    · rw [ok] at failed
      cases failed

def fourPages : State where
  memory := ⟨7, 0, 4 * wasmPageSize, { totalSize := 8 * wasmPageSize, pageSize := hostPageSize }⟩
  registry := [{ definition := 3, overlays := [(0, 4096)] }, { definition := 7 }]
  object := fun _ => { size := 2 * wasmPageSize }

theorem fourPages_fresh : fourPages.Fresh :=
  ⟨rfl, rfl, rfl, ⟨_, rfl, rfl⟩, fun _ _ _ => rfl⟩

/-- Three calls succeed, and one fails after its mapping was registered; so does the next, whose
`mmap` is refused. -/
theorem calls_keep_records_failed :
    ∃ s, guest.Reachable s ∧ s.mappings = [⟨1, 2, 65536, 65536, 65536⟩] ∧
      s.overlays.Perm [(65536, 65536)] ∧
      s.Unchanged (s.call (.fdMap ⟨0, 65536, 0, true, .ok 0, true, true,
        .error "Cannot allocate memory"⟩)).1 := by
  have reached : ∃ s, guest.Reachable s ∧ (s.mappings = [⟨1, 2, 65536, 65536, 65536⟩] ∧
      (s.call (.fdMap ⟨0, 65536, 0, true, .ok 0, true, true,
        .error "Cannot allocate memory"⟩)).2.isOk = false) :=
    System.exists_reachable_of_run (s := fourPages)
      (l := [.call (.fdMap ⟨0, 65536, 0, true, .ok 0, true, true, .ok ()⟩),
        .call (.fdMap ⟨65536, 65536, 0, true, .ok 1, true, false, .ok ()⟩),
        .call (.fdMap ⟨65536, 65536, 65536, true, .ok 1, true, true, .ok ()⟩),
        .call (.fdUnmap ⟨0, 65536, true, .ok ()⟩)])
      (.init fourPages_fresh) (by decide +kernel)
  obtain ⟨s, run, mappings, failed⟩ := reached
  obtain ⟨-, -, -, -, overlays, kept⟩ := calls_keep_records run
  refine ⟨s, run, mappings, ?_, ?_⟩
  · rw [mappings] at overlays
    exact overlays
  · generalize call : Call.fdMap _ = c at failed ⊢
    cases result : (s.call c).2 with
    | error e => exact kept c e result
    | ok _ =>
      rw [result] at failed
      cases failed

end ServiceCache.SharedMemory.Overlays
