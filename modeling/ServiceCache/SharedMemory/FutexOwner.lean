import Mathlib.Data.List.Perm.Basic
import ServiceCache.SharedMemory.Generations
import ServiceCache.SharedMemory.Overlays

/-!
# Which word a futex is

A futex is kept under the object that its word lies in, or under the process. The code keeps the
list of mappings in any order, beside a count that is read without the lock. A racing reader of
the count is left out: what an address means while its range is mapped or unmapped is undefined.
-/

namespace ServiceCache.SharedMemory

open Function

variable {σ : Type*}

/-! ## The list of a process -/

def Mapping.descriptor (m : Mapping) : Nat × Nat × Nat × Nat :=
  (m.object, m.address, m.len, m.fileOffset)

structure SharedMemoryMappings where
  count : Nat
  mappings : List Mapping
  counted : count = mappings.length

namespace SharedMemoryMappings

def isEmpty (v : SharedMemoryMappings) : Bool := v.count == 0

def write (v : SharedMemoryMappings) (f : List Mapping → List Mapping) : SharedMemoryMappings :=
  ⟨(f v.mappings).length, f v.mappings, rfl⟩

def Keeps (v : SharedMemoryMappings) (x : Guest) : Prop :=
  (v.mappings.map Mapping.descriptor).Perm (x.mappings.map Mapping.descriptor)

variable {v : SharedMemoryMappings} {x : Guest}

theorem Keeps.push (kept : v.Keeps x) (m : Mapping) :
    (v.write (· ++ [m])).Keeps { x with mappings := x.mappings ++ [m] } := by
  unfold Keeps write
  rw [List.map_append, List.map_append]
  exact kept.append_right _

theorem Keeps.swapRemove (kept : v.Keeps x) (nodup : x.mappings.Nodup) {m : Mapping}
    (listed : m ∈ x.mappings) {i : Nat} (h : i < v.mappings.length)
    (same : v.mappings[i].descriptor = m.descriptor) :
    (v.write (Overlays.swapRemove · i)).Keeps
      { x with mappings := x.mappings.filter (· ≠ m) } := by
  have left : (v.mappings.map Mapping.descriptor).Perm
      (m.descriptor :: (Overlays.swapRemove v.mappings i).map Mapping.descriptor) := by
    rw [← same]
    exact (Overlays.swapRemove_perm h).map _
  have right : (x.mappings.map Mapping.descriptor).Perm
      (m.descriptor :: (x.mappings.filter (· ≠ m)).map Mapping.descriptor) := by
    have erased := (List.perm_cons_erase listed).map Mapping.descriptor
    have others : x.mappings.filter (· ≠ m) = x.mappings.erase m := by
      rw [nodup.erase_eq_filter]
      exact List.filter_congr fun k _ => Bool.eq_iff_iff.mpr (by simp)
    rw [others]
    exact erased
  exact List.Perm.cons_inv ((left.symm.trans kept).trans right)

theorem Keeps.clones (kept : v.Keeps x) (w : SharedMemoryMappings) {l : List Mapping} {y : Guest}
    (left : l.map Mapping.descriptor = v.mappings.map Mapping.descriptor)
    (right : y.mappings.map Mapping.descriptor = x.mappings.map Mapping.descriptor) :
    (w.write fun _ => l).Keeps y := by
  unfold Keeps write
  rw [left, right]
  exact kept

end SharedMemoryMappings

/-- `FutexOwner`; a process is known by its `WasiState`. -/
inductive FutexOwner (σ : Type*)
  | process (state : σ)
  | shared (object : Nat)
deriving DecidableEq, Repr

def Mapping.holdsWord (m : Mapping) (address : Nat) : Bool :=
  -- checked_add
  if 2 ^ 64 ≤ address + 4 then false
  else decide (m.address ≤ address) && decide (address + 4 ≤ m.address + m.len)

def searchOwner (state : σ) (l : List Mapping) (address : Nat) : FutexOwner σ × Nat :=
  match l.find? (·.holdsWord address) with
  | some m => (.shared m.object, m.fileOffset + (address - m.address))
  | none => (.process state, address)

def futexOwner (state : σ) (v : SharedMemoryMappings) (address : Nat) : FutexOwner σ × Nat :=
  if v.isEmpty then (.process state, address) else searchOwner state v.mappings address

theorem futexOwner_eq_search (state : σ) (v : SharedMemoryMappings) (address : Nat) :
    futexOwner state v address = searchOwner state v.mappings address := by
  unfold futexOwner
  split
  next empty =>
    have length : v.mappings.length = 0 := by
      rw [← v.counted]
      exact beq_iff_eq.mp empty
    rw [List.eq_nil_of_length_eq_zero length]
    rfl
  · rfl

/-! ## Every mapping is a range of whole pages -/

structure Mapping.Whole (m : Mapping) : Prop where
  address : m.address % wasmPageSize = 0
  len : m.len % wasmPageSize = 0
  bound : m.address + m.len < 2 ^ 64

def Process.Whole (p : Process) : Prop :=
  ∀ g x, p.guest g = some x → ∀ m ∈ x.mappings, m.Whole

variable {s t : State}

theorem Process.Whole.of_guest {p q : Process} (h : p.Whole) (guest : q.guest = p.guest) :
    q.Whole := by
  unfold Process.Whole
  rw [guest]
  exact h

theorem Process.Whole.setGuest {p q : Process} (h : p.Whole) {g : Nat} {y : Option Guest}
    (guest : ∀ g', q.guest g' = if g' = g then y else p.guest g')
    (whole : ∀ x, y = some x → ∀ m ∈ x.mappings, m.Whole) : q.Whole := by
  intro g' x hx
  rw [guest] at hx
  split at hx
  · exact whole x hx
  · exact h g' x hx

theorem open_guest (s : State) (name : Name) (conf : OpenOptions) :
    (s.open name conf).1.process.guest = s.process.guest := by
  have object : ∀ (s : State) (o : Nat),
      (s.openObject name conf o).1.process.guest = s.process.guest := by
    intro s o
    unfold State.openObject
    split
    · split
      · split
        · rfl
        next u hu =>
          obtain rfl := setLen_eq hu
          rfl
      · rfl
    · rfl
  unfold State.open
  split
  · rfl
  split
  · split
    · rfl
    · exact object s _
  · split
    · rfl
    · exact object _ _

theorem store_guest (s : State) (a : Nat) (b : UInt8) :
    (s.store a b).process.guest = s.process.guest := by
  unfold State.store
  split <;> rfl

theorem Process.Whole.record (h : s.process.Whole) {g : Nat} {x : Guest}
    (hx : s.process.guest g = some x) {m : Mapping} (whole : m.Whole) :
    (s.record g m).process.Whole := by
  refine h.setGuest (record_guest hx) ?_
  rintro y ⟨rfl⟩ m' member
  rcases List.mem_append.mp member with old | new
  · exact h g x hx m' old
  · rw [List.mem_singleton.mp new]
    exact whole

theorem Process.Whole.fdMap (h : s.process.Whole) (g d address len fileOffset : Nat) :
    (s.fdMap g d address len fileOffset).1.process.Whole := by
  unfold State.fdMap
  split
  · exact h
  next aligned =>
  split
  · exact h
  next bound =>
  split
  · exact h
  next x hx =>
  split
  · exact h
  next o _ =>
  split
  · exact h
  split
  · exact h
  next u id hu =>
  obtain ⟨-, -, rfl, rfl⟩ := registerMapping_eq hu
  split
  · exact h.of_guest rfl
  · have whole : Mapping.Whole
        ⟨o, (s.process.object o).nextMapping, address, len, fileOffset⟩ :=
      ⟨by simp only; omega, by simp only; omega, by simp only; omega⟩
    exact (h.record hx whole).of_guest rfl

theorem Process.Whole.fdUnmap (h : s.process.Whole) (g address len : Nat) :
    (s.fdUnmap g address len).1.process.Whole := by
  unfold State.fdUnmap
  split
  · exact h
  split
  · exact h
  next x hx =>
  split
  · exact h
  next m _ =>
  split
  · exact h
  · refine h.setGuest (dropMapping_guest (s := s.setSpace _) hx) ?_
    rintro y ⟨rfl⟩ m' member
    exact h g x hx m' (List.mem_of_mem_filter member)

theorem Process.Whole.forkClones {child : Nat} {ms : List Mapping} {y : Guest}
    (h : s.process.Whole) (hy : s.process.guest child = some y) (whole : ∀ m ∈ ms, m.Whole)
    (ht : s.forkClones child ms = some t) : t.process.Whole := by
  induction ms generalizing s y with
  | nil => exact Option.some.inj ht ▸ h
  | cons m rest ih =>
    unfold State.forkClones at ht
    split at ht
    · cases ht
    next u id hu =>
      obtain ⟨-, -, rfl, rfl⟩ := registerMapping_eq hu
      obtain ⟨address, len, bound⟩ := whole m (by simp)
      set m' : Mapping := { m with id := (s.process.object m.object).nextMapping }
      refine ih (h.record hy (m := m') ⟨address, len, bound⟩)
        (y := { y with mappings := y.mappings ++ [m'] }) ?_ (fun k hk => whole k (by simp [hk])) ht
      rw [record_guest hy, if_pos rfl]

theorem Process.Whole.procFork (h : s.process.Whole) {g base : Nat}
    (ht : s.procFork g base = some t) : t.process.Whole := by
  unfold State.procFork at ht
  obtain ⟨x, hx, ht⟩ := Option.bind_eq_some_iff.mp ht
  obtain ⟨-, ht⟩ := Transition.guarded ht
  have added := h.setGuest (addGuest_guest s { x with base, mappings := [] }
    fun i => .anon (load s.kernel s.process (x.base + i))) (by rintro y ⟨rfl⟩; simp)
  refine added.forkClones (y := { x with base, mappings := [] }) ?_ (h g x hx) ht
  rw [addGuest_guest, if_pos rfl]

theorem Process.Whole.recycle (h : s.process.Whole) (coherent : Coherent s) {g : Nat}
    (ht : s.recycle g = some t) : t.process.Whole := by
  obtain ⟨x, hx, rfl⟩ : ∃ x, s.process.guest g = some x ∧
      ((x.mappings.foldl (fun t m => t.dropMapping g m) s).setSpace
        (overlay s.process.space x.base x.reserved fun _ => .unmapped)).setGuest g none = t := by
    simpa [State.recycle, Option.bind_eq_some_iff] using ht
  have cleared := cleared_foldl coherent.records coherent.geometry hx
  have emptied : (x.mappings.foldl (fun t m => t.dropMapping g m) s).process.Whole :=
    h.setGuest cleared.guest (by rintro y ⟨rfl⟩; simp)
  exact emptied.setGuest (fun g' => update_apply ..) (by simp)

theorem Process.Whole.apply (h : s.process.Whole) (coherent : Coherent s) {op : Op}
    (ht : op.apply s = some t) : t.process.Whole := by
  cases apply_move ht with
  | same => exact h
  | opens name conf => exact h.of_guest (open_guest s name conf)
  | closes d => exact h.of_guest rfl
  | unnames name => exact h.of_guest rfl
  | seeks is cursor => exact h.of_guest rfl
  | writes is _ m cursor => exact h.of_guest rfl
  | maps g d address len fileOffset => exact h.fdMap g d address len fileOffset
  | unmaps g address len => exact h.fdUnmap g address len
  | stores a b => exact h.of_guest (store_guest s a b)
  | spawns sized free => exact h.setGuest (addGuest_guest s _ _) (by rintro y ⟨rfl⟩; simp)
  | @grows g size x is le fits =>
    refine h.setGuest (fun g' => update_apply ..) ?_
    rintro y ⟨rfl⟩
    exact h g x is
  | forks is => exact h.procFork is
  | restores is listed => exact h.of_guest rfl
  | recycles is => exact h.recycle coherent is

theorem whole_reachable {ops : FileOps} (h : (host ops).Reachable s) : s.process.Whole := by
  refine Transition.System.ReachableBy.invariant (P := fun s => s.process.Whole) ?_ ?_ h
  · rintro s rfl g x hx
    cases hx
  · rintro s (op | _) t reach whole - ht
    · exact whole.apply (coherent_reachable reach) ht
    · have view := ((coherent_reachable reach).generation_view (hostNext_generation ht)).2
      exact whole.of_guest view.guest

/-! ## What an address denotes -/

inductive Place
  | shared (object offset : Nat)
  | own (g address : Nat)
deriving DecidableEq, Repr

def Mapping.Has (m : Mapping) (a : Nat) : Prop := m.address ≤ a ∧ a < m.address + m.len

/-- Address `a` of process `g` denotes the byte of the object that a mapping puts there, or else
a byte of its own memory. -/
inductive Denotes (g : Nat) (x : Guest) (a : Nat) : Place → Prop
  | shared {m : Mapping} (listed : m ∈ x.mappings) (has : m.Has a) :
      Denotes g x a (.shared m.object (m.fileOffset + (a - m.address)))
  | own (uncovered : ∀ m ∈ x.mappings, ¬ m.Has a) : Denotes g x a (.own g a)

theorem exists_denotes (g : Nat) (x : Guest) (a : Nat) : ∃ place, Denotes g x a place := by
  by_cases covered : ∃ m ∈ x.mappings, m.Has a
  · obtain ⟨m, listed, has⟩ := covered
    exact ⟨_, .shared listed has⟩
  · exact ⟨_, .own fun m listed has => covered ⟨m, listed, has⟩⟩

theorem Coherent.denotes_shared (h : Coherent s) (settled : s.process.Settled) {g : Nat}
    {x : Guest} (hx : s.process.guest g = some x) {a o offset : Nat}
    (denotes : Denotes g x a (.shared o offset)) :
    s.process.space (x.base + a) = .shared (s.process.object o).file offset := by
  cases denotes with
  | @shared m listed has =>
    have maps : s.process.Maps g x.base m := ⟨x, hx, rfl, listed⟩
    obtain ⟨r, hr⟩ := h.records.registered g x.base m maps
    have placed : r.hostAddress.isSome := by
      rw [Option.isSome_iff_ne_none]
      exact settled m.object r (Object.mem_registered.mpr
        ⟨m.id, (h.records.known _ _ r hr).2.1, hr⟩)
    obtain ⟨low, high⟩ := has
    refine h.backed _ _ _ (h.records.shows_iff.mpr
      ⟨g, x.base, m, r, maps, rfl, hr, placed, ⟨by omega, by omega⟩, ?_⟩)
    omega

theorem Coherent.denotes_own (h : Coherent s) {g : Nat} {x : Guest}
    (hx : s.process.guest g = some x) {a g' a' : Nat} (inside : a < x.size)
    (denotes : Denotes g x a (.own g' a')) (f offset : Nat) :
    s.process.space (x.base + a) ≠ .shared f offset := by
  intro cell
  obtain ⟨o, hs, -⟩ := h.covered _ _ _ cell
  obtain ⟨k, base, m, r, maps, -, -, -, covers, -⟩ := h.records.shows_iff.mp hs
  obtain ⟨y, hy, low, high⟩ := h.geometry.cover_inside maps covers
  have sized := h.geometry.sized g x hx
  have sized' := h.geometry.sized k y hy
  obtain rfl := h.geometry.guest_unique hx hy (a := x.base + a) ⟨by omega, by omega⟩
    ⟨low, by omega⟩
  obtain rfl := maps.base_eq hx
  obtain ⟨z, hz, -, listed⟩ := maps
  rw [hx] at hz
  obtain rfl := Option.some.inj hz
  obtain ⟨first, last⟩ := covers
  cases denotes with
  | own uncovered => exact uncovered m listed ⟨by omega, by omega⟩

/-- A mapping ends inside the word at `a`, of which it has the first byte. -/
def Guest.Cuts (x : Guest) (a : Nat) : Prop :=
  ∃ m ∈ x.mappings, m.Has a ∧ m.address + m.len < a + 4

theorem Process.Whole.aligned (h : s.process.Whole) {g : Nat} {x : Guest}
    (hx : s.process.guest g = some x) {a : Nat} (aligned : a % 4 = 0) : ¬ x.Cuts a := by
  rintro ⟨m, listed, ⟨low, high⟩, ends⟩
  obtain ⟨address, len, -⟩ := h g x hx m listed
  unfold wasmPageSize at address len
  omega

/-! ## The owner of a word -/

def Place.owner (state : Nat → σ) : Place → FutexOwner σ × Nat
  | .shared o offset => (.shared o, offset)
  | .own g a => (.process (state g), a)

theorem Place.owner_injective {state : Nat → σ} (own : Function.Injective state) :
    Function.Injective (Place.owner state) := by
  rintro (⟨o, i⟩ | ⟨g, a⟩) (⟨o', i'⟩ | ⟨g', a'⟩) same
  · obtain ⟨⟨⟩, rfl⟩ := Prod.mk.inj same
    rfl
  · cases same
  · cases same
  · obtain ⟨owner, rfl⟩ := Prod.mk.inj same
    obtain rfl := own (FutexOwner.process.inj owner)
    rfl

theorem Mapping.holdsWord_iff {m : Mapping} {a : Nat} :
    m.holdsWord a = true ↔ a + 4 < 2 ^ 64 ∧ m.address ≤ a ∧ a + 4 ≤ m.address + m.len := by
  unfold Mapping.holdsWord
  split
  · simp only [Bool.false_eq_true, false_iff]
    omega
  · simp only [Bool.and_eq_true, decide_eq_true_eq]
    omega

theorem SharedMemoryMappings.Keeps.exists_left {v : SharedMemoryMappings} {x : Guest}
    (kept : v.Keeps x) {m : Mapping} (listed : m ∈ x.mappings) :
    ∃ n ∈ v.mappings, n.descriptor = m.descriptor :=
  List.mem_map.mp (kept.mem_iff.mpr (List.mem_map_of_mem listed))

theorem SharedMemoryMappings.Keeps.exists_right {v : SharedMemoryMappings} {x : Guest}
    (kept : v.Keeps x) {n : Mapping} (listed : n ∈ v.mappings) :
    ∃ m ∈ x.mappings, m.descriptor = n.descriptor :=
  List.mem_map.mp (kept.mem_iff.mp (List.mem_map_of_mem listed))

theorem futexOwner_of_denotes (coherent : Coherent s) (whole : s.process.Whole)
    (state : Nat → σ) {g : Nat} {x : Guest} (hx : s.process.guest g = some x)
    {v : SharedMemoryMappings} (kept : v.Keeps x) {a : Nat} (uncut : ¬ x.Cuts a) {place : Place}
    (denotes : Denotes g x a place) : futexOwner (state g) v a = place.owner state := by
  rw [futexOwner_eq_search]
  unfold searchOwner
  cases denotes with
  | @shared m listed has =>
    have bound := (whole g x hx m listed).bound
    have ends : a + 4 ≤ m.address + m.len :=
      Nat.le_of_not_lt fun ends => uncut ⟨m, listed, has, ends⟩
    have holds : m.holdsWord a = true := Mapping.holdsWord_iff.mpr ⟨by omega, has.1, ends⟩
    -- whatever the search finds is the one mapping that covers the address
    cases found : v.mappings.find? (·.holdsWord a) with
    | none =>
      obtain ⟨n, kept, same⟩ := kept.exists_left listed
      simp only [Mapping.descriptor, Prod.mk.injEq] at same
      obtain ⟨-, address, len, -⟩ := same
      have refused := List.find?_eq_none.mp found n kept
      rw [Mapping.holdsWord_iff, address, len, ← Mapping.holdsWord_iff] at refused
      exact absurd holds refused
    | some n =>
      obtain ⟨m', listed', same⟩ := kept.exists_right (List.mem_of_find?_eq_some found)
      have holds' := List.find?_some (p := fun k : Mapping => k.holdsWord a) found
      obtain ⟨-, low, high⟩ := Mapping.holdsWord_iff.mp holds'
      simp only [Mapping.descriptor, Prod.mk.injEq] at same
      obtain ⟨object, address, len, fileOffset⟩ := same
      obtain ⟨first, last⟩ := has
      obtain ⟨-, rfl⟩ := coherent.geometry.cover_unique (a := x.base + a)
        ⟨x, hx, rfl, listed⟩ ⟨x, hx, rfl, listed'⟩ ⟨by omega, by omega⟩ ⟨by omega, by omega⟩
      simp only [Place.owner, object, address, fileOffset]
  | own uncovered =>
    have none : v.mappings.find? (·.holdsWord a) = none := by
      rw [List.find?_eq_none]
      intro n kept' holds
      obtain ⟨m, listed, same⟩ := kept.exists_right kept'
      simp only [Mapping.descriptor, Prod.mk.injEq] at same
      obtain ⟨-, address, len, -⟩ := same
      obtain ⟨-, low, high⟩ := Mapping.holdsWord_iff.mp holds
      exact uncovered m listed ⟨by omega, by omega⟩
    rw [none]
    rfl

/-- Whatever the processes of a host have mapped, unmapped and inherited: two addresses in whose
words no mapping ends get one owner and index exactly if they denote one byte of an object, or
one address of one process. The shortcut for an empty list answers as the search does. -/
theorem futexOwner_eq_iff (ops : FileOps) {s : State} (h : (host ops).Reachable s)
    {state : Nat → σ} (own : Function.Injective state) {g g' : Nat} {x x' : Guest}
    (hx : s.process.guest g = some x) (hx' : s.process.guest g' = some x')
    {v v' : SharedMemoryMappings} (kept : v.Keeps x) (kept' : v'.Keeps x') :
    (∀ a a', ¬ x.Cuts a → ¬ x'.Cuts a' →
      (futexOwner (state g) v a = futexOwner (state g') v' a' ↔
        ∃ place, Denotes g x a place ∧ Denotes g' x' a' place)) ∧
    ∀ a, futexOwner (state g) v a = searchOwner (state g) v.mappings a := by
  have coherent := coherent_reachable h
  have whole := whole_reachable h
  refine ⟨fun a a' uncut uncut' => ?_, futexOwner_eq_search _ v⟩
  obtain ⟨place, denotes⟩ := exists_denotes g x a
  obtain ⟨place', denotes'⟩ := exists_denotes g' x' a'
  constructor
  · intro same
    rw [futexOwner_of_denotes coherent whole state hx kept uncut denotes,
      futexOwner_of_denotes coherent whole state hx' kept' uncut' denotes'] at same
    obtain rfl := Place.owner_injective own same
    exact ⟨place, denotes, denotes'⟩
  · rintro ⟨place, denotes, denotes'⟩
    rw [futexOwner_of_denotes coherent whole state hx kept uncut denotes,
      futexOwner_of_denotes coherent whole state hx' kept' uncut' denotes']

def forkedRun : List HostEvent :=
  [.op (.spawn 65536 131072 131072), .op (.open ⟨0, "queue"⟩ ⟨true, true, true, false, false, false⟩),
    .op (.setLen 0 65536), .op (.fdMap 0 0 0 65536 0), .op (.procFork 0 262144),
    .op (.restore 1 0)]

/-- The child's mapped words are its parent's, and its private words are its own. -/
theorem futexOwner_eq_forked :
    ∃ s x x', (host denseOps).Reachable s ∧ s.process.guest 0 = some x ∧
      s.process.guest 1 = some x' ∧ ∀ v v' : SharedMemoryMappings, v.Keeps x → v'.Keeps x' →
        futexOwner 0 v 8 = futexOwner 1 v' 8 ∧ futexOwner 0 v 65536 ≠ futexOwner 1 v' 65536 := by
  obtain ⟨s, reach, parent, child⟩ :
      ∃ s, (host denseOps).Reachable s ∧
        (s.process.guest 0).map (·.mappings) = some [⟨0, 1, 0, 65536, 0⟩] ∧
        (s.process.guest 1).map (·.mappings) = some [⟨0, 2, 0, 65536, 0⟩] :=
    Transition.System.exists_reachable_of_run (s := {}) (.init rfl)
      (show ((host denseOps).run {} forkedRun).any _ = true by decide +kernel)
  obtain ⟨x, hx, mapped⟩ := Option.map_eq_some_iff.mp parent
  obtain ⟨x', hx', mapped'⟩ := Option.map_eq_some_iff.mp child
  have uncut : ∀ a, a % 4 = 0 → ¬ x.Cuts a := fun a => (whole_reachable reach).aligned hx
  have uncut' : ∀ a, a % 4 = 0 → ¬ x'.Cuts a := fun a => (whole_reachable reach).aligned hx'
  refine ⟨s, x, x', reach, hx, hx', fun v v' kept kept' => ?_⟩
  obtain ⟨same, -⟩ := futexOwner_eq_iff denseOps reach injective_id hx hx' kept kept'
  constructor
  · refine (same 8 8 (uncut 8 rfl) (uncut' 8 rfl)).mpr ⟨.shared 0 8, ?_, ?_⟩
    · exact .shared (m := ⟨0, 1, 0, 65536, 0⟩) (by simp [mapped]) ⟨by decide, by decide⟩
    · exact .shared (m := ⟨0, 2, 0, 65536, 0⟩) (by simp [mapped']) ⟨by decide, by decide⟩
  · intro equal
    obtain ⟨place, denotes, denotes'⟩ :=
      (same 65536 65536 (uncut _ rfl) (uncut' _ rfl)).mp equal
    cases denotes with
    | shared listed has =>
      rw [mapped, List.mem_singleton] at listed
      subst listed
      exact absurd has.2 (by decide)
    | own => cases denotes'

/-- An object is mapped twice. The last three bytes of each mapping begin words that the mapping
does not hold, and which are therefore answered as private words. -/
theorem futexOwner_cut_word :
    ∃ s x v, (host denseOps).Reachable s ∧ s.process.guest 0 = some x ∧
      SharedMemoryMappings.Keeps v x ∧
      (∃ place, Denotes 0 x 65533 place ∧ Denotes 0 x 131069 place) ∧
      futexOwner 0 v 65533 ≠ futexOwner 0 v 131069 := by
  obtain ⟨s, reach, twice⟩ :
      ∃ s, (host denseOps).Reachable s ∧ (s.process.guest 0).map (·.mappings) =
        some [⟨0, 1, 0, 65536, 0⟩, ⟨0, 2, 65536, 65536, 0⟩] :=
    Transition.System.exists_reachable_of_run (s := {}) (.init rfl)
      (show ((host denseOps).run {} twiceMappedRun).any _ = true by decide +kernel)
  obtain ⟨x, hx, mapped⟩ := Option.map_eq_some_iff.mp twice
  refine ⟨s, x, ⟨2, x.mappings, by rw [mapped]; rfl⟩, reach, hx, .refl _,
    ⟨.shared 0 65533, ?_, ?_⟩, ?_⟩
  · exact .shared (m := ⟨0, 1, 0, 65536, 0⟩) (by simp [mapped]) ⟨by decide, by decide⟩
  · exact .shared (m := ⟨0, 2, 65536, 65536, 0⟩) (by simp [mapped]) ⟨by decide, by decide⟩
  · rw [futexOwner_eq_search, futexOwner_eq_search]
    simp only [mapped]
    decide

/-! ## Stores -/

theorem Coherent.cell_of_denotes (h : Coherent s) (settled : s.process.Settled) {g : Nat}
    {x : Guest} (hx : s.process.guest g = some x) {a : Nat} (inside : a < x.size) {place : Place}
    (denotes : Denotes g x a place) :
    (∃ o offset, place = .shared o offset ∧ o < s.process.nextObject ∧
      s.process.space (x.base + a) = .shared (s.process.object o).file offset) ∨
    (place = .own g a ∧
      (s.process.space (x.base + a) = .unmapped ∨ ∃ b, s.process.space (x.base + a) = .anon b)) := by
  cases denotes with
  | @shared m listed has =>
    obtain ⟨r, hr⟩ := h.records.registered g x.base m ⟨x, hx, rfl, listed⟩
    exact .inl ⟨_, _, rfl, (h.records.known _ _ r hr).1,
      h.denotes_shared settled hx (.shared listed has)⟩
  | own uncovered =>
    refine .inr ⟨rfl, ?_⟩
    cases cell : s.process.space (x.base + a) with
    | unmapped => exact .inl rfl
    | anon b => exact .inr ⟨b, rfl⟩
    | shared f offset => exact absurd cell (h.denotes_own hx inside (.own uncovered) f offset)
    | priv f offset copy dontFork => exact absurd cell (h.no_priv _ f offset copy dontFork)

theorem Coherent.denotes_unique (h : Coherent s) (settled : s.process.Settled) {g g' : Nat}
    {x x' : Guest} (hx : s.process.guest g = some x) (hx' : s.process.guest g' = some x')
    {a a' : Nat} (inside : a < x.size) (inside' : a' < x'.size) {place place' : Place}
    (denotes : Denotes g x a place) (denotes' : Denotes g' x' a' place')
    (at_ : x'.base + a' = x.base + a) : place = place' := by
  have sized := h.geometry.sized g x hx
  have sized' := h.geometry.sized g' x' hx'
  obtain rfl := h.geometry.guest_unique hx hx' (a := x.base + a) ⟨by omega, by omega⟩
    ⟨by omega, by omega⟩
  rw [hx] at hx'
  obtain rfl := Option.some.inj hx'
  obtain rfl : a' = a := by omega
  have cell := h.cell_of_denotes settled hx inside denotes
  have cell' := h.cell_of_denotes settled hx inside denotes'
  grind [h.distinct]

/-- Whatever a host's processes have mapped: a store is read back by every address that denotes
the byte it went to, and by no other address of any process. -/
theorem store_load_place (ops : FileOps) (h : (host ops).Reachable s)
    (settled : s.process.Settled) {g g' : Nat} {x x' : Guest}
    (hx : s.process.guest g = some x) (hx' : s.process.guest g' = some x') {a a' : Nat}
    (inside : a < x.size) (inside' : a' < x'.size) {place place' : Place}
    (denotes : Denotes g x a place) (denotes' : Denotes g' x' a' place') (v : UInt8) :
    load (s.store (x.base + a) v).kernel (s.store (x.base + a) v).process (x'.base + a') =
      if place = place' then
        load (s.store (x.base + a) v).kernel (s.store (x.base + a) v).process (x.base + a)
      else load s.kernel s.process (x'.base + a') := by
  have coherent := coherent_reachable h
  rcases coherent.cell_of_denotes settled hx inside denotes with
    ⟨o, offset, rfl, known, cell⟩ | ⟨rfl, cell⟩
  · rcases coherent.cell_of_denotes settled hx' inside' denotes' with
      ⟨o', offset', rfl, known', cell'⟩ | ⟨rfl, cell'⟩
    · by_cases file : (s.process.object o').file = (s.process.object o).file
      · obtain rfl := coherent.distinct _ _ known' known file
        by_cases same : offset' = offset
        · simp [State.store, load, cell, cell', same]
        · simp [State.store, load, cell, cell', Memfd.poke_byte, same, Ne.symm same]
      · have other : o ≠ o' := by
          rintro rfl
          exact file rfl
        simp [State.store, load, cell, cell', Function.update_of_ne file, other]
    · rcases cell' with cell' | ⟨b, cell'⟩ <;> simp [State.store, load, cell, cell']
  · by_cases at_ : x'.base + a' = x.base + a
    · rw [if_pos (coherent.denotes_unique settled hx hx' inside inside' denotes denotes' at_), at_]
    · have other : Place.own g a ≠ place' := by
        rintro rfl
        cases denotes'
        rw [hx] at hx'
        exact at_ (by rw [Option.some.inj hx'])
      rw [if_neg other]
      rcases cell with cell | ⟨b, cell⟩
      · simp [State.store, cell]
      · simp [State.store, load, cell, Function.update_of_ne at_]

/-- A store to the mapping is read in the forked child. -/
theorem store_load_place_forked :
    ∃ s x x', (host denseOps).Reachable s ∧ s.process.guest 0 = some x ∧
      s.process.guest 1 = some x' ∧ ∀ v,
        load (s.store (x.base + 8) v).kernel (s.store (x.base + 8) v).process (x'.base + 8) =
          load (s.store (x.base + 8) v).kernel (s.store (x.base + 8) v).process (x.base + 8) := by
  obtain ⟨s, reach, below, parent, child⟩ :
      ∃ s, (host denseOps).Reachable s ∧
        (∀ o < s.process.nextObject, ∀ r ∈ (s.process.object o).registered,
          r.hostAddress ≠ none) ∧
        (s.process.guest 0).map (·.mappings) = some [⟨0, 1, 0, 65536, 0⟩] ∧
        (s.process.guest 1).map (·.mappings) = some [⟨0, 2, 0, 65536, 0⟩] :=
    Transition.System.exists_reachable_of_run (s := {}) (.init rfl)
      (show ((host denseOps).run {} forkedRun).any _ = true by decide +kernel)
  have coherent := coherent_reachable reach
  obtain ⟨x, hx, mapped⟩ := Option.map_eq_some_iff.mp parent
  obtain ⟨x', hx', mapped'⟩ := Option.map_eq_some_iff.mp child
  have fits := (coherent.geometry.inside 0 x ⟨0, 1, 0, 65536, 0⟩ hx (by simp [mapped])).2
  have fits' := (coherent.geometry.inside 1 x' ⟨0, 2, 0, 65536, 0⟩ hx' (by simp [mapped'])).2
  dsimp only at fits fits'
  refine ⟨s, x, x', reach, hx, hx', fun v => ?_⟩
  refine (store_load_place denseOps reach (coherent.settled_of_lt below) hx hx' (by omega)
    (by omega) (.shared (m := ⟨0, 1, 0, 65536, 0⟩) (by simp [mapped]) ⟨by decide, by decide⟩)
    (.shared (m := ⟨0, 2, 0, 65536, 0⟩) (by simp [mapped']) ⟨by decide, by decide⟩) v).trans ?_
  exact if_pos rfl

end ServiceCache.SharedMemory
