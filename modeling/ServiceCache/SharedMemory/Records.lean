import Mathlib.Data.List.Pairwise
import ServiceCache.SharedMemory.Snapshot

/-!
# What the records say

The object keeps an overlay's file range and host address, the guest process its place in linear
memory. `Records` says that the two agree, `Geometry` that no two overlays of a host ever meet.
-/

namespace ServiceCache.SharedMemory

def Process.Maps (p : Process) (g base : Nat) (m : Mapping) : Prop :=
  ∃ x, p.guest g = some x ∧ x.base = base ∧ m ∈ x.mappings

structure Matches (base : Nat) (m : Mapping) (r : RegisteredMapping) : Prop where
  start : r.start = m.fileOffset
  stop : r.stop = m.fileOffset + m.len
  host : ∀ h, r.hostAddress = some h → h = base + m.address

structure Records (p : Process) : Prop where
  known : ∀ o id r, (p.object o).mappings id = some r →
    o < p.nextObject ∧ id < (p.object o).nextMapping ∧ o ∈ p.mapped
  owned : ∀ o id r, (p.object o).mappings id = some r →
    ∃ g base m, p.Maps g base m ∧ m.object = o ∧ m.id = id ∧ Matches base m r
  registered : ∀ g base m, p.Maps g base m → ∃ r, (p.object m.object).mappings m.id = some r
  unique : ∀ g base m g' base' m', p.Maps g base m → p.Maps g' base' m' →
    m.object = m'.object → m.id = m'.id → g = g' ∧ m = m'
  mapped_nodup : p.mapped.Nodup

def Mapping.Apart (m m' : Mapping) : Prop :=
  m.address + m.len ≤ m'.address ∨ m'.address + m'.len ≤ m.address

instance : Std.Symm Mapping.Apart := ⟨fun _ _ h => Or.symm h⟩

structure Geometry (p : Process) : Prop where
  known : ∀ g x, p.guest g = some x → g < p.nextGuest
  sized : ∀ g x, p.guest g = some x → x.size ≤ x.reserved
  inside : ∀ g x m, p.guest g = some x → m ∈ x.mappings →
    0 < m.len ∧ m.address + m.len ≤ x.size
  apart : ∀ g x, p.guest g = some x → x.mappings.Pairwise Mapping.Apart
  guests : ∀ g x g' x', p.guest g = some x → p.guest g' = some x' → g ≠ g' →
    x.base + x.reserved ≤ x'.base ∨ x'.base + x'.reserved ≤ x.base

def Process.Shows (p : Process) (a o offset : Nat) : Prop :=
  ∃ id r h, (p.object o).mappings id = some r ∧ r.hostAddress = some h ∧ h ≤ a ∧
    a < h + (r.stop - r.start) ∧ offset = r.start + (a - h)

def Covers (base : Nat) (m : Mapping) (a : Nat) : Prop :=
  base + m.address ≤ a ∧ a < base + m.address + m.len

instance (base : Nat) (m : Mapping) (a : Nat) : Decidable (Covers base m a) :=
  inferInstanceAs (Decidable (_ ∧ _))

theorem Process.Maps.base_eq {p : Process} {g base : Nat} {m : Mapping} (h : p.Maps g base m)
    {x : Guest} (hx : p.guest g = some x) : base = x.base := by
  obtain ⟨y, hy, rfl, -⟩ := h
  rw [hx] at hy
  rw [Option.some.inj hy]

theorem Records.matches {p : Process} (records : Records p) {g base : Nat} {m : Mapping}
    (hm : p.Maps g base m) :
    ∃ r, (p.object m.object).mappings m.id = some r ∧ Matches base m r := by
  obtain ⟨r, hr⟩ := records.registered g base m hm
  obtain ⟨g', base', m', hm', ho, hid, matching⟩ := records.owned _ _ r hr
  obtain ⟨rfl, rfl⟩ := records.unique g base m g' base' m' hm hm' ho.symm hid.symm
  obtain ⟨x, hx, rfl, -⟩ := hm
  rw [hm'.base_eq hx] at matching
  exact ⟨r, hr, matching⟩

theorem Records.shows_iff {p : Process} (records : Records p) {a o offset : Nat} :
    p.Shows a o offset ↔ ∃ g base m r, p.Maps g base m ∧ m.object = o ∧
      (p.object o).mappings m.id = some r ∧ r.hostAddress.isSome ∧ Covers base m a ∧
      offset = m.fileOffset + (a - (base + m.address)) := by
  constructor
  · rintro ⟨id, r, h, hr, hh, low, high, rfl⟩
    obtain ⟨g, base, m, hm, ho, hid, matching⟩ := records.owned o id r hr
    have hstart := matching.start
    have hstop := matching.stop
    have hhost := matching.host h hh
    exact ⟨g, base, m, r, hm, ho, hid ▸ hr, by simp [hh], ⟨by omega, by omega⟩, by omega⟩
  · rintro ⟨g, base, m, r, hm, rfl, hr, hh, ⟨low, high⟩, rfl⟩
    obtain ⟨r', hr', matching⟩ := records.matches hm
    rw [hr] at hr'
    obtain rfl := Option.some.inj hr'
    obtain ⟨h, hh⟩ := Option.isSome_iff_exists.mp hh
    have hstart := matching.start
    have hstop := matching.stop
    have hhost := matching.host h hh
    exact ⟨m.id, r, h, hr, hh, by omega, by omega, by omega⟩

theorem Geometry.cover_inside {p : Process} (geometry : Geometry p) {g base a : Nat} {m : Mapping}
    (hm : p.Maps g base m) (ha : Covers base m a) :
    ∃ x, p.guest g = some x ∧ x.base ≤ a ∧ a < x.base + x.size := by
  obtain ⟨x, hx, rfl, member⟩ := hm
  have inside := geometry.inside g x m hx member
  have := ha.1
  have := ha.2
  exact ⟨x, hx, by omega, by omega⟩

theorem Geometry.guest_unique {p : Process} (geometry : Geometry p) {g g' a : Nat} {x x' : Guest}
    (hx : p.guest g = some x) (hx' : p.guest g' = some x')
    (ha : x.base ≤ a ∧ a < x.base + x.reserved) (ha' : x'.base ≤ a ∧ a < x'.base + x'.reserved) :
    g = g' := by
  by_contra ne
  have := geometry.guests g x g' x' hx hx' ne
  omega

theorem Geometry.cover_unique {p : Process} (geometry : Geometry p) {g g' base base' a : Nat}
    {m m' : Mapping} (hm : p.Maps g base m) (hm' : p.Maps g' base' m') (ha : Covers base m a)
    (ha' : Covers base' m' a) : g = g' ∧ m = m' := by
  obtain ⟨x, hx, low, high⟩ := geometry.cover_inside hm ha
  obtain ⟨x', hx', low', high'⟩ := geometry.cover_inside hm' ha'
  have sized := geometry.sized g x hx
  have sized' := geometry.sized g' x' hx'
  obtain rfl := geometry.guest_unique hx hx' ⟨low, by omega⟩ ⟨low', by omega⟩
  refine ⟨rfl, ?_⟩
  obtain ⟨y, hy, rfl, member⟩ := hm
  obtain ⟨y', hy', rfl, member'⟩ := hm'
  rw [hy] at hy'
  obtain rfl := Option.some.inj hy'
  by_contra ne
  have apart := (geometry.apart g y hy).forall member member' ne
  unfold Mapping.Apart at apart
  unfold Covers at ha ha'
  omega

theorem shows_unique {p : Process} (records : Records p) (geometry : Geometry p)
    {a o offset o' offset' : Nat} (h : p.Shows a o offset) (h' : p.Shows a o' offset') :
    o = o' ∧ offset = offset' := by
  obtain ⟨g, base, m, r, hm, rfl, hr, hh, cover, rfl⟩ := records.shows_iff.mp h
  obtain ⟨g', base', m', r', hm', rfl, hr', hh', cover', rfl⟩ := records.shows_iff.mp h'
  obtain ⟨rfl, rfl⟩ := geometry.cover_unique hm hm' cover cover'
  obtain ⟨x, hx, rfl, -⟩ := hm
  rw [hm'.base_eq hx]
  exact ⟨rfl, rfl⟩

/-! ## A new mapping -/

section

variable {s : State} {g : Nat} {x : Guest} {m : Mapping}

def State.record (s : State) (g : Nat) (m : Mapping) : State :=
  (s.register m.object m.fileOffset m.len).pushMapping g m

theorem record_mappings (fresh : m.id = (s.process.object m.object).nextMapping) (o id : Nat) :
    ((s.record g m).process.object o).mappings id =
      if o = m.object ∧ id = m.id then some ⟨m.fileOffset, m.fileOffset + m.len, none⟩
      else (s.process.object o).mappings id := by
  by_cases ho : o = m.object
  · subst ho
    simp [State.record, State.pushMapping, Function.update_apply, fresh]
  · simp [State.record, State.pushMapping, ho]

theorem record_nextMapping (o : Nat) :
    ((s.record g m).process.object o).nextMapping =
      if o = m.object then (s.process.object o).nextMapping + 1
      else (s.process.object o).nextMapping := by
  by_cases ho : o = m.object
  · subst ho
    simp [State.record, State.pushMapping]
  · simp [State.record, State.pushMapping, ho]

theorem record_guest (hx : s.process.guest g = some x) (g' : Nat) :
    (s.record g m).process.guest g' =
      if g' = g then some { x with mappings := x.mappings ++ [m] } else s.process.guest g' := by
  by_cases hg : g' = g
  · subst hg
    simp [State.record, State.pushMapping, hx]
  · simp [State.record, State.pushMapping, hg]

theorem record_maps (hx : s.process.guest g = some x) {g' base : Nat} {m' : Mapping} :
    (s.record g m).process.Maps g' base m' ↔
      s.process.Maps g' base m' ∨ (g' = g ∧ base = x.base ∧ m' = m) := by
  unfold Process.Maps
  rw [record_guest hx]
  by_cases hg : g' = g
  · subst hg
    simp [hx]
    tauto
  · simp [hg]

theorem record_mapped (s : State) (g : Nat) (m : Mapping) :
    (s.record g m).process.mapped = if m.object ∈ s.process.mapped then s.process.mapped
      else s.process.mapped ++ [m.object] := rfl

theorem nodup_append_singleton {l : List Nat} (h : l.Nodup) {a : Nat} (out : a ∉ l) :
    (l ++ [a]).Nodup := by
  rw [List.nodup_append]
  refine ⟨h, by simp, ?_⟩
  rintro b hb c hc rfl
  exact out (List.mem_singleton.mp hc ▸ hb)

theorem Records.record (h : Records s.process) (hx : s.process.guest g = some x)
    (known : m.object < s.process.nextObject)
    (fresh : m.id = (s.process.object m.object).nextMapping) :
    Records (s.record g m).process := by
  have mapped : ∀ o, o ∈ s.process.mapped ∨ o = m.object → o ∈ (s.record g m).process.mapped := by
    intro o ho
    rw [record_mapped]
    split
    · rcases ho with ho | rfl <;> assumption
    · simpa using ho
  constructor
  · intro o id r hr
    rw [record_mappings fresh] at hr
    rw [record_nextMapping]
    split at hr
    next new =>
      obtain ⟨rfl, rfl⟩ := new
      exact ⟨known, by simp [fresh], mapped _ (.inr rfl)⟩
    · obtain ⟨lt, idLt, inMapped⟩ := h.known o id r hr
      refine ⟨lt, ?_, mapped _ (.inl inMapped)⟩
      split <;> omega
  · intro o id r hr
    rw [record_mappings fresh] at hr
    split at hr
    next new =>
      obtain ⟨rfl, rfl⟩ := new
      obtain rfl := Option.some.inj hr
      exact ⟨g, x.base, m, (record_maps hx).mpr (.inr ⟨rfl, rfl, rfl⟩), rfl, rfl, rfl, rfl,
        fun _ none => by simp at none⟩
    · obtain ⟨g', base, m', hm', rest⟩ := h.owned o id r hr
      exact ⟨g', base, m', (record_maps hx).mpr (.inl hm'), rest⟩
  · intro g' base m' hm'
    rw [record_mappings fresh]
    split
    · exact ⟨_, rfl⟩
    next other =>
      rcases (record_maps hx).mp hm' with old | ⟨-, -, rfl⟩
      · exact h.registered g' base m' old
      · exact absurd ⟨rfl, rfl⟩ other
  · intro g₁ base₁ m₁ g₂ base₂ m₂ h₁ h₂ ho hid
    have stale : ∀ g' base m', s.process.Maps g' base m' → m'.object = m.object → m'.id ≠ m.id := by
      intro g' base m' hm' ho' hid'
      obtain ⟨r, hr⟩ := h.registered g' base m' hm'
      have lt := (h.known _ _ r hr).2.1
      rw [ho', hid', fresh] at lt
      omega
    rcases (record_maps hx).mp h₁ with old₁ | ⟨rfl, -, rfl⟩ <;>
      rcases (record_maps hx).mp h₂ with old₂ | ⟨rfl, -, rfl⟩
    · exact h.unique g₁ base₁ m₁ g₂ base₂ m₂ old₁ old₂ ho hid
    · exact absurd hid (stale _ _ _ old₁ ho)
    · exact absurd hid.symm (stale _ _ _ old₂ ho.symm)
    · exact ⟨rfl, rfl⟩
  · rw [record_mapped]
    split
    · exact h.mapped_nodup
    next out => exact nodup_append_singleton h.mapped_nodup out

theorem Geometry.setGuest {p q : Process} (h : Geometry p) {g : Nat} {x y : Guest}
    (hx : p.guest g = some x) (guest : ∀ g', q.guest g' = if g' = g then some y else p.guest g')
    (next : q.nextGuest = p.nextGuest) (base : y.base = x.base) (reserved : y.reserved = x.reserved)
    (sized : y.size ≤ y.reserved) (inside : ∀ m ∈ y.mappings, 0 < m.len ∧ m.address + m.len ≤ y.size)
    (apart : y.mappings.Pairwise Mapping.Apart) : Geometry q := by
  -- every guest of `q` is a guest of `p` in the same range, and `g` is the new one
  have old : ∀ g' y', q.guest g' = some y' →
      (g' = g ∧ y' = y) ∨ (g' ≠ g ∧ p.guest g' = some y') := by
    intro g' y' hy'
    rw [guest] at hy'
    split at hy'
    next hg => exact .inl ⟨hg, (Option.some.inj hy').symm⟩
    next hg => exact .inr ⟨hg, hy'⟩
  constructor
  · intro g' y' hy'
    rw [next]
    rcases old g' y' hy' with ⟨rfl, -⟩ | ⟨-, hp⟩
    · exact h.known _ x hx
    · exact h.known g' y' hp
  · intro g' y' hy'
    rcases old g' y' hy' with ⟨-, rfl⟩ | ⟨-, hp⟩
    · exact sized
    · exact h.sized g' y' hp
  · intro g' y' m hy' hm
    rcases old g' y' hy' with ⟨-, rfl⟩ | ⟨-, hp⟩
    · exact inside m hm
    · exact h.inside g' y' m hp hm
  · intro g' y' hy'
    rcases old g' y' hy' with ⟨-, rfl⟩ | ⟨-, hp⟩
    · exact apart
    · exact h.apart g' y' hp
  · intro g₁ y₁ g₂ y₂ h₁ h₂ ne
    rcases old g₁ y₁ h₁ with ⟨rfl, rfl⟩ | ⟨-, hp₁⟩
    · rcases old g₂ y₂ h₂ with ⟨rfl, -⟩ | ⟨-, hp₂⟩
      · exact absurd rfl ne
      · rw [base, reserved]
        exact h.guests _ x g₂ y₂ hx hp₂ ne
    · rcases old g₂ y₂ h₂ with ⟨rfl, rfl⟩ | ⟨-, hp₂⟩
      · rw [base, reserved]
        exact h.guests g₁ y₁ _ x hp₁ hx ne
      · exact h.guests g₁ y₁ g₂ y₂ hp₁ hp₂ ne

theorem Geometry.record (h : Geometry s.process) (hx : s.process.guest g = some x)
    (inside : 0 < m.len ∧ m.address + m.len ≤ x.size)
    (apart : ∀ m' ∈ x.mappings, m'.Apart m) : Geometry (s.record g m).process := by
  refine h.setGuest hx (record_guest hx) rfl rfl rfl (h.sized g x hx) ?_ ?_
  · intro m' hm'
    rcases List.mem_append.mp hm' with old | new
    · exact h.inside g x m' hx old
    · rw [List.mem_singleton.mp new]
      exact inside
  · rw [List.pairwise_append]
    refine ⟨h.apart g x hx, by simp, fun m' hm' m₂ hm₂ => ?_⟩
    rw [List.mem_singleton.mp hm₂]
    exact apart m' hm'

/-! ## Dropping a mapping -/

theorem dropMapping_mappings (o id : Nat) :
    ((s.dropMapping g m).process.object o).mappings id =
      if o = m.object ∧ id = m.id then none else (s.process.object o).mappings id := by
  by_cases ho : o = m.object
  · subst ho
    simp [State.dropMapping, State.unregisterMapping, Function.update_apply]
  · simp [State.dropMapping, State.unregisterMapping, ho]

theorem dropMapping_nextMapping (o : Nat) :
    ((s.dropMapping g m).process.object o).nextMapping = (s.process.object o).nextMapping := by
  by_cases ho : o = m.object
  · subst ho
    simp [State.dropMapping, State.unregisterMapping]
  · simp [State.dropMapping, State.unregisterMapping, ho]

theorem dropMapping_guest (hx : s.process.guest g = some x) (g' : Nat) :
    (s.dropMapping g m).process.guest g' =
      if g' = g then some { x with mappings := x.mappings.filter (· ≠ m) }
      else s.process.guest g' := by
  by_cases hg : g' = g
  · subst hg
    simp [State.dropMapping, State.unregisterMapping, hx]
  · simp [State.dropMapping, State.unregisterMapping, hg]

theorem dropMapping_maps (hx : s.process.guest g = some x) {g' base : Nat} {m' : Mapping} :
    (s.dropMapping g m).process.Maps g' base m' ↔
      s.process.Maps g' base m' ∧ ¬ (g' = g ∧ m' = m) := by
  unfold Process.Maps
  rw [dropMapping_guest hx]
  by_cases hg : g' = g
  · subst hg
    simp [hx, and_assoc]
  · simp [hg]

theorem Records.dropMapping (h : Records s.process) (hx : s.process.guest g = some x)
    (member : m ∈ x.mappings) : Records (s.dropMapping g m).process := by
  have hm : s.process.Maps g x.base m := ⟨x, hx, rfl, member⟩
  constructor
  · intro o id r hr
    rw [dropMapping_mappings] at hr
    rw [dropMapping_nextMapping]
    split at hr
    · cases hr
    · exact h.known o id r hr
  · intro o id r hr
    rw [dropMapping_mappings] at hr
    split at hr
    · cases hr
    next other =>
      obtain ⟨g', base, m', hm', ho, hid, matching⟩ := h.owned o id r hr
      refine ⟨g', base, m', (dropMapping_maps hx).mpr ⟨hm', ?_⟩, ho, hid, matching⟩
      rintro ⟨rfl, rfl⟩
      exact other ⟨ho.symm, hid.symm⟩
  · intro g' base m' hm'
    obtain ⟨old, ne⟩ := (dropMapping_maps hx).mp hm'
    rw [dropMapping_mappings]
    split
    next same => exact absurd (h.unique _ _ _ _ _ _ old hm same.1 same.2) ne
    · exact h.registered g' base m' old
  · intro g₁ base₁ m₁ g₂ base₂ m₂ h₁ h₂ ho hid
    exact h.unique _ _ _ _ _ _ ((dropMapping_maps hx).mp h₁).1 ((dropMapping_maps hx).mp h₂).1 ho hid
  · exact h.mapped_nodup

theorem Geometry.dropMapping (h : Geometry s.process) (hx : s.process.guest g = some x) :
    Geometry (s.dropMapping g m).process := by
  refine h.setGuest hx (dropMapping_guest hx) rfl rfl rfl (h.sized g x hx) ?_ ?_
  · intro m' hm'
    exact h.inside g x m' hx (List.mem_of_mem_filter hm')
  · exact (h.apart g x hx).filter _

/-! ## A host address, a new guest, a guest that goes -/

theorem mapIn_mappings (base o id : Nat) :
    ((s.mapIn base m).process.object o).mappings id =
      if o = m.object ∧ id = m.id then
        ((s.process.object o).mappings id).map
          (fun r => { r with hostAddress := some (base + m.address) })
      else (s.process.object o).mappings id := by
  by_cases ho : o = m.object
  · subst ho
    by_cases hid : id = m.id
    · subst hid
      simp [State.mapIn, State.setHostAddress, State.overlaySharedFile]
    · simp [State.mapIn, State.setHostAddress, State.overlaySharedFile, hid]
  · simp [State.mapIn, State.setHostAddress, State.overlaySharedFile, ho]

theorem mapIn_nextMapping (base o : Nat) :
    ((s.mapIn base m).process.object o).nextMapping = (s.process.object o).nextMapping := by
  by_cases ho : o = m.object
  · subst ho
    simp [State.mapIn, State.setHostAddress, State.overlaySharedFile]
  · simp [State.mapIn, State.setHostAddress, State.overlaySharedFile, ho]

theorem mapIn_file (base o : Nat) :
    ((s.mapIn base m).process.object o).file = (s.process.object o).file := by
  by_cases ho : o = m.object
  · subst ho
    simp [State.mapIn, State.setHostAddress, State.overlaySharedFile]
  · simp [State.mapIn, State.setHostAddress, State.overlaySharedFile, ho]

theorem Records.mapIn (h : Records s.process) {base : Nat} (hm : s.process.Maps g base m) :
    Records (s.mapIn base m).process := by
  -- each record is an old one, but perhaps for the host address
  have old : ∀ o id r, ((s.mapIn base m).process.object o).mappings id = some r →
      ∃ r', (s.process.object o).mappings id = some r' ∧
        ∀ g' base' m', s.process.Maps g' base' m' → m'.object = o → m'.id = id →
          Matches base' m' r' → Matches base' m' r := by
    intro o id r hr
    rw [mapIn_mappings] at hr
    split at hr
    next same =>
      obtain ⟨rfl, rfl⟩ := same
      obtain ⟨r', hr', rfl⟩ := Option.map_eq_some_iff.mp hr
      refine ⟨r', hr', fun g' base' m' hm' ho hid matching => ?_⟩
      obtain ⟨rfl, rfl⟩ := h.unique _ _ _ _ _ _ hm' hm ho hid
      obtain ⟨x, hx, rfl, -⟩ := hm
      refine ⟨matching.start, matching.stop, fun a ha => ?_⟩
      rw [hm'.base_eq hx]
      exact (Option.some.inj ha).symm
    · exact ⟨r, hr, fun _ _ _ _ _ _ matching => matching⟩
  constructor
  · intro o id r hr
    obtain ⟨r', hr', -⟩ := old o id r hr
    rw [mapIn_nextMapping]
    exact h.known o id r' hr'
  · intro o id r hr
    obtain ⟨r', hr', keep⟩ := old o id r hr
    obtain ⟨g', base', m', hm', ho, hid, matching⟩ := h.owned o id r' hr'
    exact ⟨g', base', m', hm', ho, hid, keep _ _ _ hm' ho hid matching⟩
  · intro g' base' m' hm'
    obtain ⟨r, hr⟩ := h.registered g' base' m' hm'
    rw [mapIn_mappings, hr]
    split
    · exact ⟨_, rfl⟩
    · exact ⟨r, rfl⟩
  · exact h.unique
  · exact h.mapped_nodup

theorem Records.congr {p q : Process} (h : Records p)
    (mappings : ∀ o, (q.object o).mappings = (p.object o).mappings)
    (nextMapping : ∀ o, o < p.nextObject → (p.object o).nextMapping ≤ (q.object o).nextMapping)
    (maps : ∀ g base m, q.Maps g base m ↔ p.Maps g base m)
    (nextObject : p.nextObject ≤ q.nextObject) (mapped : ∀ o ∈ p.mapped, o ∈ q.mapped)
    (nodup : q.mapped.Nodup) : Records q := by
  constructor
  · intro o id r hr
    rw [mappings] at hr
    obtain ⟨lt, idLt, inMapped⟩ := h.known o id r hr
    exact ⟨by omega, Nat.lt_of_lt_of_le idLt (nextMapping o lt), mapped o inMapped⟩
  · intro o id r hr
    rw [mappings] at hr
    obtain ⟨g, base, m, hm, rest⟩ := h.owned o id r hr
    exact ⟨g, base, m, (maps g base m).mpr hm, rest⟩
  · intro g base m hm
    rw [mappings]
    exact h.registered g base m ((maps g base m).mp hm)
  · intro g base m g' base' m' hm hm' ho hid
    exact h.unique _ _ _ _ _ _ ((maps _ _ _).mp hm) ((maps _ _ _).mp hm') ho hid
  · exact nodup

theorem addGuest_guest (s : State) (x : Guest) (cell : Nat → Cell) (g' : Nat) :
    (s.addGuest x cell).process.guest g' =
      if g' = s.process.nextGuest then some x else s.process.guest g' := by
  by_cases hg : g' = s.process.nextGuest
  · simp [State.addGuest, hg]
  · simp [State.addGuest, hg]

theorem Records.addGuest (h : Records s.process) (geometry : Geometry s.process)
    (none : x.mappings = []) (cell : Nat → Cell) : Records (s.addGuest x cell).process := by
  refine h.congr (fun _ => rfl) (fun _ _ => Nat.le_refl _) ?_ (Nat.le_refl _) (fun _ ho => ho)
    h.mapped_nodup
  intro g base m
  unfold Process.Maps
  rw [addGuest_guest]
  split
  next hg =>
    constructor
    · rintro ⟨y, hy, -, hm⟩
      rw [← Option.some.inj hy, none] at hm
      cases hm
    · rintro ⟨y, hy, -⟩
      have := geometry.known g y hy
      omega
  · rfl

theorem Geometry.addGuest (h : Geometry s.process) (none : x.mappings = [])
    (sized : x.size ≤ x.reserved) (free : s.process.Free x.base x.reserved) (cell : Nat → Cell) :
    Geometry (s.addGuest x cell).process := by
  have old : ∀ g' y, (s.addGuest x cell).process.guest g' = some y →
      (g' = s.process.nextGuest ∧ y = x) ∨ (s.process.guest g' = some y ∧
        g' < s.process.nextGuest) := by
    intro g' y hy
    rw [addGuest_guest] at hy
    split at hy
    next hg => exact .inl ⟨hg, (Option.some.inj hy).symm⟩
    · exact .inr ⟨hy, h.known g' y hy⟩
  constructor
  · intro g' y hy
    have : (s.addGuest x cell).process.nextGuest = s.process.nextGuest + 1 := rfl
    rcases old g' y hy with ⟨rfl, -⟩ | ⟨-, lt⟩ <;> omega
  · intro g' y hy
    rcases old g' y hy with ⟨-, rfl⟩ | ⟨hp, -⟩
    · exact sized
    · exact h.sized g' y hp
  · intro g' y m hy hm
    rcases old g' y hy with ⟨-, rfl⟩ | ⟨hp, -⟩
    · rw [none] at hm
      cases hm
    · exact h.inside g' y m hp hm
  · intro g' y hy
    rcases old g' y hy with ⟨-, rfl⟩ | ⟨hp, -⟩
    · rw [none]
      exact .nil
    · exact h.apart g' y hp
  · intro g₁ y₁ g₂ y₂ h₁ h₂ ne
    rcases old g₁ y₁ h₁ with ⟨rfl, rfl⟩ | ⟨hp₁, lt₁⟩
    · rcases old g₂ y₂ h₂ with ⟨rfl, -⟩ | ⟨hp₂, lt₂⟩
      · exact absurd rfl ne
      · exact free g₂ lt₂ y₂ hp₂
    · rcases old g₂ y₂ h₂ with ⟨rfl, rfl⟩ | ⟨hp₂, lt₂⟩
      · exact (free g₁ lt₁ y₁ hp₁).symm
      · exact h.guests g₁ y₁ g₂ y₂ hp₁ hp₂ ne

end

end ServiceCache.SharedMemory
