import ServiceCache.SharedMemory.Records

/-!
# The records and the address space
-/

namespace ServiceCache.SharedMemory

open Function

structure Coherent (s : State) : Prop where
  records : Records s.process
  geometry : Geometry s.process
  named : ∀ name o, s.process.files name = some o → o < s.process.nextObject
  opened : ∀ d x, s.process.fd d = some x → x.handle.object < s.process.nextObject
  file_lt : ∀ o, o < s.process.nextObject → (s.process.object o).file < s.kernel.next
  distinct : ∀ o o', o < s.process.nextObject → o' < s.process.nextObject →
    (s.process.object o).file = (s.process.object o').file → o = o'
  backed : ∀ a o offset, s.process.Shows a o offset →
    s.process.space a = .shared (s.process.object o).file offset
  covered : ∀ a f offset, s.process.space a = .shared f offset →
    ∃ o, s.process.Shows a o offset ∧ (s.process.object o).file = f
  no_priv : ∀ a f offset copy dontFork, s.process.space a ≠ .priv f offset copy dontFork

theorem coherent_initial : Coherent {} := by
  have none : ∀ g base m, ¬ ({} : State).process.Maps g base m := by
    rintro g base m ⟨x, hx, -⟩
    cases hx
  constructor
  · constructor
    · intro o id r hr
      cases hr
    · intro o id r hr
      cases hr
    · intro g base m hm
      exact absurd hm (none g base m)
    · intro g base m g' base' m' hm
      exact absurd hm (none g base m)
    · exact List.nodup_nil
  · constructor
    · intro g x hx
      cases hx
    · intro g x hx
      cases hx
    · intro g x m hx
      cases hx
    · intro g x hx
      cases hx
    · intro g x g' x' hx
      cases hx
  · intro name o ho
    cases ho
  · intro d x hx
    cases hx
  · intro o ho
    exact absurd ho (Nat.not_lt_zero o)
  · intro o o' ho
    exact absurd ho (Nat.not_lt_zero o)
  · rintro a o offset ⟨id, r, h, hr, -⟩
    cases hr
  · intro a f offset h
    cases h
  · intro a f offset copy dontFork h
    cases h

variable {s t : State}

theorem Records.shows_known {p : Process} (records : Records p) {a o offset : Nat}
    (h : p.Shows a o offset) : o < p.nextObject := by
  obtain ⟨id, r, h, hr, -⟩ := h
  exact (records.known o id r hr).1

theorem shows_congr {p q : Process}
    (mappings : ∀ o, (q.object o).mappings = (p.object o).mappings) {a o offset : Nat} :
    q.Shows a o offset ↔ p.Shows a o offset := by
  unfold Process.Shows
  rw [mappings]

theorem Coherent.of_files (h : Coherent s) (space : t.process.space = s.process.space)
    (object : t.process.object = s.process.object)
    (nextObject : t.process.nextObject = s.process.nextObject)
    (mapped : t.process.mapped = s.process.mapped) (guest : t.process.guest = s.process.guest)
    (nextGuest : t.process.nextGuest = s.process.nextGuest) (next : t.kernel.next = s.kernel.next)
    (named : ∀ name o, t.process.files name = some o → o < s.process.nextObject)
    (opened : ∀ d x, t.process.fd d = some x → x.handle.object < s.process.nextObject) :
    Coherent t := by
  have maps : ∀ g base m, t.process.Maps g base m ↔ s.process.Maps g base m := by
    intro g base m
    unfold Process.Maps
    rw [guest]
  have shows : ∀ a o offset, t.process.Shows a o offset ↔ s.process.Shows a o offset :=
    fun _ _ _ => shows_congr fun _ => by rw [object]
  constructor
  · exact h.records.congr (fun _ => by rw [object]) (fun _ _ => Nat.le_of_eq (by rw [object])) maps
      (Nat.le_of_eq nextObject.symm) (fun _ ho => mapped ▸ ho) (mapped ▸ h.records.mapped_nodup)
  · constructor <;> rw [guest]
    · rw [nextGuest]
      exact h.geometry.known
    · exact h.geometry.sized
    · exact h.geometry.inside
    · exact h.geometry.apart
    · exact h.geometry.guests
  · rw [nextObject]
    exact named
  · rw [nextObject]
    exact opened
  · rw [nextObject, object, next]
    exact h.file_lt
  · rw [nextObject, object]
    exact h.distinct
  · intro a o offset hs
    rw [space, object]
    exact h.backed a o offset ((shows a o offset).mp hs)
  · intro a f offset hf
    rw [space] at hf
    obtain ⟨o, hs, rfl⟩ := h.covered a f offset hf
    exact ⟨o, (shows a o offset).mpr hs, by rw [object]⟩
  · rw [space]
    exact h.no_priv

structure Agrees (p : Process) : Prop where
  backed : ∀ a o offset, p.Shows a o offset → p.space a = .shared (p.object o).file offset
  covered : ∀ a f offset, p.space a = .shared f offset →
    ∃ o, p.Shows a o offset ∧ (p.object o).file = f
  no_priv : ∀ a f offset copy dontFork, p.space a ≠ .priv f offset copy dontFork

theorem Coherent.agrees (h : Coherent s) : Agrees s.process := ⟨h.backed, h.covered, h.no_priv⟩

theorem Coherent.of_records (h : Coherent s) (records : Records t.process)
    (geometry : Geometry t.process)
    (file : ∀ o, (t.process.object o).file = (s.process.object o).file)
    (nextObject : t.process.nextObject = s.process.nextObject)
    (files : t.process.files = s.process.files) (fd : t.process.fd = s.process.fd)
    (next : t.kernel.next = s.kernel.next) (agrees : Agrees t.process) :
    Coherent t := by
  constructor
  · exact records
  · exact geometry
  · rw [files, nextObject]
    exact h.named
  · rw [fd, nextObject]
    exact h.opened
  · intro o ho
    rw [file, next]
    exact h.file_lt o (nextObject ▸ ho)
  · intro o o' ho ho' same
    rw [file, file] at same
    exact h.distinct o o' (nextObject ▸ ho) (nextObject ▸ ho') same
  · exact agrees.backed
  · exact agrees.covered
  · exact agrees.no_priv

/-! ## The steps on mappings -/

section

variable {g base : Nat} {x : Guest} {m : Mapping}

theorem record_shows (h : Records s.process)
    (fresh : m.id = (s.process.object m.object).nextMapping) {a o offset : Nat} :
    (s.record g m).process.Shows a o offset ↔ s.process.Shows a o offset := by
  unfold Process.Shows
  constructor
  · rintro ⟨id, r, host, hr, hh, rest⟩
    rw [record_mappings fresh] at hr
    split at hr
    · rw [← Option.some.inj hr] at hh
      cases hh
    · exact ⟨id, r, host, hr, hh, rest⟩
  · rintro ⟨id, r, host, hr, rest⟩
    refine ⟨id, r, host, ?_, rest⟩
    rw [record_mappings fresh, if_neg ?_]
    · exact hr
    · rintro ⟨rfl, rfl⟩
      have := (h.known _ _ r hr).2.1
      omega

theorem record_file (o : Nat) :
    ((s.record g m).process.object o).file = (s.process.object o).file := by
  by_cases ho : o = m.object
  · subst ho
    simp [State.record, State.pushMapping]
  · simp [State.record, State.pushMapping, ho]

theorem Coherent.record (h : Coherent s) (hx : s.process.guest g = some x)
    (known : m.object < s.process.nextObject)
    (fresh : m.id = (s.process.object m.object).nextMapping)
    (inside : 0 < m.len ∧ m.address + m.len ≤ x.size) (apart : ∀ m' ∈ x.mappings, m'.Apart m) :
    Coherent (s.record g m) := by
  refine h.of_records (h.records.record hx known fresh) (h.geometry.record hx inside apart)
    record_file rfl rfl rfl rfl ⟨?_, ?_, h.no_priv⟩
  · intro a o offset hs
    rw [record_file]
    exact h.backed a o offset ((record_shows h.records fresh).mp hs)
  · intro a f offset hf
    obtain ⟨o, hs, rfl⟩ := h.covered a f offset hf
    exact ⟨o, (record_shows h.records fresh).mpr hs, record_file o⟩

theorem mapIn_space (a : Nat) :
    (s.mapIn base m).process.space a = if Covers base m a then
      .shared (s.process.object m.object).file (m.fileOffset + (a - (base + m.address)))
      else s.process.space a := rfl

theorem mapIn_shows (records : Records s.process) (geometry : Geometry s.process)
    (hm : s.process.Maps g base m) {a o offset : Nat} :
    (s.mapIn base m).process.Shows a o offset ↔
      (Covers base m a ∧ o = m.object ∧ offset = m.fileOffset + (a - (base + m.address))) ∨
        (¬ Covers base m a ∧ s.process.Shows a o offset) := by
  rw [(records.mapIn hm).shows_iff, records.shows_iff]
  constructor
  · rintro ⟨g', base', m', r, hm', ho, hr, hh, cover, hoffset⟩
    by_cases hc : Covers base m a
    · obtain ⟨rfl, rfl⟩ := geometry.cover_unique hm hm' hc cover
      obtain ⟨y, hy, rfl, -⟩ := hm
      rw [Process.Maps.base_eq hm' hy] at hoffset
      exact .inl ⟨hc, ho.symm, hoffset⟩
    · refine .inr ⟨hc, g', base', m', r, hm', ho, ?_, hh, cover, hoffset⟩
      rw [mapIn_mappings, if_neg ?_] at hr
      · exact hr
      · rintro ⟨ho', hid⟩
        obtain ⟨rfl, rfl⟩ := records.unique _ _ _ _ _ _ hm' hm (ho.trans ho') hid
        obtain ⟨y, hy, rfl, -⟩ := hm
        rw [Process.Maps.base_eq hm' hy] at cover
        exact hc cover
  · rintro (⟨hc, rfl, rfl⟩ | ⟨hc, g', base', m', r, hm', rfl, hr, hh, cover, hoffset⟩)
    · obtain ⟨r, hr, -⟩ := records.matches hm
      refine ⟨g, base, m, { r with hostAddress := some (base + m.address) }, hm, rfl, ?_, rfl, hc, rfl⟩
      rw [mapIn_mappings, if_pos ⟨rfl, rfl⟩, hr]
      rfl
    · refine ⟨g', base', m', r, hm', rfl, ?_, hh, cover, hoffset⟩
      rw [mapIn_mappings, if_neg ?_]
      · exact hr
      · rintro ⟨ho', hid⟩
        obtain ⟨rfl, rfl⟩ := records.unique _ _ _ _ _ _ hm' hm ho' hid
        obtain ⟨y, hy, rfl, -⟩ := hm
        rw [Process.Maps.base_eq hm' hy] at cover
        exact hc cover

theorem Coherent.mapIn (h : Coherent s) (hm : s.process.Maps g base m) :
    Coherent (s.mapIn base m) := by
  have shows := @mapIn_shows s g base m h.records h.geometry hm
  have geometry := h.geometry
  refine h.of_records (h.records.mapIn hm) ⟨geometry.known, geometry.sized, geometry.inside,
    geometry.apart, geometry.guests⟩ (mapIn_file base) rfl rfl rfl rfl ⟨?_, ?_, ?_⟩
  · intro a o offset hs
    rw [mapIn_space, mapIn_file]
    rcases shows.mp hs with ⟨hc, rfl, rfl⟩ | ⟨hc, old⟩
    · exact if_pos hc
    · rw [if_neg hc]
      exact h.backed a o offset old
  · intro a f offset hf
    rw [mapIn_space] at hf
    split at hf
    next hc =>
      obtain ⟨rfl, rfl⟩ := Cell.shared.inj hf
      exact ⟨m.object, shows.mpr (.inl ⟨hc, rfl, rfl⟩), mapIn_file base m.object⟩
    next hc =>
      obtain ⟨o, old, rfl⟩ := h.covered a f offset hf
      exact ⟨o, shows.mpr (.inr ⟨hc, old⟩), mapIn_file base o⟩
  · intro a f offset copy dontFork hf
    rw [mapIn_space] at hf
    split at hf
    · cases hf
    · exact h.no_priv a f offset copy dontFork hf

theorem dropMapping_shows (records : Records s.process) (geometry : Geometry s.process)
    (hx : s.process.guest g = some x) (member : m ∈ x.mappings) {a o offset : Nat} :
    (s.dropMapping g m).process.Shows a o offset ↔
      ¬ Covers x.base m a ∧ s.process.Shows a o offset := by
  have hm : s.process.Maps g x.base m := ⟨x, hx, rfl, member⟩
  rw [(records.dropMapping hx member).shows_iff, records.shows_iff]
  constructor
  · rintro ⟨g', base', m', r, hm', ho, hr, hh, cover, hoffset⟩
    obtain ⟨old, ne⟩ := (dropMapping_maps hx).mp hm'
    rw [dropMapping_mappings] at hr
    split at hr
    · cases hr
    · refine ⟨fun hc => ne ?_, g', base', m', r, old, ho, hr, hh, cover, hoffset⟩
      obtain ⟨rfl, rfl⟩ := geometry.cover_unique old hm cover hc
      exact ⟨rfl, rfl⟩
  · rintro ⟨hc, g', base', m', r, hm', rfl, hr, hh, cover, hoffset⟩
    have ne : ¬ (g' = g ∧ m' = m) := by
      rintro ⟨rfl, rfl⟩
      rw [hm'.base_eq hx] at cover
      exact hc cover
    refine ⟨g', base', m', r, (dropMapping_maps hx).mpr ⟨hm', ne⟩, rfl, ?_, hh, cover, hoffset⟩
    rw [dropMapping_mappings, if_neg ?_]
    · exact hr
    · rintro ⟨ho, hid⟩
      exact ne (records.unique _ _ _ _ _ _ hm' hm ho hid)

theorem dropMapping_file (o : Nat) :
    ((s.dropMapping g m).process.object o).file = (s.process.object o).file := by
  by_cases ho : o = m.object
  · subst ho
    simp [State.dropMapping, State.unregisterMapping]
  · simp [State.dropMapping, State.unregisterMapping, ho]

/-! ## The steps on memories -/

theorem Agrees.overlay {p q : Process} {cell : Nat → Cell} {lo len : Nat} (h : Agrees p)
    (space : q.space = overlay p.space lo len cell)
    (file : ∀ o, (q.object o).file = (p.object o).file)
    (noShared : ∀ i f offset, cell i ≠ .shared f offset)
    (noPriv : ∀ i f offset copy dontFork, cell i ≠ .priv f offset copy dontFork)
    (shows : ∀ a o offset, q.Shows a o offset ↔
      ¬ (lo ≤ a ∧ a < lo + len) ∧ p.Shows a o offset) : Agrees q := by
  constructor
  · intro a o offset hs
    obtain ⟨out, old⟩ := (shows a o offset).mp hs
    rw [file, space, SharedMemory.overlay, if_neg out]
    exact h.backed a o offset old
  · intro a f offset hf
    rw [space, SharedMemory.overlay] at hf
    split at hf
    · exact absurd hf (noShared _ _ _)
    next out =>
      obtain ⟨o, old, rfl⟩ := h.covered a f offset hf
      exact ⟨o, (shows a o offset).mpr ⟨out, old⟩, file o⟩
  · intro a f offset copy dontFork hf
    rw [space, SharedMemory.overlay] at hf
    split at hf
    · exact noPriv _ _ _ _ _ hf
    · exact h.no_priv a f offset copy dontFork hf

theorem Coherent.shows_inside (h : Coherent s) {a o offset : Nat}
    (hs : s.process.Shows a o offset) :
    ∃ g y, s.process.guest g = some y ∧ y.base ≤ a ∧ a < y.base + y.size := by
  obtain ⟨g, base, m, r, hm, -, -, -, cover, -⟩ := h.records.shows_iff.mp hs
  obtain ⟨y, hy, inside⟩ := h.geometry.cover_inside hm cover
  exact ⟨g, y, hy, inside⟩

theorem Coherent.addGuest (h : Coherent s) (none : x.mappings = []) (sized : x.size ≤ x.reserved)
    (free : s.process.Free x.base x.reserved) (cell : Nat → Cell)
    (noShared : ∀ i f offset, cell i ≠ .shared f offset)
    (noPriv : ∀ i f offset copy dontFork, cell i ≠ .priv f offset copy dontFork) :
    Coherent (s.addGuest x cell) := by
  refine h.of_records (h.records.addGuest h.geometry none cell)
    (h.geometry.addGuest none sized free cell) (fun _ => rfl) rfl rfl rfl rfl
    (h.agrees.overlay rfl (fun _ => rfl) noShared noPriv ?_)
  intro a o offset
  constructor
  · intro hs
    obtain ⟨g, y, hy, low, high⟩ := h.shows_inside hs
    have apart := free g (h.geometry.known g y hy) y hy
    have := h.geometry.sized g y hy
    exact ⟨by omega, hs⟩
  · exact fun hs => hs.2

theorem Coherent.grow (h : Coherent s) (hx : s.process.guest g = some x) {size : Nat}
    (le : x.size ≤ size) (fits : size ≤ x.reserved) :
    Coherent ((s.setSpace (overlay s.process.space (x.base + x.size) (size - x.size)
      fun _ => .anon 0)).setGuest g (some { x with size })) := by
  have guest : ∀ g', update s.process.guest g (some { x with size }) g' =
      if g' = g then some { x with size } else s.process.guest g' :=
    fun g' => update_apply _ _ _ _
  have maps : ∀ g' base m, ((s.setSpace (overlay s.process.space (x.base + x.size)
      (size - x.size) fun _ => .anon 0)).setGuest g (some { x with size })).process.Maps g' base m ↔
        s.process.Maps g' base m := by
    intro g' base m
    unfold Process.Maps
    rw [State.setGuest_process_guest]
    change (∃ y, update s.process.guest g _ g' = some y ∧ _) ↔ _
    rw [guest]
    split
    next hg => simp [hg, hx]
    · rfl
  refine h.of_records (h.records.congr (fun _ => rfl) (fun _ _ => Nat.le_refl _) maps
      (Nat.le_refl _) (fun _ ho => ho) h.records.mapped_nodup)
    (h.geometry.setGuest hx guest rfl rfl rfl fits ?_ (h.geometry.apart g x hx))
    (fun _ => rfl) rfl rfl rfl rfl ?_
  · intro m hm
    have := h.geometry.inside g x m hx hm
    exact ⟨this.1, by simp only; omega⟩
  · refine h.agrees.overlay (show _ = overlay s.process.space (x.base + x.size) (size - x.size)
      fun _ => .anon 0 from rfl) (fun _ => rfl) (by simp) (by simp) fun a o offset => ?_
    constructor
    · intro hs
      refine ⟨fun within => ?_, hs⟩
      obtain ⟨g', y, hy, low, high⟩ := h.shows_inside hs
      have sized := h.geometry.sized g' y hy
      have same : g' = g :=
        h.geometry.guest_unique hy hx ⟨low, by omega⟩ ⟨by omega, by omega⟩
      subst same
      rw [hx] at hy
      obtain rfl := Option.some.inj hy
      omega
    · exact fun hs => hs.2

theorem Records.setSpace (h : Records s.process) (space : Nat → Cell) :
    Records (s.setSpace space).process :=
  ⟨h.known, h.owned, h.registered, h.unique, h.mapped_nodup⟩

theorem Geometry.setSpace (h : Geometry s.process) (space : Nat → Cell) :
    Geometry (s.setSpace space).process :=
  ⟨h.known, h.sized, h.inside, h.apart, h.guests⟩

theorem Coherent.unmap (h : Coherent s) (hx : s.process.guest g = some x)
    (member : m ∈ x.mappings) :
    Coherent ((s.setSpace (overlay s.process.space (x.base + m.address) m.len
      fun _ => .anon 0)).dropMapping g m) := by
  have records := h.records.setSpace (overlay s.process.space (x.base + m.address) m.len
    fun _ => .anon 0)
  have geometry := h.geometry.setSpace (overlay s.process.space (x.base + m.address) m.len
    fun _ => .anon 0)
  refine h.of_records (records.dropMapping hx member) (geometry.dropMapping hx)
    dropMapping_file rfl rfl rfl rfl ?_
  refine h.agrees.overlay (show _ = overlay s.process.space (x.base + m.address) m.len
    fun _ => .anon 0 from rfl) dropMapping_file (by simp) (by simp) fun a o offset => ?_
  exact dropMapping_shows records geometry hx member

structure Cleared (s t : State) (g : Nat) (x : Guest) : Prop where
  records : Records t.process
  geometry : Geometry t.process
  guest : ∀ g', t.process.guest g' =
    if g' = g then some { x with mappings := [] } else s.process.guest g'
  nextGuest : t.process.nextGuest = s.process.nextGuest
  shows : ∀ a o offset, t.process.Shows a o offset ↔
    (∀ m ∈ x.mappings, ¬ Covers x.base m a) ∧ s.process.Shows a o offset
  file : ∀ o, (t.process.object o).file = (s.process.object o).file
  nextObject : t.process.nextObject = s.process.nextObject
  files : t.process.files = s.process.files
  fd : t.process.fd = s.process.fd
  kernel : t.kernel = s.kernel

theorem cleared_foldl (records : Records s.process) (geometry : Geometry s.process)
    (hx : s.process.guest g = some x) :
    Cleared s (x.mappings.foldl (fun t m => t.dropMapping g m) s) g x := by
  -- by induction on the list, which is always all that is left of the guest's
  generalize hms : x.mappings = ms
  induction ms generalizing s x with
  | nil =>
    refine ⟨records, geometry, fun g' => ?_, rfl, ?_, fun _ => rfl, rfl, rfl, rfl, rfl⟩
    · split
      next hg => rw [hg, List.foldl_nil, hx, ← hms]
      · rfl
    · intro a o offset
      simp [hms]
  | cons m rest ih =>
    have member : m ∈ x.mappings := by simp [hms]
    have left : x.mappings.filter (· ≠ m) = rest := by
      have apart := geometry.apart g x hx
      rw [hms, List.pairwise_cons] at apart
      rw [hms, List.filter_cons_of_neg (by simp), List.filter_eq_self]
      intro m' hm'
      have len := (geometry.inside g x m hx member).1
      have := apart.1 m' hm'
      unfold Mapping.Apart at this
      simp only [ne_eq, decide_eq_true_eq]
      rintro rfl
      omega
    have hx' : (s.dropMapping g m).process.guest g = some { x with mappings := rest } := by
      rw [dropMapping_guest hx, if_pos rfl, left]
    have tail := ih (records.dropMapping hx member) (geometry.dropMapping hx) hx' rfl
    refine ⟨tail.records, tail.geometry, fun g' => ?_, tail.nextGuest, fun a o offset => ?_,
      fun o => ?_, tail.nextObject, tail.files, tail.fd, tail.kernel⟩
    · rw [List.foldl_cons, tail.guest, dropMapping_guest hx]
      split
      · rfl
      · rfl
    · rw [List.foldl_cons, tail.shows, dropMapping_shows records geometry hx member, hms]
      simp only [List.mem_cons, forall_eq_or_imp]
      tauto
    · rw [List.foldl_cons, tail.file, dropMapping_file]

theorem Geometry.removeGuest {p q : Process} (h : Geometry p)
    (guest : ∀ g', q.guest g' = if g' = g then none else p.guest g')
    (next : q.nextGuest = p.nextGuest) : Geometry q := by
  have old : ∀ g' y, q.guest g' = some y → p.guest g' = some y := by
    intro g' y hy
    rw [guest] at hy
    split at hy
    · cases hy
    · exact hy
  constructor
  · intro g' y hy
    rw [next]
    exact h.known g' y (old g' y hy)
  · intro g' y hy
    exact h.sized g' y (old g' y hy)
  · intro g' y m hy
    exact h.inside g' y m (old g' y hy)
  · intro g' y hy
    exact h.apart g' y (old g' y hy)
  · intro g₁ y₁ g₂ y₂ h₁ h₂
    exact h.guests g₁ y₁ g₂ y₂ (old g₁ y₁ h₁) (old g₂ y₂ h₂)

theorem Coherent.recycle (h : Coherent s) (ht : s.recycle g = some t) : Coherent t := by
  obtain ⟨x, hx, rfl⟩ : ∃ x, s.process.guest g = some x ∧
      ((x.mappings.foldl (fun t m => t.dropMapping g m) s).setSpace
        (overlay s.process.space x.base x.reserved fun _ => .unmapped)).setGuest g none = t := by
    simpa [State.recycle, Option.bind_eq_some_iff] using ht
  have cleared := cleared_foldl h.records h.geometry hx
  set u := x.mappings.foldl (fun t m => t.dropMapping g m) s
  have guest : ∀ g', ((u.setSpace (overlay s.process.space x.base x.reserved
      fun _ => .unmapped)).setGuest g none).process.guest g' =
        if g' = g then none else s.process.guest g' := by
    intro g'
    change update u.process.guest g none g' = _
    rw [update_apply]
    split
    · rfl
    next hg => rw [cleared.guest, if_neg hg]
  have maps : ∀ g' base m, ((u.setSpace (overlay s.process.space x.base x.reserved
      fun _ => .unmapped)).setGuest g none).process.Maps g' base m ↔ u.process.Maps g' base m := by
    intro g' base m
    unfold Process.Maps
    rw [guest, cleared.guest]
    split
    · simp
    · rfl
  refine h.of_records (cleared.records.congr (fun _ => rfl) (fun _ _ => Nat.le_refl _) maps
      (Nat.le_refl _) (fun _ ho => ho) cleared.records.mapped_nodup)
    (h.geometry.removeGuest guest cleared.nextGuest) cleared.file cleared.nextObject cleared.files
    cleared.fd (by change u.kernel.next = _; rw [cleared.kernel]) ?_
  refine h.agrees.overlay (show _ = overlay s.process.space x.base x.reserved
    fun _ => .unmapped from rfl) cleared.file (by simp) (by simp) fun a o offset => ?_
  refine (cleared.shows a o offset).trans (and_congr_left fun hs => ?_)
  constructor
  · intro uncovered within
    obtain ⟨g', base, m, r, hm, -, -, -, cover, -⟩ := h.records.shows_iff.mp hs
    obtain ⟨y, hy, low, high⟩ := h.geometry.cover_inside hm cover
    have sized := h.geometry.sized g' y hy
    obtain rfl := h.geometry.guest_unique hy hx ⟨low, by omega⟩ within
    obtain ⟨z, hz, rfl, member⟩ := hm
    rw [hx] at hz
    obtain rfl := Option.some.inj hz
    exact uncovered m member cover
  · intro out m member cover
    have := h.geometry.inside g x m hx member
    have := h.geometry.sized g x hx
    unfold Covers at cover
    omega

end

end ServiceCache.SharedMemory
