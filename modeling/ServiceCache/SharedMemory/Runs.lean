import ServiceCache.SharedMemory.Coherence

/-!
# Every operation keeps a host coherent
-/

namespace ServiceCache.SharedMemory

open Function

variable {s t : State}

/-! ## Mappings -/

theorem registerMapping_eq {o fileOffset len id : Nat}
    (h : s.registerMapping o fileOffset len = .ok (t, id)) :
    0 < len ∧ fileOffset + len ≤ (s.content o).len ∧ t = s.register o fileOffset len ∧
      id = (s.process.object o).nextMapping := by
  unfold State.registerMapping at h
  split at h
  · cases h
  · split at h
    · cases h
    next fits =>
      obtain ⟨rfl, rfl⟩ := Prod.mk.inj (Except.ok.inj h)
      exact ⟨by omega, by omega, rfl, rfl⟩

theorem Coherent.register_unregister (h : Coherent s) {o fileOffset len : Nat} :
    Coherent ((s.register o fileOffset len).unregisterMapping o
      (s.process.object o).nextMapping) := by
  set u := (s.register o fileOffset len).unregisterMapping o (s.process.object o).nextMapping
    with hu
  have none : (s.process.object o).mappings (s.process.object o).nextMapping = none := by
    rw [Option.eq_none_iff_forall_ne_some]
    intro r hr
    have := (h.records.known _ _ r hr).2.1
    omega
  have object : ∀ o', (u.process.object o').mappings = (s.process.object o').mappings ∧
      (s.process.object o').nextMapping ≤ (u.process.object o').nextMapping ∧
      (u.process.object o').file = (s.process.object o').file := by
    intro o'
    by_cases ho : o' = o
    · subst ho
      refine ⟨?_, ?_, ?_⟩
      · funext id
        by_cases hid : id = (s.process.object o').nextMapping
        · subst hid
          simp [hu, State.unregisterMapping, none]
        · simp [hu, State.unregisterMapping, hid]
      · simp [hu, State.unregisterMapping]
      · simp [hu, State.unregisterMapping]
    · simp [hu, State.unregisterMapping, ho]
  have mapped : u.process.mapped =
      if o ∈ s.process.mapped then s.process.mapped else s.process.mapped ++ [o] := rfl
  refine h.of_records (h.records.congr (fun o => (object o).1) (fun o _ => (object o).2.1)
      (fun _ _ _ => Iff.rfl) (Nat.le_refl _) ?_ ?_)
    ⟨h.geometry.known, h.geometry.sized, h.geometry.inside, h.geometry.apart, h.geometry.guests⟩
    (fun o => (object o).2.2) rfl rfl rfl rfl ⟨?_, ?_, h.no_priv⟩
  · intro o' ho'
    rw [mapped]
    split
    · exact ho'
    · exact List.mem_append_left _ ho'
  · rw [mapped]
    split
    · exact h.records.mapped_nodup
    next out => exact nodup_append_singleton h.records.mapped_nodup out
  · intro a o' offset hs
    rw [(object o').2.2]
    exact h.backed a o' offset ((shows_congr fun o => (object o).1).mp hs)
  · intro a f offset hf
    obtain ⟨o', hs, rfl⟩ := h.covered a f offset hf
    exact ⟨o', (shows_congr fun o => (object o).1).mpr hs, (object o').2.2⟩

theorem Coherent.fdMap (h : Coherent s) (g d address len fileOffset : Nat) :
    Coherent (s.fdMap g d address len fileOffset).1 := by
  unfold State.fdMap
  split
  · exact h
  split
  · exact h
  split
  · exact h
  next x hx =>
  split
  · exact h
  next o ho =>
  split
  · exact h
  next apart =>
  split
  · exact h
  next u id hu =>
  obtain ⟨pos, -, rfl, rfl⟩ := registerMapping_eq hu
  have known : o < s.process.nextObject := by
    unfold Process.sharedMemoryObject at ho
    split at ho
    · cases ho
    next fd hfd =>
      split at ho
      · exact Except.ok.inj ho ▸ h.opened d fd hfd
      · cases ho
  split
  · exact h.register_unregister
  next inside =>
    have disjoint : ∀ m' ∈ x.mappings,
        m'.Apart ⟨o, (s.process.object o).nextMapping, address, len, fileOffset⟩ := by
      intro m' hm'
      simp only [List.any_eq_true, not_exists, not_and, decide_eq_true_eq] at apart
      have := apart m' hm'
      unfold Mapping.Apart
      simp only
      omega
    exact (h.record (m := ⟨o, (s.process.object o).nextMapping, address, len, fileOffset⟩) hx
      known rfl ⟨pos, by simp only; omega⟩ disjoint).mapIn
        ((record_maps hx).mpr (.inr ⟨rfl, rfl, rfl⟩))

theorem Coherent.fdUnmap (h : Coherent s) (g address len : Nat) :
    Coherent (s.fdUnmap g address len).1 := by
  unfold State.fdUnmap
  split
  · exact h
  split
  · exact h
  next x hx =>
  split
  · exact h
  next m hm =>
  split
  · exact h
  have found := List.find?_some hm
  simp only [decide_eq_true_eq] at found
  obtain ⟨rfl, rfl⟩ := found
  exact h.unmap hx (List.mem_of_find?_eq_some hm)

theorem Coherent.forkClones {child : Nat} {ms : List Mapping} {y : Guest} (h : Coherent s)
    (hy : s.process.guest child = some y) (known : ∀ m ∈ ms, m.object < s.process.nextObject)
    (inside : ∀ m ∈ ms, m.address + m.len ≤ y.size) (apart : ms.Pairwise Mapping.Apart)
    (room : ∀ m ∈ ms, ∀ m' ∈ y.mappings, m'.Apart m) (ht : s.forkClones child ms = some t) :
    Coherent t := by
  induction ms generalizing s y with
  | nil => exact Option.some.inj ht ▸ h
  | cons m rest ih =>
    unfold State.forkClones at ht
    split at ht
    · cases ht
    next u id hu =>
      obtain ⟨pos, -, rfl, rfl⟩ := registerMapping_eq hu
      rw [List.pairwise_cons] at apart
      set m' : Mapping := { m with id := (s.process.object m.object).nextMapping }
      have step : Coherent (s.record child m') :=
        h.record hy (known m (by simp)) rfl ⟨pos, inside m (by simp)⟩
          (room m (by simp))
      refine ih step (y := { y with mappings := y.mappings ++ [m'] }) ?_
        (fun k hk => known k (by simp [hk])) (fun k hk => inside k (by simp [hk])) apart.2 ?_ ht
      · rw [record_guest hy, if_pos rfl]
      · intro k hk k' hk'
        rcases List.mem_append.mp hk' with old | new
        · exact room k (by simp [hk]) k' old
        · rw [List.mem_singleton.mp new]
          exact apart.1 k hk

theorem Coherent.procFork (h : Coherent s) {g base : Nat} (ht : s.procFork g base = some t) :
    Coherent t := by
  unfold State.procFork at ht
  obtain ⟨x, hx, ht⟩ := Option.bind_eq_some_iff.mp ht
  obtain ⟨free, ht⟩ := Transition.guarded ht
  have added := h.addGuest (x := { x with base, mappings := [] }) rfl
    (h.geometry.sized g x hx) free (fun i => .anon (load s.kernel s.process (x.base + i)))
    (by simp) (by simp)
  refine added.forkClones (y := { x with base, mappings := [] })
    (by rw [addGuest_guest, if_pos rfl]) ?_ ?_ (h.geometry.apart g x hx) (by simp) ht
  · intro m hm
    obtain ⟨r, hr⟩ := h.records.registered g x.base m ⟨x, hx, rfl, hm⟩
    exact (h.records.known _ _ r hr).1
  · intro m hm
    exact (h.geometry.inside g x m hx hm).2

/-! ## Files -/

theorem Coherent.setFile (h : Coherent s) (f : Nat) (m : Memfd) : Coherent (s.setFile f m) :=
  h.of_files rfl rfl rfl rfl rfl rfl rfl h.named h.opened

theorem Coherent.setFd (h : Coherent s) (d : Nat) {x : Option Fd}
    (known : ∀ fd, x = some fd → fd.handle.object < s.process.nextObject) : Coherent (s.setFd d x) := by
  refine h.of_files rfl rfl rfl rfl rfl rfl rfl h.named ?_
  intro d' fd hfd
  rw [State.setFd_process_fd, update_apply] at hfd
  split at hfd
  · exact known fd hfd
  · exact h.opened d' fd hfd

theorem Coherent.unname (h : Coherent s) (name : Name) :
    Coherent { s with process.files := update s.process.files name none } := by
  refine h.of_files rfl rfl rfl rfl rfl rfl rfl ?_ h.opened
  intro name' o ho
  simp only [update_apply] at ho
  split at ho
  · cases ho
  · exact h.named name' o ho

theorem setLen_eq {o n : Nat} (ht : s.setLen o n = .ok t) :
    t = s.setFile (s.process.object o).file ((s.content o).setLen n) := by
  unfold State.setLen at ht
  split at ht
  · cases ht
  · exact (Except.ok.inj ht).symm

theorem Coherent.newObject (h : Coherent s) (name : Name) : Coherent (s.newObject name) := by
  have object : ∀ o, (s.newObject name).process.object o =
      if o = s.process.nextObject then { file := s.kernel.next } else s.process.object o :=
    fun o => update_apply _ _ _ _
  have old : ∀ o, o < s.process.nextObject →
      (s.newObject name).process.object o = s.process.object o := by
    intro o ho
    rw [object, if_neg (by omega)]
  have nextObject : (s.newObject name).process.nextObject = s.process.nextObject + 1 := rfl
  have mappings : ∀ o, ((s.newObject name).process.object o).mappings =
      (s.process.object o).mappings := by
    intro o
    rw [object]
    split
    next ho =>
      funext id
      symm
      rw [Option.eq_none_iff_forall_ne_some]
      intro r hr
      have := (h.records.known _ _ r hr).1
      omega
    · rfl
  have shows : ∀ a o offset, (s.newObject name).process.Shows a o offset ↔
      s.process.Shows a o offset := fun _ _ _ => shows_congr mappings
  constructor
  · exact h.records.congr mappings (fun o ho => Nat.le_of_eq (by rw [old o ho]))
      (fun _ _ _ => Iff.rfl) (by omega) (fun _ ho => ho) h.records.mapped_nodup
  · exact ⟨h.geometry.known, h.geometry.sized, h.geometry.inside, h.geometry.apart,
      h.geometry.guests⟩
  · intro name' o ho
    change update s.process.files name _ name' = some o at ho
    rw [nextObject]
    rw [update_apply] at ho
    split at ho
    · have := Option.some.inj ho
      omega
    · have := h.named name' o ho
      omega
  · intro d x hx
    have := h.opened d x hx
    omega
  · intro o ho
    change _ < s.kernel.next + 1
    rw [object]
    split
    · exact Nat.lt_succ_self _
    · have := h.file_lt o (by omega)
      omega
  · intro o o' ho ho' same
    rw [object, object] at same
    split at same
    · split at same
      · omega
      · have := h.file_lt o' (by omega)
        simp only at same
        omega
    · split at same
      · have := h.file_lt o (by omega)
        simp only at same
        omega
      · exact h.distinct o o' (by omega) (by omega) same
  · intro a o offset hs
    rw [old o (h.records.shows_known ((shows a o offset).mp hs))]
    exact h.backed a o offset ((shows a o offset).mp hs)
  · intro a f offset hf
    obtain ⟨o, hs, rfl⟩ := h.covered a f offset hf
    exact ⟨o, (shows a o offset).mpr hs, by rw [old o (h.records.shows_known hs)]⟩
  · exact h.no_priv

theorem Coherent.addFd (h : Coherent s) (name : Name) (conf : OpenOptions) {o : Nat}
    (known : o < s.process.nextObject) : Coherent (s.addFd name conf o) := by
  have added := h.setFd s.process.nextFd (x := some ⟨s.handleFor name conf o,
    conf.read && conf.write, by simp [State.handleFor]⟩) (by rintro _ ⟨rfl⟩; exact known)
  exact added.of_files rfl rfl rfl rfl rfl rfl rfl added.named added.opened

theorem Coherent.openObject (h : Coherent s) (name : Name) (conf : OpenOptions) {o : Nat}
    (known : o < s.process.nextObject) : Coherent (s.openObject name conf o).1 := by
  unfold State.openObject
  split
  · split
    · split
      · exact h
      next u hu =>
        obtain rfl := setLen_eq hu
        exact (h.setFile _ _).addFd name conf known
    · exact h
  · exact h.addFd name conf known

theorem Coherent.open (h : Coherent s) (name : Name) (conf : OpenOptions) :
    Coherent (s.open name conf).1 := by
  unfold State.open
  split
  · exact h
  split
  next o ho =>
    split
    · exact h
    · exact h.openObject name conf (h.named name o ho)
  · split
    · exact h
    · exact (h.newObject name).openObject name conf (Nat.lt_succ_self _)

theorem Coherent.withCursor (h : Coherent s) {d : Nat} {x : Fd} (hx : s.process.fd d = some x)
    (cursor : Nat) : Coherent (s.setFd d (some (x.withCursor cursor))) :=
  h.setFd d (by rintro _ ⟨rfl⟩; exact h.opened d x hx)

theorem Coherent.store (h : Coherent s) (a : Nat) (b : UInt8) : Coherent (s.store a b) := by
  unfold State.store
  split
  · exact h
  next b' hb =>
    refine h.of_records (h.records.setSpace _) (h.geometry.setSpace _) (fun _ => rfl) rfl rfl rfl
      rfl ⟨?_, ?_, ?_⟩
    · intro a' o offset hs
      have shared := h.backed a' o offset hs
      rw [State.setSpace_process_space, update_of_ne]
      · exact shared
      · rintro rfl
        rw [hb] at shared
        cases shared
    · intro a' f offset hf
      rw [State.setSpace_process_space, update_apply] at hf
      split at hf
      · cases hf
      · exact h.covered a' f offset hf
    · intro a' f offset copy dontFork hf
      rw [State.setSpace_process_space, update_apply] at hf
      split at hf
      · cases hf
      · exact h.no_priv a' f offset copy dontFork hf
  · exact h.setFile _ _
  next f offset copy dontFork hf => exact absurd hf (h.no_priv a f offset copy dontFork)

/-! ## Operations -/

inductive OpMove (s : State) : State → Prop
  | same : OpMove s s
  | opens (name : Name) (conf : OpenOptions) : OpMove s (s.open name conf).1
  | closes (d : Nat) : OpMove s (s.close d)
  | unnames (name : Name) :
      OpMove s { s with process.files := update s.process.files name none }
  | seeks {d : Nat} {x : Fd} (is : s.process.fd d = some x) (cursor : Nat) :
      OpMove s (s.setFd d (some (x.withCursor cursor)))
  | writes {d : Nat} {x : Fd} (is : s.process.fd d = some x) (writable : x.handle.writable = true)
      (m : Memfd) (cursor : Nat) :
      OpMove s ((s.setFile (s.process.object x.handle.object).file m).setFd d
        (some (x.withCursor cursor)))
  | maps (g d address len fileOffset : Nat) : OpMove s (s.fdMap g d address len fileOffset).1
  | unmaps (g address len : Nat) : OpMove s (s.fdUnmap g address len).1
  | stores (a : Nat) (b : UInt8) : OpMove s (s.store a b)
  | spawns {base size reserved : Nat} (sized : size ≤ reserved)
      (free : s.process.Free base reserved) :
      OpMove s (s.addGuest { base, size, reserved } fun _ => .anon 0)
  | grows {g size : Nat} {x : Guest} (is : s.process.guest g = some x) (le : x.size ≤ size)
      (fits : size ≤ x.reserved) :
      OpMove s ((s.setSpace (overlay s.process.space (x.base + x.size) (size - x.size)
        fun _ => .anon 0)).setGuest g (some { x with size }))
  | forks {t : State} {g base : Nat} (is : s.procFork g base = some t) : OpMove s t
  | restores {g : Nat} {x : Guest} {m : Mapping} (is : s.process.guest g = some x)
      (listed : m ∈ x.mappings) : OpMove s (s.mapIn x.base m)
  | recycles {t : State} {g : Nat} (is : s.recycle g = some t) : OpMove s t

theorem apply_move {op : Op} (ht : op.apply s = some t) : OpMove s t := by
  cases op with
  | «open» name conf => exact Option.some.inj ht ▸ .opens name conf
  | close d => exact Option.some.inj ht ▸ .closes d
  | removeFile name =>
    obtain rfl := Option.some.inj ht
    unfold State.removeFile
    split
    · exact .same
    · exact .unnames name
  | unlink d =>
    obtain ⟨x, hx, rfl⟩ := Option.map_eq_some_iff.mp ht
    unfold State.unlink
    split
    · exact .unnames x.handle.name
    · exact .same
  | read d n =>
    obtain ⟨x, hx, rfl⟩ := Option.map_eq_some_iff.mp ht
    unfold State.read
    split
    · exact .seeks hx _
    · exact .same
  | write d bs =>
    obtain ⟨x, hx, rfl⟩ := Option.map_eq_some_iff.mp ht
    unfold State.write
    split
    next writable => exact .writes hx writable _ _
    · exact .same
  | seek d position =>
    obtain ⟨x, hx, rfl⟩ := Option.map_eq_some_iff.mp ht
    unfold State.seek
    simp only
    split
    · exact .seeks hx _
    · exact .same
  | setLen d n =>
    obtain ⟨x, hx, rfl⟩ := Option.map_eq_some_iff.mp ht
    unfold State.truncate
    split
    next writable =>
      split
      · exact .same
      next u hu =>
        rw [setLen_eq hu]
        exact .writes hx writable _ _
    · exact .same
  | fdMap g d address len fileOffset => exact Option.some.inj ht ▸ .maps g d address len fileOffset
  | fdUnmap g address len => exact Option.some.inj ht ▸ .unmaps g address len
  | store g address b =>
    obtain ⟨x, hx, ht⟩ := Option.bind_eq_some_iff.mp ht
    obtain ⟨-, ⟨⟩⟩ := Transition.guarded ht
    exact .stores _ b
  | spawn base size reserved =>
    obtain ⟨fits, ⟨⟩⟩ := Transition.guarded ht
    exact .spawns fits.1 fits.2
  | grow g size =>
    obtain ⟨x, hx, ht⟩ := Option.bind_eq_some_iff.mp ht
    obtain ⟨fits, ⟨⟩⟩ := Transition.guarded ht
    exact .grows hx fits.1 fits.2
  | procFork g base => exact .forks ht
  | restore g i =>
    obtain ⟨x, hx, ht⟩ := Option.bind_eq_some_iff.mp ht
    obtain ⟨m, hm, ht⟩ := Option.bind_eq_some_iff.mp ht
    exact Option.some.inj ht ▸ .restores hx (List.mem_of_getElem? hm)
  | recycle g => exact .recycles ht

theorem Coherent.apply (h : Coherent s) {op : Op} (ht : op.apply s = some t) : Coherent t := by
  cases apply_move ht with
  | same => exact h
  | opens name conf => exact h.open name conf
  | closes d => exact h.setFd d (by simp)
  | unnames name => exact h.unname name
  | seeks is cursor => exact h.withCursor is cursor
  | writes is _ m cursor => exact (h.setFile _ m).withCursor is cursor
  | maps g d address len fileOffset => exact h.fdMap g d address len fileOffset
  | unmaps g address len => exact h.fdUnmap g address len
  | stores a b => exact h.store a b
  | spawns sized free => exact h.addGuest rfl sized free _ (by simp) (by simp)
  | grows is le fits => exact h.grow is le fits
  | forks is => exact h.procFork is
  | restores is listed => exact h.mapIn ⟨_, is, rfl, listed⟩
  | recycles is => exact h.recycle is

end ServiceCache.SharedMemory
