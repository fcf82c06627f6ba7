import ServiceCache.SharedMemory.Generations

/-!
# Clones and the memory they share

`freeze` and `reshare_after_fork` give each process of a tree its own files for the objects that
have an overlay when the host is frozen, and leave all others shared.
-/

namespace ServiceCache.SharedMemory

open Function

/-- An object the process can still change through a file: it has a name or a writable
descriptor. -/
def Process.Writable (p : Process) (o : Nat) : Prop :=
  (∃ name, p.files name = some o) ∨
    ∃ d x, p.fd d = some x ∧ x.handle.writable = true ∧ x.handle.object = o

def Process.Listed (p : Process) (o : Nat) : Prop :=
  ∃ g x m, p.guest g = some x ∧ m ∈ x.mappings ∧ m.object = o

def Process.Live (p : Process) (o : Nat) : Prop :=
  (∃ name, p.files name = some o) ∨ (∃ d x, p.fd d = some x ∧ x.handle.object = o) ∨ p.Listed o

def State.applyAll (s : State) (seq : List Op) : Option State :=
  seq.foldlM Op.apply s

/-- Whatever one process of the tree does, no other one sees an object of its own change,
through a descriptor or in its memory. -/
def Tree.Isolated (tree : Tree) : Prop :=
  ∀ (i j : Nat) (p q : Process), i ≠ j → tree.processes[i]? = some p → tree.processes[j]? = some q →
    ∀ seq s, State.applyAll ⟨tree.kernel, p⟩ seq = some s →
      (∀ o, q.Live o → s.kernel.file (q.object o).file = tree.kernel.file (q.object o).file) ∧
        ∀ a, load s.kernel q a = load tree.kernel q a

structure Confined (T : Nat → Prop) (s : State) : Prop where
  below : ∀ f, T f → f < s.kernel.next
  writable : ∀ o, s.process.Writable o → ¬ T (s.process.object o).file
  listed : ∀ o, s.process.Listed o → ¬ T (s.process.object o).file
  space : ∀ a f offset, s.process.space a = .shared f offset → ¬ T f

structure Kept (T : Nat → Prop) (s t : State) : Prop where
  confined : Confined T t
  files : ∀ f, T f → t.kernel.file f = s.kernel.file f

variable {T : Nat → Prop} {s t u : State}

theorem Confined.refl (h : Confined T s) : Kept T s s := ⟨h, fun _ _ => rfl⟩

theorem Kept.trans (h : Kept T s t) (h' : Kept T t u) : Kept T s u :=
  ⟨h'.confined, fun f hf => (h'.files f hf).trans (h.files f hf)⟩

theorem Confined.of_sub (h : Confined T s) (next : s.kernel.next ≤ t.kernel.next)
    (file : ∀ o, (t.process.object o).file = (s.process.object o).file)
    (writable : ∀ o, t.process.Writable o → s.process.Writable o)
    (listed : ∀ o, t.process.Listed o → s.process.Listed o ∨ ¬ T (s.process.object o).file)
    (space : ∀ a f offset, t.process.space a = .shared f offset → ¬ T f) : Confined T t where
  below f hf := Nat.lt_of_lt_of_le (h.below f hf) next
  writable o ho := by
    rw [file]
    exact h.writable o (writable o ho)
  listed o ho := by
    rw [file]
    rcases listed o ho with old | new
    · exact h.listed o old
    · exact new
  space := space

theorem Confined.setFile (h : Confined T s) {f : Nat} (out : ¬ T f) (m : Memfd) :
    Kept T s (s.setFile f m) where
  confined := ⟨h.below, h.writable, h.listed, h.space⟩
  files f' hf' := by
    refine update_of_ne ?_ _ _
    rintro rfl
    exact out hf'

theorem Confined.setFd (h : Confined T s) (d : Nat) {x : Option Fd}
    (writable : ∀ fd, x = some fd → fd.handle.writable = true →
      s.process.Writable fd.handle.object) : Kept T s (s.setFd d x) where
  confined := by
    refine h.of_sub (Nat.le_refl _) (fun _ => rfl) ?_ (fun _ ho => .inl ho) h.space
    rintro o (⟨name, hn⟩ | ⟨d', fd, hfd, hw, rfl⟩)
    · exact .inl ⟨name, hn⟩
    · rw [State.setFd_process_fd, update_apply] at hfd
      split at hfd
      · exact writable fd hfd hw
      · exact .inr ⟨d', fd, hfd, hw, rfl⟩
  files _ _ := rfl

theorem Confined.withCursor (h : Confined T s) {d : Nat} {x : Fd} (hx : s.process.fd d = some x)
    (cursor : Nat) : Kept T s (s.setFd d (some (x.withCursor cursor))) :=
  h.setFd d (by rintro _ ⟨rfl⟩ hw; exact .inr ⟨d, x, hx, hw, rfl⟩)

theorem Confined.unname (h : Confined T s) (name : Name) :
    Kept T s { s with process.files := update s.process.files name none } where
  confined := by
    refine h.of_sub (Nat.le_refl _) (fun _ => rfl) ?_ (fun _ ho => .inl ho) h.space
    rintro o (⟨name', hn⟩ | opened)
    · simp only [update_apply] at hn
      split at hn
      · cases hn
      · exact .inl ⟨name', hn⟩
    · exact .inr opened
  files _ _ := rfl

theorem Confined.newObject (h : Confined T s) (name : Name) : Kept T s (s.newObject name) where
  confined := by
    have object : ∀ o, (s.newObject name).process.object o =
        if o = s.process.nextObject then { file := s.kernel.next } else s.process.object o :=
      fun o => update_apply _ _ _ _
    have fresh : ¬ T s.kernel.next := fun hT => Nat.lt_irrefl _ (h.below _ hT)
    -- an object reached before keeps its file, unless it is the new one
    have file : ∀ o, ¬ T (s.process.object o).file →
        ¬ T ((s.newObject name).process.object o).file := by
      intro o ho
      rw [object]
      split
      · exact fresh
      · exact ho
    constructor
    · intro f hf
      exact Nat.lt_succ_of_lt (h.below f hf)
    · rintro o (⟨name', hn⟩ | opened)
      · change update s.process.files name _ name' = some o at hn
        rw [update_apply] at hn
        split at hn
        · rw [object, if_pos (Option.some.inj hn).symm]
          exact fresh
        · exact file o (h.writable o (.inl ⟨name', hn⟩))
      · exact file o (h.writable o (.inr opened))
    · exact fun o ho => file o (h.listed o ho)
    · exact h.space
  files f hf := by
    refine update_of_ne ?_ _ _
    have := h.below f hf
    omega

theorem Confined.setLen (h : Confined T s) {o n : Nat} (ho : s.process.Writable o)
    (ht : s.setLen o n = .ok t) : Kept T s t := by
  rw [setLen_eq ht]
  exact h.setFile (h.writable o ho) _

theorem Confined.addFd (h : Confined T s) (name : Name) (conf : OpenOptions) {o : Nat}
    (ho : s.process.Writable o) : Kept T s (s.addFd name conf o) := by
  have added := h.setFd s.process.nextFd (x := some ⟨s.handleFor name conf o,
    conf.read && conf.write, by simp [State.handleFor]⟩) (by rintro _ ⟨rfl⟩ _; exact ho)
  exact ⟨⟨added.confined.below, added.confined.writable, added.confined.listed,
    added.confined.space⟩, added.files⟩

theorem Confined.openObject (h : Confined T s) (name : Name) (conf : OpenOptions) {o : Nat}
    (ho : s.process.Writable o) : Kept T s (s.openObject name conf o).1 := by
  unfold State.openObject
  split
  · split
    · split
      · exact h.refl
      next u hu =>
        have kept := h.setLen ho hu
        obtain rfl := setLen_eq hu
        exact kept.trans (kept.confined.addFd name conf ho)
    · exact h.refl
  · exact h.addFd name conf ho

theorem Confined.open (h : Confined T s) (name : Name) (conf : OpenOptions) :
    Kept T s (s.open name conf).1 := by
  unfold State.open
  split
  · exact h.refl
  split
  next o ho =>
    split
    · exact h.refl
    · exact h.openObject name conf (.inl ⟨name, ho⟩)
  · split
    · exact h.refl
    · have new := h.newObject name
      refine new.trans (new.confined.openObject name conf (.inl ⟨name, ?_⟩))
      exact update_self _ _ _

/-! ## Mappings -/

theorem Confined.record (h : Confined T s) (g : Nat) {m : Mapping}
    (ho : ¬ T (s.process.object m.object).file) :
    Kept T s (s.record g m) where
  confined := by
    refine h.of_sub (Nat.le_refl _) record_file (fun _ ho => ho) ?_ h.space
    rintro o ⟨g', x, m', hx, hm, rfl⟩
    change update s.process.guest g _ g' = some x at hx
    rw [update_apply] at hx
    split at hx
    · obtain ⟨y, hy, rfl⟩ := Option.map_eq_some_iff.mp hx
      rcases List.mem_append.mp hm with old | new
      · exact .inl ⟨g, y, m', hy, old, rfl⟩
      · rw [List.mem_singleton.mp new]
        exact .inr ho
    · exact .inl ⟨g', x, m', hx, hm, rfl⟩
  files _ _ := rfl

theorem Confined.mapIn (h : Confined T s) (base : Nat) {m : Mapping}
    (ho : ¬ T (s.process.object m.object).file) : Kept T s (s.mapIn base m) where
  confined := by
    refine h.of_sub (Nat.le_refl _) (mapIn_file base) (fun _ ho => ho) (fun _ ho => .inl ho) ?_
    intro a f offset hf
    rw [mapIn_space] at hf
    split at hf
    · rw [← (Cell.shared.inj hf).1]
      exact ho
    · exact h.space a f offset hf
  files _ _ := rfl

theorem Confined.mapOver (h : Confined T s) {lo len : Nat} {cell : Nat → Cell}
    (kernel : t.kernel = s.kernel) (space : t.process.space = overlay s.process.space lo len cell)
    (noShared : ∀ i f offset, cell i ≠ .shared f offset)
    (file : ∀ o, (t.process.object o).file = (s.process.object o).file)
    (files : t.process.files = s.process.files) (fd : t.process.fd = s.process.fd)
    (listed : ∀ o, t.process.Listed o → s.process.Listed o) : Kept T s t where
  confined := by
    refine h.of_sub (Nat.le_of_eq (by rw [kernel])) file ?_ (fun o ho => .inl (listed o ho)) ?_
    · intro o
      unfold Process.Writable
      rw [files, fd]
      exact id
    · intro a f offset hf
      rw [space, SharedMemory.overlay] at hf
      split at hf
      · exact absurd hf (noShared _ f offset)
      · exact h.space a f offset hf
  files f _ := by rw [kernel]

theorem Confined.fdMap (h : Confined T s) (g d address len fileOffset : Nat) :
    Kept T s (s.fdMap g d address len fileOffset).1 := by
  unfold State.fdMap
  split
  · exact h.refl
  split
  · exact h.refl
  split
  · exact h.refl
  next x hx =>
  split
  · exact h.refl
  next o ho =>
  split
  · exact h.refl
  split
  · exact h.refl
  next u id hu =>
  obtain ⟨-, -, rfl, rfl⟩ := registerMapping_eq hu
  have writable : s.process.Writable o := by
    unfold Process.sharedMemoryObject at ho
    split at ho
    · cases ho
    next fd hfd =>
      split at ho
      next rights =>
        exact .inr ⟨d, fd, hfd, fd.writable_of_rights rights, Except.ok.inj ho⟩
      · cases ho
  split
  · -- the registration is dropped at once
    refine ⟨h.of_sub (Nat.le_refl _) ?_ (fun _ ho => ho) (fun _ ho => .inl ho) h.space,
      fun _ _ => rfl⟩
    intro o'
    by_cases same : o' = o
    · subst same
      simp [State.unregisterMapping]
    · simp [State.unregisterMapping, same]
  · have recorded := h.record g (m := ⟨o, (s.process.object o).nextMapping, address, len, fileOffset⟩)
      (h.writable o writable)
    refine recorded.trans (recorded.confined.mapIn x.base ?_)
    rw [record_file]
    exact h.writable o writable

theorem listed_dropMapping {g o : Nat} {m : Mapping}
    (ho : (s.dropMapping g m).process.Listed o) : s.process.Listed o := by
  obtain ⟨g', x, m', hx, hm, rfl⟩ := ho
  change update s.process.guest g _ g' = some x at hx
  rw [update_apply] at hx
  split at hx
  · obtain ⟨y, hy, rfl⟩ := Option.map_eq_some_iff.mp hx
    exact ⟨g, y, m', hy, List.mem_of_mem_filter hm, rfl⟩
  · exact ⟨g', x, m', hx, hm, rfl⟩

theorem Confined.fdUnmap (h : Confined T s) (g address len : Nat) :
    Kept T s (s.fdUnmap g address len).1 := by
  unfold State.fdUnmap
  split
  · exact h.refl
  split
  · exact h.refl
  next x hx =>
  split
  · exact h.refl
  next m hm =>
  split
  · exact h.refl
  refine h.mapOver rfl (show _ = overlay s.process.space (x.base + address) len
    fun _ => .anon 0 from rfl) (by simp) dropMapping_file rfl rfl fun o ho => ?_
  exact listed_dropMapping (s := s.setSpace _) ho

theorem Confined.addGuest (h : Confined T s) {x : Guest} (none : x.mappings = [])
    (cell : Nat → Cell) (noShared : ∀ i f offset, cell i ≠ .shared f offset) :
    Kept T s (s.addGuest x cell) := by
  refine h.mapOver rfl (show _ = overlay s.process.space x.base x.size cell from rfl) noShared
    (fun _ => rfl) rfl rfl ?_
  rintro o ⟨g, y, m, hy, hm, rfl⟩
  rw [addGuest_guest] at hy
  split at hy
  · rw [← Option.some.inj hy, none] at hm
    cases hm
  · exact ⟨g, y, m, hy, hm, rfl⟩

theorem Confined.forkClones {child : Nat} {ms : List Mapping} (h : Confined T s)
    (out : ∀ m ∈ ms, ¬ T (s.process.object m.object).file)
    (ht : s.forkClones child ms = some t) : Kept T s t := by
  induction ms generalizing s with
  | nil => exact Option.some.inj ht ▸ h.refl
  | cons m rest ih =>
    unfold State.forkClones at ht
    split at ht
    · cases ht
    next u id hu =>
      obtain ⟨-, -, rfl, rfl⟩ := registerMapping_eq hu
      have first := h.record child
        (m := { m with id := (s.process.object m.object).nextMapping })
        (out m List.mem_cons_self)
      refine first.trans (ih first.confined (fun m' hm' => ?_) ht)
      exact (record_file _).symm ▸ out m' (List.mem_cons_of_mem _ hm')

theorem Confined.procFork (h : Confined T s) {g base : Nat} (ht : s.procFork g base = some t) :
    Kept T s t := by
  unfold State.procFork at ht
  obtain ⟨x, hx, ht⟩ := Option.bind_eq_some_iff.mp ht
  split at ht
  · have added := h.addGuest (x := { x with base, mappings := [] }) rfl
      (fun i => .anon (load s.kernel s.process (x.base + i))) (by simp)
    exact added.trans (added.confined.forkClones
      (fun m hm => h.listed m.object ⟨g, x, m, hx, hm, rfl⟩) ht)
  · cases ht

theorem Confined.recycle (h : Confined T s) {g : Nat} (ht : s.recycle g = some t) :
    Kept T s t := by
  obtain ⟨x, hx, rfl⟩ : ∃ x, s.process.guest g = some x ∧
      ((x.mappings.foldl (fun t m => t.dropMapping g m) s).setSpace
        (overlay s.process.space x.base x.reserved fun _ => .unmapped)).setGuest g none = t := by
    simpa [State.recycle, Option.bind_eq_some_iff] using ht
  -- dropping mappings, one after another, touches neither files nor names nor descriptors
  have dropped : ∀ (ms : List Mapping) (s : State),
      (∀ o, ((ms.foldl (fun t m => t.dropMapping g m) s).process.object o).file =
        (s.process.object o).file) ∧
      (ms.foldl (fun t m => t.dropMapping g m) s).kernel = s.kernel ∧
      (ms.foldl (fun t m => t.dropMapping g m) s).process.files = s.process.files ∧
      (ms.foldl (fun t m => t.dropMapping g m) s).process.fd = s.process.fd ∧
      ∀ o, (ms.foldl (fun t m => t.dropMapping g m) s).process.Listed o → s.process.Listed o := by
    intro ms
    induction ms with
    | nil => exact fun s => ⟨fun _ => rfl, rfl, rfl, rfl, fun _ ho => ho⟩
    | cons m rest ih =>
      intro s
      obtain ⟨file, kernel, files, fd, listed⟩ := ih (s.dropMapping g m)
      exact ⟨fun o => (file o).trans (dropMapping_file o), kernel, files, fd,
        fun o ho => listed_dropMapping (listed o ho)⟩
  obtain ⟨file, kernel, files, fd, listed⟩ := dropped x.mappings s
  refine h.mapOver kernel (show _ = overlay s.process.space x.base x.reserved
    fun _ => .unmapped from rfl) (by simp) file files fd fun o ho => listed o ?_
  obtain ⟨g', y, m, hy, hm, rfl⟩ := ho
  rw [State.setGuest_process_guest, update_apply] at hy
  split at hy
  · cases hy
  · exact ⟨g', y, m, hy, hm, rfl⟩

theorem Confined.store (h : Confined T s) (a : Nat) (b : UInt8) : Kept T s (s.store a b) := by
  -- a store to private or anonymous memory changes no file and shares no more of one
  have private_ : ∀ space, (∀ a f offset, space a = .shared f offset →
      s.process.space a = .shared f offset) → Kept T s (s.setSpace space) := by
    intro space sub
    exact ⟨h.of_sub (Nat.le_refl _) (fun _ => rfl) (fun _ ho => ho) (fun _ ho => .inl ho)
      fun a f offset hf => h.space a f offset (sub a f offset hf), fun _ _ => rfl⟩
  unfold State.store
  split
  · exact h.refl
  · refine private_ _ fun a' f offset hf => ?_
    rw [update_apply] at hf
    split at hf
    · cases hf
    · exact hf
  next f offset hf => exact h.setFile (h.space a f offset hf) _
  · refine private_ _ fun a' f offset hf => ?_
    rw [update_apply] at hf
    split at hf
    · cases hf
    · unfold copyPage at hf
      split at hf
      · split at hf
        · cases hf
        · cases hf
      · exact hf

theorem Confined.grow (h : Confined T s) {g size : Nat} {x : Guest}
    (hx : s.process.guest g = some x) :
    Kept T s ((s.setSpace (overlay s.process.space (x.base + x.size) (size - x.size)
      fun _ => .anon 0)).setGuest g (some { x with size })) := by
  refine h.mapOver rfl (show _ = overlay s.process.space (x.base + x.size) (size - x.size)
    fun _ => .anon 0 from rfl) (by simp) (fun _ => rfl) rfl rfl ?_
  rintro o ⟨g', y, m, hy, hm, rfl⟩
  change update s.process.guest g _ g' = some y at hy
  rw [update_apply] at hy
  split at hy
  · obtain rfl := Option.some.inj hy
    exact ⟨g, x, m, hx, hm, rfl⟩
  · exact ⟨g', y, m, hy, hm, rfl⟩

theorem Confined.apply (h : Confined T s) {op : Op} (ht : op.apply s = some t) : Kept T s t := by
  cases apply_move ht with
  | same => exact h.refl
  | opens name conf => exact h.open name conf
  | closes d => exact h.setFd d (by simp)
  | unnames name => exact h.unname name
  | seeks is cursor => exact h.withCursor is cursor
  | writes is writable m cursor =>
    have written := h.setFile (h.writable _ (.inr ⟨_, _, is, writable, rfl⟩)) m
    exact written.trans (written.confined.withCursor is cursor)
  | maps g d address len fileOffset => exact h.fdMap g d address len fileOffset
  | unmaps g address len => exact h.fdUnmap g address len
  | stores a b => exact h.store a b
  | spawns => exact h.addGuest rfl _ (by simp)
  | grows is => exact h.grow is
  | forks is => exact h.procFork is
  | restores is listed => exact h.mapIn _ (h.listed _ ⟨_, _, _, is, listed, rfl⟩)
  | recycles is => exact h.recycle is

theorem Confined.applyAll (h : Confined T s) {seq : List Op} (ht : s.applyAll seq = some t) :
    Kept T s t := by
  induction seq generalizing s with
  | nil => exact Option.some.inj ht ▸ h.refl
  | cons op rest ih =>
    rw [State.applyAll, List.foldlM_cons] at ht
    obtain ⟨u, hu, ht⟩ := Option.bind_eq_some_iff.mp ht
    have first := h.apply hu
    exact first.trans (ih first.confined ht)

end ServiceCache.SharedMemory
