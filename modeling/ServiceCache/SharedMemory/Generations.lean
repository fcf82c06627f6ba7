import ServiceCache.SharedMemory.Replace

/-!
# What the guest sees across generations

A frozen host shows every mapped byte from a private copy, a child of it from a shared copy of
that copy, both of the object as it was.
-/

namespace ServiceCache.SharedMemory

/-- Every registration of some objects has its host address: no guest fork is still
restoring overlays. `freeze` refuses any other host. -/
def Process.Settled (p : Process) : Prop :=
  ∀ o, ∀ r ∈ (p.object o).registered, r.hostAddress ≠ none

def Process.snapshotted (p : Process) (os : List Nat) : List Nat :=
  os.filter fun o => (p.object o).registered ≠ []

def Process.snapshotOf (p : Process) (os : List Nat) : Snapshot :=
  (p.snapshotted os).map fun o => (o, (p.object o).registered)

variable {s t : State} {ops : FileOps} {os : List Nat}

theorem snapshotMappings_eq {o : Nat} (h : ∀ r ∈ (s.process.object o).registered,
    r.hostAddress ≠ none) : s.snapshotMappings o = .ok (s.process.object o).registered := by
  unfold State.snapshotMappings
  refine if_neg ?_
  rw [List.any_eq_true]
  rintro ⟨r, hr, none⟩
  exact h r hr (of_decide_eq_true none)

theorem Replaced.settled {shared : Bool} (h : Replaced s t shared os)
    (settled : s.process.Settled) : t.process.Settled := by
  intro o r hr
  rw [h.registered] at hr
  exact settled o r hr

theorem freezeObjects_skip {o : Nat} (empty : (s.process.object o).registered = []) :
    s.freezeObjects ops (o :: os) = s.freezeObjects ops os := by
  rw [State.freezeObjects, snapshotMappings_eq (by simp [empty])]
  exact if_pos empty

theorem freezeObjects_take {o : Nat} (some : (s.process.object o).registered ≠ [])
    (settled : ∀ r ∈ (s.process.object o).registered, r.hostAddress ≠ none) :
    s.freezeObjects ops (o :: os) =
      ((s.replaced o (s.process.object o).registered false).freezeObjects ops os).map
        fun r => (r.1, (o, (s.process.object o).registered) :: r.2) := by
  rw [State.freezeObjects, snapshotMappings_eq settled]
  refine (if_neg some).trans ?_
  rw [replaceBacking_eq]
  change Except.bind (State.freezeObjects ops _ os) _ = _
  cases State.freezeObjects ops (s.replaced o (s.process.object o).registered false) os <;> rfl

theorem freezeObjects_eq (records : Records s.process) (geometry : Geometry s.process)
    (nodup : os.Nodup) (settled : s.process.Settled) :
    ∃ t, s.freezeObjects ops os = .ok (t, s.process.snapshotOf os) ∧
      Replaced s t false (s.process.snapshotted os) := by
  induction os generalizing s with
  | nil => exact ⟨s, rfl, .refl s false⟩
  | cons o rest ih =>
    rw [List.nodup_cons] at nodup
    by_cases empty : (s.process.object o).registered = []
    · have skip : s.process.snapshotted (o :: rest) = s.process.snapshotted rest := by
        simp [Process.snapshotted, empty]
      rw [freezeObjects_skip empty, Process.snapshotOf, skip]
      exact ih records geometry nodup.2 settled
    · have first := replaced_one false records geometry o
      obtain ⟨t, ht, rest_⟩ := ih (first.records records) (first.geometry geometry) nodup.2
        (first.settled settled)
      set u := s.replaced o (s.process.object o).registered false
      have same : u.process.snapshotted rest = s.process.snapshotted rest := by
        simp only [Process.snapshotted, first.registered]
      have keep : s.process.snapshotted (o :: rest) = [o] ++ s.process.snapshotted rest := by
        simp [Process.snapshotted, empty]
      refine ⟨t, ?_, ?_⟩
      · rw [freezeObjects_take empty (settled o), ht, Process.snapshotOf, Process.snapshotOf,
          same, keep]
        simp only [first.registered]
        rfl
      · rw [same] at rest_
        rw [keep]
        refine first.trans records geometry rest_ fun o' ho' member => ?_
        rw [List.mem_singleton.mp ho'] at member
        exact nodup.1 (List.mem_of_mem_filter member)

theorem settled_of_freezeObjects {r : State × Snapshot} (records : Records s.process)
    (geometry : Geometry s.process) (h : s.freezeObjects ops os = .ok r) :
    ∀ o ∈ os, ∀ m ∈ (s.process.object o).registered, m.hostAddress ≠ none := by
  induction os generalizing s r with
  | nil =>
    intro o ho
    cases ho
  | cons o rest ih =>
    have here : ∀ m ∈ (s.process.object o).registered, m.hostAddress ≠ none := by
      intro m hm none
      rw [State.freezeObjects, State.snapshotMappings, if_pos] at h
      · cases h
      · exact List.any_eq_true.mpr ⟨m, hm, decide_eq_true none⟩
    intro o' ho'
    rcases List.mem_cons.mp ho' with rfl | later
    · exact here
    · by_cases empty : (s.process.object o).registered = []
      · rw [freezeObjects_skip empty] at h
        exact ih records geometry h o' later
      · rw [freezeObjects_take empty here] at h
        have first := replaced_one false records geometry o
        cases hu : (s.replaced o (s.process.object o).registered false).freezeObjects ops rest with
        | error e =>
          rw [hu] at h
          cases h
        | ok r' =>
          have := ih (first.records records) (first.geometry geometry) hu o' later
          rwa [first.registered] at this

/-! ## Freezing -/

def Process.overlaid (p : Process) : List Nat := p.snapshotted p.mapped

theorem Coherent.overlaid_nodup (h : Coherent s) : s.process.overlaid.Nodup :=
  h.records.mapped_nodup.filter _

theorem Coherent.mem_overlaid (h : Coherent s) {o : Nat} :
    o ∈ s.process.overlaid ↔ (s.process.object o).registered ≠ [] := by
  simp only [Process.overlaid, Process.snapshotted, List.mem_filter, decide_eq_true_eq]
  constructor
  · exact fun ho => ho.2
  · intro some
    obtain ⟨r, hr⟩ := List.exists_mem_of_ne_nil _ some
    obtain ⟨id, -, hid⟩ := Object.mem_registered.mp hr
    exact ⟨(h.records.known o id r hid).2.2, some⟩

theorem Coherent.overlaid_of_shows (h : Coherent s) {a o offset : Nat}
    (hs : s.process.Shows a o offset) : o ∈ s.process.overlaid := by
  obtain ⟨r, hr, -⟩ := h.records.shows_iff_registered.mp hs
  exact h.mem_overlaid.mpr (List.ne_nil_of_mem hr)

theorem Coherent.freeze_eq (ops : FileOps) (h : Coherent s) (settled : s.process.Settled) :
    ∃ frozen, s.freeze ops = .ok (frozen, s.process.snapshotOf s.process.mapped) ∧
      Replaced s frozen false s.process.overlaid :=
  freezeObjects_eq h.records h.geometry h.records.mapped_nodup settled

theorem Coherent.settled_of_freeze (h : Coherent s) {r : State × Snapshot}
    (hr : s.freeze ops = .ok r) : s.process.Settled := by
  intro o m hm
  have ho := h.mem_overlaid.mpr (List.ne_nil_of_mem hm)
  exact settled_of_freezeObjects h.records h.geometry hr o (List.mem_of_mem_filter ho) m hm

/-! ## Sharing again -/

theorem reshareAfterFork_eq (records : Records s.process) (geometry : Geometry s.process)
    (nodup : os.Nodup) :
    ∃ t, s.reshareAfterFork ops (os.map fun o => (o, (s.process.object o).registered)) = .ok t ∧
      Replaced s t true os := by
  induction os generalizing s with
  | nil => exact ⟨s, rfl, .refl s true⟩
  | cons o rest ih =>
    rw [List.nodup_cons] at nodup
    have first := replaced_one true records geometry o
    obtain ⟨t, ht, rest_⟩ := ih (first.records records) (first.geometry geometry) nodup.2
    refine ⟨t, ?_, first.trans records geometry rest_ fun o' ho' member => ?_⟩
    · simp only [first.registered] at ht
      rw [List.map_cons, State.reshareAfterFork, replaceBacking_eq]
      exact ht
    · rw [List.mem_singleton.mp ho'] at member
      exact nodup.1 member

theorem Records.forked {p : Process} (h : Records p) : Records p.forked :=
  ⟨h.known, h.owned, h.registered, h.unique, h.mapped_nodup⟩

theorem Geometry.forked {p : Process} (h : Geometry p) : Geometry p.forked :=
  ⟨h.known, h.sized, h.inside, h.apart, h.guests⟩

structure SameView (s t : State) : Prop where
  mappings : ∀ o, (t.process.object o).mappings = (s.process.object o).mappings
  nextObject : t.process.nextObject = s.process.nextObject
  guest : t.process.guest = s.process.guest
  content : ∀ o, o < s.process.nextObject → t.content o = s.content o

theorem SameView.refl (s : State) : SameView s s :=
  ⟨fun _ => rfl, rfl, rfl, fun _ _ => rfl⟩

theorem SameView.trans {u : State} (h : SameView s t) (h' : SameView t u) : SameView s u where
  mappings o := (h'.mappings o).trans (h.mappings o)
  nextObject := h'.nextObject.trans h.nextObject
  guest := h'.guest.trans h.guest
  content o ho := (h'.content o (h.nextObject ▸ ho)).trans (h.content o ho)

structure FrozenOn (s f : State) (k : Kernel) : Prop where
  replaced : Replaced s f false s.process.overlaid
  next_le : f.kernel.next ≤ k.next
  kernel : ∀ i, i < f.kernel.next → k.file i = f.kernel.file i

variable {f : State} {k : Kernel}

theorem Replaced.file_lt {shared : Bool} (replaced : Replaced s f shared os) (h : Coherent s)
    {o : Nat} (ho : o < s.process.nextObject) : (f.process.object o).file < f.kernel.next := by
  by_cases member : o ∈ os
  · exact (replaced.file_new o member).2
  · rw [replaced.file_kept o member]
    exact Nat.lt_of_lt_of_le (h.file_lt o ho) replaced.next_le

theorem FrozenOn.forked_space (h : Coherent s) (frozen : FrozenOn s f k) (a : Nat) :
    (∀ i offset, f.process.forked.space a ≠ .shared i offset) ∧
      ∀ i offset copy dontFork, f.process.forked.space a ≠ .priv i offset copy dontFork := by
  by_cases shown : ∃ o offset, s.process.Shows a o offset
  · obtain ⟨o, offset, hs⟩ := shown
    have cell := frozen.replaced.shown o (h.overlaid_of_shows hs) a offset hs
    simp [cell, backing]
  · have hidden : ∀ o offset, ¬ s.process.Shows a o offset :=
      fun o offset hs => shown ⟨o, offset, hs⟩
    have cell := frozen.replaced.hidden a fun o _ => hidden o
    cases hc : s.process.space a with
    | unmapped => simp [cell, hc]
    | anon b => simp [cell, hc]
    | shared i offset =>
      obtain ⟨o, hs, -⟩ := h.covered a i offset hc
      exact absurd hs (hidden o offset)
    | priv i offset copy dontFork => exact absurd hc (h.no_priv a i offset copy dontFork)

theorem FrozenOn.sameView (h : Coherent s) (frozen : FrozenOn s f k) :
    SameView s ⟨k, f.process.forked⟩ where
  mappings := frozen.replaced.mappings
  nextObject := frozen.replaced.nextObject
  guest := frozen.replaced.guest
  content o ho := by
    rw [← frozen.replaced.content o (h.file_lt o ho)]
    exact frozen.kernel _ (frozen.replaced.file_lt h ho)

theorem FrozenOn.coherent_clone (h : Coherent s) (frozen : FrozenOn s f k)
    (reshared : Replaced ⟨k, f.process.forked⟩ t true s.process.overlaid) : Coherent t := by
  have nextObject : t.process.nextObject = s.process.nextObject :=
    reshared.nextObject.trans frozen.replaced.nextObject
  have shows : ∀ {a o offset}, t.process.Shows a o offset ↔ s.process.Shows a o offset :=
    reshared.shows.trans frozen.replaced.shows
  have kept : ∀ o, o ∉ s.process.overlaid →
      (t.process.object o).file = (s.process.object o).file := fun o ho =>
    (reshared.file_kept o ho).trans (frozen.replaced.file_kept o ho)
  have le : s.kernel.next ≤ k.next := Nat.le_trans frozen.replaced.next_le frozen.next_le
  constructor
  · exact reshared.records (frozen.replaced.records h.records).forked
  · exact reshared.geometry (frozen.replaced.geometry h.geometry).forked
  · intro name o ho
    rw [reshared.files] at ho
    rw [nextObject]
    exact h.named name o (frozen.replaced.files ▸ ho)
  · intro d x hx
    rw [reshared.fd] at hx
    rw [nextObject]
    exact h.opened d x (frozen.replaced.fd ▸ hx)
  · intro o ho
    by_cases member : o ∈ s.process.overlaid
    · exact (reshared.file_new o member).2
    · rw [kept o member]
      have := h.file_lt o (nextObject ▸ ho)
      exact Nat.lt_of_lt_of_le this (Nat.le_trans le reshared.next_le)
  · intro o o' ho ho' same
    by_cases member : o ∈ s.process.overlaid
    · by_cases member' : o' ∈ s.process.overlaid
      · exact reshared.file_apart o member o' member' same
      · have new : k.next ≤ _ := (reshared.file_new o member).1
        have old := h.file_lt o' (nextObject ▸ ho')
        rw [kept o' member'] at same
        omega
    · by_cases member' : o' ∈ s.process.overlaid
      · have new : k.next ≤ _ := (reshared.file_new o' member').1
        have old := h.file_lt o (nextObject ▸ ho)
        rw [kept o member] at same
        omega
      · rw [kept o member, kept o' member'] at same
        exact h.distinct o o' (nextObject ▸ ho) (nextObject ▸ ho') same
  · intro a o offset hs
    have old := shows.mp hs
    exact reshared.shown o (h.overlaid_of_shows old) a offset (frozen.replaced.shows.mpr old)
  · intro a i offset hi
    by_cases shown : ∃ o offset, s.process.Shows a o offset
    · obtain ⟨o, offset', hs⟩ := shown
      have cell := reshared.shown o (h.overlaid_of_shows hs) a offset'
        (frozen.replaced.shows.mpr hs)
      rw [hi] at cell
      obtain ⟨rfl, rfl⟩ := Cell.shared.inj cell
      exact ⟨o, shows.mpr hs, rfl⟩
    · rw [reshared.hidden a fun o _ offset' hs =>
        shown ⟨o, offset', frozen.replaced.shows.mp hs⟩] at hi
      exact absurd hi ((frozen.forked_space h a).1 i offset)
  · intro a i offset copy dontFork hi
    by_cases shown : ∃ o offset, s.process.Shows a o offset
    · obtain ⟨o, offset', hs⟩ := shown
      rw [reshared.shown o (h.overlaid_of_shows hs) a offset' (frozen.replaced.shows.mpr hs)] at hi
      cases hi
    · rw [reshared.hidden a fun o _ offset' hs =>
        shown ⟨o, offset', frozen.replaced.shows.mp hs⟩] at hi
      exact (frozen.forked_space h a).2 i offset copy dontFork hi

theorem FrozenOn.reshare (ops : FileOps) (h : Coherent s) (frozen : FrozenOn s f k) :
    ∃ t, State.reshareAfterFork ops ⟨k, f.process.forked⟩ (s.process.snapshotOf s.process.mapped) =
      .ok t ∧ Replaced ⟨k, f.process.forked⟩ t true s.process.overlaid := by
  have snapshot : s.process.snapshotOf s.process.mapped =
      s.process.overlaid.map fun o => (o, (f.process.forked.object o).registered) := by
    simp only [Process.forked_object, frozen.replaced.registered]
    rfl
  rw [snapshot]
  exact reshareAfterFork_eq (s := ⟨k, f.process.forked⟩)
    (frozen.replaced.records h.records).forked (frozen.replaced.geometry h.geometry).forked
    h.overlaid_nodup

theorem Coherent.generation_eq (ops : FileOps) (h : Coherent s) (settled : s.process.Settled) :
    ∃ t, s.generation ops = .ok t ∧ Coherent t ∧ t.process.Settled ∧ SameView s t := by
  obtain ⟨f, hf, replaced⟩ := h.freeze_eq ops settled
  have frozen : FrozenOn s f f.kernel := ⟨replaced, Nat.le_refl _, fun _ _ => rfl⟩
  obtain ⟨t, ht, reshared⟩ := frozen.reshare ops h
  refine ⟨t, ?_, frozen.coherent_clone h reshared, ?_, ?_⟩
  · rw [State.generation, hf]
    exact ht
  · intro o r hr
    rw [reshared.registered] at hr
    exact replaced.settled settled o r hr
  · have view := frozen.sameView h
    refine view.trans ⟨reshared.mappings, reshared.nextObject, reshared.guest, fun o ho => ?_⟩
    have lt := replaced.file_lt h (o := o) (replaced.nextObject ▸ ho)
    exact reshared.content o lt

theorem Coherent.generation_view (h : Coherent s) (ht : s.generation ops = .ok t) :
    Coherent t ∧ SameView s t := by
  have settled : s.process.Settled := by
    unfold State.generation at ht
    cases hf : s.freeze ops with
    | error e =>
      rw [hf] at ht
      cases ht
    | ok r => exact h.settled_of_freeze hf
  obtain ⟨t', ht', coherent, -, view⟩ := h.generation_eq ops settled
  rw [ht] at ht'
  obtain rfl := Except.ok.inj ht'
  exact ⟨coherent, view⟩

theorem hostNext_generation (h : hostNext ops s .generation = some t) :
    s.generation ops = .ok t := by
  change (s.generation ops).toOption = some t at h
  cases hg : s.generation ops with
  | error e =>
    rw [hg] at h
    cases h
  | ok u =>
    rw [hg] at h
    exact congrArg Except.ok (Option.some.inj h)

theorem coherent_reachable (h : (host ops).Reachable s) : Coherent s := by
  refine Transition.System.ReachableBy.invariant (P := Coherent) ?_ ?_ h
  · rintro s rfl
    exact coherent_initial
  · rintro s (op | _) t - coherent - ht
    · exact coherent.apply ht
    · exact (coherent.generation_view (hostNext_generation ht)).1

/-! ## Bytes and aliases -/

def Process.Mapped (p : Process) (a : Nat) : Prop := ∃ o offset, p.Shows a o offset

/-- A store to `a` is seen at `b`. -/
def State.Alias (s : State) (a b : Nat) : Prop :=
  ∀ v, load (s.store a v).kernel (s.store a v).process b = v

theorem Coherent.load_shown (h : Coherent s) {a o offset : Nat}
    (hs : s.process.Shows a o offset) :
    load s.kernel s.process a = (s.content o).byte offset := by
  rw [load, h.backed a o offset hs]
  rfl

theorem Coherent.store_shown (h : Coherent s) {a o offset : Nat}
    (hs : s.process.Shows a o offset) (v : UInt8) :
    s.store a v = s.setFile (s.process.object o).file ((s.content o).poke offset v) := by
  rw [State.store, h.backed a o offset hs]
  rfl

theorem Coherent.alias_iff (h : Coherent s) {a b o offset o' offset' : Nat}
    (ha : s.process.Shows a o offset) (hb : s.process.Shows b o' offset') :
    s.Alias a b ↔ o = o' ∧ offset = offset' ∧ offset < (s.content o).len := by
  have stored : ∀ v, load (s.store a v).kernel (s.store a v).process b =
      if (s.process.object o').file = (s.process.object o).file then
        ((s.content o).poke offset v).byte offset' else (s.content o').byte offset' := by
    intro v
    rw [h.store_shown ha, (h.setFile _ _).load_shown hb]
    unfold State.content
    simp only [State.setFile_kernel_file, State.setFile_process, Function.update_apply]
    split <;> rfl
  constructor
  · intro same
    -- a value that is not there yet tells the two bytes apart
    obtain ⟨v, hv⟩ : ∃ v : UInt8, v ≠ (s.content o').byte offset' :=
      ⟨(s.content o').byte offset' + 1, by simp⟩
    have seen := same v
    rw [stored] at seen
    split at seen
    next file =>
      obtain rfl := h.distinct o o' (h.records.shows_known ha) (h.records.shows_known hb) file.symm
      rw [Memfd.poke_byte] at seen
      split at seen
      next hit => exact ⟨rfl, hit.1.symm, hit.2⟩
      · exact absurd seen.symm hv
    · exact absurd seen.symm hv
  · rintro ⟨rfl, rfl, lt⟩ v
    rw [stored, if_pos rfl, Memfd.poke_byte, if_pos ⟨rfl, lt⟩]

theorem SameView.shows (view : SameView s t) {a o offset : Nat} :
    t.process.Shows a o offset ↔ s.process.Shows a o offset := shows_congr view.mappings

theorem SameView.mapped_iff (view : SameView s t) {a : Nat} :
    t.process.Mapped a ↔ s.process.Mapped a := by
  unfold Process.Mapped
  simp only [view.shows]

theorem SameView.load_eq (view : SameView s t) (h : Coherent s) (h' : Coherent t) {a : Nat}
    (ha : s.process.Mapped a) : load t.kernel t.process a = load s.kernel s.process a := by
  obtain ⟨o, offset, hs⟩ := ha
  rw [h'.load_shown (view.shows.mpr hs), h.load_shown hs,
    view.content o (h.records.shows_known hs)]

theorem SameView.alias_iff (view : SameView s t) (h : Coherent s) (h' : Coherent t) {a b : Nat}
    (ha : s.process.Mapped a) (hb : s.process.Mapped b) : t.Alias a b ↔ s.Alias a b := by
  obtain ⟨o, offset, hs⟩ := ha
  obtain ⟨o', offset', hs'⟩ := hb
  rw [h'.alias_iff (view.shows.mpr hs) (view.shows.mpr hs'), h.alias_iff hs hs',
    view.content o (h.records.shows_known hs)]

theorem Coherent.generations_eq (ops : FileOps) (h : Coherent s) (settled : s.process.Settled) (n : Nat) :
    ∃ t, s.generations ops n = .ok t ∧ Coherent t ∧ t.process.Settled ∧ SameView s t := by
  induction n generalizing s with
  | zero => exact ⟨s, rfl, h, settled, .refl s⟩
  | succ n ih =>
    obtain ⟨t, ht, coherent, settled', view⟩ := h.generation_eq ops settled
    obtain ⟨u, hu, coherent', settled'', view'⟩ := ih coherent settled'
    refine ⟨u, ?_, coherent', settled'', view.trans view'⟩
    rw [State.generations, ht]
    exact hu

theorem FrozenOn.load_eq (h : Coherent s) (frozen : FrozenOn s f k) {a : Nat}
    (ha : s.process.Mapped a) : load k f.process a = load s.kernel s.process a := by
  obtain ⟨o, offset, hs⟩ := ha
  have cell := frozen.replaced.shown o (h.overlaid_of_shows hs) a offset hs
  have known := h.records.shows_known hs
  rw [h.load_shown hs, ← frozen.replaced.content o (h.file_lt o known), load, cell]
  exact congrArg (Memfd.byte · offset) (frozen.kernel _ (frozen.replaced.file_lt h known))

/-- Any number of generations, from any host that has run anything, keep every byte at
every mapped address and the addresses that are one object byte. So does the frozen
parent, before and after a child shares its memory again. -/
theorem generations_keep_view (ops : FileOps) {s : State} (h : (host ops).Reachable s)
    (settled : s.process.Settled) (n : Nat) :
    ∃ t, s.generations ops n = .ok t ∧ t.process.guest = s.process.guest ∧
      (∀ a, t.process.Mapped a ↔ s.process.Mapped a) ∧
      (∀ a, s.process.Mapped a → load t.kernel t.process a = load s.kernel s.process a) ∧
      (∀ a b, s.process.Mapped a → s.process.Mapped b → (t.Alias a b ↔ s.Alias a b)) ∧
      ∃ frozen snapshot child, t.freeze ops = .ok (frozen, snapshot) ∧
        State.reshareAfterFork ops ⟨frozen.kernel, frozen.process.forked⟩ snapshot = .ok child ∧
        ∀ a, s.process.Mapped a →
          load frozen.kernel frozen.process a = load s.kernel s.process a ∧
          load child.kernel frozen.process a = load s.kernel s.process a := by
  have coherent := coherent_reachable h
  obtain ⟨t, ht, coherent', settled', view⟩ := coherent.generations_eq ops settled n
  obtain ⟨f, hf, replaced⟩ := coherent'.freeze_eq ops settled'
  have frozen : FrozenOn t f f.kernel := ⟨replaced, Nat.le_refl _, fun _ _ => rfl⟩
  obtain ⟨child, hchild, reshared⟩ := frozen.reshare ops coherent'
  have later : FrozenOn t f child.kernel := ⟨replaced, reshared.next_le, reshared.kernel⟩
  refine ⟨t, ht, view.guest, fun _ => view.mapped_iff, fun _ ha => view.load_eq coherent coherent' ha,
    fun _ _ ha hb => view.alias_iff coherent coherent' ha hb, f, _, child, hf, hchild,
    fun a ha => ?_⟩
  have mapped := view.mapped_iff.mpr ha
  rw [← view.load_eq coherent coherent' ha]
  exact ⟨frozen.load_eq coherent' mapped, later.load_eq coherent' mapped⟩

def denseOps : FileOps where
  seekData f offset := if offset < f.len then .found offset else .enxio
  seekHole f _ := .found f.len
  readAt _ _ n := n
  writeAt _ _ n := n
  skipped := @dense_skipped
  noData := @dense_noData
  reads _ pos := pos
  read_le _ _ _ := Nat.le_refl _
  writes _ _ _ pos := pos
  write_le _ _ _ := Nat.le_refl _

def twiceMappedRun : List HostEvent :=
  [.op (.spawn 65536 131072 131072), .op (.open ⟨0, "buffers"⟩ ⟨true, true, true, false, false, false⟩),
    .op (.setLen 0 65536), .op (.fdMap 0 0 0 65536 0), .op (.fdMap 0 0 65536 65536 0),
    .op (.store 0 3 7)]

theorem Coherent.settled_of_lt (h : Coherent s)
    (below : ∀ o < s.process.nextObject, ∀ r ∈ (s.process.object o).registered,
      r.hostAddress ≠ none) : s.process.Settled := by
  intro o r hr
  obtain ⟨id, -, hid⟩ := Object.mem_registered.mp hr
  exact below o (h.records.known o id r hid).1 r hr

theorem generations_keep_view_twice :
    ∃ s, (host denseOps).Reachable s ∧ s.process.Mapped 131075 ∧
      ∃ t, s.generations denseOps 2 = .ok t ∧ load t.kernel t.process 131075 = 7 := by
  obtain ⟨s, reach, below, record, seven⟩ :
      ∃ s, (host denseOps).Reachable s ∧
        (∀ o < s.process.nextObject, ∀ r ∈ (s.process.object o).registered,
          r.hostAddress ≠ none) ∧
        (s.process.object 0).mappings 2 = some ⟨0, 65536, some 131072⟩ ∧
        load s.kernel s.process 131075 = 7 :=
    Transition.System.exists_reachable_of_run (s := {}) (.init rfl)
      (show ((host denseOps).run {} twiceMappedRun).any _ = true by decide +kernel)
  have mapped : s.process.Mapped 131075 := ⟨0, 3, 2, _, 131072, record, rfl, by decide, by decide, rfl⟩
  have settled := (coherent_reachable reach).settled_of_lt below
  obtain ⟨t, ht, -, -, loads, -⟩ := generations_keep_view denseOps reach settled 2
  exact ⟨s, reach, mapped, t, ht, (loads 131075 mapped).trans seven⟩

end ServiceCache.SharedMemory
