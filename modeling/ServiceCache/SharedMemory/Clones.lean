import ServiceCache.SharedMemory.Isolation

/-!
# When the clones of a host share no memory
-/

namespace ServiceCache.SharedMemory

/-- A process of the tree of `s`: the objects that had an overlay are backed by files from
its own range `[lo, hi)`, the others by the files they had. -/
structure Owns (s : State) (p : Process) (lo hi : Nat) : Prop where
  le : s.kernel.next ≤ lo
  overlaid : ∀ o ∈ s.process.overlaid, lo ≤ (p.object o).file ∧ (p.object o).file < hi
  others : ∀ o, o ∉ s.process.overlaid → (p.object o).file = (s.process.object o).file
  shared : ∀ a f offset, p.space a = .shared f offset → lo ≤ f ∧ f < hi
  priv : ∀ a f offset copy dontFork, p.space a = .priv f offset copy dontFork → lo ≤ f ∧ f < hi
  registered : ∀ o, (p.object o).registered = (s.process.object o).registered
  files : p.files = s.process.files
  fd : p.fd = s.process.fd
  guest : p.guest = s.process.guest

variable {s f t : State} {k : Kernel} {p q : Process} {lo hi lo' hi' : Nat}

def Seen (s : State) (lo hi : Nat) (i : Nat) : Prop :=
  (∃ o, o < s.process.nextObject ∧ o ∉ s.process.overlaid ∧ i = (s.process.object o).file) ∨
    (lo ≤ i ∧ i < hi)

theorem Coherent.live_lt (h : Coherent s) {o : Nat} (live : s.process.Live o) :
    o < s.process.nextObject := by
  rcases live with ⟨name, hn⟩ | ⟨d, x, hx, rfl⟩ | ⟨g, x, m, hx, hm, rfl⟩
  · exact h.named name o hn
  · exact h.opened d x hx
  · obtain ⟨r, hr⟩ := h.records.registered g x.base m ⟨x, hx, rfl, hm⟩
    exact (h.records.known _ _ r hr).1

theorem Coherent.overlaid_of_listed (h : Coherent s) {o : Nat} (listed : s.process.Listed o) :
    o ∈ s.process.overlaid := by
  obtain ⟨g, x, m, hx, hm, rfl⟩ := listed
  obtain ⟨r, hr⟩ := h.records.registered g x.base m ⟨x, hx, rfl, hm⟩
  refine h.mem_overlaid.mpr (List.ne_nil_of_mem (a := r) ?_)
  exact Object.mem_registered.mpr ⟨m.id, (h.records.known _ _ r hr).2.1, hr⟩

theorem Owns.confined (h : Coherent s) (owns : Owns s p lo hi) (le : s.kernel.next ≤ k.next)
    (hi_le : hi' ≤ k.next) (apart : hi ≤ lo' ∨ hi' ≤ lo)
    (overlaid : ∀ o, s.process.Writable o → o ∈ s.process.overlaid) :
    Confined (Seen s lo' hi') ⟨k, p⟩ := by
  -- a file of the own range is neither an old one nor one of the other range
  have out : ∀ i, lo ≤ i → i < hi → ¬ Seen s lo' hi' i := by
    rintro i low high (⟨o, ho, -, rfl⟩ | ⟨low', high'⟩)
    · have := h.file_lt o ho
      have := owns.le
      omega
    · omega
  have own : ∀ o ∈ s.process.overlaid, ¬ Seen s lo' hi' (p.object o).file := fun o ho =>
    out _ (owns.overlaid o ho).1 (owns.overlaid o ho).2
  constructor
  · rintro i (⟨o, ho, -, rfl⟩ | ⟨low, high⟩)
    · exact Nat.lt_of_lt_of_le (h.file_lt o ho) le
    · exact Nat.lt_of_lt_of_le high hi_le
  · intro o ho
    refine own o (overlaid o ?_)
    unfold Process.Writable at ho ⊢
    rwa [← owns.files, ← owns.fd]
  · intro o ho
    refine own o (h.overlaid_of_listed ?_)
    unfold Process.Listed at ho ⊢
    rwa [← owns.guest]
  · intro a i offset hi
    exact out i (owns.shared a i offset hi).1 (owns.shared a i offset hi).2

theorem Owns.seen_object (h : Coherent s) (owns : Owns s q lo hi) {o : Nat} (live : q.Live o) :
    Seen s lo hi (q.object o).file := by
  have old : s.process.Live o := by
    unfold Process.Live Process.Listed at live ⊢
    rwa [← owns.files, ← owns.fd, ← owns.guest]
  by_cases member : o ∈ s.process.overlaid
  · exact .inr (owns.overlaid o member)
  · exact .inl ⟨o, h.live_lt old, member, owns.others o member⟩

theorem Owns.load_eq (owns : Owns s q lo hi) {k k' : Kernel}
    (same : ∀ i, Seen s lo hi i → k'.file i = k.file i) (a : Nat) : load k' q a = load k q a := by
  unfold load
  split
  · rfl
  · rfl
  next i offset hc => rw [same i (.inr (owns.shared a i offset hc))]
  next i offset dontFork hc => rw [same i (.inr (owns.priv a i offset none dontFork hc))]
  · rfl

theorem Owns.of_frozen (h : Coherent s) (frozen : FrozenOn s f k) :
    Owns s f.process s.kernel.next f.kernel.next where
  le := Nat.le_refl _
  overlaid := frozen.replaced.file_new
  others := frozen.replaced.file_kept
  shared a i offset hc := by
    by_cases shown : ∃ o offset, s.process.Shows a o offset
    · obtain ⟨o, offset', hs⟩ := shown
      rw [frozen.replaced.shown o (h.overlaid_of_shows hs) a offset' hs] at hc
      cases hc
    · rw [frozen.replaced.hidden a fun o _ offset' hs => shown ⟨o, offset', hs⟩] at hc
      obtain ⟨o, hs, -⟩ := h.covered a i offset hc
      exact absurd ⟨o, offset, hs⟩ shown
  priv a i offset copy dontFork hc := by
    by_cases shown : ∃ o offset, s.process.Shows a o offset
    · obtain ⟨o, offset', hs⟩ := shown
      have member := h.overlaid_of_shows hs
      rw [frozen.replaced.shown o member a offset' hs] at hc
      rw [← (Cell.priv.inj hc).1]
      exact frozen.replaced.file_new o member
    · rw [frozen.replaced.hidden a fun o _ offset' hs => shown ⟨o, offset', hs⟩] at hc
      exact absurd hc (h.no_priv a i offset copy dontFork)
  registered := frozen.replaced.registered
  files := frozen.replaced.files
  fd := frozen.replaced.fd
  guest := frozen.replaced.guest

theorem Owns.of_clone (h : Coherent s) (frozen : FrozenOn s f k)
    (reshared : Replaced ⟨k, f.process.forked⟩ t true s.process.overlaid) :
    Owns s t.process k.next t.kernel.next where
  le := Nat.le_trans frozen.replaced.next_le frozen.next_le
  overlaid := reshared.file_new
  others o ho := (reshared.file_kept o ho).trans (frozen.replaced.file_kept o ho)
  shared a i offset hc := by
    obtain ⟨o, hs, rfl⟩ := (frozen.coherent_clone h reshared).covered a i offset hc
    have old := frozen.replaced.shows.mp (reshared.shows.mp hs)
    exact reshared.file_new o (h.overlaid_of_shows old)
  priv a i offset copy dontFork hc :=
    absurd hc ((frozen.coherent_clone h reshared).no_priv a i offset copy dontFork)
  registered o := (reshared.registered o).trans (frozen.replaced.registered o)
  files := reshared.files.trans frozen.replaced.files
  fd := reshared.fd.trans frozen.replaced.fd
  guest := reshared.guest.trans frozen.replaced.guest

def Apart (s : State) (k : Kernel) (p q : Process) : Prop :=
  ∃ lo hi lo' hi', Owns s p lo hi ∧ Owns s q lo' hi' ∧ (hi ≤ lo' ∨ hi' ≤ lo) ∧
    hi ≤ k.next ∧ hi' ≤ k.next

theorem Apart.symm (h : Apart s k p q) : Apart s k q p := by
  obtain ⟨lo, hi, lo', hi', owns, owns', apart, le, le'⟩ := h
  exact ⟨lo', hi', lo, hi, owns', owns, apart.symm, le', le⟩

variable {ops : FileOps}

theorem forkChildren_spec (h : Coherent s) (frozen : FrozenOn s f k) {n : Nat} {k' : Kernel}
    {children : List Process}
    (hc : forkChildren ops k f.process (s.process.snapshotOf s.process.mapped) n =
      .ok (k', children)) :
    FrozenOn s f k' ∧ k.next ≤ k'.next ∧ children.length = n ∧
      (∀ c ∈ children, ∃ lo hi, k.next ≤ lo ∧ hi ≤ k'.next ∧ Owns s c lo hi) ∧
      children.Pairwise (Apart s k') := by
  induction n generalizing k children with
  | zero =>
    obtain ⟨rfl, rfl⟩ := Prod.mk.inj (Except.ok.inj hc)
    exact ⟨frozen, Nat.le_refl _, rfl, by simp, .nil⟩
  | succ n ih =>
    obtain ⟨t, ht, reshared⟩ := frozen.reshare ops h
    rw [forkChildren, ht] at hc
    have later : FrozenOn s f t.kernel :=
      ⟨frozen.replaced, Nat.le_trans frozen.next_le reshared.next_le, fun i hi => by
        rw [reshared.kernel i (Nat.lt_of_lt_of_le hi frozen.next_le)]
        exact frozen.kernel i hi⟩
    change Except.bind (forkChildren ops t.kernel f.process _ n) _ = _ at hc
    cases hr : forkChildren ops t.kernel f.process (s.process.snapshotOf s.process.mapped) n with
    | error e =>
      rw [hr] at hc
      cases hc
    | ok r =>
      rw [hr] at hc
      obtain ⟨rfl, rfl⟩ := Prod.mk.inj (Except.ok.inj hc)
      obtain ⟨last, le, length, ranges, apart⟩ := ih later hr
      have first := Owns.of_clone h frozen reshared
      have step : k.next ≤ t.kernel.next := reshared.next_le
      refine ⟨last, Nat.le_trans step le, by simp [length], ?_, ?_⟩
      · intro c hc
        rcases List.mem_cons.mp hc with rfl | rest
        · exact ⟨k.next, t.kernel.next, Nat.le_refl _, le, first⟩
        · obtain ⟨lo, hi, low, high, owns⟩ := ranges c rest
          exact ⟨lo, hi, Nat.le_trans step low, high, owns⟩
      · refine List.pairwise_cons.mpr ⟨fun c hc => ?_, apart⟩
        obtain ⟨lo, hi, low, high, owns⟩ := ranges c hc
        exact ⟨_, _, lo, hi, first, owns, .inl low, le, high⟩

theorem cloneTree_spec (h : Coherent s) {n : Nat} {tree : Tree} (ht : s.cloneTree ops n = .ok tree) :
    s.kernel.next ≤ tree.kernel.next ∧ tree.processes.length = n + 1 ∧
      tree.processes.Pairwise (Apart s tree.kernel) ∧
      ∃ f, FrozenOn s f tree.kernel ∧ tree.processes.head? = some f.process := by
  unfold State.cloneTree at ht
  cases hf : s.freeze ops with
  | error e =>
    rw [hf] at ht
    cases ht
  | ok r =>
    obtain ⟨f, hf', replaced⟩ := h.freeze_eq ops (h.settled_of_freeze hf)
    rw [hf'] at hf
    obtain rfl := Except.ok.inj hf
    rw [hf'] at ht
    change Except.bind (forkChildren ops f.kernel f.process _ n) _ = _ at ht
    cases hr : forkChildren ops f.kernel f.process (s.process.snapshotOf s.process.mapped) n with
    | error e =>
      rw [hr] at ht
      cases ht
    | ok r =>
      rw [hr] at ht
      obtain rfl := Except.ok.inj ht
      have frozen : FrozenOn s f f.kernel := ⟨replaced, Nat.le_refl _, fun _ _ => rfl⟩
      obtain ⟨last, le, length, ranges, apart⟩ := forkChildren_spec h frozen hr
      refine ⟨Nat.le_trans replaced.next_le le, by simp [length], ?_, f, last, rfl⟩
      refine List.pairwise_cons.mpr ⟨fun c hc => ?_, apart⟩
      obtain ⟨lo, hi, low, high, owns⟩ := ranges c hc
      exact ⟨_, _, lo, hi, .of_frozen h frozen, owns, .inl low, le, high⟩

theorem pairwise_getElem? {l : List Process} {R : Process → Process → Prop}
    (symm : ∀ p q, R p q → R q p) (h : l.Pairwise R) {i j : Nat} (ne : i ≠ j)
    (hi : l[i]? = some p) (hj : l[j]? = some q) : R p q := by
  obtain ⟨hi', rfl⟩ := List.getElem?_eq_some_iff.mp hi
  obtain ⟨hj', rfl⟩ := List.getElem?_eq_some_iff.mp hj
  rw [List.pairwise_iff_getElem] at h
  rcases Nat.lt_or_gt_of_ne ne with lt | gt
  · exact h i j hi' hj' lt
  · exact symm _ _ (h j i hj' hi' gt)

theorem Tree.isolated_of_overlaid (h : Coherent s) {n : Nat} {tree : Tree}
    (ht : s.cloneTree ops n = .ok tree)
    (overlaid : ∀ o, s.process.Writable o → o ∈ s.process.overlaid) : tree.Isolated := by
  intro i j p q ne hi hj seq t hseq
  obtain ⟨le, -, pairwise, -⟩ := cloneTree_spec h ht
  obtain ⟨lo, hi, lo', hi', owns, owns', apart, -, le'⟩ :=
    pairwise_getElem? (fun _ _ => Apart.symm) pairwise ne hi hj
  have kept := (owns.confined h le le' apart overlaid).applyAll hseq
  exact ⟨fun o live => kept.files _ (owns'.seen_object h live),
    fun a => owns'.load_eq kept.files a⟩

theorem setLen_bare {o : Nat} (bare : (s.process.object o).registered = []) (n : Nat) :
    s.setLen o n = .ok (s.setFile (s.process.object o).file ((s.content o).setLen n)) := by
  unfold State.setLen
  rw [bare]
  rfl

theorem truncate_bare {d : Nat} {x : Fd} (hx : s.process.fd d = some x)
    (writable : x.handle.writable = true)
    (bare : (s.process.object x.handle.object).registered = []) (n : Nat) :
    ∃ t, (Op.setLen d n).apply s = some t ∧
      t.kernel.file (s.process.object x.handle.object).file =
        (s.content x.handle.object).setLen n := by
  refine ⟨(s.truncate d x n).1, ?_, ?_⟩
  · simp only [Op.apply, hx, Option.map_some]
  · rw [State.truncate, if_pos writable, setLen_bare bare]
    exact Function.update_self _ _ _

theorem Owns.resize (owns : Owns s p lo hi) {o : Nat} (writable : s.process.Writable o)
    (bare : (s.process.object o).registered = []) (k : Kernel) (n : Nat) :
    ∃ seq t, State.applyAll ⟨k, p⟩ seq = some t ∧
      t.kernel.file (p.object o).file = (k.file (p.object o).file).setLen n := by
  have bare' : (p.object o).registered = [] := (owns.registered o).trans bare
  rcases writable with ⟨name, hn⟩ | ⟨d, x, hx, hw, rfl⟩
  · rw [← owns.files] at hn
    let conf : OpenOptions := { read := true, write := true }
    let u := State.addFd ⟨k, p⟩ name conf o
    have opened : (Op.open name conf).apply ⟨k, p⟩ = some u := by
      simp only [Op.apply, State.open, hn, conf]
      rfl
    obtain ⟨t, ht, size⟩ := truncate_bare (s := u) (d := p.nextFd) (Function.update_self _ _ _)
      rfl bare' n
    refine ⟨[.open name conf, .setLen p.nextFd n], t, ?_, size⟩
    simp only [State.applyAll, List.foldlM_cons, opened, List.foldlM_nil]
    exact (congrArg (Option.bind · pure) ht).trans rfl
  · rw [← owns.fd] at hx
    obtain ⟨t, ht, size⟩ := truncate_bare (s := ⟨k, p⟩) hx hw bare' n
    refine ⟨[.setLen d n], t, ?_, size⟩
    simp only [State.applyAll, List.foldlM_cons, List.foldlM_nil]
    exact (congrArg (Option.bind · pure) ht).trans rfl

theorem Process.Writable.live {o : Nat} (h : p.Writable o) : p.Live o := by
  rcases h with named | ⟨d, x, hx, -, ho⟩
  · exact .inl named
  · exact .inr (.inl ⟨d, x, hx, ho⟩)

/-- The clones of a host are isolated exactly when each object that still has a name or a
writable descriptor has an overlay at the time of the freeze. -/
theorem clones_isolated_iff (ops : FileOps) {s : State} (h : (host ops).Reachable s) {n : Nat}
    (some : 0 < n) {tree : Tree} (ht : s.cloneTree ops n = .ok tree) :
    tree.Isolated ↔
      ∀ o, s.process.Writable o → (s.process.object o).registered ≠ [] := by
  have coherent := coherent_reachable h
  constructor
  · intro isolated o writable bare
    obtain ⟨-, length, pairwise, f, frozen, head⟩ := cloneTree_spec coherent ht
    obtain ⟨c, hc⟩ : ∃ c, tree.processes[1]? = .some c :=
      ⟨_, List.getElem?_eq_getElem (by omega)⟩
    have hp : tree.processes[0]? = .some f.process := by
      rw [← List.head?_eq_getElem?]
      exact head
    obtain ⟨lo, hi, lo', hi', owns, owns', -⟩ :=
      pairwise_getElem? (fun _ _ => Apart.symm) pairwise (show 1 ≠ 0 by decide) hc hp
    have out : o ∉ s.process.overlaid := fun member => coherent.mem_overlaid.mp member bare
    -- the child makes the object longer, and the frozen parent sees it
    obtain ⟨seq, t, hseq, size⟩ := owns.resize writable bare tree.kernel
      ((tree.kernel.file (s.process.object o).file).len + 1)
    have live : f.process.Live o := by
      have := writable.live
      unfold Process.Live Process.Listed at this ⊢
      rwa [owns'.files, owns'.fd, owns'.guest]
    have seen := (isolated 1 0 c f.process (by decide) hc hp seq t hseq).1 o live
    rw [owns.others o out] at size
    rw [owns'.others o out, size] at seen
    have len := congrArg Memfd.len seen
    rw [Memfd.setLen_len] at len
    omega
  · intro overlaid
    exact Tree.isolated_of_overlaid coherent ht fun o writable =>
      coherent.mem_overlaid.mpr (overlaid o writable)

theorem FrozenOn.forkChildren_ok (ops : FileOps) (h : Coherent s) (frozen : FrozenOn s f k) (n : Nat) :
    ∃ r, forkChildren ops k f.process (s.process.snapshotOf s.process.mapped) n = .ok r := by
  induction n generalizing k with
  | zero => exact ⟨_, rfl⟩
  | succ n ih =>
    obtain ⟨t, ht, reshared⟩ := frozen.reshare ops h
    obtain ⟨r, hr⟩ := ih (k := t.kernel) ⟨frozen.replaced,
      Nat.le_trans frozen.next_le reshared.next_le, fun i hi => by
        rw [reshared.kernel i (Nat.lt_of_lt_of_le hi frozen.next_le)]
        exact frozen.kernel i hi⟩
    refine ⟨(r.1, t.process :: r.2), ?_⟩
    rw [forkChildren, ht]
    change Except.bind (forkChildren ops t.kernel f.process _ n) _ = _
    rw [hr]
    rfl

theorem Coherent.cloneTree_ok (ops : FileOps) (h : Coherent s) (settled : s.process.Settled) (n : Nat) :
    ∃ tree, s.cloneTree ops n = .ok tree := by
  obtain ⟨f, hf, replaced⟩ := h.freeze_eq ops settled
  have frozen : FrozenOn s f f.kernel := ⟨replaced, Nat.le_refl _, fun _ _ => rfl⟩
  obtain ⟨r, hr⟩ := frozen.forkChildren_ok ops h n
  refine ⟨⟨r.1, f.process :: r.2⟩, ?_⟩
  rw [State.cloneTree, hf]
  change Except.bind (forkChildren ops f.kernel f.process _ n) _ = _
  rw [hr]
  rfl

/-- Three clones of a host whose only object is mapped. -/
theorem clones_isolated_mapped :
    ∃ s tree, (host denseOps).Reachable s ∧ s.cloneTree denseOps 3 = .ok tree ∧
      tree.Isolated := by
  obtain ⟨s, reach, below, one, mapped⟩ :
      ∃ s, (host denseOps).Reachable s ∧
        (∀ o < s.process.nextObject, ∀ r ∈ (s.process.object o).registered,
          r.hostAddress ≠ none) ∧
        s.process.nextObject = 1 ∧ (s.process.object 0).registered ≠ [] :=
    Transition.System.exists_reachable_of_run (s := {}) (.init rfl)
      (show ((host denseOps).run {} twiceMappedRun).any _ = true by decide +kernel)
  have coherent := coherent_reachable reach
  obtain ⟨tree, ht⟩ := coherent.cloneTree_ok denseOps (coherent.settled_of_lt below) 3
  refine ⟨s, tree, reach, ht, (clones_isolated_iff denseOps reach (by decide) ht).mpr ?_⟩
  intro o writable
  have lt := coherent.live_lt writable.live
  obtain rfl : o = 0 := by omega
  exact mapped

def unmappedRun : List HostEvent :=
  [.op (.open ⟨0, "queue"⟩ { read := true, write := true, create := true }), .op (.setLen 0 4)]

/-- The child of such a host makes the object eight bytes long, and its parent sees it. -/
theorem unmapped_object_stays_shared :
    ∃ s tree, (host denseOps).Reachable s ∧ s.cloneTree denseOps 1 = .ok tree ∧
      ¬ tree.Isolated := by
  obtain ⟨s, reach, none, object, writable, len, bare⟩ :
      ∃ s, (host denseOps).Reachable s ∧ s.process.mapped = [] ∧
        (s.process.fd 0).map (fun x => x.handle.object) = .some 0 ∧
        (s.process.fd 0).map (fun x => x.handle.writable) = .some true ∧
        (s.content 0).len = 4 ∧ (s.process.object 0).registered = [] :=
    Transition.System.exists_reachable_of_run (s := {}) (.init rfl)
      (show ((host denseOps).run {} unmappedRun).any _ = true by decide +kernel)
  obtain ⟨x, hx, zero⟩ := Option.map_eq_some_iff.mp object
  rw [hx] at writable
  have tree : s.cloneTree denseOps 1 = .ok ⟨s.kernel, [s.process, s.process.forked]⟩ := by
    rw [State.cloneTree, State.freeze, none]
    rfl
  obtain ⟨t, ht, size⟩ := truncate_bare (s := ⟨s.kernel, s.process.forked⟩) (d := 0) hx
    (Option.some.inj writable) (by rw [zero]; exact bare) 8
  have resized : State.applyAll ⟨s.kernel, s.process.forked⟩ [.setLen 0 8] = .some t := by
    rw [State.applyAll, List.foldlM_cons, ht]
    rfl
  refine ⟨s, _, reach, tree, fun isolated => ?_⟩
  have seen := (isolated 1 0 s.process.forked s.process (by decide) rfl rfl _ t resized).1 0
    (.inr (.inl ⟨0, x, hx, zero⟩))
  rw [zero] at size
  have eight : 8 = (s.content 0).len := congrArg Memfd.len (size.symm.trans seen)
  rw [len] at eight
  cases eight

end ServiceCache.SharedMemory
