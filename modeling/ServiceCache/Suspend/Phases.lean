import ServiceCache.Suspend.Book

/-!
# The freezing thread

`Phase` says, for each place of the freezing thread, who drives the registered coroutines.
-/

namespace ServiceCache.Suspend

open Function
open Counting

variable {s s' : State}

@[simp] theorem addThread_statics (t : Thread) : (s.addThread t).statics = s.statics := rfl

@[simp] theorem addThread_thread (t : Thread) (j : Nat) :
    (s.addThread t).thread j = if j = s.threads then t else s.thread j :=
  update_apply _ _ _ _

theorem addThread_drives {t : Thread} (h : Book s) {j x : Nat} :
    (s.addThread t).Drives j x ↔
      s.Drives j x ∨ j = s.threads ∧ t.stage.live = true ∧ t.coro = x := by
  simp only [State.Drives, addThread_thread]
  split
  next last =>
    have gone := h.bounded j (Nat.le_of_eq last.symm)
    rw [last] at gone
    simp [last, gone, Stage.live]
  next other => simp [other]

theorem Book.addThread (h : Book s) {t : Thread} (counted : t.stage.counted = false)
    (looping : t.stage.looping = false) (leaving : t.stage.leaving = false)
    (lt : t.coro < s.nextId) (undriven : ∀ i, ¬ s.Drives i t.coro)
    (linked : Linked t (s.coro t.coro))
    (listed : t.coro ∈ s.statics.registry ↔ t.stage.listed = true) : Book (s.addThread t) where
  active := by
    have pushed := tally_push (p := fun t : Thread => t.stage.counted) (f := s.thread)
      (n := s.threads) t
    rw [counted] at pushed
    exact h.active.trans pushed.symm
  hostLoops := by
    have pushed := tally_push (p := fun t : Thread => t.stage.looping) (f := s.thread)
      (n := s.threads) t
    rw [looping] at pushed
    exact h.hostLoops.trans pushed.symm
  bounded j hj := by
    have hj : s.threads + 1 ≤ j := hj
    rw [addThread_thread, if_neg (by omega)]
    exact h.bounded j (by omega)
  driven_lt j x drives := by
    obtain old | ⟨-, -, rfl⟩ := (addThread_drives h).mp drives
    · exact h.driven_lt j x old
    · exact lt
  registry_lt := h.registry_lt
  registry_nodup := h.registry_nodup
  linked j live := by
    simp only [State.driven, addThread_thread] at live ⊢
    split at live
    next last =>
      simp only [if_pos last]
      exact linked
    next other =>
      simp only [if_neg other]
      exact h.linked j live
  apart j k x hj hk := by
    obtain hj | ⟨rfl, -, rfl⟩ := (addThread_drives h).mp hj
    · obtain hk | ⟨rfl, -, rfl⟩ := (addThread_drives h).mp hk
      · exact h.apart j k x hj hk
      · exact absurd hj (undriven j)
    · obtain hk | ⟨rfl, -, -⟩ := (addThread_drives h).mp hk
      · exact absurd hk (undriven k)
      · rfl
  listed j x drives := by
    obtain old | ⟨rfl, -, rfl⟩ := (addThread_drives h).mp drives
    · have other : j ≠ s.threads := by
        rintro rfl
        have gone := h.bounded _ (Nat.le_refl s.threads)
        exact absurd old.1 (by simp [gone, Stage.live])
      simpa [other] using h.listed j x old
    · simpa using listed
  held x hx := by
    obtain ⟨j, drives⟩ | rests := h.held x hx
    · exact .inl ⟨j, (addThread_drives h).mpr (.inl drives)⟩
    · exact .inr rests
  leaving opened j := by
    rw [addThread_thread]
    split
    · exact leaving
    · exact h.leaving opened j

def State.addCoro (s : State) : State :=
  { s with coro := update s.coro s.nextId {}, nextId := s.nextId + 1 }

theorem addCoro_coro {x : Nat} (lt : x < s.nextId) : s.addCoro.coro x = s.coro x :=
  update_of_ne (Nat.ne_of_lt lt) _ _

theorem Book.addCoro (h : Book s) : Book s.addCoro :=
  { h with
    driven_lt j x drives := Nat.lt_succ_of_lt (h.driven_lt j x drives)
    registry_lt x hx := Nat.lt_succ_of_lt (h.registry_lt x hx)
    linked j live := by
      have kept : s.addCoro.driven j = s.driven j := addCoro_coro (h.driven_lt j _ ⟨live, rfl⟩)
      rw [kept]
      exact h.linked j live
    held x hx := by
      rw [addCoro_coro (h.registry_lt x hx)]
      exact h.held x hx }

theorem spawn_eq (i : Nat) : s.spawn i =
    s.addCoro.addThread { coro := s.nextId, stage := .spawned, spawner := some i } := rfl

theorem spawn_thread (i j : Nat) : (s.spawn i).thread j =
    if j = s.threads then { coro := s.nextId, stage := .spawned, spawner := some i }
    else s.thread j :=
  update_apply _ _ _ _

theorem Book.spawn_kept (h : Book s) (i : Nat) {j : Nat} (live : (s.thread j).stage.live = true) :
    (s.spawn i).thread j = s.thread j ∧ (s.spawn i).driven j = s.driven j := by
  have old : j ≠ s.threads := by
    rintro rfl
    simp [h.bounded _ (Nat.le_refl s.threads), Stage.live] at live
  have thread : (s.spawn i).thread j = s.thread j := by rw [spawn_thread, if_neg old]
  refine ⟨thread, ?_⟩
  rw [State.driven, thread]
  exact addCoro_coro (h.driven_lt j _ ⟨live, rfl⟩)

theorem Book.undriven_next (h : Book s) (i : Nat) : ¬ s.Drives i s.nextId :=
  fun drives => Nat.lt_irrefl _ (h.driven_lt i _ drives)

theorem Book.spawn (h : Book s) (i : Nat) : Book (s.spawn i) := by
  rw [spawn_eq]
  refine h.addCoro.addThread rfl rfl rfl (Nat.lt_succ_self s.nextId) h.undriven_next ?_ ?_
  · simp [Linked, Coro.Fresh, State.addCoro]
  · refine iff_of_false (fun member => ?_) Bool.false_ne_true
    exact Nat.lt_irrefl _ (h.registry_lt _ member)

/-! ## Phases -/

def State.DrivenBut (s : State) (entries : List Nat) : Prop :=
  ∀ c ∈ s.statics.registry, c ∈ entries ∨ ∃ i, s.Drives i c

structure State.Waiting (s : State) (entries : List Nat) : Prop where
  nodup : entries.Nodup
  registered : ∀ c ∈ entries, c ∈ s.statics.registry
  rests : ∀ c ∈ entries, (s.coro c).Rests
  undriven : ∀ c ∈ entries, ∀ i, ¬ s.Drives i c

def State.Alone (s : State) : Prop := ∀ i, (s.thread i).stage = .gone

def Phase (s : State) : Prop :=
  match s.freezer with
  | .idle => s.statics.gateClosed = false ∧ s.DrivenBut []
  | .closing | .draining | .ending | .drained _ => s.statics.gateClosed = true
  | .frozen | .forked => s.Alone
  | .reviving entries => s.Alone ∧ entries = s.statics.registry
  | .spawning entries => s.statics.gateClosed = false ∧ s.Waiting entries ∧ s.DrivenBut entries
  | .failed _ => True

section Guest

variable {i : Nat} {g : Statics} {t : Thread} {c : Coro}

theorem Book.drivenBut_put (h : Book s) (m : Move s.statics (s.thread i) (s.driven i) g t c)
    (opened : s.statics.gateClosed = false) {entries : List Nat} (driven : s.DrivenBut entries) :
    (s.put i (g, t, c)).DrivenBut entries := by
  intro x hx
  by_cases mine : s.Drives i x
  · obtain ⟨live, rfl⟩ := mine
    cases ends : t.stage.live with
    | true => exact .inr ⟨i, by simp [State.Drives, ends, m.coro_eq]⟩
    | false =>
      obtain out | ⟨captured, -⟩ :=
        m.handedOver live ends (h.linked i live) (h.listed i _ ⟨live, rfl⟩)
      · exact absurd hx out
      · exact absurd (h.leaving opened i) (by simp [captured, Stage.leaving])
  · have before : x ∈ s.statics.registry := by
      obtain live | ⟨-, -, rfl⟩ := m.live_or_exit
      · exact (m.mem_registry fun same => mine ⟨live, same.symm⟩).mp hx
      · exact hx
    obtain entry | ⟨j, drives⟩ := driven x before
    · exact .inl entry
    · have ne : j ≠ i := by
        rintro rfl
        exact mine drives
      exact .inr ⟨j, (put_drives_other ne).mpr drives⟩

theorem State.Waiting.put {entries : List Nat} (w : s.Waiting entries)
    (m : Move s.statics (s.thread i) (s.driven i) g t c) :
    (s.put i (g, t, c)).Waiting entries where
  nodup := w.nodup
  registered x hx := by
    obtain live | ⟨-, -, rfl⟩ := m.live_or_exit
    · exact (m.mem_registry fun same => w.undriven x hx i ⟨live, same.symm⟩).mpr (w.registered x hx)
    · exact w.registered x hx
  rests x hx := by
    rw [put_coro_other m (w.undriven x hx i)]
    exact w.rests x hx
  undriven x hx j drives := w.undriven x hx j (drives_of_put m drives)

theorem Book.phase_put (h : Book s) (phase : Phase s)
    (m : Move s.statics (s.thread i) (s.driven i) g t c) : Phase (s.put i (g, t, c)) := by
  have not_alone : ¬ s.Alone := fun alone => m.not_gone (alone i)
  unfold Phase at phase ⊢
  rw [show (s.put i (g, t, c)).freezer = s.freezer from rfl]
  cases at_ : s.freezer with
  | idle =>
    simp only [at_] at phase
    exact ⟨m.gateClosed_eq.trans phase.1, h.drivenBut_put m phase.1 phase.2⟩
  | closing | draining | ending | drained n =>
    simp only [at_] at phase
    exact m.gateClosed_eq.trans phase
  | frozen | forked =>
    simp only [at_] at phase
    exact absurd phase not_alone
  | reviving entries =>
    simp only [at_] at phase
    exact absurd phase.1 not_alone
  | spawning entries =>
    simp only [at_] at phase
    obtain ⟨opened, waiting, driven⟩ := phase
    exact ⟨m.gateClosed_eq.trans opened, waiting.put m, h.drivenBut_put m opened driven⟩
  | failed e => trivial

theorem spawn_drives (h : Book s) {j x : Nat} (drives : s.Drives j x) : (s.spawn i).Drives j x := by
  rw [spawn_eq, addThread_drives h.addCoro]
  exact .inl drives

theorem Book.phase_spawn (h : Book s) (phase : Phase s) (running : (s.thread i).stage = .running) :
    Phase (s.spawn i) := by
  have not_alone : ¬ s.Alone := fun alone => by simp [alone i] at running
  have driven (entries : List Nat) (before : s.DrivenBut entries) :
      (s.spawn i).DrivenBut entries := by
    intro x hx
    obtain entry | ⟨j, drives⟩ := before x hx
    · exact .inl entry
    · exact .inr ⟨j, spawn_drives h drives⟩
  unfold Phase at phase ⊢
  rw [show (s.spawn i).freezer = s.freezer from rfl]
  cases at_ : s.freezer with
  | idle =>
    simp only [at_] at phase
    exact ⟨phase.1, driven [] phase.2⟩
  | closing | draining | ending | drained n =>
    simp only [at_] at phase
    exact phase
  | frozen | forked =>
    simp only [at_] at phase
    exact absurd phase not_alone
  | reviving entries =>
    simp only [at_] at phase
    exact absurd phase.1 not_alone
  | spawning entries =>
    simp only [at_] at phase
    obtain ⟨opened, waiting, before⟩ := phase
    have lt : ∀ x ∈ entries, x < s.nextId := fun x hx => h.registry_lt x (waiting.registered x hx)
    refine ⟨opened, ⟨waiting.nodup, waiting.registered, fun x hx => ?_, fun x hx j drives => ?_⟩,
      driven entries before⟩
    · exact (addCoro_coro (lt x hx)).symm ▸ waiting.rests x hx
    · rw [spawn_eq, addThread_drives h.addCoro] at drives
      obtain old | ⟨-, -, new⟩ := drives
      · exact waiting.undriven x hx j old
      · exact Nat.ne_of_gt (lt x hx) new
  | failed e => trivial

theorem guestStep_cases {a : Action} (h : s.guestStep i a = some s') :
    (s.thread i).stage = .running ∧ a = .spawn ∧ s' = s.spawn i ∨
      ∃ g t c, step s.statics (s.thread i) (s.driven i) a = some (g, t, c) ∧
        s' = s.put i (g, t, c) := by
  unfold State.guestStep at h
  split at h
  next spawns =>
    split at h
    next running => exact .inl ⟨running, spawns, (Option.some.inj h).symm⟩
    · cases h
  · obtain ⟨⟨g, t, c⟩, moved, rfl⟩ := Option.map_eq_some_iff.mp h
    exact .inr ⟨g, t, c, moved, rfl⟩

end Guest

/-! ## The freezing thread's own steps -/

theorem Book.setFreezer (h : Book s) (f : Freezer) : Book { s with freezer := f } :=
  ⟨h.active, h.hostLoops, h.bounded, h.driven_lt, h.registry_lt, h.registry_nodup, h.linked,
    h.apart, h.listed, h.held, h.leaving⟩

theorem Book.setStatics (h : Book s) {g : Statics} (active : g.active = s.statics.active)
    (hostLoops : g.hostLoops = s.statics.hostLoops) (registry : g.registry = s.statics.registry)
    (leaving : g.gateClosed = false → ∀ i, (s.thread i).stage.leaving = false) (f : Freezer) :
    Book { s with statics := g, freezer := f } :=
  { h with
    active := active.trans h.active
    hostLoops := hostLoops.trans h.hostLoops
    registry_lt x hx := h.registry_lt x (registry ▸ hx)
    registry_nodup := registry ▸ h.registry_nodup
    listed j x drives := by
      rw [show ({ s with statics := g, freezer := f } : State).statics.registry = _ from registry]
      exact h.listed j x drives
    held x hx := h.held x (registry ▸ hx)
    leaving := leaving }

theorem State.Alone.not_drives (alone : s.Alone) (i c : Nat) : ¬ s.Drives i c := by
  intro drives
  exact absurd drives.1 (by simp [alone i, Stage.live])

theorem Book.fork (h : Book s) (alone : s.Alone) :
    Book { s with thread := fun _ => {}, freezer := .forked } where
  active := by
    rw [tally_eq_zero (fun _ => rfl)]
    exact h.active.trans (tally_eq_zero fun i => by rw [alone i]; rfl)
  hostLoops := by
    rw [tally_eq_zero (fun _ => rfl)]
    exact h.hostLoops.trans (tally_eq_zero fun i => by rw [alone i]; rfl)
  bounded _ _ := rfl
  driven_lt _ _ drives := absurd drives.1 Bool.false_ne_true
  registry_lt := h.registry_lt
  registry_nodup := h.registry_nodup
  linked _ live := absurd live Bool.false_ne_true
  apart _ _ _ drives := absurd drives.1 Bool.false_ne_true
  listed _ _ drives := absurd drives.1 Bool.false_ne_true
  held x hx := .inr ((h.held x hx).resolve_left fun ⟨i, drives⟩ => alone.not_drives i x drives)
  leaving _ _ := rfl

theorem Book.waiting_of_alone (h : Book s) (alone : s.Alone) :
    s.Waiting s.statics.registry where
  nodup := h.registry_nodup
  registered _ hx := hx
  rests x hx := (h.held x hx).resolve_left fun ⟨i, drives⟩ => alone.not_drives i x drives
  undriven x _ i := alone.not_drives i x

theorem Book.revive (h : Book s) {c : Nat} {entries : List Nat} (w : s.Waiting (c :: entries)) :
    Book (s.addThread { coro := c, stage := .revived }) := by
  have registered : c ∈ s.statics.registry := w.registered c List.mem_cons_self
  refine h.addThread rfl rfl rfl (h.registry_lt c registered) (w.undriven c List.mem_cons_self)
    ?_ (iff_of_true registered rfl)
  exact w.rests c List.mem_cons_self

theorem State.Waiting.revive (h : Book s) {c : Nat} {entries : List Nat}
    (w : s.Waiting (c :: entries)) :
    (s.addThread { coro := c, stage := .revived }).Waiting entries where
  nodup := (List.nodup_cons.mp w.nodup).2
  registered x hx := w.registered x (List.mem_cons_of_mem c hx)
  rests x hx := w.rests x (List.mem_cons_of_mem c hx)
  undriven x hx j drives := by
    obtain old | ⟨-, -, rfl⟩ := (addThread_drives h).mp drives
    · exact w.undriven x (List.mem_cons_of_mem c hx) j old
    · exact (List.nodup_cons.mp w.nodup).1 hx

theorem Book.drivenBut_revive (h : Book s) {c : Nat} {entries : List Nat}
    (driven : s.DrivenBut (c :: entries)) :
    (s.addThread { coro := c, stage := .revived }).DrivenBut entries := by
  intro x hx
  obtain entry | ⟨j, drives⟩ := driven x hx
  · obtain rfl | later := List.mem_cons.mp entry
    · exact .inr ⟨s.threads, (addThread_drives h).mpr (.inr ⟨rfl, rfl, rfl⟩)⟩
    · exact .inl later
  · exact .inr ⟨j, (addThread_drives h).mpr (.inl drives)⟩

structure Sound (s : State) : Prop where
  book : Book s
  phase : Phase s

theorem Sound.freezerStep (h : Sound s) {o : Outcome} (hn : s.freezerStep o = some s') :
    Sound s' := by
  obtain ⟨book, phase⟩ := h
  unfold Phase at phase
  cases freezerStep_move hn with
  | close at_ =>
    exact ⟨book.setStatics (g := s.statics.closeGate) rfl rfl rfl (fun opened => by cases opened) _,
      rfl⟩
  | wake at_ =>
    simp only [at_] at phase
    exact ⟨book.setStatics (g := s.statics.moveGateEpoch) rfl rfl rfl book.leaving _, phase⟩
  | inactive at_ _ | drained at_ _ =>
    simp only [at_] at phase
    exact ⟨book.setFreezer _, phase⟩
  | timeout _ | remain _ _ | refuse _ _ _ | unspawned _ _ _ => exact ⟨book.setFreezer _, trivial⟩
  | alone n at_ gone =>
    refine ⟨book.setFreezer _, fun i => ?_⟩
    by_cases hi : i < s.threads
    · exact gone i hi
    · exact book.bounded i (Nat.le_of_not_lt hi)
  | fork at_ =>
    simp only [at_] at phase
    exact ⟨book.fork phase, fun _ => rfl⟩
  | revive at_ _ =>
    simp only [at_] at phase
    exact ⟨book.setStatics (g := s.statics.movePollfdEpoch) rfl rfl rfl book.leaving _, phase, rfl⟩
  | opening entries at_ =>
    simp only [at_] at phase
    obtain ⟨alone, rfl⟩ := phase
    have open_ := book.setStatics (g := s.statics.openGate) rfl rfl rfl
      (fun _ i => by rw [alone i]; rfl) (.spawning s.statics.registry)
    exact ⟨open_, rfl, open_.waiting_of_alone alone, fun c hc => .inl hc⟩
  | spawn c entries at_ =>
    simp only [at_] at phase
    obtain ⟨opened, waiting, driven⟩ := phase
    have left := waiting.revive book
    exact ⟨(book.revive waiting).setFreezer _, opened,
      ⟨left.nodup, left.registered, left.rests, left.undriven⟩, book.drivenBut_revive driven⟩
  | resurrected at_ =>
    simp only [at_] at phase
    obtain ⟨opened, -, driven⟩ := phase
    exact ⟨book.setFreezer _, opened, driven⟩

theorem Sound.guestStep (h : Sound s) {i : Nat} {a : Action} (hn : s.guestStep i a = some s') :
    Sound s' := by
  obtain ⟨running, -, rfl⟩ | ⟨g, t, c, moved, rfl⟩ := guestStep_cases hn
  · exact ⟨h.book.spawn i, h.book.phase_spawn h.phase running⟩
  · exact ⟨h.book.put (step_move moved), h.book.phase_put h.phase (step_move moved)⟩

end ServiceCache.Suspend
