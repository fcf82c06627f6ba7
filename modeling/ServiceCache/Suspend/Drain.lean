import ServiceCache.Suspend.Phases

/-!
# A successful drain
-/

namespace ServiceCache.Suspend

open Counting Transition

def firstWait (kind : WaitKind) : Wait := ⟨kind, 0, 0⟩

def launch (loops : List (WaitKind × Nat)) : State where
  statics := { hostLoops := loops.length, registry := List.range loops.length }
  coro c := match loops[c]? with
    | some (kind, tls) =>
      { frame := .suspended (firstWait kind) tls
        pending := some (firstWait kind)
        yielded := [firstWait kind] }
    | none => {}
  nextId := loops.length
  thread i := match loops[i]? with
    | some (kind, tls) => { coro := i, stage := .top, wait := some (firstWait kind), tls }
    | none => {}
  threads := loops.length

def Freezer.inDrain : Freezer → Bool
  | .idle | .closing | .draining | .ending => true
  | _ => false

def drainSystem : System State Event where
  Initial s := ∃ loops, s = launch loops
  next s e := match e with
    | .guest i a => s.guestStep i a
    | .freezer o => if s.freezer.inDrain then s.freezerStep o else none

def State.Unbegun (s : State) (j : Nat) : Prop :=
  (s.thread j).stage.live = true ∧ (s.driven j).started = false

instance (s : State) (j : Nat) : Decidable (s.Unbegun j) :=
  inferInstanceAs (Decidable (_ = true ∧ _ = false))

def Event.leaver : Event → Option Nat
  | .guest i (.suspend _ _) | .guest i .finish => some i
  | _ => none

/-- A coroutine neither suspends nor ends while the first resume of a thread it spawned has
not begun. -/
def SpawnersStay (s : State) (e : Event) : Prop :=
  ∀ i ∈ e.leaver, ∀ j < s.threads, (s.thread j).spawner = some i → ¬ s.Unbegun j

instance (s : State) (e : Event) : Decidable (SpawnersStay s e) :=
  inferInstanceAs
    (Decidable (∀ i ∈ e.leaver, ∀ j < s.threads, (s.thread j).spawner = some i → ¬ s.Unbegun j))

def State.Resumes (s : State) : Event → Prop
  | .guest i _ => (s.thread i).stage = .admitted ∧ (s.driven i).started = true
  | .freezer _ => False

/-- The event polls a stored future, or takes a stored direct wait on its way to the kernel. -/
def State.Polls (s : State) : Event → Prop
  | .guest i _ => (s.thread i).stage = .inside ∨ (s.thread i).stage = .requested
  | .freezer _ => False

structure State.Quiet (s : State) : Prop where
  coroutines : ∀ c ∈ s.statics.registry, (s.coro c).started = false ∨ (s.coro c).Rests
  inactive : ∀ i, (s.thread i).stage.counted = false
  unlooped : ∀ i, (s.thread i).stage.looping = false

section Local

variable {g g' : Statics} {t t' : Thread} {c c' : Coro}

theorem Move.started (m : Move g t c g' t' c') (h : c.started = true) : c'.started = true := by
  cases m with
  | poll ready _ _ =>
    unfold Coro.poll
    split <;> exact h
  | resume _ | suspend _ _ _ | finish _ => rfl
  | _ => exact h

theorem Move.within (m : Move g t c g' t' c') (closed : g.gateClosed = true)
    (started : c.started = true) (out : t.stage.within = false) : t'.stage.within = false := by
  cases m with
  | pass _ opened | request _ opened => exact absurd (closed.symm.trans opened) (by simp)
  | admitStep _ opened => simp [closed, started] at opened
  | bar _ _ | endLoop _ => rfl
  | _ => simp_all [Stage.within]

theorem Move.of_starting (m : Move g t c g' t' c') (revived : t.stage ≠ .revived)
    (starting : t'.stage = .starting) : t.stage = .spawned ∧ c' = c := by
  cases m with
  | register at_ => exact ⟨at_, rfl⟩
  | restore at_ => exact absurd at_ revived
  | _ => simp at starting

theorem Move.not_revived (m : Move g t c g' t' c') : t'.stage ≠ .revived := by
  cases m <;> simp

theorem Stage.live_of_not_looping {s : Stage} (live : s.live = true) (out : s.looping = false) :
    s = .spawned ∨ s = .revived ∨ s = .starting := by
  cases s <;> simp_all [Stage.live, Stage.looping]

theorem Stage.counted_of_within {s : Stage} (h : s.within = true) : s.counted = true := by
  cases s <;> simp_all [Stage.within, Stage.counted]

theorem step_running {a : Action} {r : Statics × Thread × Coro} (at_ : t.stage = .running)
    (h : step g t c a = some r) : (∃ kind tls, a = .suspend kind tls) ∨ a = .finish := by
  cases a with
  | suspend kind tls => exact .inl ⟨kind, tls, rfl⟩
  | finish => exact .inr rfl
  | _ =>
    unfold step at h
    rw [at_] at h
    cases h

end Local

/-! ## Along a drain -/

structure Draining (s : State) : Prop where
  sound : Sound s
  spawned : ∀ j, s.Unbegun j → ∃ i, (s.thread j).spawner = some i ∧ (s.thread i).stage = .running
  unrevived : ∀ i, (s.thread i).stage ≠ .revived
  starting : ∀ i, (s.thread i).stage = .starting → s.Unbegun i
  settled : s.freezer = .ending ∨ (∃ n, s.freezer = .drained n) →
    ∀ i, (s.thread i).stage.within = false ∧ ¬ s.Unbegun i
  ended : ∀ n, s.freezer = .drained n →
    n = s.statics.registry.length ∧ ∀ i, (s.thread i).stage.looping = false

section Steps

variable {s s' : State} {i : Nat} {g : Statics} {t : Thread} {c : Coro} {a : Action}

theorem unbegun_of_put (book : Book s) (m : Move s.statics (s.thread i) (s.driven i) g t c) {j : Nat}
    (h : (s.put i (g, t, c)).Unbegun j) : s.Unbegun j := by
  have drives := drives_of_put (j := j) m ⟨h.1, rfl⟩
  refine ⟨drives.1, ?_⟩
  by_cases same : j = i
  · subst same
    cases started : (s.driven j).started with
    | false => rfl
    | true =>
      have after := m.started started
      have before := h.2
      simp [State.driven, m.coro_eq, after] at before
  · have other : ¬ s.Drives i (s.thread j).coro := by
      intro mine
      exact same (book.apart j i _ ⟨drives.1, rfl⟩ mine)
    have before := h.2
    rw [State.driven, put_thread, if_neg same, put_coro_other m other] at before
    exact before

theorem unbegun_put_other (book : Book s) (m : Move s.statics (s.thread i) (s.driven i) g t c)
    {j : Nat} (ne : j ≠ i) (h : s.Unbegun j) : (s.put i (g, t, c)).Unbegun j := by
  have other : ¬ s.Drives i (s.thread j).coro := by
    intro mine
    exact ne (book.apart j i _ ⟨h.1, rfl⟩ mine)
  refine ⟨by simpa [ne] using h.1, ?_⟩
  rw [State.driven, put_thread, if_neg ne, put_coro_other m other]
  exact h.2

theorem Book.unbegun_of_spawned (book : Book s) {i : Nat} (at_ : (s.thread i).stage = .spawned) :
    s.Unbegun i := by
  have live : (s.thread i).stage.live = true := by simp [at_, Stage.live]
  have linked := book.linked i live
  simp only [Linked, at_] at linked
  exact ⟨live, linked.1.not_started⟩

theorem Draining.not_live (h : Draining s) {i : Nat} (out : (s.thread i).stage.looping = false)
    (begun : ¬ s.Unbegun i) : (s.thread i).stage.live = false := by
  by_contra live
  obtain at_ | at_ | at_ := Stage.live_of_not_looping (by simpa using live) out
  · exact begun (h.sound.book.unbegun_of_spawned at_)
  · exact h.unrevived i at_
  · exact begun (h.starting i at_)

theorem Draining.closed (h : Draining s)
    (at_ : s.freezer = .ending ∨ ∃ n, s.freezer = .drained n) : s.statics.gateClosed = true := by
  have phase := h.sound.phase
  unfold Phase at phase
  obtain at_ | ⟨n, at_⟩ := at_ <;> simpa only [at_] using phase

theorem Draining.put (h : Draining s) (moved : step s.statics (s.thread i) (s.driven i) a =
      some (g, t, c)) (stay : SpawnersStay s (.guest i a)) : Draining (s.put i (g, t, c)) := by
  have m := step_move moved
  have book := h.sound.book
  have before {j : Nat} (unbegun : (s.put i (g, t, c)).Unbegun j) := unbegun_of_put book m unbegun
  refine ⟨⟨book.put m, book.phase_put h.sound.phase m⟩, ?_, ?_, ?_, ?_, ?_⟩
  · -- a spawner that leaves `running` has no unbegun thread left
    intro j unbegun
    obtain ⟨k, spawner, running⟩ := h.spawned j (before unbegun)
    have spawner' : ((s.put i (g, t, c)).thread j).spawner = some k := by
      rw [put_thread]
      split
      next same => exact m.spawner_eq.trans (same ▸ spawner)
      · exact spawner
    refine ⟨k, spawner', ?_⟩
    rw [put_thread]
    split
    next same =>
      subst same
      have leaves : k ∈ (Event.guest k a).leaver := by
        obtain ⟨kind, tls, rfl⟩ | rfl := step_running running moved <;> rfl
      have lt : j < s.threads := book.lt_threads fun gone => by
        simpa [gone, Stage.live] using (before unbegun).1
      exact absurd (before unbegun) (stay k leaves j lt spawner)
    · exact running
  · intro j
    rw [put_thread]
    split
    · exact m.not_revived
    · exact h.unrevived j
  · intro j starting
    by_cases same : j = i
    · subst same
      simp only [put_thread, if_true] at starting
      obtain ⟨at_, rfl⟩ := m.of_starting (h.unrevived j) starting
      refine ⟨by simp [starting, Stage.live], ?_⟩
      simpa [State.driven, m.coro_eq] using (book.unbegun_of_spawned at_).2
    · rw [put_thread, if_neg same] at starting
      exact unbegun_put_other book m same (h.starting j starting)
  · intro at_ j
    refine ⟨?_, fun unbegun => (h.settled at_ j).2 (before unbegun)⟩
    rw [put_thread]
    split
    · obtain live | ⟨gone, -⟩ := m.live_or_exit
      · have started : (s.driven i).started = true := by
          by_contra unstarted
          exact (h.settled at_ i).2 ⟨live, by simpa using unstarted⟩
        exact m.within (h.closed at_) started (h.settled at_ i).1
      · rw [gone]
        rfl
    · exact (h.settled at_ j).1
  · intro n at_
    obtain ⟨length, out⟩ := h.ended n at_
    have through := h.not_live (out i) (h.settled (.inr ⟨n, at_⟩) i).2
    obtain live | ⟨gone, -, rfl⟩ := m.live_or_exit
    · exact absurd live (by simp [through])
    · refine ⟨length, fun j => ?_⟩
      rw [put_thread]
      split
      · rw [gone]
        rfl
      · exact out j

theorem Draining.spawn (h : Draining s) (running : (s.thread i).stage = .running) :
    Draining (s.spawn i) := by
  have book := h.sound.book
  have unsettled : ¬ (s.freezer = .ending ∨ ∃ n, s.freezer = .drained n) := by
    intro at_
    have within := (h.settled at_ i).1
    simp [running, Stage.within] at within
  have kept {j : Nat} (live : (s.thread j).stage.live = true) := book.spawn_kept i live
  have runs : ((s.spawn i).thread i).stage = .running := by
    rw [(kept (by simp [running, Stage.live])).1, running]
  refine ⟨⟨book.spawn i, book.phase_spawn h.sound.phase running⟩, ?_, ?_, ?_, ?_, ?_⟩
  · intro j unbegun
    by_cases new : j = s.threads
    · exact ⟨i, by rw [spawn_thread, if_pos new], runs⟩
    · have live : (s.thread j).stage.live = true := by
        have := unbegun.1
        rwa [spawn_thread, if_neg new] at this
      obtain ⟨same, driven⟩ := kept live
      obtain ⟨k, spawner, runsToo⟩ := h.spawned j ⟨live, driven ▸ unbegun.2⟩
      refine ⟨k, by rw [same, spawner], ?_⟩
      rw [(kept (by simp [runsToo, Stage.live])).1, runsToo]
  · intro j
    rw [spawn_thread]
    split
    · simp
    · exact h.unrevived j
  · intro j starting
    rw [spawn_thread] at starting
    split at starting
    · cases starting
    · have unbegun := h.starting j starting
      obtain ⟨same, driven⟩ := kept unbegun.1
      exact ⟨same ▸ unbegun.1, driven ▸ unbegun.2⟩
  · exact fun at_ => absurd at_ unsettled
  · exact fun n at_ => absurd (.inr ⟨n, at_⟩) unsettled

theorem Draining.freezerStep (h : Draining s) {o : Outcome} (inDrain : s.freezer.inDrain = true)
    (hn : s.freezerStep o = some s') : Draining s' := by
  have sound := h.sound.freezerStep hn
  have book := h.sound.book
  cases freezerStep_move hn with
  | close _ | wake _ | timeout _ =>
    exact ⟨sound, h.spawned, h.unrevived, h.starting, by simp, by simp⟩
  | inactive at_ zero =>
    -- nobody is active: no coroutine runs, so no thread is unbegun either
    have uncounted (i : Nat) : (s.thread i).stage.counted = false := by
      by_contra counted
      exact absurd zero (Nat.ne_of_gt (book.active_pos (by simpa using counted)))
    refine ⟨sound, h.spawned, h.unrevived, h.starting, fun _ i => ⟨?_, ?_⟩, by simp⟩
    · by_contra within
      have counted := Stage.counted_of_within (by simpa using within)
      exact absurd counted (by simp [uncounted i])
    · intro unbegun
      obtain ⟨k, -, running⟩ := h.spawned i unbegun
      have counted := uncounted k
      simp [running, Stage.counted] at counted
  | drained at_ zero =>
    refine ⟨sound, h.spawned, h.unrevived, h.starting, fun _ => h.settled (.inl at_), ?_⟩
    rintro n ⟨rfl⟩
    refine ⟨rfl, fun i => ?_⟩
    by_contra looping
    exact absurd zero (Nat.ne_of_gt (book.hostLoops_pos (by simpa using looping)))
  | _ => simp_all [Freezer.inDrain]

theorem Draining.next (h : Draining s) {e : Event} (stay : SpawnersStay s e)
    (hn : drainSystem.next s e = some s') : Draining s' := by
  cases e with
  | guest i a =>
    obtain ⟨running, -, rfl⟩ | ⟨g, t, c, moved, rfl⟩ := guestStep_cases hn
    · exact h.spawn running
    · exact h.put moved stay
  | freezer o =>
    simp only [drainSystem] at hn
    split at hn
    next inDrain => exact h.freezerStep inDrain hn
    · cases hn

end Steps

/-! ## The loops at the start -/

theorem launch_cases (loops : List (WaitKind × Nat)) (i : Nat) :
    (∃ w tls, i < loops.length ∧ ((launch loops).coro i).Held w tls ∧
      (launch loops).thread i = { coro := i, stage := .top, wait := some w, tls }) ∨
    (launch loops).thread i = {} := by
  by_cases lt : i < loops.length
  · left
    refine ⟨firstWait loops[i].1, loops[i].2, lt, ?_, ?_⟩ <;>
      simp [launch, Coro.Held, List.getElem?_eq_getElem lt]
  · right
    simp [launch, List.getElem?_eq_none (Nat.le_of_not_lt lt)]

theorem launch_live {loops : List (WaitKind × Nat)} {i : Nat}
    (live : ((launch loops).thread i).stage.live = true) :
    ∃ w tls, i < loops.length ∧ ((launch loops).coro i).Held w tls ∧
      (launch loops).thread i = { coro := i, stage := .top, wait := some w, tls } := by
  obtain loop | none := launch_cases loops i
  · exact loop
  · simp [none, Stage.live] at live

theorem launch_drives {loops : List (WaitKind × Nat)} {i c : Nat}
    (h : (launch loops).Drives i c) : i = c ∧ i < loops.length := by
  obtain ⟨live, rfl⟩ := h
  obtain ⟨w, tls, lt, -, thread⟩ := launch_live live
  exact ⟨by rw [thread], lt⟩

theorem launch_book (loops : List (WaitKind × Nat)) : Book (launch loops) where
  active := by
    refine (tally_eq_zero fun i => ?_).symm
    obtain ⟨w, tls, -, -, thread⟩ | thread := launch_cases loops i <;> rw [thread] <;> rfl
  hostLoops := by
    refine (tally_eq_self fun i lt => ?_).symm
    obtain ⟨w, tls, -, -, thread⟩ | thread := launch_cases loops i
    · rw [thread]
      rfl
    · have lt : i < loops.length := lt
      simp [launch, List.getElem?_eq_getElem lt] at thread
  bounded i le := by
    obtain ⟨w, tls, lt, -⟩ | thread := launch_cases loops i
    · exact absurd lt (Nat.not_lt.mpr le)
    · rw [thread]
  driven_lt i c drives := (launch_drives drives).1 ▸ (launch_drives drives).2
  registry_lt c hc := List.mem_range.mp hc
  registry_nodup := List.nodup_range
  linked i live := by
    obtain ⟨w, tls, -, held, thread⟩ := launch_live live
    rw [State.driven, thread]
    exact .inr ⟨w, held, rfl⟩
  apart i j c hi hj := (launch_drives hi).1.trans (launch_drives hj).1.symm
  listed i c drives := by
    obtain ⟨rfl, lt⟩ := launch_drives drives
    obtain ⟨w, tls, -, -, thread⟩ := launch_live drives.1
    exact iff_of_true (List.mem_range.mpr lt) (by rw [thread]; rfl)
  held c hc := by
    have lt : c < loops.length := List.mem_range.mp hc
    exact .inl ⟨c, by simp [State.Drives, launch, List.getElem?_eq_getElem lt, Stage.live]⟩
  leaving _ i := by
    obtain ⟨w, tls, -, -, thread⟩ | thread := launch_cases loops i <;> rw [thread] <;> rfl

theorem launch_draining (loops : List (WaitKind × Nat)) : Draining (launch loops) := by
  have book := launch_book loops
  have stage (i : Nat) : ((launch loops).thread i).stage = .top ∨
      ((launch loops).thread i).stage = .gone := by
    obtain ⟨w, tls, -, -, thread⟩ | thread := launch_cases loops i <;> simp [thread]
  refine ⟨⟨book, rfl, fun c hc => .inr ((book.held c hc).resolve_right ?_)⟩, ?_, ?_, ?_, ?_, ?_⟩
  · rintro ⟨w, tls, -, captured⟩
    have lt : c < loops.length := List.mem_range.mp hc
    simp [launch, List.getElem?_eq_getElem lt] at captured
  · intro j unbegun
    obtain ⟨w, tls, -, held, thread⟩ := launch_live unbegun.1
    have unstarted := unbegun.2
    rw [State.driven, thread] at unstarted
    simp [Coro.started, held.1] at unstarted
  · intro i revived
    obtain at_ | at_ := stage i <;> rw [at_] at revived <;> cases revived
  · intro i starting
    obtain at_ | at_ := stage i <;> rw [at_] at starting <;> cases starting
  · rintro (at_ | ⟨n, at_⟩) <;> cases at_
  · intro n at_
    cases at_

theorem draining_reachable {s : State} (h : drainSystem.ReachableBy SpawnersStay s) :
    Draining s := by
  refine h.invariant ?_ ?_
  · rintro _ ⟨loops, rfl⟩
    exact launch_draining loops
  · intro s e t _ draining stay hn
    exact draining.next stay hn

/-! ## After `drain` returned `Ok` -/

structure State.Over (s : State) : Prop where
  drained : s.freezer.inDrain = false
  ended : ∀ i, (s.thread i).stage.live = false

theorem State.Over.next {s s' : State} (h : s.Over) {e : Event}
    (hn : drainSystem.next s e = some s') : s'.Over := by
  cases e with
  | guest i a =>
    obtain ⟨running, -, -⟩ | ⟨g, t, c, moved, rfl⟩ := guestStep_cases hn
    · exact absurd (h.ended i) (by simp [running, Stage.live])
    · refine ⟨h.drained, fun j => ?_⟩
      obtain live | ⟨gone, -⟩ := (step_move moved).live_or_exit
      · exact absurd live (by simp [h.ended i])
      · rw [put_thread]
        split
        · rw [gone]
          rfl
        · exact h.ended j
  | freezer o => simp [drainSystem, h.drained] at hn

theorem State.Over.untouched {s : State} (h : s.Over) (e : Event) :
    ¬ s.Resumes e ∧ ¬ s.Polls e := by
  cases e with
  | freezer o => exact ⟨id, id⟩
  | guest i a =>
    have ended := h.ended i
    refine ⟨fun resumes => ?_, fun polls => ?_⟩
    · simp [resumes.1, Stage.live] at ended
    · obtain at_ | at_ := polls <;> simp [at_, Stage.live] at ended

theorem Draining.through {s : State} (h : Draining s) {n : Nat} (at_ : s.freezer = .drained n) :
    s.Over where
  drained := by rw [at_]; rfl
  ended i := h.not_live ((h.ended n at_).2 i) (h.settled (.inr ⟨n, at_⟩) i).2

theorem Draining.quiet {s : State} (h : Draining s) {n : Nat} (at_ : s.freezer = .drained n) :
    s.Quiet where
  coroutines c hc := by
    right
    obtain ⟨i, live, -⟩ | rests := h.sound.book.held c hc
    · exact absurd live (by simp [(h.through at_).ended i])
    · exact rests
  inactive i := by
    have ended := (h.through at_).ended i
    cases stage : (s.thread i).stage <;> simp_all [Stage.live, Stage.counted]
  unlooped := (h.ended n at_).2

/-- When `drain` returns `Ok` the guest is quiet and complete, and in every state that follows
while the gate is closed no event resumes a started coroutine or polls a stored wait. -/
theorem drained_is_quiet {s : State} {n : Nat} (h : drainSystem.ReachableBy SpawnersStay s)
    (ok : s.freezer = .drained n) :
    s.Quiet ∧ n = s.statics.registry.length ∧
      ∀ events t, drainSystem.run s events = some t → ∀ e, ¬ t.Resumes e ∧ ¬ t.Polls e := by
  have draining := draining_reachable h
  refine ⟨draining.quiet ok, (draining.ended n ok).1, fun events t hrun e => ?_⟩
  have through : t.Over := System.run_invariant (P := State.Over) (fun _ _ _ through => through.next)
    (draining.through ok) hrun
  exact through.untouched e

/-- The gate closes while the first of three loops runs its coroutine, which then starts a
fourth thread and waits again. -/
def spawnDuringFreeze : List Event :=
  goes 0 4 ++ [.guest 0 (.poll true)] ++ goes 0 4 ++ [.freezer .ok, .freezer .ok, .guest 0 .spawn] ++
    goes 3 6 ++ [.guest 0 (.suspend .future 9)] ++ goes 0 2 ++ [.guest 3 (.suspend .futex 5)] ++
    goes 3 2 ++ [.freezer .ok] ++ goes 0 7 ++ goes 1 7 ++ goes 2 7 ++ goes 3 7 ++ [.freezer .ok]

theorem drained_is_quiet_spawning : ∃ s, drainSystem.ReachableBy SpawnersStay s ∧
    s.freezer = .drained 4 ∧ s.statics.registry = [0, 1, 2, 3] ∧ s.Quiet := by
  obtain ⟨s, reach, ok, registry⟩ : ∃ s, drainSystem.ReachableBy SpawnersStay s ∧
      s.freezer = .drained 4 ∧ s.statics.registry = [0, 1, 2, 3] :=
    System.exists_reachableBy_of_runBy
      (s := launch [(.future, 7), (.futex, 3), (.pollFd, 4)]) (.init ⟨_, rfl⟩)
      (show (drainSystem.runBy SpawnersStay _ spawnDuringFreeze).any _ = true by decide +kernel)
  exact ⟨s, reach, ok, registry, (drained_is_quiet reach ok).1⟩

end ServiceCache.Suspend
