import ServiceCache.Suspend.Phases

/-!
# Generations of freeze, fork and resurrection

A run starts with the guest threads the host started and goes on through any number of freezes,
each time in a forked child.
-/

namespace ServiceCache.Suspend

open Counting Transition

def boot (n : Nat) : State where
  nextId := n
  thread i := if i < n then { coro := i, stage := .spawned } else {}
  threads := n

def lifecycle : System State Event where
  Initial s := ∃ n, s = boot n
  next := State.next

def Frame.waits : Frame → List Wait
  | .suspended w _ => [w]
  | _ => []

/-- A descriptor wait answered in another epoch than its own was answered `Unavailable`. -/
def Refused (w : Wait) (storedIn : Nat) (answer : Option Answer) : Prop :=
  w.kind = .pollFd → storedIn ≠ w.epoch → answer = some .unavailable

/-- What a coroutine's history says. `once`: it was resumed from the waits it yielded, each
once and in their order, but for the one it is suspended in. -/
structure Coro.Consistent (c : Coro) : Prop where
  once : c.yielded = c.frame.waits ++ c.resumed.map (·.wait)
  numbered : c.yielded.map (·.seq) = (List.range c.yielded.length).reverse
  answered : ∀ r ∈ c.resumed, r.answer.isSome
  refused : ∀ r ∈ c.resumed, Refused r.wait r.storedIn r.answer
  pending : ∀ w ∈ c.frame.waits, c.result.isSome → Refused w c.storedIn c.result

def Stage.direct : Stage → Bool
  | .knocking | .entering | .inside | .polled | .parked | .armed | .requested | .asleep | .woken
  | .answered => true
  | _ => false

def Current (g : Statics) (t : Thread) : Prop :=
  t.stage.direct = true → ∀ w, t.wait = some w → w.kind = .pollFd → w.epoch = g.pollfdEpoch

section Local

variable {g g' : Statics} {t t' : Thread} {c c' : Coro}

theorem Coro.Consistent.fresh : ({} : Coro).Consistent :=
  ⟨rfl, rfl, by simp, by simp, by simp [Frame.waits]⟩

theorem Coro.Consistent.congr (h : c.Consistent) (frame : c'.frame = c.frame)
    (result : c'.result = c.result) (storedIn : c'.storedIn = c.storedIn)
    (yielded : c'.yielded = c.yielded) (resumed : c'.resumed = c.resumed) : c'.Consistent := by
  obtain ⟨once, numbered, answered, refused, pending⟩ := h
  refine ⟨?_, ?_, ?_, ?_, ?_⟩
  · rw [yielded, frame, resumed, once]
  · rw [yielded, numbered]
  · rw [resumed]
    exact answered
  · rw [resumed]
    exact refused
  · rw [frame, result, storedIn]
    exact pending

theorem Coro.Consistent.complete (h : c.Consistent) {a : Option Answer}
    (refused : ∀ w ∈ c.frame.waits, Refused w g.pollfdEpoch a) : (c.complete g a).Consistent :=
  ⟨h.once, h.numbered, h.answered, h.refused, fun w hw _ => refused w hw⟩

theorem Coro.Consistent.suspend (h : c.Consistent) (running : c.frame = .running)
    (kind : WaitKind) (tls : Nat) : (c.suspend (c.newWait g kind) tls).Consistent := by
  refine ⟨?_, ?_, h.answered, h.refused, fun _ _ some => by cases some⟩
  · have once := h.once
    rw [running] at once
    exact congrArg (c.newWait g kind :: ·) once
  · simp only [Coro.suspend, Coro.newWait, List.map_cons, List.length_cons, h.numbered,
      List.range_succ, List.reverse_append, List.reverse_singleton, List.singleton_append]

theorem Coro.Consistent.resume (h : c.Consistent)
    (ready : c.Fresh ∨ ∃ w tls, c.Held w tls ∧ c.result.isSome) : (c.resume g).Consistent := by
  obtain fresh | ⟨w, tls, held, stored⟩ := ready
  · have once := h.once
    have resumed : (c.resume g).resumed = c.resumed := by simp [Coro.resume, fresh.1]
    rw [fresh.1] at once
    exact ⟨by rw [resumed]; exact once, h.numbered, by rw [resumed]; exact h.answered,
      by rw [resumed]; exact h.refused, by simp [Coro.resume, Frame.waits]⟩
  · have resumed : (c.resume g).resumed = ⟨w, c.result, c.storedIn, g.pollfdEpoch⟩ :: c.resumed := by
      simp [Coro.resume, held.1]
    have once := h.once
    have pending := h.pending w (by simp [held.1, Frame.waits]) stored
    rw [held.1] at once
    refine ⟨by rw [resumed]; exact once, h.numbered, ?_, ?_, by simp [Coro.resume, Frame.waits]⟩
    · rw [resumed]
      exact List.forall_mem_cons.mpr ⟨stored, h.answered⟩
    · rw [resumed]
      exact List.forall_mem_cons.mpr ⟨pending, h.refused⟩

theorem Move.current (m : Move g t c g' t' c') (h : Current g t) : Current g' t' := by
  unfold Current at h ⊢
  rw [m.pollfdEpoch_eq]
  cases m with
  | knock w at_ wait fresh _ =>
    intro _ w' wait' kind
    obtain rfl := Option.some.inj (wait.symm.trans wait')
    exact fresh kind
  | _ => simp_all [Stage.direct]

theorem Move.consistent (m : Move g t c g' t' c') (linked : Linked t c) (current : Current g t)
    (h : c.Consistent) : c'.Consistent := by
  cases m with
  | refuse w at_ wait kind unanswered old => exact h.complete fun _ _ _ _ => rfl
  | poll ready at_ kind =>
    simp only [Linked, at_] at linked
    obtain ⟨w, held, wait⟩ := linked
    unfold Coro.poll
    split
    · refine h.complete fun w' hw' pollFd => ?_
      rw [held.1] at hw'
      obtain rfl := List.mem_singleton.mp hw'
      simp [wait, pollFd] at kind
    · exact h
  | complete at_ =>
    simp only [Linked, at_] at linked
    obtain ⟨w, held, wait, -⟩ := linked
    refine h.complete fun w' hw' pollFd other => ?_
    rw [held.1] at hw'
    obtain rfl := List.mem_singleton.mp hw'
    exact absurd (current (by rw [at_]; rfl) w' wait pollFd).symm other
  | resume at_ =>
    simp only [Linked, at_] at linked
    refine h.resume (linked.imp_right ?_)
    rintro ⟨w, held, result⟩
    exact ⟨w, t.tls, held, result⟩
  | suspend kind tls at_ =>
    simp only [Linked, at_] at linked
    exact h.suspend linked kind tls
  | finish at_ =>
    simp only [Linked, at_] at linked
    have once := h.once
    rw [linked] at once
    exact ⟨once, h.numbered, h.answered, h.refused, by simp [Frame.waits]⟩
  | record at_ | capture at_ => exact h.congr rfl rfl rfl rfl rfl
  | _ => exact h

end Local

/-! ## The whole process -/

structure Revival (s : State) : Prop where
  sound : Sound s
  current : ∀ i, Current s.statics (s.thread i)
  consistent : ∀ c, (s.coro c).Consistent
  suspended : ∀ c, s.freezer ≠ .failed (.notSuspended c)

section Steps

variable {s s' : State}

theorem Revival.guestStep (h : Revival s) {i : Nat} {a : Action}
    (hn : s.guestStep i a = some s') : Revival s' := by
  have sound := h.sound.guestStep hn
  obtain ⟨running, -, rfl⟩ | ⟨g, t, c, moved, rfl⟩ := guestStep_cases hn
  · refine ⟨sound, fun j => ?_, fun x => ?_, h.suspended⟩
    · rw [spawn_thread]
      split
      · intro direct
        cases direct
      · exact h.current j
    · by_cases new : x = s.nextId
      · rw [new, show (s.spawn i).coro s.nextId = {} from Function.update_self _ _ _]
        exact Coro.Consistent.fresh
      · rw [show (s.spawn i).coro x = s.coro x from Function.update_of_ne new _ _]
        exact h.consistent x
  · have m := step_move moved
    have epoch := m.pollfdEpoch_eq
    refine ⟨sound, fun j => ?_, fun x => ?_, h.suspended⟩
    · rw [put_thread, put_statics]
      split
      · exact m.current (h.current i)
      · intro direct w wait kind
        exact (h.current j direct w wait kind).trans epoch.symm
    · by_cases mine : s.Drives i x
      · obtain ⟨live, rfl⟩ := mine
        rw [put_coro, if_pos rfl]
        exact m.consistent (h.sound.book.linked i live) (h.current i) (h.consistent _)
      · rw [put_coro_other m mine]
        exact h.consistent x

theorem Sound.unsuspended_eq_none (h : Sound s) (at_ : s.freezer = .forked) :
    s.unsuspended = none := by
  have phase := h.phase
  simp only [Phase, at_] at phase
  refine List.find?_eq_none.mpr fun c hc => ?_
  obtain ⟨w, tls, held, -⟩ := (h.book.waiting_of_alone phase).rests c hc
  simp [held.2]

theorem current_of_gone {g : Statics} {t : Thread} (gone : t.stage = .gone) : Current g t := by
  intro direct
  rw [gone] at direct
  cases direct

theorem Revival.freezerStep (h : Revival s) {o : Outcome} (hn : s.freezerStep o = some s') :
    Revival s' := by
  have sound := h.sound.freezerStep hn
  have phase := h.sound.phase
  cases freezerStep_move hn with
  | refuse c at_ found =>
    rw [h.sound.unsuspended_eq_none at_] at found
    cases found
  | revive at_ _ =>
    -- `POLLFD_EPOCH` moves only where no thread is left
    simp only [Phase, at_] at phase
    exact ⟨sound, fun i => current_of_gone (phase i), h.consistent, by simp⟩
  | fork _ => exact ⟨sound, fun i => current_of_gone rfl, h.consistent, by simp⟩
  | spawn c entries _ =>
    refine ⟨sound, fun j => ?_, h.consistent, by simp⟩
    change Current s.statics ((s.addThread _).thread j)
    rw [addThread_thread]
    split
    · intro direct
      cases direct
    · exact h.current j
  | timeout at_ => exact ⟨sound, h.current, h.consistent, by simp [Statics.timeoutError]⟩
  | _ => exact ⟨sound, h.current, h.consistent, by simp⟩

theorem Revival.next (h : Revival s) {e : Event} (hn : s.next e = some s') : Revival s' := by
  cases e with
  | guest i a => exact h.guestStep hn
  | freezer o => exact h.freezerStep hn

end Steps

theorem boot_drives {n i c : Nat} (h : (boot n).Drives i c) :
    i = c ∧ i < n ∧ ((boot n).thread i).stage = .spawned := by
  obtain ⟨live, coro⟩ := h
  by_cases lt : i < n
  · simp only [boot, if_pos lt] at coro
    exact ⟨coro, lt, by simp [boot, lt]⟩
  · simp [boot, lt, Stage.live] at live

theorem boot_stage (n i : Nat) :
    ((boot n).thread i).stage = .spawned ∨ ((boot n).thread i).stage = .gone := by
  by_cases lt : i < n <;> simp [boot, lt]

theorem boot_book (n : Nat) : Book (boot n) where
  active := by
    refine (tally_eq_zero fun i => ?_).symm
    obtain at_ | at_ := boot_stage n i <;> rw [at_] <;> rfl
  hostLoops := by
    refine (tally_eq_zero fun i => ?_).symm
    obtain at_ | at_ := boot_stage n i <;> rw [at_] <;> rfl
  bounded i le := by
    have le : n ≤ i := le
    simp [boot, Nat.not_lt.mpr le]
  driven_lt i c drives := (boot_drives drives).1 ▸ (boot_drives drives).2.1
  registry_lt _ hc := by cases hc
  registry_nodup := List.nodup_nil
  linked i live := by
    obtain ⟨-, -, at_⟩ := boot_drives (n := n) (i := i) ⟨live, rfl⟩
    have wait : ((boot n).thread i).wait = none := by
      by_cases lt : i < n <;> simp [boot, lt]
    simp only [Linked, at_]
    exact ⟨⟨rfl, rfl⟩, wait⟩
  apart i j c hi hj := (boot_drives hi).1.trans (boot_drives hj).1.symm
  listed i c drives := by
    rw [(boot_drives drives).2.2]
    exact iff_of_false (by simp [boot]) Bool.false_ne_true
  held _ hc := by cases hc
  leaving _ i := by
    obtain at_ | at_ := boot_stage n i <;> rw [at_] <;> rfl

theorem revival_reachable {s : State} (h : lifecycle.Reachable s) : Revival s := by
  refine System.ReachableBy.invariant ?_ (fun s e t _ revival _ hn => revival.next hn) h
  rintro _ ⟨n, rfl⟩
  refine ⟨⟨boot_book n, rfl, fun c hc => by cases hc⟩, fun i direct => ?_,
    fun _ => Coro.Consistent.fresh, fun _ => by simp [boot]⟩
  obtain at_ | at_ := boot_stage n i <;> rw [at_] at direct <;> cases direct

theorem Coro.Consistent.yielded_nodup {c : Coro} (h : c.Consistent) : c.yielded.Nodup := by
  refine List.Nodup.of_map (·.seq) ?_
  rw [h.numbered]
  exact List.nodup_reverse.mpr List.nodup_range

structure State.Carried (s : State) : Prop where
  one : ∀ i j c, s.Drives i c → s.Drives j c → i = j
  /-- Once `resurrect_all` returned, and until the next freeze, every registered coroutine is
  driven by exactly one. -/
  driven : s.freezer = .idle → ∀ c ∈ s.statics.registry, ∃! i, s.Drives i c
  /-- The waits a coroutine was resumed from and the one it is suspended in are the waits it
  yielded, each once. -/
  once : ∀ c, (s.coro c).yielded = (s.coro c).frame.waits ++ (s.coro c).resumed.map (·.wait) ∧
    (s.coro c).yielded.Nodup
  /-- Each of these resumes consumed a result stored for its wait. -/
  consumed : ∀ c, ∀ r ∈ (s.coro c).resumed, r.answer.isSome
  /-- A descriptor wait in the kernel, or about to go there, was yielded since the last fork. -/
  kernel : ∀ i w, (s.thread i).stage = .requested ∨ (s.thread i).stage = .asleep →
    (s.thread i).wait = some w → w.kind = .pollFd → w.epoch = s.statics.pollfdEpoch
  /-- A descriptor wait that crossed a fork was answered `Unavailable`, or before it. -/
  refused : ∀ c, ∀ r ∈ (s.coro c).resumed, r.wait.kind = .pollFd → r.wait.epoch ≠ r.epoch →
    r.answer = some .unavailable ∨ r.storedIn = r.wait.epoch

/-- A coroutine waits on descriptors; the kernel answers just before the gate closes, and the
answer is stored just after. The thread retires before it resumes the coroutine, and the child's
thread finds the stored answer. -/
def answeredBeforeFork : List Event :=
  goes 0 6 ++ [.guest 0 (.suspend .pollFd 5)] ++ goes 0 9 ++
    [.guest 0 (.answer .done), .guest 0 .go, .freezer .ok, .freezer .ok] ++ goes 0 1 ++
    [.freezer .ok] ++ goes 0 5 ++ [.freezer .ok, .guest 0 .go] ++
    List.replicate 6 (.freezer .ok) ++ goes 1 7

end ServiceCache.Suspend
