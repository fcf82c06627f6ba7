import ServiceCache.Epoll.Direct

/-!
# What an answer from the queue leaves out

A turn drains the queue before it looks at a descriptor, and answers with what it finds. A call
that has looked queues what the descriptors reported and drains it with the rest.
-/

namespace ServiceCache.DirectEpoll

open Transition Notify

/-- A call that is answered with fewer events than it has room for was told of every subscription
that was direct-served and ready all the time. -/
def Thread.Told (t : Thread) : Prop :=
  ∀ l, t.stage = .left (some l) → l ≠ [] → l.length < t.maxevents → ∀ k ∈ t.kept, k ∈ l

def Stage.produces : Stage → Bool
  | .producing _ => true
  | _ => false

def State.Unshared (s : State) (i : Nat) : Prop :=
  ∀ j < s.threads.length, s.threads[j]?.any (fun t => t.stage.produces) = true → j = i

def State.AllQueued (s : State) : Prop := ∀ k ∈ s.directSubs, s.level k = true → k ∈ s.queue

/-- The condition on a step. A turn that begins with something of the set in the queue begins with
every ready socket in it; and no call takes from the queue what another has put there. -/
def LooksFirst (s : State) : Event → Prop
  | .thread i => ∀ t ∈ s.threads[i]?,
      (t.stage = .draining → s.queue.any s.live = false ∨ s.Unshared i ∧ s.AllQueued) ∧
      (t.stage = .producing [] → s.Unshared i)
  | _ => True

instance (s : State) (i : Nat) : Decidable (s.Unshared i) :=
  inferInstanceAs (Decidable (∀ j < s.threads.length, _ = true → j = i))

instance (s : State) : Decidable s.AllQueued :=
  inferInstanceAs (Decidable (∀ k ∈ s.directSubs, _ = true → k ∈ s.queue))

instance (s : State) : DecidablePred (LooksFirst s)
  | .thread i => inferInstanceAs (Decidable (∀ t ∈ s.threads[i]?,
      (t.stage = .draining → _ ∨ s.Unshared i ∧ s.AllQueued) ∧
      (t.stage = .producing [] → s.Unshared i)))
  | .errno _ | .call .. | .expire _ | .giveUp _ | .enqueue _ | .add _ | .delete _ | .demote _
  | .rise _ | .fall _ | .signal _ => inferInstanceAs (Decidable True)

structure Fed (s : State) (t : Thread) : Prop where
  ready : t.stage.inside = true → ∀ k ∈ t.kept, s.direct k = true ∧ s.level k = true
  watched : t.stage.listed = true → ∀ k ∈ t.kept, k ∈ t.watch
  queued : ∀ ready, t.stage = .producing ready → ∀ k ∈ t.kept, k ∈ ready ∨ k ∈ s.queue
  told : t.Told

def FedOn (p : Nat → Prop) (s : State) : Prop :=
  ∀ (i : Nat) (t : Thread), s.threads[i]? = some t → p i → Fed s t

section Frames

variable {p q : Nat → Prop} {s s' : State} {t : Thread} {i : Nat}

theorem Fed.frame (h : Fed s t)
    (ready : ∀ k ∈ t.kept, s.direct k = true → s.level k = true →
      s'.direct k = true ∧ s'.level k = true)
    (queue : t.stage.produces = true → ∀ k ∈ t.kept, s.direct k = true → k ∈ s.queue → k ∈ s'.queue) :
    Fed s' t where
  ready in_ k mem := ready k mem (h.ready in_ k mem).1 (h.ready in_ k mem).2
  watched := h.watched
  queued rest stage k mem := by
    have direct := (h.ready (by rw [stage]; rfl) k mem).1
    exact (h.queued rest stage k mem).imp_right (queue (by rw [stage]; rfl) k mem direct)
  told := h.told

theorem Fed.answered {l : List Nat} (stage : t.stage = .left (some l))
    (told : l ≠ [] → l.length < t.maxevents → ∀ k ∈ t.kept, k ∈ l) : Fed s t where
  ready in_ := by rw [stage] at in_; cases in_
  watched in_ := by rw [stage] at in_; cases in_
  queued rest is := by rw [stage] at is; cases is
  told l' is := by
    rw [stage] at is
    cases is
    exact told

theorem Fed.turning (in_ : t.stage.inside = true) (quiet : t.stage.produces = false)
    (ready : ∀ k ∈ t.kept, s.direct k = true ∧ s.level k = true)
    (watched : t.stage.listed = true → ∀ k ∈ t.kept, k ∈ t.watch) : Fed s t where
  ready _ := ready
  watched := watched
  queued rest is := by rw [is] at quiet; cases quiet
  told l is := by rw [is] at in_; cases in_

theorem FedOn.modify (h : FedOn p s) {f : Thread → Thread} (others : ∀ j, j ≠ i → q j → p j)
    (own : ∀ t, s.threads[i]? = some t → q i → (p i → Fed s t) → Fed s (f t)) :
    FedOn q (s.modifyThread i f) := by
  intro j u at_ holds
  change (s.threads.modify i f)[j]? = some u at at_
  have fed : Fed s u := by
    by_cases same : i = j
    · subst same
      rw [List.getElem?_modify_eq] at at_
      obtain ⟨t, before, rfl⟩ := Option.map_eq_some_iff.mp at_
      exact own t before holds (h i t before)
    · rw [List.getElem?_modify] at at_
      simp only [same, if_false] at at_
      exact h j u (by simpa using at_) (others j (Ne.symm same) holds)
  exact ⟨fed.ready, fed.watched, fed.queued, fed.told⟩

theorem FedOn.wake (h : FedOn p s) (w : Option Nat) : FedOn p (s.wake w) := by
  cases w with
  | none => exact h
  | some w =>
    refine h.modify (fun _ _ => id) fun t _ holds fed => ?_
    exact ⟨(fed holds).ready, (fed holds).watched, (fed holds).queued, (fed holds).told⟩

theorem FedOn.notify (h : FedOn p s) (n : Notifier) : FedOn p { s with notify := n } :=
  fun j u at_ holds => (h j u at_ holds).frame (fun _ _ direct level => ⟨direct, level⟩)
    fun _ _ _ _ mem => mem

theorem FedOn.notifyOne (h : FedOn p s) : FedOn p s.notifyOne := (h.notify _).wake _

theorem FedOn.drop (h : FedOn p s) (i : Nat) : FedOn p (s.drop i) := (h.notify _).wake _

theorem FedOn.enqueue (h : FedOn p s) (k : Nat) : FedOn p (s.enqueue k) := by
  unfold State.enqueue
  split
  · exact h
  · have queued : FedOn p { s with queue := s.queue ++ [k] } := fun j u at_ holds =>
      (h j u at_ holds).frame (fun _ _ direct level => ⟨direct, level⟩)
        fun _ _ _ _ mem => List.mem_append_left _ mem
    exact queued.notifyOne

theorem FedOn.produce (h : FedOn p s) (k : Nat) : FedOn p (s.produce k) := by
  unfold State.produce
  split
  · exact h.enqueue k
  · exact h

theorem FedOn.own (h : FedOn (fun _ => True) s) {f : Thread → Thread}
    (own : ∀ t, s.threads[i]? = some t → Fed s t → Fed s (f t)) :
    FedOn (fun _ => True) (s.modifyThread i f) :=
  h.modify (fun _ _ => id) fun t at_ _ fed => own t at_ (fed trivial)

theorem FedOn.leave (h : FedOn (fun _ => True) s) (i : Nat) {o : Option (List Nat)}
    (none_ : ∀ l, o = some l → l = []) : FedOn (fun _ => True) (s.setStage i (.left o)) := by
  refine h.own fun t _ _ => ⟨fun in_ => (by cases in_), fun in_ => (by cases in_), ?_, ?_⟩
  · intro rest is
    cases is
  · intro l is some_
    cases is
    exact absurd (none_ l rfl) some_

theorem FedOn.drained (h : FedOn (fun _ => True) s) {queue : List Nat}
    (others : ∀ j u, s.threads[j]? = some u → j ≠ i → u.stage.produces = true → ∀ k ∈ u.kept,
      s.direct k = true → k ∈ s.queue → k ∈ queue) : FedOn (· ≠ i) { s with queue } :=
  fun j u at_ other => (h j u at_ trivial).frame (fun _ _ direct level => ⟨direct, level⟩)
    (others j u at_ other)

end Frames

/-! ## A thread's steps -/

section Steps

variable {s s' : State} {t : Thread} {i : Nat}

abbrev State.drained (s : State) (t : Thread) : List Nat × List Nat :=
  drainReadyEvents s.live t.maxevents s.queue

theorem others_unshared (alone : s.Unshared i) (j : Nat) (u : Thread) (at_ : s.threads[j]? = some u)
    (other : j ≠ i) (produces : u.stage.produces = true) : False := by
  have bound : j < s.threads.length := (List.getElem?_eq_some_iff.mp at_).1
  exact other (alone j bound (by rw [at_]; exact produces))

theorem told_drained (fed : Fed s t) (in_ : t.stage.inside = true)
    (queued : ∀ k ∈ t.kept, k ∈ s.queue) (room : (s.drained t).1.length < t.maxevents) :
    ∀ k ∈ t.kept, k ∈ (s.drained t).1 := fun k mem =>
  drainReadyEvents_complete room (queued k mem) (State.live_of_direct (fed.ready in_ k mem).1)

theorem fed_draining (h : FedOn (fun _ => True) s) (at_ : s.threads[i]? = some t)
    (stage : t.stage = .draining)
    (ok : s.queue.any s.live = false ∨ s.Unshared i ∧ s.AllQueued) (step : s.thread i t = some s') :
    FedOn (fun _ => True) s' := by
  have fed := h i t at_ trivial
  have inside : t.stage.inside = true := by rw [stage]; rfl
  rw [State.thread, stage] at step
  cases step
  have others : FedOn (· ≠ i) { s with queue := (s.drained t).2 } := by
    refine h.drained fun j u at_ other produces k _ direct mem => ?_
    obtain dead | ⟨alone, -⟩ := ok
    · have live := List.any_eq_true.mpr ⟨k, mem, State.live_of_direct direct⟩
      rw [dead] at live
      cases live
    · exact (others_unshared alone j u at_ other produces).elim
  refine others.modify (fun j other _ => other) fun u same _ _ => ?_
  obtain rfl : t = u := Option.some.inj (at_.symm.trans same)
  split
  · exact .turning rfl rfl (fed.ready inside) fun listed => (by cases listed)
  next some_ =>
    obtain ⟨k, mem⟩ := List.exists_mem_of_ne_nil _ some_
    obtain dead | ⟨-, queued⟩ := ok
    · have live := List.any_eq_true.mpr ⟨k, drainReadyEvents_sound mem⟩
      rw [dead] at live
      cases live
    · refine .answered rfl fun _ room => told_drained (t := t) fed inside (fun k mem => ?_) room
      obtain ⟨direct, level⟩ := fed.ready inside k mem
      exact queued k (State.mem_directSubs.mpr direct) level

theorem fed_redraining (h : FedOn (fun _ => True) s) (at_ : s.threads[i]? = some t)
    (stage : t.stage = .producing []) (alone : s.Unshared i) (step : s.thread i t = some s') :
    FedOn (fun _ => True) s' := by
  have fed := h i t at_ trivial
  have inside : t.stage.inside = true := by rw [stage]; rfl
  rw [State.thread, stage] at step
  cases step
  have others : FedOn (· ≠ i) { s with queue := (s.drained t).2 } :=
    h.drained fun j u at_ other produces => (others_unshared alone j u at_ other produces).elim
  split
  · refine others.modify (fun j other _ => other) fun u same _ _ => ?_
    obtain rfl : t = u := Option.some.inj (at_.symm.trans same)
    exact .turning rfl rfl (fed.ready inside) fun listed => (by cases listed)
  · obtain ⟨moved, after⟩ := drop_thread (s := { s with queue := (s.drained t).2 }) at_ i
    refine (others.drop i).modify (fun j other _ => other) fun u same _ _ => ?_
    obtain rfl := Option.some.inj (after.symm.trans same)
    refine .answered rfl fun _ room => told_drained (t := t) fed inside (fun k mem => ?_) room
    exact (fed.queued [] stage k mem).resolve_left List.not_mem_nil

theorem fed_producing {k : Nat} {rest : List Nat} (h : FedOn (fun _ => True) s)
    (at_ : s.threads[i]? = some t) (stage : t.stage = .producing (k :: rest)) :
    FedOn (fun _ => True) ((s.produce k).setStage i (.producing rest)) := by
  have fed := h i t at_ trivial
  refine (h.produce k).own fun u same after => ?_
  obtain ⟨moved, woken⟩ := produce_thread at_ k
  obtain rfl := Option.some.inj (woken.symm.trans same)
  have inside : t.stage.inside = true := by rw [stage]; rfl
  refine ⟨fun _ => after.ready inside, fun listed => (by cases listed), ?_, fun l is => (by cases is)⟩
  intro rest' is j mem
  cases is
  obtain listed | queued := after.queued _ stage j mem
  · obtain rfl | listed := List.mem_cons.mp listed
    · exact .inr (State.mem_produce (State.live_of_direct (fed.ready inside j mem).1))
    · exact .inl listed
  · exact .inr queued

theorem fed_goes_on (h : FedOn (fun _ => True) s) (at_ : s.threads[i]? = some t)
    {f : Thread → Thread} (in_ : t.stage.inside = true) (kept : (f t).kept = t.kept)
    (turns : (f t).stage.inside = true ∧ (f t).stage.produces = false)
    (watched : (f t).stage.listed = true →
      t.stage.listed = true ∧ (f t).watch = t.watch ∨ (f t).watch = s.directSubs) :
    FedOn (fun _ => True) (s.modifyThread i f) := by
  refine h.own fun u same fed => ?_
  obtain rfl : t = u := Option.some.inj (at_.symm.trans same)
  refine .turning turns.1 turns.2 (kept ▸ fed.ready in_) fun listed k mem => ?_
  rw [kept] at mem
  obtain ⟨before, same⟩ | fresh := watched listed
  · rw [same]
    exact fed.watched before k mem
  · rw [fresh]
    exact State.mem_directSubs.mpr (fed.ready in_ k mem).1

theorem fed_thread (h : FedOn (fun _ => True) s) (at_ : s.threads[i]? = some t)
    (ok : LooksFirst s (.thread i)) (step : s.thread i t = some s') : FedOn (fun _ => True) s' := by
  cases stage : t.stage with
  | draining => exact fed_draining h at_ stage ((ok t at_).1 stage) step
  | reading =>
    rw [State.thread, stage] at step
    cases step
    exact fed_goes_on h at_ (by rw [stage]; rfl) rfl ⟨rfl, rfl⟩ fun listed => (by cases listed)
  | capturing =>
    rw [State.thread, stage] at step
    cases step
    exact fed_goes_on h at_ (by rw [stage]; rfl) rfl ⟨rfl, rfl⟩ fun _ => .inl ⟨by rw [stage]; rfl, rfl⟩
  | looking | comparing =>
    rw [State.thread, stage] at step
    cases step
    refine fed_goes_on h at_ (by rw [stage]; rfl) rfl ?_ fun _ => .inl ⟨by rw [stage]; rfl, rfl⟩
    dsimp only
    split <;> exact ⟨rfl, rfl⟩
  | scanning =>
    rw [State.thread, stage] at step
    dsimp only at step
    split at step
    · cases step
      exact h.leave i fun l is => (by cases is)
    · split at step <;> cases step
      exact fed_goes_on h at_ (by rw [stage]; rfl) rfl ⟨rfl, rfl⟩ fun _ => .inr rfl
  | checking | comparingWord =>
    rw [State.thread, stage] at step
    cases step
    split <;> exact fed_goes_on h at_ (by rw [stage]; rfl) rfl ⟨rfl, rfl⟩ fun _ =>
      .inl ⟨by rw [stage]; rfl, rfl⟩
  | polling =>
    rw [State.thread, stage] at step
    cases step
    have notified := h.notify (s.notify.poll i).1
    refine fed_goes_on notified at_ (f := fun t => { t with stage := _ }) (by rw [stage]; rfl) rfl ?_
      fun _ => .inl ⟨by rw [stage]; rfl, rfl⟩
    dsimp only
    split <;> exact ⟨rfl, rfl⟩
  | asleep =>
    rw [State.thread, stage] at step
    dsimp only at step
    split at step
    · cases step
      refine h.own fun u same fed => ?_
      obtain rfl : t = u := Option.some.inj (at_.symm.trans same)
      have ready := fed.ready (by rw [stage]; rfl)
      refine ⟨fun _ => ready, fun listed => (by cases listed), ?_, fun l is => (by cases is)⟩
      intro rest is k mem
      cases is
      exact .inl (List.mem_filter.mpr ⟨fed.watched (by rw [stage]; rfl) k mem, (ready k mem).2⟩)
    · split at step <;> cases step
      exact fed_goes_on h at_ (by rw [stage]; rfl) rfl ⟨rfl, rfl⟩ fun listed => (by cases listed)
  | producing ready =>
    cases ready with
    | nil => exact fed_redraining h at_ stage ((ok t at_).2 stage) step
    | cons k rest =>
      rw [State.thread, stage] at step
      cases step
      exact fed_producing h at_ stage
  | dropping =>
    rw [State.thread, stage] at step
    cases step
    obtain ⟨moved, after⟩ := drop_thread at_ i
    have inside : t.stage.inside = true := by rw [stage]; rfl
    exact fed_goes_on (h.drop i) after inside rfl ⟨rfl, rfl⟩ fun listed => (by cases listed)
  | left o =>
    rw [State.thread, stage] at step
    cases step

end Steps

/-! ## Steps of the others -/

section Outside

variable {s s' : State}

theorem FedOn.lapse (h : FedOn (fun _ => True) s) (k : Nat) {f : Sub → Sub} (generation : Nat) :
    FedOn (fun _ => True) { (s.lapse k).modifySub k f with generation } := by
  intro i t at_ _
  change (s.threads.map _)[i]? = some t at at_
  rw [List.getElem?_map] at at_
  obtain ⟨u, before, rfl⟩ := Option.map_eq_some_iff.mp at_
  have fed := h i u before trivial
  have other : ∀ j, j ∈ u.kept.filter (· ≠ k) → j ∈ u.kept ∧ k ≠ j := fun j mem => by
    obtain ⟨mem, ne⟩ := List.mem_filter.mp mem
    exact ⟨mem, fun same => by simp [same] at ne⟩
  have same : ∀ j, k ≠ j → (s.subs.modify k f)[j]? = s.subs[j]? := fun j ne => by
    rw [List.getElem?_modify]
    simp [ne]
  refine ⟨fun in_ j mem => ?_, fun listed j mem => fed.watched listed j (other j mem).1,
    fun rest is j mem => fed.queued rest is j (other j mem).1,
    fun l is some_ room j mem => fed.told l is some_ room j (other j mem).1⟩
  obtain ⟨mem, ne⟩ := other j mem
  have ready := fed.ready in_ j mem
  rw [State.direct, State.level] at ready ⊢
  change ((s.subs.modify k f)[j]?).any _ = true ∧ ((s.subs.modify k f)[j]?).any _ = true
  rw [same j ne]
  exact ready

theorem FedOn.subs (h : FedOn (fun _ => True) s) {subs : List Sub} {generation : Nat}
    (ready : ∀ k, s.direct k = true → s.level k = true →
      { s with subs }.direct k = true ∧ { s with subs }.level k = true) :
    FedOn (fun _ => True) { s with subs, generation } :=
  fun i t at_ _ => (h i t at_ trivial).frame (fun k _ direct level => ready k direct level)
    fun _ _ _ _ mem => mem

end Outside

theorem fed_step {s t : State} {e : Event} (h : FedOn (fun _ => True) s) (ok : LooksFirst s e)
    (step : s.step e = some t) : FedOn (fun _ => True) t := by
  cases e with
  | thread i =>
    obtain ⟨u, at_, step⟩ := Option.bind_eq_some_iff.mp step
    exact fed_thread h at_ ok step
  | errno i =>
    obtain ⟨-, ⟨⟩⟩ := guarded step
    exact (h.drop i).leave i fun l is => (by cases is)
  | call i maxevents =>
    obtain ⟨room, ⟨⟩⟩ := (Option.dite_none_right_eq_some ..).mp step
    refine h.own fun u at_ fed => .turning rfl rfl (fun k mem => ?_) fun listed => (by cases listed)
    obtain ⟨mem, level⟩ := List.mem_filter.mp mem
    exact ⟨State.mem_directSubs.mp mem, level⟩
  | expire i =>
    obtain ⟨-, ⟨⟩⟩ := guarded step
    exact (h.drop i).leave i fun l is => (by cases is; rfl)
  | giveUp i =>
    obtain ⟨-, ⟨⟩⟩ := guarded step
    intro j u at_ _
    change (List.map _ _)[j]? = some u at at_
    rw [List.getElem?_map] at at_
    obtain ⟨v, -, rfl⟩ := Option.map_eq_some_iff.mp at_
    exact ⟨fun _ k mem => (by cases mem), fun _ k mem => (by cases mem),
      fun _ _ k mem => (by cases mem), fun _ _ _ _ k mem => (by cases mem)⟩
  | enqueue k =>
    cases step
    exact h.enqueue k
  | add direct =>
    cases step
    have added : FedOn (fun _ => True)
        { s with subs := s.subs ++ [⟨true, direct, false⟩], generation := s.generation + 1 } := by
      refine h.subs fun k direct level => ?_
      have bound : k < s.subs.length := List.mem_range.mp
        (List.mem_filter.mp (State.mem_directSubs.mpr direct)).1
      rw [State.direct, State.level, List.getElem?_append_left bound]
      exact ⟨direct, level⟩
    split
    · exact added.notifyOne
    · exact added
  | delete k | demote k =>
    cases step
    exact h.lapse k _
  | fall k =>
    cases step
    exact h.lapse k s.generation
  | rise k =>
    cases step
    refine h.subs fun j direct level => ?_
    rw [State.direct] at direct
    rw [State.level] at level
    rw [State.direct, State.level, List.getElem?_modify]
    cases sub : s.subs[j]? with
    | none => rw [sub] at direct; cases direct
    | some sub' =>
      rw [sub] at direct level
      rw [Option.map_eq_map, Option.map_some]
      by_cases same : k = j
      · rw [if_pos same]
        exact ⟨direct, rfl⟩
      · rw [if_neg same]
        exact ⟨direct, level⟩
  | signal i =>
    cases step
    exact h.own fun u _ fed => ⟨fed.ready, fed.watched, fed.queued, fed.told⟩

/-- **A socket that stays ready is reported by a call that looks first.** In every run whose steps
all meet the condition, a call that is answered with at least one event and fewer than it has room
for was told of every direct-served subscription that was ready from before the call on. -/
theorem ready_socket_told {s : State} (run : directEpoll.ReachableBy LooksFirst s) :
    ∀ t ∈ s.threads, t.Told := by
  have fed : FedOn (fun _ => True) s := by
    refine run.invariant (P := FedOn fun _ => True) ?_
      fun s e t _ fed ok step => fed_step fed ok step
    rintro _ ⟨n, rfl⟩ i t at_ -
    obtain rfl := List.eq_of_mem_replicate (List.mem_of_getElem? at_)
    exact ⟨fun _ k mem => (by cases mem), fun _ k mem => (by cases mem),
      fun _ _ k mem => (by cases mem), fun _ _ _ _ k mem => (by cases mem)⟩
  intro t mem
  obtain ⟨i, bound, rfl⟩ := List.mem_iff_getElem.mp mem
  exact (fed i _ (List.getElem?_eq_getElem bound) trivial).told

def socketAndSource : List Event := [.add true, .rise 0, .add false]

/-- The source reports while the call waits. -/
theorem ready_socket_told_with_source : ∃ s, directEpoll.ReachableBy LooksFirst s ∧
    s.threads.map (fun t => (t.stage, t.maxevents, t.kept)) = [(.left (some [1, 0]), 3, [0])] ∧
    ∀ t ∈ s.threads, t.Told := by
  obtain ⟨s, reach, answered⟩ : ∃ s, directEpoll.ReachableBy LooksFirst s ∧
      s.threads.map (fun t => (t.stage, t.maxevents, t.kept)) = [(.left (some [1, 0]), 3, [0])] :=
    System.exists_reachableBy_of_runBy (s := { threads := List.replicate 1 {} })
      (l := socketAndSource ++ [.call 0 3] ++ List.replicate 15 (.thread 0) ++ [.enqueue 1] ++
        List.replicate 3 (.thread 0)) (.init ⟨1, rfl⟩) (by decide +kernel)
  exact ⟨s, reach, answered, ready_socket_told reach⟩

/-- The source reports before each call: a call has room for three events, and is told of the source
alone, again and again. -/
theorem busy_source_hides_socket : ¬ ∀ s, directEpoll.Reachable s → ∀ t ∈ s.threads, t.Told := by
  intro claim
  obtain ⟨s, reach, answered⟩ : ∃ s, directEpoll.Reachable s ∧
      s.threads.map (fun t => (t.stage, t.maxevents, t.kept)) = [(.left (some [1]), 3, [0])] :=
    System.exists_reachable_of_run (s := { threads := List.replicate 1 {} })
      (l := socketAndSource ++ [.enqueue 1, .call 0 3, .thread 0, .enqueue 1, .call 0 3, .thread 0])
      (.init ⟨1, rfl⟩) (by decide +kernel)
  obtain ⟨t, threads, is⟩ := List.map_eq_singleton_iff.mp answered
  obtain ⟨stage, maxevents, kept⟩ : t.stage = .left (some [1]) ∧ t.maxevents = 3 ∧ t.kept = [0] := by
    simpa using is
  have told := claim s reach t (by rw [threads]; exact .head _) [1] stage (by decide)
    (by rw [maxevents]; decide) 0 (by rw [kept]; exact .head _)
  cases told with
  | tail _ rest => cases rest

end ServiceCache.DirectEpoll
