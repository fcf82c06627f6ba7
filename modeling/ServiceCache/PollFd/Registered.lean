import Mathlib.Data.List.Nodup
import Mathlib.Data.List.Perm.Basic
import ServiceCache.PollFd.Steps

/-!
# The table of waiters

The table holds one entry for each thread between `register` and `unregister`, and the count is
the table's length except under the lock of a thread that changes both.
-/

namespace ServiceCache.PollFd

open Function
open Transition

/-! ## `swap_remove` -/

theorem swapRemove_perm {α : Type} {l : List α} {k : Nat} (bound : k < l.length) :
    (swapRemove l k).Perm (l.eraseIdx k) := by
  obtain ⟨init, last, rfl⟩ : ∃ init last, l = init ++ [last] :=
    ⟨l.dropLast, l.getLast (List.ne_nil_of_length_pos (by omega)),
      (List.dropLast_append_getLast _).symm⟩
  rw [List.length_append, List.length_singleton] at bound
  simp only [swapRemove, List.getLast?_append_cons, List.getLast?_singleton]
  by_cases inner : k < init.length
  · rw [List.set_append_left _ _ inner, List.dropLast_concat,
      List.eraseIdx_append_of_lt_length inner]
    exact (List.set_perm_cons_eraseIdx inner last).trans (List.perm_append_singleton ..).symm
  · obtain rfl : k = init.length := by omega
    simp [List.eraseIdx_append_of_length_le]

theorem State.unregister_perm (s : State) (w : Waiter) :
    (s.unregister w).Perm (s.waiters.erase w) := by
  rw [State.unregister, List.erase_eq_eraseIdx]
  cases found : s.waiters.idxOf? w with
  | none => exact .refl _
  | some k => exact swapRemove_perm (List.idxOf?_eq_some_iff.mp found).1

/-! ## Places -/

inductive Place
  | out
  | adding
  | listed
  | removing
  deriving DecidableEq

@[simp] def Place.inTable : Place → Bool
  | .adding | .listed => true
  | .out | .removing => false

@[simp] def Place.holds : Place → Bool
  | .adding | .removing => true
  | .out | .listed => false

@[simp] def Stage.place : Stage → Place
  | .outside _ | .registering => .out
  | .counting => .adding
  | .uncounting _ => .removing
  | .draining | .loadingGate | .loadingWord | .reading | .entering .. | .blocked ..
  | .unregistering _ => .listed

def State.place (s : State) (i : Nat) : Place := (s.threads i).stage.place

@[simp] def Waker.writes : Waker → Bool
  | .writing .. => true
  | _ => false

structure Table (s : State) : Prop where
  threads : ∀ i, (s.place i).holds = true ↔ s.lock = some (.thread i)
  wakers : ∀ j, (s.wakers j).writes = true ↔ s.lock = some (.waker j)
  nodup : s.waiters.Nodup
  entries : ∀ e, e ∈ s.waiters ↔ (s.place e.interrupt).inTable = true ∧ e = s.entry e.interrupt
  counted : (∀ i, (s.place i).holds = false) → s.count = s.waiters.length
  adding : ∀ i, s.place i = .adding → s.count + 1 = s.waiters.length
  removing : ∀ i, s.place i = .removing → s.count = s.waiters.length + 1

section Steps

variable {s s' : State} {i j : Nat} {f : Thread → Thread}

theorem Table.keep (h : Table s) (waiters : s'.waiters = s.waiters) (count : s'.count = s.count)
    (lock : s'.lock = s.lock) (place : ∀ i, s'.place i = s.place i)
    (entry : ∀ i, (s.place i).inTable = true → s'.entry i = s.entry i)
    (wakers : ∀ j, (s'.wakers j).writes = (s.wakers j).writes) : Table s' where
  threads i := by rw [place, lock]; exact h.threads i
  wakers j := by rw [wakers, lock]; exact h.wakers j
  nodup := by rw [waiters]; exact h.nodup
  entries e := by
    rw [waiters, place, h.entries e]
    refine and_congr_right fun in_ => ?_
    rw [entry _ in_]
  counted free := by
    rw [waiters, count]
    exact h.counted fun i => (place i) ▸ free i
  adding i is := by rw [waiters, count]; exact h.adding i ((place i) ▸ is)
  removing i is := by rw [waiters, count]; exact h.removing i ((place i) ▸ is)

theorem Table.modify (h : Table s) (place : (f (s.threads i)).stage.place = s.place i)
    (word : (s.place i).inTable = true → (f (s.threads i)).word.address = (s.threads i).word.address) :
    Table (s.modify i f) := by
  refine h.keep rfl rfl rfl (fun k => ?_) (fun k in_ => ?_) fun _ => rfl
  · by_cases same : k = i
    · rw [State.place, same, State.modify_self, place]
    · rw [State.place, State.modify_of_ne same, State.place]
  · by_cases same : k = i
    · subst same
      rw [State.entry, State.modify_self, word in_, State.entry]
    · rw [State.entry, State.modify_of_ne same, State.entry]

theorem State.place_setStage (stage : Stage) :
    (s.setStage i stage).place j = if j = i then stage.place else s.place j := by
  split
  next same => rw [State.place, same, State.setStage, State.modify_self]
  next ne => rw [State.place, State.setStage, State.modify_of_ne ne, State.place]

theorem State.entry_setStage (stage : Stage) : (s.setStage i stage).entry j = s.entry j := by
  by_cases same : j = i
  · rw [State.entry, same, State.setStage, State.modify_self, State.entry]
  · rw [State.entry, State.setStage, State.modify_of_ne same, State.entry]

theorem Table.free (h : Table s) (lock : s.lock = none) (k : Nat) : (s.place k).holds = false := by
  refine eq_false_of_ne_true fun holds => ?_
  rw [h.threads k, lock] at holds
  cases holds

theorem Table.alone (h : Table s) (lock : s.lock = some (.thread i)) (ne : j ≠ i) :
    (s.place j).holds = false := by
  refine eq_false_of_ne_true fun holds => ?_
  rw [h.threads j, lock] at holds
  cases holds
  exact ne rfl

theorem Table.pass {waiters : List Waiter} {count : Nat} {lock : Option Holder} {stage : Stage}
    (others : ∀ j, j ≠ i → (s.place j).holds = false) (writers : ∀ j, (s.wakers j).writes = false)
    (taken : lock = if stage.place.holds then some (.thread i) else none) (nodup : waiters.Nodup)
    (entries : ∀ e, e ∈ waiters ↔
      (if e.interrupt = i then stage.place else s.place e.interrupt).inTable = true ∧
        e = s.entry e.interrupt)
    (counted : stage.place.holds = false → count = waiters.length)
    (adding : stage.place = .adding → count + 1 = waiters.length)
    (removing : stage.place = .removing → count = waiters.length + 1) :
    Table ({ s with waiters, count, lock }.setStage i stage) where
  threads j := by
    rw [State.place_setStage]
    change _ ↔ lock = _
    rw [taken]
    by_cases same : j = i
    · subst same
      cases stage.place <;> simp
    · rw [if_neg same]
      change (s.place j).holds = true ↔ _
      rw [others j same]
      cases stage.place <;> simp [Ne.symm same]
  wakers j := by
    change (s.wakers j).writes = true ↔ lock = _
    rw [writers j, taken]
    cases stage.place <;> simp
  nodup := nodup
  entries e := by
    rw [State.place_setStage, State.entry_setStage]
    exact entries e
  counted free := by
    have own := free i
    rw [State.place_setStage, if_pos rfl] at own
    exact counted own
  adding j is := by
    rw [State.place_setStage] at is
    split at is
    · exact adding is
    next ne =>
      have free : (s.place j).holds = false := others j ne
      rw [show s.place j = .adding from is] at free
      cases free
  removing j is := by
    rw [State.place_setStage] at is
    split at is
    · exact removing is
    next ne =>
      have free : (s.place j).holds = false := others j ne
      rw [show s.place j = .removing from is] at free
      cases free

theorem Table.not_writing (h : Table s) (lock : ∀ k, s.lock ≠ some (.waker k)) (j : Nat) :
    (s.wakers j).writes = false :=
  eq_false_of_ne_true fun writes => lock j ((h.wakers j).mp writes)

theorem Table.register (h : Table s) (stage : (s.threads i).stage = .registering)
    (lock : s.lock = none) :
    Table ({ s with
      lock := some (.thread i), waiters := s.waiters ++ [s.entry i] }.setStage i .counting) := by
  have out : s.place i = .out := by rw [State.place, stage]; rfl
  have new : s.entry i ∉ s.waiters := fun mem => by
    have in_ := ((h.entries _).mp mem).1
    rw [show (s.entry i).interrupt = i from rfl, out] at in_
    cases in_
  refine Table.pass (fun j _ => h.free lock j) (h.not_writing (by simp [lock])) rfl ?_ (fun e => ?_)
    (fun free => by cases free) (fun _ => ?_) nofun
  · rw [← List.concat_eq_append]
    exact h.nodup.concat new
  · rw [List.mem_append, List.mem_singleton, h.entries e]
    split
    next same =>
      subst same
      rw [out]
      simp
    next ne =>
      refine or_iff_left fun is => ne ?_
      rw [is]
      rfl
  · rw [List.length_append, h.counted (h.free lock)]
    rfl

theorem Table.unregister (h : Table s) {r : HostPollFdResult}
    (stage : (s.threads i).stage = .unregistering r) (lock : s.lock = none) :
    Table ({ s with
      lock := some (.thread i), waiters := s.unregister (s.entry i) }.setStage i (.uncounting r)) := by
  have listed : s.place i = .listed := by rw [State.place, stage]; rfl
  have mem : s.entry i ∈ s.waiters :=
    (h.entries _).mpr ⟨by rw [show (s.entry i).interrupt = i from rfl, listed]; rfl, rfl⟩
  have perm := s.unregister_perm (s.entry i)
  refine Table.pass (fun j _ => h.free lock j) (h.not_writing (by simp [lock])) rfl ?_ (fun e => ?_)
    (fun free => by cases free) nofun fun _ => ?_
  · exact perm.nodup_iff.mpr (h.nodup.erase _)
  · rw [perm.mem_iff, h.nodup.mem_erase_iff, h.entries e]
    split
    next same =>
      subst same
      simp
      exact fun ne _ => ne
    next ne =>
      refine and_iff_right_of_imp fun _ is => ne ?_
      rw [is]
      rfl
  · have length := List.length_erase_of_mem mem
    have pos := List.length_pos_of_mem mem
    rw [perm.length_eq, length, h.counted (h.free lock)]
    omega

theorem Table.store (h : Table s) {stage : Stage} (held : (s.place i).holds = true)
    (free : stage.place.holds = false) (same : stage.place.inTable = (s.place i).inTable) :
    Table ({ s with count := s.waiters.length, lock := none }.setStage i stage) := by
  have lock := (h.threads i).mp held
  refine Table.pass (fun j ne => h.alone lock ne) (h.not_writing (by simp [lock])) ?_ h.nodup
    (fun e => ?_) (fun _ => rfl) (fun is => ?_) fun is => ?_
  · rw [free]
    rfl
  · rw [h.entries e]
    split
    next is => rw [same, is]
    · rfl
  · rw [is] at free
    cases free
  · rw [is] at free
    cases free

theorem Table.waker (h : Table s) {lock : Option Holder} {w : Waker} {finished : List Wake}
    (free : ∀ i, (s.place i).holds = false) (others : ∀ k, k ≠ j → (s.wakers k).writes = false)
    (taken : lock = if w.writes then some (.waker j) else none) :
    Table { s.setWaker j w with lock, finished } :=
  { h with
    threads i := by
      change (s.place i).holds = true ↔ lock = _
      rw [free i, taken]
      cases w.writes <;> simp
    wakers k := by
      change (update s.wakers j w k).writes = true ↔ lock = _
      rw [taken]
      by_cases same : k = j
      · subst same
        rw [update_self]
        cases w.writes <;> simp
      · rw [update_of_ne same, others k same]
        cases w.writes <;> simp [Ne.symm same] }

theorem Table.setStage (h : Table s) {stage : Stage} (place : stage.place = s.place i) :
    Table (s.setStage i stage) :=
  h.modify place fun _ => rfl

theorem Table.setWaker (h : Table s) {w : Waker} (writes : w.writes = (s.wakers j).writes) :
    Table (s.setWaker j w) := by
  refine h.keep rfl rfl rfl (fun _ => rfl) (fun _ _ => rfl) fun k => ?_
  change (update s.wakers j w k).writes = _
  by_cases same : k = j
  · rw [same, update_self, writes]
  · rw [update_of_ne same]

end Steps

theorem Thread.drain_spec (t : Thread) : t.drain.stage = .loadingGate ∧ t.drain.word = t.word := by
  unfold Thread.drain
  split <;> exact ⟨rfl, rfl⟩

theorem Thread.answer_spec (t : Thread) (conditions : List (BitVec 16 × Bool)) :
    ((t.answer conditions).stage = .draining ∨ (t.answer conditions).stage = .unregistering .ready) ∧
      (t.answer conditions).word = t.word := by
  unfold Thread.answer
  dsimp only
  split
  · exact ⟨.inr rfl, rfl⟩
  · exact ⟨.inl rfl, rfl⟩

theorem table_step {s s' : State} (h : Table s) (move : Move s s') : Table s' := by
  cases move with
  | refuses i support out =>
    obtain ⟨r, is⟩ := Stage.eq_of_isOutside out
    have same : Table { s with support } := h.keep rfl rfl rfl (fun _ => rfl) (fun _ _ => rfl) fun _ => rfl
    exact same.setStage (by rw [State.place, is]; rfl)
  | enters i request out =>
    obtain ⟨r, is⟩ := Stage.eq_of_isOutside out
    have place : s.place i = .out := by rw [State.place, is]; rfl
    exact h.modify place.symm fun in_ => by rw [place] at in_; cases in_
  | registers i stage lock => exact h.register stage lock
  | counts i stage | returns i r stage =>
    exact h.store (by rw [State.place, stage]; rfl) rfl (by rw [State.place, stage]; rfl)
  | drains i stage =>
    obtain ⟨drained, word⟩ := (s.threads i).drain_spec
    exact h.modify (by rw [drained, State.place, stage]; rfl) fun _ => by rw [word]
  | loadsGate i stage | loadsWord i stage | reads i stage | blocks i read timeout stage
  | signalled i read entered timeout stage | timesOut i read entered timeout stage =>
    exact h.setStage (by rw [State.place, stage]; rfl)
  | gives i r support stage result =>
    have same : Table { s with support } := h.keep rfl rfl rfl (fun _ => rfl) (fun _ _ => rfl) fun _ => rfl
    refine same.setStage ?_
    obtain stage | stage | ⟨read, entered, timeout, stage⟩ := stage <;> rw [State.place, stage] <;> rfl
  | answers i read entered timeout conditions stage =>
    obtain ⟨next, word⟩ := (s.threads i).answer_spec conditions
    refine h.modify ?_ fun _ => by rw [word]
    rw [State.place, stage]
    obtain next | next := next <;> rw [next] <;> rfl
  | unregisters i r stage lock => exact h.unregister stage lock
  | closes i out =>
    obtain ⟨stage, word⟩ := (s.threads i).close_spec
    exact h.modify (by rw [stage, State.place]) fun _ => by rw [word]
  | wakes j address idle => exact h.setWaker (by rw [idle]; rfl)
  | sees j w stage => exact h.setWaker (by rw [stage]; rfl)
  | skips j w e todo stage => exact h.setWaker (by rw [stage]; rfl)
  | writes j w e todo stage =>
    obtain ⟨same, word, -⟩ := (s.threads e.interrupt).write_spec
    have written : Table (s.modify e.interrupt Thread.write) :=
      h.modify (by rw [same, State.place]) fun _ => by rw [word]
    exact written.setWaker (by change _ = (s.wakers j).writes; rw [stage]; rfl)
  | passes j w stage =>
    have idle : Table (s.setWaker j .idle) := h.setWaker (by rw [stage]; rfl)
    exact idle.keep rfl rfl rfl (fun _ => rfl) (fun _ _ => rfl) fun _ => rfl
  | locks j w stage lock =>
    exact h.waker (h.free lock) (fun k _ => h.not_writing (by simp [lock]) k) rfl
  | unlocks j w stage =>
    have lock := (h.wakers j).mp (by rw [stage]; rfl)
    refine h.waker (fun i => ?_) (fun k ne => ?_) rfl
    · refine eq_false_of_ne_true fun holds => ?_
      rw [h.threads i, lock] at holds
      cases holds
    · refine eq_false_of_ne_true fun writes => ne ?_
      rw [h.wakers k, lock] at writes
      cases writes
      rfl
  | changes address value =>
    refine h.keep rfl rfl rfl (fun _ => rfl) (fun i _ => ?_) fun _ => rfl
    exact congrArg (Waiter.mk · i) (Watch.note_address ..)
  | passesTime now support =>
    exact h.keep rfl rfl rfl (fun _ => rfl) (fun _ _ => rfl) fun _ => rfl

theorem table {s : State} (reach : pollfd.Reachable s) : Table s := by
  refine reach.invariant (P := Table) ?_ fun s e t _ table _ step => table_step table (step_move step)
  rintro _ ⟨eventfd, undrained, words, rfl⟩
  exact ⟨fun i => by simp [State.place], fun j => by simp, .nil, fun e => by simp [State.place],
    fun _ => rfl, fun i is => (by cases is), fun i is => (by cases is)⟩

theorem Table.count_pos {s : State} {i : Nat} (h : Table s) (listed : s.place i = .listed) :
    0 < s.count := by
  have mem : s.entry i ∈ s.waiters :=
    (h.entries _).mpr ⟨by rw [show (s.entry i).interrupt = i from rfl, listed]; rfl, rfl⟩
  have pos := List.length_pos_of_mem mem
  by_cases free : ∀ k, (s.place k).holds = false
  · rw [h.counted free]
    exact pos
  · obtain ⟨k, holds⟩ := not_forall.mp free
    cases place : s.place k with
    | out | listed => rw [place] at holds; exact absurd rfl holds
    | removing =>
      rw [h.removing k place]
      omega
    | adding =>
      -- the entry of the thread with the lock, and this one
      have other : s.entry k ∈ s.waiters :=
        (h.entries _).mpr ⟨by rw [show (s.entry k).interrupt = k from rfl, place]; rfl, rfl⟩
      have ne : s.entry i ≠ s.entry k := fun same => by
        obtain rfl : i = k := congrArg Waiter.interrupt same
        rw [listed] at place
        cases place
      have two : 2 ≤ s.waiters.length := by
        have sub : [s.entry i, s.entry k] ⊆ s.waiters := by simp [mem, other]
        have nodup : [s.entry i, s.entry k].Nodup := by simp [ne]
        exact (List.subperm_of_subset nodup sub).length_le
      have one := h.adding k place
      omega

end ServiceCache.PollFd
