import Mathlib.Algebra.GroupWithZero.Nat
import Mathlib.Order.Lattice
import ServiceCache.Epoll.Direct

/-!
# Direct waiters settle

With nothing new from outside, every turn a thread still makes is paid for: by a readiness in the
queue, by a change that the thread has not seen, or by a notification. A thread that goes round
drops its `Notified` unpolled, which hands a notification on to the next waiter.
-/

namespace ServiceCache.DirectEpoll

open Transition Notify

/-! ## Sums over the threads -/

section Sums

variable {l : List Thread} {t : Thread} {i c : Nat} {f : Thread → Thread} {g g' : Thread → Nat}

theorem sum_map_modify (at_ : l[i]? = some t) (f : Thread → Thread) (g : Thread → Nat) :
    ((l.modify i f).map g).sum + g t = (l.map g).sum + g (f t) := by
  induction l generalizing i with
  | nil => cases at_
  | cons u l ih =>
    cases i with
    | zero =>
      cases at_
      simp only [List.modify_zero_cons, List.map_cons, List.sum_cons]
      omega
    | succ i =>
      have rest := ih at_
      simp only [List.modify_succ_cons, List.map_cons, List.sum_cons]
      omega

theorem sum_map_modify_le (le : ∀ t, g (f t) ≤ g t + c) :
    ((l.modify i f).map g).sum ≤ (l.map g).sum + c := by
  cases at_ : l[i]? with
  | some t =>
    have sum := sum_map_modify at_ f g
    have one := le t
    omega
  | none =>
    rw [List.modify_eq_self (List.getElem?_eq_none_iff.mp at_)]
    omega

theorem sum_map_le (le : ∀ t, g' t ≤ g t + c) :
    (l.map g').sum ≤ (l.map g).sum + l.length * c := by
  induction l with
  | nil => simp
  | cons u l ih =>
    have one := le u
    simp only [List.map_cons, List.sum_cons, List.length_cons, Nat.add_mul]
    omega

end Sums

/-! ## What a thread may still cost -/

@[simp] def Stage.captured : Stage → Bool
  | .checking | .polling | .looking | .comparing | .comparingWord | .asleep => true
  | _ => false

@[simp] def Stage.compares : Stage → Bool
  | .scanning | .capturing | .checking | .polling | .looking | .comparing => true
  | _ => false

namespace State

variable (s : State)

def unit : Nat := 8 * s.threads.length + 20

def fresh : Nat := s.directSubs.length * s.unit + 2

def again : Nat := s.fresh + 11

def stake : Nat := s.threads.length * (s.again + 1) + 27

def ahead (t : Thread) : Nat :=
  let watched := max t.watch.length s.directSubs.length * s.unit + 2
  let queued := if s.queue = [] then 0 else 8
  match t.stage with
  | .dropping => s.again
  | .draining => s.fresh + 10
  | .reading => s.fresh + queued + 9
  | .scanning => s.fresh + queued + 8
  | .capturing => watched + queued + 7
  | .checking => watched + queued + 6
  | .polling => watched + queued + 5
  | .looking => watched + queued + 4
  | .comparing => watched + 3
  | .comparingWord => watched + 1
  | .asleep => watched
  | .producing ready =>
    ready.length * s.unit + 1 + if ready.any s.live || s.queue.any s.live then 0 else s.again
  | .left _ => 0

/-- The turns to come for what the thread has not seen: a signal, its word, a change of the set,
and a listed subscription that is gone. -/
def debts (t : Thread) : Nat :=
  (if t.signals then 12 else 0) + (if t.moved && t.stage.captured then 12 else 0) +
    (if t.stage.compares && s.generation != t.generation then 12 else 0) +
    if t.stage.listed && t.watch.any (!s.live ·) then s.again else 0

def cost (t : Thread) : Nat :=
  if t.stage.inside then s.stake + s.ahead t + s.debts t else 0

def rank : Nat := (s.threads.map s.cost).sum + s.notify.weight 7 6

end State

section Costs

variable {s s' : State} {t : Thread} {i : Nat}

theorem cost_congr (threads : s'.threads.length = s.threads.length) (live : s'.live = s.live)
    (directSubs : s'.directSubs = s.directSubs) (queue : s'.queue = s.queue)
    (generation : s'.generation = s.generation) : s'.cost = s.cost := by
  funext t
  simp only [State.cost, State.stake, State.ahead, State.debts, State.again, State.fresh, State.unit,
    threads, live, directSubs, queue, generation]

theorem State.again_le_stake : s.threads.length * s.again + 27 ≤ s.stake := by
  rw [State.stake, Nat.mul_add]
  omega

theorem cost_queue {q : List Nat} {c : Nat}
    (queued : (if q = [] then 0 else 8) ≤ (if s.queue = [] then 0 else 8) + c)
    (left_ : ∀ ready : List Nat, (if ready.any s.live || q.any s.live then 0 else s.again) ≤
      (if ready.any s.live || s.queue.any s.live then 0 else s.again) + c) (t : Thread) :
    { s with queue := q }.cost t ≤ s.cost t + c := by
  have ahead : { s with queue := q }.ahead t ≤ s.ahead t + c := by
    unfold State.ahead
    cases t.stage with
    | producing ready =>
      have one := left_ ready
      change ready.length * s.unit + 1 + (if ready.any s.live || q.any s.live then 0 else s.again) ≤ _
      dsimp only
      omega
    | reading | scanning =>
      change s.fresh + (if q = [] then 0 else 8) + _ ≤ _
      dsimp only
      omega
    | capturing | checking | polling | looking =>
      change max t.watch.length s.directSubs.length * s.unit + 2 + (if q = [] then 0 else 8) + _ ≤ _
      dsimp only
      omega
    | _ => exact Nat.le_add_right _ _
  change (if t.stage.inside then s.stake + { s with queue := q }.ahead t + s.debts t else 0) ≤ _
  rw [State.cost]
  split <;> omega

theorem rank_queue {q : List Nat} {c : Nat}
    (le : ∀ t, { s with queue := q }.cost t ≤ s.cost t + c) :
    { s with queue := q }.rank ≤ s.rank + s.threads.length * c := by
  have sum : (s.threads.map { s with queue := q }.cost).sum ≤ _ := sum_map_le le
  change (s.threads.map _).sum + s.notify.weight 7 6 ≤ _
  rw [State.rank]
  omega

theorem rank_drained (q : List Nat) :
    { s with queue := q }.rank ≤ s.rank + s.threads.length * s.again := by
  have large : 8 ≤ s.again := by rw [State.again]; omega
  refine rank_queue fun t => cost_queue ?_ (fun ready => ?_) t
  · split <;> split <;> omega
  · split <;> split <;> omega

theorem rank_emptied (none_ : s.queue.any s.live = false) :
    { s with queue := [] }.rank ≤ s.rank := by
  have le : { s with queue := [] }.rank ≤ s.rank + s.threads.length * 0 :=
    rank_queue fun t => cost_queue (by simp) (fun ready => by simp [none_]) t
  rwa [Nat.mul_zero] at le

theorem rank_queued {k : Nat} (live : s.live k = true) :
    { s with queue := s.queue ++ [k] }.rank ≤ s.rank + s.threads.length * 8 := by
  refine rank_queue fun t => cost_queue ?_ (fun ready => ?_) t
  · split <;> omega
  · simp [live]

/-! ## One thread goes on, and notifications -/

theorem rank_modifyThread (at_ : s.threads[i]? = some t) (f : Thread → Thread) :
    (s.modifyThread i f).rank + s.cost t = s.rank + s.cost (f t) := by
  have same : (s.modifyThread i f).cost = s.cost :=
    cost_congr (List.length_modify ..) rfl rfl rfl rfl
  have sum := sum_map_modify at_ f s.cost
  rw [State.rank, same, State.rank]
  change ((s.threads.modify i f).map s.cost).sum + s.notify.weight 7 6 + _ = _
  omega

theorem rank_notify (n : Notifier) :
    { s with notify := n }.rank + s.notify.weight 7 6 = s.rank + n.weight 7 6 := by
  rw [State.rank, State.rank]
  change (s.threads.map s.cost).sum + n.weight 7 6 + _ = _
  omega

theorem cost_moved (t : Thread) : s.cost { t with moved := true } ≤ s.cost t + 12 := by
  have debts : s.debts { t with moved := true } ≤ s.debts t + 12 := by
    have one : (if true && t.stage.captured then 12 else 0) ≤ 12 := by split <;> omega
    simp only [State.debts]
    omega
  change (if t.stage.inside then s.stake + s.ahead t + s.debts { t with moved := true } else 0) ≤ _
  rw [State.cost]
  split <;> omega

theorem rank_wake (w : Option Nat) : (s.wake w).rank ≤ s.rank + 12 := by
  cases w with
  | none => exact Nat.le_add_right _ _
  | some w =>
    have same : (s.wake (some w)).cost = s.cost :=
      cost_congr (List.length_modify ..) rfl rfl rfl rfl
    have sum : ((s.threads.modify w _).map s.cost).sum ≤ _ := sum_map_modify_le cost_moved
    rw [State.rank, same, State.rank]
    change ((s.threads.modify w fun t => { t with moved := true }).map s.cost).sum + _ ≤ _
    change _ + s.notify.weight 7 6 ≤ _
    omega

theorem rank_notifyOne : s.notifyOne.rank ≤ s.rank + 19 := by
  have woken := rank_wake (s := { s with notify := s.notify.notifyOne.1 }) s.notify.notifyOne.2
  have notified := rank_notify (s := s) s.notify.notifyOne.1
  have sent := s.notify.weight_notifyOne (show 6 ≤ 7 by omega)
  change ({ s with notify := s.notify.notifyOne.1 }.wake s.notify.notifyOne.2).rank ≤ _
  omega

theorem rank_drop (i : Nat) : (s.drop i).rank ≤ s.rank + 12 := by
  have woken := rank_wake (s := { s with notify := (s.notify.drop i).1 }) (s.notify.drop i).2
  have notified := rank_notify (s := s) (s.notify.drop i).1
  have handed := s.notify.weight_drop (show 6 ≤ 7 by omega) i
  change ({ s with notify := (s.notify.drop i).1 }.wake (s.notify.drop i).2).rank ≤ _
  omega

theorem rank_drop_alone (alone : i ∈ s.notify.notified → s.notify.waiters = []) :
    (s.drop i).rank ≤ s.rank ∧ (s.drop i).threads = s.threads := by
  have notified := rank_notify (s := s) (s.notify.drop i).1
  have dropped : (s.notify.drop i).1.weight 7 6 ≤ s.notify.weight 7 6 ∧
      (s.notify.drop i).2 = none := by
    by_cases mem : i ∈ s.notify.notified
    · obtain ⟨less, nobody⟩ := s.notify.drop_alone (show 6 < 7 by omega) mem (alone mem)
      exact ⟨Nat.le_of_lt less, nobody⟩
    · obtain ⟨same, nobody⟩ := s.notify.drop_unnotified mem
      exact ⟨Nat.le_of_eq same, nobody⟩
  obtain ⟨less, nobody⟩ := dropped
  rw [State.drop, nobody]
  change { s with notify := (s.notify.drop i).1 }.rank ≤ _ ∧ _
  exact ⟨by omega, rfl⟩

theorem State.fresh_le (t : Thread) :
    s.fresh ≤ max t.watch.length s.directSubs.length * s.unit + 2 :=
  Nat.add_le_add_right (Nat.mul_le_mul_right _ (Nat.le_max_right ..)) 2

theorem fresh_le_ahead (listed : t.stage.listed = true) : s.fresh ≤ s.ahead t := by
  have watched := State.fresh_le (s := s) t
  unfold State.ahead
  cases stage : t.stage with
  | capturing | checking | polling | looking | comparing | comparingWord | asleep =>
    dsimp only
    omega
  | _ =>
    rw [stage] at listed
    cases listed

theorem signals_le_debts : (if t.signals then 12 else 0) ≤ s.debts t := by
  rw [State.debts]
  omega

theorem owed_le_debts (owed : (t.moved && t.stage.captured) = true ∨
    (t.stage.compares && s.generation != t.generation) = true) :
    (if t.signals then 12 else 0) + 12 ≤ s.debts t := by
  rw [State.debts]
  obtain owed | owed := owed <;> rw [if_pos owed] <;> omega

theorem cost_back {t' : Thread} (in_ : t.stage.inside = true)
    (back : t'.stage = .dropping ∨ t'.stage = .draining) {c : Nat}
    (less : s.ahead t' + (if t'.signals then 12 else 0) < s.ahead t + s.debts t + c) :
    s.cost t' < s.cost t + c := by
  have debts : s.debts t' = if t'.signals then 12 else 0 := by
    obtain stage | stage := back <;> simp [State.debts, stage]
  have inside : t'.stage.inside = true := by
    obtain stage | stage := back <;> rw [stage] <;> rfl
  rw [State.cost, if_pos inside, State.cost, if_pos in_]
  omega

theorem cost_moved_back (captured : t.stage.captured = true) (listed : t.stage.listed = true)
    (moved : t.moved = true) :
    s.cost { t with stage := .dropping, signals := false } < s.cost t := by
  have ahead := fresh_le_ahead (s := s) listed
  have debts := owed_le_debts (s := s) (t := t) (.inl (by rw [moved, captured]; rfl))
  have inside : t.stage.inside = true := by
    cases stage : t.stage with
    | left o => rw [stage] at listed; cases listed
    | _ => rfl
  refine cost_back (c := 0) inside (.inl rfl) ?_
  change s.fresh + 11 + 0 < _
  omega

theorem rank_setStage (at_ : s.threads[i]? = some t) {stage : Stage}
    (less : s.cost { t with stage } < s.cost t) : (s.setStage i stage).rank < s.rank := by
  have sum := rank_modifyThread at_ fun t => { t with stage }
  change (s.modifyThread i fun t => { t with stage }).rank < _
  omega

theorem rank_leave (at_ : s.threads[i]? = some t) (in_ : t.stage.inside = true) (q : List Nat)
    (o : Option (List Nat)) : ({ s with queue := q }.setStage i (.left o)).rank + 27 ≤ s.rank := by
  have drained := rank_drained (s := s) q
  have sum := rank_modifyThread (s := { s with queue := q }) at_ fun t => { t with stage := .left o }
  have stake := State.again_le_stake (s := s)
  have paid : s.stake ≤ { s with queue := q }.cost t := by
    rw [State.cost, if_pos in_]
    change s.stake ≤ s.stake + _ + _
    omega
  have free : { s with queue := q }.cost { t with stage := .left o } = 0 := rfl
  change ({ s with queue := q }.modifyThread i fun t => { t with stage := .left o }).rank + 27 ≤ _
  omega

theorem rank_draining (at_ : s.threads[i]? = some t) (stage : t.stage = .draining)
    (step : s.thread i t = some s') : s'.rank < s.rank := by
  rw [State.thread, stage] at step
  dsimp only at step
  split at step
  next none_ =>
    cases step
    obtain ⟨empty, dead⟩ := drainReadyEvents_nil t.maxevents_pos none_
    rw [empty]
    have emptied := rank_emptied dead
    refine Nat.lt_of_lt_of_le (rank_setStage (s := { s with queue := [] }) at_ ?_) emptied
    simp [State.cost, State.ahead, State.debts, stage]
  · cases step
    have leaves := rank_leave at_ (by rw [stage]; rfl)
      (drainReadyEvents s.live t.maxevents s.queue).2
      (some (drainReadyEvents s.live t.maxevents s.queue).1)
    omega

theorem rank_own (at_ : s.threads[i]? = some t) {f : Thread → Thread} (less : s.cost (f t) < s.cost t) :
    (s.modifyThread i f).rank < s.rank := by
  have sum := rank_modifyThread at_ f
  omega

theorem rank_before_wait (at_ : s.threads[i]? = some t) (step : s.thread i t = some s')
    (stage : t.stage = .reading ∨ t.stage = .scanning ∨ t.stage = .capturing ∨
      t.stage = .checking) : s'.rank < s.rank := by
  have watched := State.fresh_le (s := s) t
  obtain stage | stage | stage | stage := stage
  · rw [State.thread, stage] at step
    cases step
    refine rank_own at_ ?_
    simp [State.cost, State.ahead, State.debts, stage]
  · rw [State.thread, stage] at step
    dsimp only at step
    split at step
    · cases step
      refine rank_setStage at_ ?_
      change 0 < s.cost t
      rw [State.cost, if_pos (by rw [stage]; rfl), State.stake]
      omega
    · split at step
      · cases step
        refine rank_own at_ ?_
        have alive : s.directSubs.any (!s.live ·) = false := by
          refine List.any_eq_false.mpr fun k mem => ?_
          simp [State.live_of_direct (State.mem_directSubs.mp mem)]
        simp [State.cost, State.ahead, State.debts, stage, State.fresh, alive]
      · cases step
  · rw [State.thread, stage] at step
    cases step
    refine rank_own at_ ?_
    simp [State.cost, State.ahead, State.debts, stage]
  · rw [State.thread, stage] at step
    dsimp only at step
    split at step
    next signals =>
      cases step
      have ahead := fresh_le_ahead (s := s) (t := t) (by rw [stage]; rfl)
      have debts := signals_le_debts (s := s) (t := t)
      rw [if_pos signals] at debts
      refine rank_own at_ (cost_back (c := 0) (by rw [stage]; rfl) (.inr rfl) ?_)
      change s.fresh + 10 + 0 < _
      omega
    · cases step
      refine rank_setStage at_ ?_
      simp [State.cost, State.ahead, State.debts, stage]

theorem rank_at_wait (at_ : s.threads[i]? = some t) (step : s.thread i t = some s')
    (stage : t.stage = .polling ∨ t.stage = .looking ∨ t.stage = .comparing ∨
      t.stage = .comparingWord ∨ t.stage = .asleep) : s'.rank < s.rank := by
  have watched := State.fresh_le (s := s) t
  obtain stage | stage | stage | stage | stage := stage
  · rw [State.thread, stage] at step
    cases step
    have taken := rank_notify (s := s) (s.notify.poll i).1
    have weight : (s.notify.poll i).1.weight 7 6 + (if (s.notify.poll i).2 then 6 else 0) =
        s.notify.weight 7 6 := s.notify.weight_poll i
    have sum := rank_modifyThread (s := { s with notify := (s.notify.poll i).1 }) at_ fun t =>
      { t with stage := if (s.notify.poll i).2 then .draining else .looking }
    have same : { s with notify := (s.notify.poll i).1 }.cost = s.cost :=
      cost_congr rfl rfl rfl rfl rfl
    rw [same] at sum
    change ({ s with notify := (s.notify.poll i).1 }.modifyThread i fun t =>
      { t with stage := if (s.notify.poll i).2 then .draining else .looking }).rank < _
    cases ready : (s.notify.poll i).2 with
    | true =>
      have cost : s.cost { t with stage := .draining } < s.cost t + 6 := by
        have debts := signals_le_debts (s := s) (t := t)
        have ahead : s.fresh + 5 ≤ s.ahead t := by
          rw [State.ahead, stage]
          dsimp only
          omega
        refine cost_back (by rw [stage]; rfl) (.inr rfl) ?_
        change s.fresh + 10 + (if t.signals then 12 else 0) < _
        omega
      rw [ready] at weight sum
      simp only [if_true] at weight sum ⊢
      omega
    | false =>
      have cost : s.cost { t with stage := .looking } < s.cost t := by
        simp [State.cost, State.ahead, State.debts, stage]
      rw [ready] at weight sum
      simp only [Bool.false_eq_true, if_false] at weight sum ⊢
      omega
  · rw [State.thread, stage] at step
    cases step
    refine rank_setStage at_ ?_
    split
    · simp only [State.cost, State.ahead, State.debts, stage, Stage.inside, Stage.captured,
        Stage.compares, Stage.listed, if_true, Bool.and_true, Bool.true_and]
      omega
    next queued =>
      have debts := signals_le_debts (s := s) (t := t)
      have ahead : s.fresh + 12 ≤ s.ahead t := by
        rw [State.ahead, stage]
        dsimp only
        rw [if_neg queued]
        omega
      refine cost_back (c := 0) (by rw [stage]; rfl) (.inl rfl) ?_
      change s.fresh + 11 + (if t.signals then 12 else 0) < _
      omega
  · rw [State.thread, stage] at step
    cases step
    refine rank_setStage at_ ?_
    split
    next same =>
      simp [State.cost, State.ahead, State.debts, stage, same]
    next changed =>
      have differs : (t.stage.compares && s.generation != t.generation) = true := by
        rw [stage]
        exact bne_iff_ne.mpr changed
      have ahead := fresh_le_ahead (s := s) (t := t) (by rw [stage]; rfl)
      have debts := owed_le_debts (.inr differs)
      refine cost_back (c := 0) (by rw [stage]; rfl) (.inl rfl) ?_
      change s.fresh + 11 + (if t.signals then 12 else 0) < _
      omega
  · rw [State.thread, stage] at step
    dsimp only at step
    split at step
    next moved =>
      cases step
      exact rank_own at_ (cost_moved_back (by rw [stage]; rfl) (by rw [stage]; rfl) moved)
    · cases step
      refine rank_setStage at_ ?_
      simp [State.cost, State.ahead, State.debts, stage]
  · rw [State.thread, stage] at step
    dsimp only at step
    split at step
    next ready =>
      cases step
      refine rank_setStage at_ ?_
      have few : (t.watch.filter s.level).length * s.unit ≤
          max t.watch.length s.directSubs.length * s.unit :=
        Nat.mul_le_mul_right _
          (Nat.le_trans (List.length_filter_le ..) (Nat.le_max_left ..))
      -- what is reported and of no subscription is a debt of the list
      have gone : (if (t.watch.filter s.level).any s.live || s.queue.any s.live then 0
          else s.again) ≤ if t.watch.any (!s.live ·) then s.again else 0 := by
        split
        · exact Nat.zero_le _
        next dead =>
          obtain ⟨k, mem⟩ := List.exists_mem_of_ne_nil _ ready
          have out : s.live k = false := by
            refine eq_false_of_ne_true fun live => dead ?_
            rw [List.any_eq_true.mpr ⟨k, mem, live⟩, Bool.true_or]
          rw [if_pos (List.any_eq_true.mpr ⟨k, (List.mem_filter.mp mem).1, by rw [out]; rfl⟩)]
      simp only [State.cost, State.ahead, State.debts, stage, Stage.inside, Stage.captured,
        Stage.compares, Stage.listed, if_true, Bool.and_false, Bool.false_and, Bool.and_true,
        Bool.true_and, Bool.false_eq_true, if_false]
      omega
    · split at step
      next moved =>
        cases step
        exact rank_own at_ (cost_moved_back (by rw [stage]; rfl) (by rw [stage]; rfl) moved)
      · cases step

theorem wake_cost (w : Option Nat) : (s.wake w).cost = s.cost := by
  cases w with
  | none => rfl
  | some w => exact cost_congr (List.length_modify ..) rfl rfl rfl rfl

theorem drop_cost (i : Nat) : (s.drop i).cost = s.cost := wake_cost _

theorem rank_leave_dropping (at_ : s.threads[i]? = some t) (in_ : t.stage.inside = true)
    (q : List Nat) (o : Option (List Nat)) :
    (({ s with queue := q }.drop i).setStage i (.left o)).rank < s.rank := by
  have drained := rank_drained (s := s) q
  have dropped := rank_drop (s := { s with queue := q }) i
  have stake := State.again_le_stake (s := s)
  obtain ⟨moved, woken⟩ := drop_thread (s := { s with queue := q }) at_ i
  have sum := rank_modifyThread (s := { s with queue := q }.drop i) woken fun t =>
    { t with stage := .left o }
  rw [drop_cost] at sum
  have paid : s.stake ≤ { s with queue := q }.cost { t with moved } := by
    rw [State.cost, if_pos in_]
    change s.stake ≤ s.stake + _ + _
    omega
  have free : { s with queue := q }.cost { t with moved, stage := .left o } = 0 := rfl
  dsimp only at sum
  change (({ s with queue := q }.drop i).modifyThread i fun t => { t with stage := .left o }).rank < _
  omega

theorem rank_produce (k : Nat) :
    (s.produce k).rank < s.rank + s.unit ∧ (s.produce k).unit = s.unit := by
  have pos : 0 < s.unit := by rw [State.unit]; omega
  unfold State.produce
  split
  next live =>
    unfold State.enqueue
    split
    · exact ⟨by omega, rfl⟩
    · have queued := rank_queued live
      have notified := rank_notifyOne (s := { s with queue := s.queue ++ [k] })
      refine ⟨by rw [State.unit]; omega, ?_⟩
      rw [State.unit, State.notifyOne, State.length_wake]
      rfl
  · exact ⟨by omega, rfl⟩

theorem rank_producing {k : Nat} {rest : List Nat} (at_ : s.threads[i]? = some t)
    (stage : t.stage = .producing (k :: rest)) :
    ((s.produce k).setStage i (.producing rest)).rank < s.rank := by
  obtain ⟨less, unit⟩ := rank_produce (s := s) k
  have live := State.produce_live (s := s) k
  obtain ⟨moved, woken⟩ := produce_thread at_ k
  have sum := rank_modifyThread woken fun t => { t with stage := .producing rest }
  have flag : ((k :: rest).any s.live || (s.produce k).queue.any s.live) =
      (rest.any s.live || (s.produce k).queue.any s.live) := by
    rw [List.any_cons]
    cases alive : s.live k with
    | false => rw [Bool.false_or]
    | true =>
      have any : (s.produce k).queue.any s.live = true :=
        List.any_eq_true.mpr ⟨k, State.mem_produce alive, alive⟩
      rw [any, Bool.or_true, Bool.or_true]
  have cost : (s.produce k).cost { t with moved, stage := .producing rest } + s.unit =
      (s.produce k).cost { t with moved } := by
    simp only [State.cost, State.ahead, State.debts, stage, Stage.inside, Stage.captured,
      Stage.compares, Stage.listed, live, flag, unit, if_true, Bool.and_false, Bool.false_and,
      Bool.false_eq_true, if_false, List.length_cons, Nat.succ_mul]
    omega
  dsimp only at sum
  change ((s.produce k).modifyThread i fun t => { t with stage := .producing rest }).rank < _
  omega

theorem rank_after_wait (at_ : s.threads[i]? = some t) (step : s.thread i t = some s')
    (alone : t.stage = .dropping → i ∈ s.notify.notified → s.notify.waiters = [])
    (stage : (∃ ready, t.stage = .producing ready) ∨ t.stage = .dropping) : s'.rank < s.rank := by
  obtain ⟨_ | ⟨k, rest⟩, stage⟩ | stage := stage
  · rw [State.thread, stage] at step
    dsimp only at step
    split at step
    next none_ =>
      cases step
      obtain ⟨empty, dead⟩ := drainReadyEvents_nil t.maxevents_pos none_
      rw [empty]
      refine Nat.lt_of_lt_of_le (rank_setStage (s := { s with queue := [] }) at_ ?_)
        (rank_emptied dead)
      simp [State.cost, State.ahead, State.debts, stage]
    · cases step
      exact rank_leave_dropping at_ (by rw [stage]; rfl) _ _
  · rw [State.thread, stage] at step
    cases step
    exact rank_producing at_ stage
  · rw [State.thread, stage] at step
    cases step
    obtain ⟨le, same⟩ := rank_drop_alone (alone stage)
    refine Nat.lt_of_lt_of_le (rank_setStage (s := s.drop i) (by rw [same]; exact at_) ?_) le
    rw [drop_cost]
    simp [State.cost, State.ahead, State.debts, stage, State.again]

end Costs

/-! ## Runs with nothing from outside -/

def Event.settled : Event → Bool
  | .thread _ | .errno _ | .fall _ => true
  | _ => false

def Event.turns : Event → Bool
  | .thread _ | .errno _ => true
  | _ => false

/-- The condition on a step: a thread that goes round with a notification it has not seen drops it
when no other is registered. -/
def Alone (s : State) : Event → Prop
  | .thread i => s.threads[i]?.any (fun t => t.stage = .dropping) = true →
      i ∈ s.notify.notified → s.notify.waiters = []
  | _ => True

def Settles (s : State) (e : Event) : Prop := e.settled = true ∧ Alone s e

instance (s : State) : DecidablePred (Alone s)
  | .thread i => inferInstanceAs (Decidable (_ = true → i ∈ s.notify.notified → _ = []))
  | .errno _ | .call .. | .expire _ | .giveUp _ | .enqueue _ | .add _ | .delete _ | .demote _
  | .rise _ | .fall _ | .signal _ => inferInstanceAs (Decidable True)

instance (s : State) (e : Event) : Decidable (Settles s e) :=
  inferInstanceAs (Decidable (_ ∧ _))

section Runs

variable {s s' : State} {t : Thread} {i : Nat} {e : Event}

theorem rank_thread (at_ : s.threads[i]? = some t) (alone : Alone s (.thread i))
    (step : s.thread i t = some s') : s'.rank < s.rank := by
  cases stage : t.stage with
  | draining => exact rank_draining at_ stage step
  | reading => exact rank_before_wait at_ step (.inl stage)
  | scanning => exact rank_before_wait at_ step (.inr (.inl stage))
  | capturing => exact rank_before_wait at_ step (.inr (.inr (.inl stage)))
  | checking => exact rank_before_wait at_ step (.inr (.inr (.inr stage)))
  | polling => exact rank_at_wait at_ step (.inl stage)
  | looking => exact rank_at_wait at_ step (.inr (.inl stage))
  | comparing => exact rank_at_wait at_ step (.inr (.inr (.inl stage)))
  | comparingWord => exact rank_at_wait at_ step (.inr (.inr (.inr (.inl stage))))
  | asleep => exact rank_at_wait at_ step (.inr (.inr (.inr (.inr stage))))
  | producing ready =>
    refine rank_after_wait at_ step (fun dropping => ?_) (.inl ⟨ready, stage⟩)
    rw [stage] at dropping
    cases dropping
  | dropping =>
    exact rank_after_wait at_ step (fun _ => alone (by simp [at_, stage])) (.inr stage)
  | left o =>
    rw [State.thread, stage] at step
    cases step

theorem rank_fall (k : Nat) : ((s.lapse k).modifySub k ({ · with level := false })).rank = s.rank := by
  have sub (j : Nat) (f : Sub → Bool) (blind : ∀ sub : Sub, f { sub with level := false } = f sub) :
      ((s.subs.modify k ({ · with level := false }))[j]?).any f = (s.subs[j]?).any f := by
    rw [List.getElem?_modify]
    cases s.subs[j]? with
    | none => rfl
    | some sub =>
      by_cases same : k = j
      · simp [same, blind]
      · simp [same]
  have live : ((s.lapse k).modifySub k ({ · with level := false })).live = s.live := by
    funext j
    exact sub j _ fun _ => rfl
  have direct : ((s.lapse k).modifySub k ({ · with level := false })).directSubs = s.directSubs := by
    have same : ((s.lapse k).modifySub k ({ · with level := false })).direct = s.direct := by
      funext j
      exact sub j _ fun _ => rfl
    rw [State.directSubs, same]
    change (List.range (s.subs.modify k _).length).filter _ = _
    rw [List.length_modify]
    rfl
  have cost : ((s.lapse k).modifySub k ({ · with level := false })).cost = s.cost :=
    cost_congr (List.length_map ..) live direct rfl rfl
  rw [State.rank, cost]
  change ((s.threads.map _).map s.cost).sum + s.notify.weight 7 6 = _
  rw [List.map_map]
  rfl

theorem rank_step (settles : Settles s e) (step : s.step e = some s') :
    s'.rank + (if e.turns then 1 else 0) ≤ s.rank := by
  obtain ⟨settled, alone⟩ := settles
  cases e with
  | thread i =>
    obtain ⟨t, at_, step⟩ := Option.bind_eq_some_iff.mp step
    exact rank_thread at_ alone step
  | errno i =>
    obtain ⟨processes, ⟨⟩⟩ := guarded step
    obtain ⟨t, at_, processes⟩ := (Option.any_eq_true _ _).mp processes
    refine rank_leave_dropping at_ ?_ s.queue none
    cases stage : t.stage with
    | left o => simp [Thread.processes, stage] at processes
    | _ => rfl
  | fall k =>
    cases step
    exact Nat.le_of_eq (rank_fall k)
  | _ => cases settled

theorem rank_run {es : List Event} (run : directEpoll.runBy Settles s es = some s') :
    es.countP Event.turns + s'.rank ≤ s.rank := by
  induction es generalizing s with
  | nil =>
    cases run
    exact Nat.le_of_eq (Nat.zero_add _)
  | cons e es ih =>
    rw [System.runBy] at run
    obtain ⟨settles, run⟩ := guarded run
    obtain ⟨u, step, rest⟩ := Option.bind_eq_some_iff.mp run
    have one := rank_step settles step
    have more := ih rest
    rw [List.countP_cons]
    omega

theorem asleep_of_stuck (size : s.directSubs.length ≤ directPollCap) (at_ : s.threads[i]? = some t)
    (stuck : s.step (.thread i) = none) (in_ : t.stage.inside = true) :
    t.stage = .asleep ∧ t.moved = false ∧ t.watch.filter s.level = [] := by
  have stuck : s.thread i t = none := by
    rw [State.step, at_] at stuck
    exact stuck
  cases stage : t.stage with
  | scanning =>
    rw [State.thread, stage] at stuck
    dsimp only at stuck
    by_cases none_ : s.directSubs = []
    · rw [if_pos none_] at stuck
      cases stuck
    · rw [if_neg none_, if_pos size] at stuck
      cases stuck
  | asleep =>
    rw [State.thread, stage] at stuck
    dsimp only at stuck
    split at stuck
    · cases stuck
    next quiet =>
      split at stuck
      · cases stuck
      next still => exact ⟨rfl, eq_false_of_ne_true still, not_not.mp quiet⟩
  | left o =>
    rw [stage] at in_
    cases in_
  | producing ready =>
    rw [State.thread, stage] at stuck
    cases ready <;> cases stuck
  | _ =>
    rw [State.thread, stage] at stuck
    cases stuck

end Runs

/-- With nothing from outside the threads in the call make a bounded number of steps together, if
none hands a notification on when it goes round; and when none can go on, all are asleep. -/
theorem direct_waiters_settle {s s' : State} {es : List Event}
    (run : directEpoll.runBy Settles s es = some s') :
    es.countP Event.turns ≤ s.rank ∧
      (s'.directSubs.length ≤ directPollCap → (∀ i, s'.step (.thread i) = none) →
        ∀ t ∈ s'.threads, t.stage.inside = true →
          t.stage = .asleep ∧ t.moved = false ∧ t.watch.filter s'.level = []) := by
  refine ⟨Nat.le_trans (Nat.le_add_right _ _) (rank_run run), fun size stuck t mem in_ => ?_⟩
  obtain ⟨i, at_⟩ := List.mem_iff_getElem?.mp mem
  exact asleep_of_stuck size at_ (stuck i) in_

def goes (i n : Nat) : List Event := List.replicate n (.thread i)

/-- One thread is asleep, and a subscription is added: it goes round twice, once for the
notification it drops and once for the permit that becomes of it. -/
theorem direct_waiters_settle_one : ∃ s s', directEpoll.Reachable s ∧
    directEpoll.runBy Settles s (goes 0 17) = some s' ∧
    s'.threads.map (·.stage) = [.asleep] ∧ (goes 0 17).countP Event.turns ≤ s.rank := by
  obtain ⟨s, reach, ends⟩ : ∃ s, directEpoll.Reachable s ∧
      (directEpoll.runBy Settles s (goes 0 17)).any
        (fun s' => s'.threads.map (·.stage) = [.asleep]) = true :=
    System.exists_reachable_of_run (s := { threads := List.replicate 1 {} })
      (l := [.add true, .call 0 1] ++ goes 0 15 ++ [.add true]) (.init ⟨1, rfl⟩) (by decide +kernel)
  obtain ⟨s', run, asleep⟩ := (Option.any_eq_true _ _).mp ends
  exact ⟨s, s', reach, run, of_decide_eq_true asleep, (direct_waiters_settle run).1⟩

/-- Two threads are asleep when a subscription is added. Each goes round in turn, drops its
`Notified` and wakes the other. -/
theorem notification_travels_for_ever : ¬ ∀ s, directEpoll.Reachable s → ∃ bound, ∀ es s',
    (∀ e ∈ es, e.settled = true) → directEpoll.run s es = some s' →
      es.countP Event.turns ≤ bound := by
  intro claim
  obtain ⟨s, reach, cycle⟩ : ∃ s, directEpoll.Reachable s ∧
      directEpoll.run s (goes 0 11 ++ goes 1 11) = some s :=
    System.exists_reachable_of_run (s := { threads := List.replicate 2 {} })
      (l := [.add true, .call 0 1] ++ goes 0 15 ++ [.call 1 1] ++ goes 1 9 ++ [.add true] ++
        goes 0 11 ++ goes 1 11) (.init ⟨2, rfl⟩) (by decide +kernel)
  obtain ⟨bound, bounded⟩ := claim s reach
  have rounds (n : Nat) : directEpoll.run s (List.replicate n (goes 0 11 ++ goes 1 11)).flatten =
      some s := by
    induction n with
    | zero => rfl
    | succ n ih =>
      rw [List.replicate_succ, List.flatten_cons, System.run_append, cycle]
      exact ih
  have turns : (List.replicate (bound + 1) (goes 0 11 ++ goes 1 11)).flatten.countP Event.turns =
      (bound + 1) * 22 := by
    rw [List.countP_flatten, List.map_replicate, List.sum_replicate_nat]
    rfl
  have few := bounded _ s (fun e mem => ?_) (rounds (bound + 1))
  · rw [turns] at few
    omega
  · obtain ⟨l, inside, mem⟩ := List.mem_flatten.mp mem
    rw [List.eq_of_mem_replicate inside, goes, goes, List.mem_append] at mem
    obtain mem | mem := mem <;> rw [List.eq_of_mem_replicate mem] <;> rfl

end ServiceCache.DirectEpoll
