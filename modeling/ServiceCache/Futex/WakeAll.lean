import ServiceCache.Futex.Steps

/-!
# `futex_wake_all` after a store

A waiter that is still blocked when a `futex_wake_all` has returned went to wait after that call
began, and found its expected value in the word when it did.
-/

namespace ServiceCache.Futex

open Transition

/-- Asleep in the kernel with nothing that would end the sleep, or waiting for its entry of the
table to go. -/
def State.Blocked (s : State) (i : Nat) : Prop :=
  (s.thread i).stage = .asleep ∧ (s.thread i).hitWord = false ∧ (s.thread i).hitGeneration = false ∨
    (s.thread i).stage = .tabled ∧ i ∈ s.table

instance (s : State) (i : Nat) : Decidable (s.Blocked i) :=
  inferInstanceAs (Decidable (_ = _ ∧ _ = _ ∧ _ = _ ∨ _ = _ ∧ _ ∈ _))

def Stage.direct : Stage → Bool
  | .waiting | .entered | .armed | .requesting | .asleep | .again | .againWord | .signalled
  | .answered | .retired => true
  | _ => false

section Local

variable {v : View} {t t' : Thread} {f : Effect}

theorem WaitMove.queued (m : WaitMove v t t' f) (h : t'.queued = true) :
    t'.lookAt = v.now ∧ v.word = t'.expected := by
  cases m with
  | sleep _ word => exact ⟨rfl, word⟩
  | _ => simp [Thread.queued, Thread.finish, Thread.give] at h

theorem WaitMove.tabled (m : WaitMove v t t' f) (h : t'.stage = .tabled) :
    t'.lookAt = v.now ∧ v.word = t'.expected := by
  cases m with
  | settle _ word => exact ⟨rfl, word⟩
  | _ => simp [Thread.finish, Thread.give] at h

theorem WaitMove.not_waking (m : WaitMove v t t' f) :
    t'.stage ≠ .wakingAll ∧ t'.stage ≠ .wakingAllTable := by
  cases m <;> simp [Thread.finish, Thread.give]

theorem WaitMove.of_direct (m : WaitMove v t t' f) (h : t'.stage.direct = true) :
    t.stage.direct = true ∨ v.support = .supported := by
  cases m with
  | suspend _ supported => exact .inr supported
  | retire at_ _ => obtain at_ | at_ := at_ <;> simp [at_, Stage.direct]
  | interrupted at_ _ => obtain at_ | at_ := at_ <;> simp [at_, Stage.direct]
  | _ => simp_all [Stage.direct, Thread.finish, Thread.give]

theorem Thread.hit_not_queued (t : Thread) : t.hit.queued = false := by
  unfold Thread.hit
  split
  · simp [Thread.queued]
  next unqueued => simpa using unqueued

theorem Thread.hit_stage (t : Thread) : t.hit.stage = t.stage := by
  unfold Thread.hit
  split <;> rfl

end Local

def Thread.inWakeAll (t : Thread) : Bool := t.stage == .wakingAll || t.stage == .wakingAllTable

def State.Looked (s : State) (t : Thread) : Prop :=
  t.lookAt < s.clock ∧ s.wordAt t.lookAt = t.expected

structure Swept (s : State) : Prop where
  direct : ∀ i, (s.thread i).stage.direct = true → s.support.wakes = true
  began : ∀ j, (s.thread j).inWakeAll = true → (s.thread j).beganAt < s.clock
  noticed : ∀ n ∈ s.notices, n.beganAt < s.clock
  queued : ∀ i, (s.thread i).queued = true → s.Looked (s.thread i) ∧
    (∀ n ∈ s.notices, n.beganAt < (s.thread i).lookAt) ∧
    ∀ j, (s.thread j).stage = .wakingAllTable → (s.thread j).beganAt < (s.thread i).lookAt
  tabled : ∀ i, (s.thread i).stage = .tabled → s.Looked (s.thread i) ∧
    (i ∈ s.table → ∀ n ∈ s.notices, n.beganAt < (s.thread i).lookAt)

structure Tame (s : State) (t t' : Thread) : Prop where
  direct : t'.stage.direct = true → t.stage.direct = true ∨ s.support.wakes = true
  began : t'.inWakeAll = true →
    t'.beganAt = s.clock ∨ t.inWakeAll = true ∧ t'.beganAt = t.beganAt
  queued : t'.queued = true → t'.lookAt = s.clock ∧ s.word = t'.expected ∨
    t.queued = true ∧ t'.lookAt = t.lookAt ∧ t'.expected = t.expected
  tabled : t'.stage = .tabled → t'.lookAt = s.clock ∧ s.word = t'.expected ∨
    t.stage = .tabled ∧ t'.lookAt = t.lookAt ∧ t'.expected = t.expected

def Steady (t t' : Thread) : Prop :=
  t'.stage = .wakingAllTable → t.stage = .wakingAllTable ∧ t'.beganAt = t.beganAt

section Tame

variable {s : State} {t t' : Thread} {f : Effect}

theorem Tame.refl (s : State) (t : Thread) : Tame s t t :=
  ⟨.inl, fun h => .inr ⟨h, rfl⟩, fun h => .inr ⟨h, rfl, rfl⟩, fun h => .inr ⟨h, rfl, rfl⟩⟩

theorem Steady.refl (t : Thread) : Steady t t := fun h => ⟨h, rfl⟩

theorem Tame.of_plain (direct : t'.stage.direct = false) (waking : t'.inWakeAll = false)
    (tabled : t'.stage ≠ .tabled) : Tame s t t' := by
  refine ⟨?_, ?_, ?_, fun h => absurd h tabled⟩
  · simp [direct]
  · simp [waking]
  · intro queued
    simp only [Thread.queued, Bool.and_eq_true, beq_iff_eq] at queued
    simp [queued.1, Stage.direct] at direct

theorem WaitMove.tame {i : Nat} (m : WaitMove (s.view i) (s.thread i) t f) :
    Tame s (s.thread i) t := by
  refine ⟨fun h => ?_, fun h => ?_, fun h => .inl (m.queued h), fun h => .inl (m.tabled h)⟩
  · refine (m.of_direct h).imp_right fun supported => ?_
    rw [show s.support = .supported from supported]
    rfl
  · simp [Thread.inWakeAll, m.not_waking] at h

theorem WaitMove.steady {v : View} (m : WaitMove v t t' f) : Steady t t' :=
  fun h => absurd h m.not_waking.2

theorem Thread.disturb_eq (t : Thread) : t.disturb.stage = t.stage ∧ t.disturb.lookAt = t.lookAt ∧
    t.disturb.expected = t.expected ∧ t.disturb.hitWord = t.hitWord ∧
    t.disturb.beganAt = t.beganAt := by
  unfold Thread.disturb
  split <;> simp

theorem Thread.disturb_tame (t : Thread) : Tame s t t.disturb ∧ Steady t t.disturb := by
  obtain ⟨stage, look, expected, hit, began⟩ := t.disturb_eq
  refine ⟨⟨?_, ?_, ?_, ?_⟩, ?_⟩
  · rw [stage]
    exact .inl
  · rw [Thread.inWakeAll, stage, began]
    exact fun h => .inr ⟨h, rfl⟩
  · rw [Thread.queued, stage, hit, look, expected]
    exact fun h => .inr ⟨h, rfl, rfl⟩
  · rw [stage, look, expected]
    exact fun h => .inr ⟨h, rfl, rfl⟩
  · rw [Steady, stage, began]
    exact fun h => ⟨h, rfl⟩

theorem Thread.revive_tame (t : Thread) : Tame s t t.revive ∧ Steady t t.revive := by
  unfold Thread.revive
  split
  next at_ => exact ⟨⟨by simp [at_, Stage.direct], by simp [Thread.inWakeAll], by
    simp [Thread.queued], by simp⟩, by simp [Steady]⟩
  next at_ => exact ⟨.of_plain rfl rfl (by simp), by simp [Steady]⟩
  · exact ⟨.refl s t, .refl t⟩

end Tame

section Steps

variable {s s' : State}

@[simp] theorem tick_thread : (s.tick s').thread = s'.thread := rfl

@[simp] theorem tick_notices : (s.tick s').notices = s'.notices := rfl

@[simp] theorem tick_table : (s.tick s').table = s'.table := rfl

@[simp] theorem tick_support : (s.tick s').support = s'.support := rfl

@[simp] theorem tick_clock : (s.tick s').clock = s.clock + 1 := rfl

theorem State.Looked.tick {t t' : Thread} (h : s.Looked t) (look : t'.lookAt = t.lookAt)
    (expected : t'.expected = t.expected) : (s.tick s').Looked t' := by
  rw [State.Looked, look, expected]
  exact ⟨Nat.lt_succ_of_lt h.1, (Function.update_of_ne (Nat.ne_of_lt h.1) _ _).trans h.2⟩

theorem looked_now {t : Thread} (look : t.lookAt = s.clock) (word : s.word = t.expected) :
    (s.tick s').Looked t := by
  rw [State.Looked, look]
  exact ⟨Nat.lt_succ_self s.clock, (Function.update_self _ _ _).trans word⟩

/-- The one argument behind every event. A waiter that goes to wait looks after all calls that
have begun; a call that ends has swept the queue before, and clears the table. -/
theorem Swept.tick (h : Swept s) (tame : ∀ i, Tame s (s.thread i) (s'.thread i))
    (support : s.support.wakes = true → s'.support.wakes = true)
    (noticed : ∀ n ∈ s'.notices, n ∈ s.notices ∨
      s'.table = [] ∧ ∃ j, (s.thread j).stage = .wakingAllTable ∧ n.beganAt = (s.thread j).beganAt)
    (swept : ∀ j, (s'.thread j).stage = .wakingAllTable →
      (s.thread j).stage = .wakingAllTable ∧ (s'.thread j).beganAt = (s.thread j).beganAt ∨
      (s.thread j).inWakeAll = true ∧ (s'.thread j).beganAt = (s.thread j).beganAt ∧
        ∀ i, (s'.thread i).queued = false)
    (table : ∀ i, (s.thread i).stage = .tabled → i ∈ s'.table → i ∈ s.table) :
    Swept (s.tick s') := by
  have inWakeAll {j : Nat} (at_ : (s.thread j).stage = .wakingAllTable) :
      (s.thread j).inWakeAll = true := by simp [Thread.inWakeAll, at_]
  have noticed_lt : ∀ n ∈ s'.notices, n.beganAt < s.clock := by
    intro n hn
    obtain old | ⟨-, j, at_, began⟩ := noticed n hn
    · exact h.noticed n old
    · rw [began]
      exact h.began j (inWakeAll at_)
  refine ⟨fun i direct => ?_, fun j waking => ?_, fun n hn => ?_, fun i queued => ?_,
    fun i tabled => ?_⟩
  · exact support (((tame i).direct direct).elim (h.direct i) id)
  · obtain now | ⟨before, began⟩ := (tame j).began waking
    · exact Nat.lt_succ_of_le (Nat.le_of_eq now)
    · exact Nat.lt_succ_of_lt (lt_of_eq_of_lt began (h.began j before))
  · exact Nat.lt_succ_of_lt (noticed_lt n hn)
  · obtain ⟨now, word⟩ | ⟨before, look, expected⟩ := (tame i).queued queued
    · refine ⟨looked_now now word, fun n hn => ?_, fun j at_ => ?_⟩
      · exact lt_of_lt_of_eq (noticed_lt n hn) now.symm
      · rw [tick_thread, now]
        obtain ⟨before, began⟩ | ⟨before, began, -⟩ := swept j at_
        · exact lt_of_eq_of_lt began (h.began j (inWakeAll before))
        · exact lt_of_eq_of_lt began (h.began j before)
    · obtain ⟨looked, notices, wakers⟩ := h.queued i before
      refine ⟨looked.tick look expected, fun n hn => ?_, fun j at_ => ?_⟩
      · rw [tick_thread, look]
        obtain old | ⟨-, j, at_, began⟩ := noticed n hn
        · exact notices n old
        · exact lt_of_eq_of_lt began (wakers j at_)
      · rw [tick_thread, look]
        obtain ⟨sweeping, began⟩ | ⟨-, -, none⟩ := swept j at_
        · exact lt_of_eq_of_lt began (wakers j sweeping)
        · exact absurd queued (by simp [none i])
  · obtain ⟨now, word⟩ | ⟨before, look, expected⟩ := (tame i).tabled tabled
    · exact ⟨looked_now now word, fun _ n hn => lt_of_lt_of_eq (noticed_lt n hn) now.symm⟩
    · obtain ⟨looked, notices⟩ := h.tabled i before
      refine ⟨looked.tick look expected, fun entry n hn => ?_⟩
      rw [tick_thread, look]
      obtain old | ⟨cleared, -⟩ := noticed n hn
      · exact notices (table i before entry) n old
      · rw [tick_table, cleared] at entry
        cases entry

theorem Swept.quiet (h : Swept s) (tame : ∀ i, Tame s (s.thread i) (s'.thread i))
    (steady : ∀ i, Steady (s.thread i) (s'.thread i))
    (support : s.support.wakes = true → s'.support.wakes = true)
    (notices : s'.notices = s.notices)
    (table : ∀ i, (s.thread i).stage = .tabled → i ∈ s'.table → i ∈ s.table) :
    Swept (s.tick s') :=
  h.tick tame support (fun _ hn => .inl (notices ▸ hn)) (fun j at_ => .inl (steady j at_)) table

theorem Swept.setThread (h : Swept s) {i : Nat} {t : Thread} (tame : Tame s (s.thread i) t)
    (steady : Steady (s.thread i) t) : Swept (s.tick (s.setThread i t)) := by
  refine h.quiet (fun j => ?_) (fun j => ?_) id rfl (fun _ _ entry => entry)
  · rw [setThread_thread]
    split
    next same => exact same ▸ tame
    · exact .refl s _
  · rw [setThread_thread]
    split
    next same => exact same ▸ steady
    · exact .refl _

theorem Swept.wait (h : Swept s) {i : Nat} {t : Thread} {f : Effect}
    (m : WaitMove (s.view i) (s.thread i) t f) :
    Swept (s.tick ((s.effect i f).setThread i t)) := by
  refine h.quiet (fun j => ?_) (fun j => ?_) ?_ ?_ ?_
  · rw [setThread_thread, effect_thread]
    split
    next same => exact same ▸ m.tame
    · exact .refl s _
  · rw [setThread_thread, effect_thread]
    split
    next same => exact same ▸ m.steady
    · exact .refl _
  · intro wakes
    cases f with
    | disable => rfl
    | none | register | unregister => exact wakes
  · exact effect_notices i f
  · intro j tabled entry
    cases m with
    | register at_ =>
      obtain old | own := List.mem_append.mp entry
      · exact old
      · rw [List.mem_singleton.mp own, at_] at tabled
        cases tabled
    | changed _ _ | tableTimedOut _ _ _ => exact (List.mem_filter.mp entry).1
    | _ => exact entry

theorem Swept.release (h : Swept s) {i j : Nat} (queued : (s.thread j).queued = true) :
    Swept (s.tick ((s.setThread j { s.thread j with hitWord := true, counted := true }).setThread i
      { s.thread i with stage := .idle })) := by
  have asleep : (s.thread j).stage = .asleep := by
    simp only [Thread.queued, Bool.and_eq_true, beq_iff_eq] at queued
    exact queued.1
  refine h.quiet (fun k => ?_) (fun k => ?_) id rfl (fun _ _ entry => entry)
  · simp only [setThread_thread]
    split
    · exact .of_plain rfl rfl (by simp)
    · split
      next same =>
        rw [same]
        exact ⟨by simp [asleep, Stage.direct], by simp [Thread.inWakeAll, asleep],
          by simp [Thread.queued], by simp [asleep]⟩
      · exact .refl s _
  · simp only [setThread_thread]
    split
    · simp [Steady]
    · split
      · simp [Steady, asleep]
      · exact .refl _

theorem Swept.releaseAll (h : Swept s) {i : Nat} (at_ : (s.thread i).stage = .wakingAll) :
    Swept (s.tick (State.setThread { s with thread := fun j => (s.thread j).hit } i
      { s.thread i with stage := .wakingAllTable })) := by
  have unqueued (k : Nat) :
      ((State.setThread { s with thread := fun j => (s.thread j).hit } i
        { s.thread i with stage := .wakingAllTable }).thread k).queued = false := by
    rw [setThread_thread]
    split
    · rfl
    · exact Thread.hit_not_queued _
  have hit (k : Nat) : (s.thread k).hit.lookAt = (s.thread k).lookAt ∧
      (s.thread k).hit.expected = (s.thread k).expected ∧
      (s.thread k).hit.beganAt = (s.thread k).beganAt := by
    unfold Thread.hit
    split <;> exact ⟨rfl, rfl, rfl⟩
  refine h.tick (fun k => ?_) id (fun _ hn => .inl hn) (fun k at_' => ?_) (fun _ _ entry => entry)
  · refine ⟨?_, ?_, fun queued => absurd (unqueued k) (by rw [queued]; simp), ?_⟩ <;>
      rw [setThread_thread] <;> split
    · simp [Stage.direct]
    · rw [Thread.hit_stage]
      exact .inl
    next same =>
      rw [same]
      exact fun _ => .inr ⟨by simp [Thread.inWakeAll, at_], rfl⟩
    · rw [Thread.inWakeAll, Thread.hit_stage, (hit k).2.2]
      exact fun waking => .inr ⟨waking, rfl⟩
    · simp
    · rw [Thread.hit_stage, (hit k).1, (hit k).2.1]
      exact fun tabled => .inr ⟨tabled, rfl, rfl⟩
  · rw [setThread_thread] at at_' ⊢
    split at at_'
    next same =>
      rw [same, if_pos rfl]
      exact .inr ⟨by simp [Thread.inWakeAll, at_], rfl, unqueued⟩
    next other =>
      rw [Thread.hit_stage] at at_'
      rw [if_neg other, (hit k).2.2]
      exact .inl ⟨at_', rfl⟩

theorem Swept.unparked (h : Swept s) {i : Nat} (at_ : (s.thread i).stage = .wakingAll)
    (none : s.support.wakes = false) :
    Swept (s.tick (s.setThread i { s.thread i with stage := .wakingAllTable })) := by
  have unqueued (k : Nat) : (s.thread k).queued = false := by
    by_contra queued
    simp only [Thread.queued, Bool.not_eq_false, Bool.and_eq_true, beq_iff_eq] at queued
    have wakes := h.direct k (by simp [queued.1, Stage.direct])
    simp [none] at wakes
  have inWakeAll : (s.thread i).inWakeAll = true := by simp [Thread.inWakeAll, at_]
  refine h.tick (fun k => ?_) id (fun _ hn => .inl hn) (fun k at_' => ?_) (fun _ _ entry => entry)
  · rw [setThread_thread]
    split
    next same =>
      rw [same]
      exact ⟨by simp [Stage.direct], fun _ => .inr ⟨inWakeAll, rfl⟩, by simp [Thread.queued],
        by simp⟩
    · exact .refl s _
  · rw [setThread_thread] at at_' ⊢
    split at at_'
    next same =>
      rw [same, if_pos rfl]
      refine .inr ⟨inWakeAll, rfl, fun j => ?_⟩
      rw [setThread_thread]
      split
      · rfl
      · exact unqueued j
    next other =>
      rw [if_neg other]
      exact .inl ⟨at_', rfl⟩

theorem Swept.clear (h : Swept s) {i : Nat} (at_ : (s.thread i).stage = .wakingAllTable) :
    Swept (s.tick { s.setThread i { s.thread i with stage := .idle } with
      table := []
      notices := ⟨(s.thread i).storedValue, (s.thread i).storedAt, (s.thread i).beganAt⟩ ::
        s.notices }) := by
  refine h.tick (fun k => ?_) id (fun n hn => ?_) (fun k at_' => .inl ?_)
    (fun _ _ entry => by cases entry)
  · change Tame s (s.thread k) ((s.setThread i _).thread k)
    rw [setThread_thread]
    split
    · exact .of_plain rfl rfl (by simp)
    · exact .refl s _
  · obtain rfl | old := List.mem_cons.mp hn
    · exact .inr ⟨rfl, i, at_, rfl⟩
    · exact .inl old
  · change ((s.setThread i _).thread k).stage = _ at at_'
    change _ ∧ ((s.setThread i _).thread k).beganAt = _
    rw [setThread_thread] at at_' ⊢
    split at at_'
    · cases at_'
    next other =>
      rw [if_neg other]
      exact ⟨at_', rfl⟩

theorem Swept.next (h : Swept s) {e : Event} (hn : futexSystem.next s e = some s') : Swept s' := by
  obtain ⟨u, hu, rfl⟩ := Option.map_eq_some_iff.mp hn
  cases step_move hu with
  | wait i a t f _ m => exact h.wait m
  | store i value at_ =>
    have moved := h.setThread (i := i)
      (t := { s.thread i with storedValue := value, storedAt := s.clock })
      (.of_plain (by simp [at_, Stage.direct]) (by simp [Thread.inWakeAll, at_]) (by simp [at_]))
      (by simp [Steady, at_])
    exact ⟨moved.direct, moved.began, moved.noticed, moved.queued, moved.tabled⟩
  | wake i at_ => exact h.setThread (.of_plain rfl rfl (by simp)) (by simp [Steady])
  | release i j _ _ queued => exact h.release queued
  | nobody i at_ => exact h.setThread (.of_plain rfl rfl (by simp)) (by simp [Steady])
  | unlist i j at_ =>
    have moved := h.setThread (i := i) (t := { s.thread i with stage := .idle })
      (.of_plain rfl rfl (by simp)) (by simp [Steady])
    refine ⟨moved.direct, moved.began, moved.noticed, moved.queued, fun k tabled => ?_⟩
    obtain ⟨looked, notices⟩ := moved.tabled k tabled
    exact ⟨looked, fun entry => notices (List.mem_filter.mp entry).1⟩
  | unheard i at_ => exact h.setThread (.of_plain rfl rfl (by simp)) (by simp [Steady])
  | wakeAll i at_ =>
    refine h.setThread ⟨by simp [Stage.direct], fun _ => .inl rfl, by simp [Thread.queued], by simp⟩
      (by simp [Steady])
  | releaseAll i at_ _ => exact h.releaseAll at_
  | unparked i at_ none => exact h.unparked at_ none
  | clear i at_ => exact h.clear at_
  | probe b unknown =>
    have moved : Swept (s.tick s) :=
      h.quiet (fun i => .refl s _) (fun i => .refl _) id rfl (fun _ _ entry => entry)
    refine ⟨fun i direct => ?_, moved.began, moved.noticed, moved.queued, moved.tabled⟩
    have wakes := h.direct i direct
    simp [unknown, Support.wakes] at wakes
  | interrupt i => exact h.quiet (fun i => .refl s _) (fun i => .refl _) id rfl (fun _ _ entry => entry)
  | interruptWake i =>
    exact h.setThread (s.thread i).disturb_tame.1 ((s.thread i).disturb_tame (s := s)).2
  | gate g epoch _ =>
    exact h.quiet (fun i => .refl s _) (fun i => .refl _) id rfl (fun _ _ entry => entry)
  | gateWake =>
    exact h.quiet (fun i => (s.thread i).disturb_tame.1)
      (fun i => ((s.thread i).disturb_tame (s := s)).2) id rfl (fun _ _ entry => entry)
  | resurrect _ _ =>
    exact h.quiet (fun i => (s.thread i).revive_tame.1)
      (fun i => ((s.thread i).revive_tame (s := s)).2) id rfl (fun _ _ entry => entry)

theorem swept_reachable (h : futexSystem.Reachable s) : Swept s := by
  refine h.invariant ?_ (fun s e s' _ swept _ hn => swept.next hn)
  rintro _ ⟨word, threads, rfl⟩
  refine ⟨?_, ?_, ?_, ?_, ?_⟩ <;> simp [Stage.direct, Thread.inWakeAll, Thread.queued]

end Steps

/-! ## A waiter that is not blocked goes on -/

def Stage.waits : Stage → Bool
  | .idle | .waking | .wakingTable | .wakingAll | .wakingAllTable => false
  | _ => true

def Stage.retiredLoop : Stage → Bool
  | .retired | .kept => true
  | _ => false

/-- A waiter's loop retires for a closed gate only, and the child takes it up again. -/
def Retiring (s : State) : Prop :=
  ∀ i, (s.thread i).stage.retiredLoop = true → s.gate ≠ .open_

theorem WaitMove.retiredLoop {v : View} {t t' : Thread} {f : Effect} (m : WaitMove v t t' f)
    (h : t'.stage.retiredLoop = true) : v.gateClosed = true := by
  cases m with
  | retire _ closed | drop _ closed | keep _ closed => exact closed
  | _ => simp [Stage.retiredLoop, Thread.finish, Thread.give] at h

theorem Thread.revive_retiredLoop (t : Thread) : t.revive.stage.retiredLoop = false := by
  unfold Thread.revive
  cases at_ : t.stage <;> simp [at_, Stage.retiredLoop]

section Retiring

variable {s s' : State}

theorem Retiring.setThread (h : Retiring s) {i : Nat} {t : Thread}
    (out : t.stage.retiredLoop = true → (s.thread i).stage.retiredLoop = true) :
    Retiring (s.setThread i t) := by
  intro j at_
  rw [setThread_thread] at at_
  split at at_
  · exact h i (out at_)
  · exact h j at_

theorem Retiring.of_stage (h : Retiring s) (gate : s.gate ≠ .open_ → s'.gate ≠ .open_)
    (stage : ∀ i, (s'.thread i).stage = (s.thread i).stage) : Retiring s' :=
  fun i at_ => gate (h i (stage i ▸ at_))

theorem Retiring.next (h : Retiring s) {e : Event} (hn : futexSystem.next s e = some s') :
    Retiring s' := by
  obtain ⟨u, hu, rfl⟩ := Option.map_eq_some_iff.mp hn
  change Retiring u
  cases step_move hu with
  | wait i a t f _ m =>
    have gate : (s.effect i f).gate = s.gate := by cases f <;> rfl
    intro j at_
    change (s.effect i f).gate ≠ .open_
    rw [gate]
    rw [setThread_thread, effect_thread] at at_
    split at at_
    · have closed := m.retiredLoop at_
      exact bne_iff_ne.mp closed
    · exact h j at_
  | store i _ at_ => exact h.setThread (i := i) (fun out => by simp [at_, Stage.retiredLoop] at out)
  | wake i _ | nobody i _ | unheard i _ | wakeAll i _ | unparked i _ _ | unlist i _ _ | clear i _ =>
    exact h.setThread (i := i) (fun out => by cases out)
  | release i j _ _ _ =>
    refine Retiring.setThread (h.setThread ?_) ?_
    · exact id
    · exact fun out => by cases out
  | releaseAll i at_ _ =>
    have hit : Retiring { s with thread := fun j => (s.thread j).hit } :=
      h.of_stage id fun j => Thread.hit_stage _
    exact hit.setThread (fun out => by cases out)
  | probe b _ => exact h
  | interrupt i => exact h
  | interruptWake i => exact h.setThread (by rw [(s.thread i).disturb_eq.1]; exact id)
  | gate g epoch closed => exact fun _ _ => closed
  | gateWake => exact fun _ _ => by simp
  | resurrect _ _ =>
    intro i at_
    exact absurd at_ (by simp [(s.thread i).revive_retiredLoop])

theorem retiring_reachable (h : futexSystem.Reachable s) : Retiring s := by
  refine h.invariant ?_ (fun s e s' _ retiring _ hn => retiring.next hn)
  rintro _ ⟨word, threads, rfl⟩ i at_
  cases at_

end Retiring

theorem waitStep_enabled {v : View} {t : Thread} (waits : t.stage.waits = true)
    (loop : t.stage.retiredLoop = false)
    (asleep : t.stage = .asleep → t.hitWord = true ∨ t.hitGeneration = true)
    (tabled : t.stage = .tabled → v.gateClosed = false ∧ v.inTable = false) :
    ∃ a, (waitStep v t a).isSome := by
  cases at_ : t.stage with
  | idle | waking | wakingTable | wakingAll | wakingAllTable => simp [at_, Stage.waits] at waits
  | retired | kept => simp [at_, Stage.retiredLoop] at loop
  | called => exact ⟨.route false, by simp [waitStep, at_]⟩
  | asleep =>
    refine ⟨.go, ?_⟩
    obtain word | generation := asleep at_
    · simp [waitStep, at_, word]
    · simp only [waitStep, at_, generation]
      split <;> rfl
  | tabled => exact ⟨.go, by simp [waitStep, at_, tabled at_]⟩
  | reading | registered =>
    refine ⟨.go, ?_⟩
    simp only [waitStep, at_]
    split <;> rfl
  | _ => exact ⟨.go, by simp [waitStep, at_]⟩

/-- Where a waiter stands once a `futex_wake_all` has returned: blocked only if it compared the
word after that call began and found its expected value; otherwise it takes its next step as
soon as the gate is open. -/
theorem wake_all_heard {s : State} (reach : futexSystem.Reachable s) {i : Nat}
    (lt : i < s.threads) (waits : (s.thread i).stage.waits = true) {n : Notice}
    (hn : n ∈ s.notices) :
    (s.Blocked i → n.beganAt < (s.thread i).lookAt ∧
      s.wordAt (s.thread i).lookAt = (s.thread i).expected) ∧
    (¬ s.Blocked i → s.gate = .open_ → ∃ a s', futexSystem.next s (.thread i a) = some s') := by
  have swept := swept_reachable reach
  constructor
  · rintro (⟨at_, hitWord, -⟩ | ⟨at_, entry⟩)
    · obtain ⟨looked, notices, -⟩ := swept.queued i (by simp [Thread.queued, at_, hitWord])
      exact ⟨notices n hn, looked.2⟩
    · obtain ⟨looked, notices⟩ := swept.tabled i at_
      exact ⟨notices entry n hn, looked.2⟩
  · intro free opened
    have loop : (s.thread i).stage.retiredLoop = false := by
      rw [← Bool.not_eq_true]
      exact fun retired => retiring_reachable reach i retired opened
    obtain ⟨a, enabled⟩ := waitStep_enabled (v := s.view i) waits loop
      (fun at_ => by
        by_contra unhit
        simp only [not_or, Bool.not_eq_true] at unhit
        exact free (.inl ⟨at_, unhit⟩))
      (fun at_ => by
        refine ⟨by simp [State.view, opened], ?_⟩
        rw [← Bool.not_eq_true]
        exact fun entry => free (.inr ⟨at_, List.contains_iff_mem.mp entry⟩))
    obtain ⟨⟨t, f⟩, moved⟩ := Option.isSome_iff_exists.mp enabled
    exact ⟨a, s.tick ((s.effect i f).setThread i t), by
      simp [futexSystem, State.step, State.threadStep, lt, moved]⟩

def sleepEvents : List Event :=
  [.probe true, .thread 0 (.wait 0 false), .thread 0 (.route true)] ++
    List.replicate 6 (.thread 0 .go)

def wakeAllEvents (i : Nat) : List Event :=
  [.thread i .wakeAll, .thread i .go, .thread i .go]

/-- The waiter is woken, its call returns, and a second wait goes to sleep on the new value. -/
theorem wake_all_heard_twice : ∃ s, futexSystem.Reachable s ∧ s.Blocked 0 ∧ ∃ n ∈ s.notices,
    n.beganAt < (s.thread 0).lookAt ∧ s.wordAt (s.thread 0).lookAt = 1 := by
  obtain ⟨s, reach, threads, blocked, expected, notices⟩ : ∃ s, futexSystem.Reachable s ∧
      s.threads = 2 ∧ s.Blocked 0 ∧ (s.thread 0).expected = 1 ∧ s.notices = [⟨1, 9, 10⟩] :=
    System.exists_reachable_of_run (s := { word := 0, threads := 2 }) (.init ⟨0, 2, rfl⟩)
      (show (futexSystem.run _ (sleepEvents ++ [.thread 1 (.store 1)] ++ wakeAllEvents 1 ++
        List.replicate 4 (.thread 0 .go) ++ [.thread 0 (.wait 1 false), .thread 0 (.route true)] ++
        List.replicate 6 (.thread 0 .go))).any _ = true by decide +kernel)
  have waits : (s.thread 0).stage.waits = true := by
    obtain ⟨at_, -⟩ | ⟨at_, -⟩ := blocked <;> rw [at_] <;> rfl
  have late := (wake_all_heard (i := 0) (n := ⟨1, 9, 10⟩) reach (by omega) waits (by simp [notices])).1
    blocked
  exact ⟨s, reach, blocked, _, by simp [notices], expected ▸ late⟩

/-- Thread 0 sleeps for 0 and a signal interrupts it. Before it registers in the table thread 1
stores 1 and wakes all; before it reads the word thread 2 stores 0 again. -/
def storedBack : List Event :=
  sleepEvents ++ [.interrupt 0, .interruptWake 0] ++ List.replicate 4 (.thread 0 .go) ++
    [.thread 1 (.store 1)] ++ wakeAllEvents 1 ++ [.thread 2 (.store 0), .thread 0 .go, .thread 0 .go]

/-- A value stored back keeps a waiter blocked through a `futex_wake_all` that came after a
different value. -/
theorem stored_back_stays_blocked : ¬ ∀ s, futexSystem.Reachable s → ∀ i, ∀ n ∈ s.notices,
    (s.thread i).callAt < n.storedAt → n.value ≠ (s.thread i).expected → ¬ s.Blocked i := by
  intro claim
  obtain ⟨s, reach, blocked, callAt, expected, notices⟩ : ∃ s, futexSystem.Reachable s ∧
      s.Blocked 0 ∧ (s.thread 0).callAt = 1 ∧ (s.thread 0).expected = 0 ∧
      s.notices = [⟨1, 15, 16⟩] :=
    System.exists_reachable_of_run (s := { word := 0, threads := 3 }) (.init ⟨0, 3, rfl⟩)
      (show (futexSystem.run _ storedBack).any _ = true by decide +kernel)
  exact claim s reach 0 _ (by rw [notices]; exact List.mem_singleton_self _)
    (by simp [callAt]) (by simp [expected]) blocked

end ServiceCache.Futex
