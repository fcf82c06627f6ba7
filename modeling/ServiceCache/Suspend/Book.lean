import ServiceCache.Counting
import ServiceCache.Suspend.Steps

/-!
# Threads, their coroutines and the counters

`ACTIVE` counts the threads between `try_enter` and `leave`, `HOST_LOOPS` those in `host_loop`.
Every live thread drives a coroutine of its own, and a registered coroutine that no thread drives
rests: it is suspended, with its wait recorded and its thread state captured.
-/

namespace ServiceCache.Suspend

open Counting

def Stage.counted : Stage → Bool
  | .entering | .barred | .inside | .polled | .armed | .requested | .admitting | .admitted
  | .running | .yielded | .recorded | .returned | .unregistered => true
  | _ => false

def Stage.within : Stage → Bool
  | .inside | .polled | .armed | .requested | .admitted | .running | .yielded | .recorded
  | .returned | .unregistered => true
  | _ => false

def Stage.looping : Stage → Bool
  | .spawned | .revived | .starting | .exiting | .gone => false
  | _ => true

def Stage.live : Stage → Bool
  | .exiting | .gone => false
  | _ => true

def Stage.listed : Stage → Bool
  | .spawned | .unregistered | .dropping | .exiting | .gone => false
  | _ => true

def Stage.leaving : Stage → Bool
  | .barred | .retiring | .captured => true
  | _ => false

def Coro.Fresh (c : Coro) : Prop := c.frame = .unstarted ∧ c.pending = none

def Coro.Held (c : Coro) (w : Wait) (tls : Nat) : Prop :=
  c.frame = .suspended w tls ∧ c.pending = some w

def Coro.Rests (c : Coro) : Prop := ∃ w tls, c.Held w tls ∧ c.threadState = some tls

def Linked (t : Thread) (c : Coro) : Prop :=
  match t.stage with
  | .spawned => c.Fresh ∧ t.wait = none
  | .revived | .captured => c.Rests
  | .starting | .top => c.Fresh ∧ t.wait = none ∨ ∃ w, c.Held w t.tls ∧ t.wait = some w
  | .waiting | .knocking | .entering | .inside | .parked | .armed | .requested | .asleep
  | .recorded => ∃ w, c.Held w t.tls ∧ t.wait = some w
  | .polled => ∃ w, c.Held w t.tls ∧ t.wait = some w ∧ (t.answer.isSome → c.result.isSome)
  | .woken | .answered => ∃ w, c.Held w t.tls ∧ t.wait = some w ∧ t.answer.isSome
  | .ready | .admitting | .admitted => c.Fresh ∨ ∃ w, c.Held w t.tls ∧ c.result.isSome
  | .barred | .retiring => ∃ w, c.Held w t.tls
  | .running => c.frame = .running
  | .yielded => ∃ w, c.frame = .suspended w t.tls ∧ t.wait = some w
  | .returned | .unregistered | .dropping => c.frame = .finished
  | .exiting | .gone => True

section Local

variable {g g' : Statics} {t t' : Thread} {c c' : Coro}

theorem Coro.Fresh.not_started (h : c.Fresh) : c.started = false := by
  simp [Coro.started, h.1]

theorem Coro.Held.poll {w : Wait} {tls : Nat} {ready : Bool} (h : c.Held w tls) :
    (c.poll g ready).Held w tls := by
  unfold Coro.poll
  split <;> exact h

theorem Move.linked (m : Move g t c g' t' c') (h : Linked t c) : Linked t' c' := by
  cases m with
  | bar at_ closed =>
    obtain at_ | at_ | ⟨at_, started⟩ := at_
    · simp only [Linked, at_] at h
      obtain ⟨w, held, -⟩ := h
      exact ⟨w, held⟩
    · simp only [Linked, at_] at h
      obtain ⟨w, held, -⟩ := h
      exact ⟨w, held⟩
    · simp only [Linked, at_] at h
      obtain fresh | ⟨w, held, -⟩ := h
      · exact absurd started (by simp [fresh.not_started])
      · exact ⟨w, held⟩
  | endLoop at_ => trivial
  | restore at_ =>
    simp only [Linked, at_] at h
    obtain ⟨w, tls, held, captured⟩ := h
    exact .inr ⟨w, ⟨by simp [held.1, captured], held.2⟩, held.2⟩
  | await w at_ wait =>
    simp only [Linked, at_] at h
    obtain ⟨-, none⟩ | held := h
    · exact absurd (wait.symm.trans none) (by simp)
    · exact held
  | skip at_ wait =>
    simp only [Linked, at_] at h
    obtain ⟨fresh, -⟩ | ⟨w, -, some⟩ := h
    · exact .inl fresh
    · exact absurd (some.symm.trans wait) (by simp)
  | stored w at_ wait result =>
    simp only [Linked, at_] at h
    obtain ⟨w, held, -⟩ := h
    exact .inr ⟨w, held, result⟩
  | refuse w at_ wait kind unanswered old =>
    simp only [Linked, at_] at h
    obtain ⟨w, held, -⟩ := h
    exact .inr ⟨w, held, rfl⟩
  | poll ready at_ kind =>
    simp only [Linked, at_] at h
    obtain ⟨w, held, wait⟩ := h
    exact ⟨w, held.poll, wait, id⟩
  | pollReady at_ answer =>
    simp only [Linked, at_] at h
    obtain ⟨w, held, -, result⟩ := h
    exact .inr ⟨w, held, result answer⟩
  | park at_ =>
    simp only [Linked, at_] at h
    obtain ⟨w, held, wait, -⟩ := h
    exact ⟨w, held, wait⟩
  | wake a at_ =>
    simp only [Linked, at_] at h
    obtain ⟨w, held, wait⟩ := h
    exact ⟨w, held, wait, rfl⟩
  | drop at_ closed =>
    simp only [Linked, at_] at h
    obtain ⟨w, held, -⟩ := h
    exact ⟨w, held⟩
  | complete at_ =>
    simp only [Linked, at_] at h
    obtain ⟨w, held, -, answer⟩ := h
    exact .inr ⟨w, held, answer⟩
  | record at_ =>
    simp only [Linked, at_] at h
    obtain ⟨w, frame, wait⟩ := h
    exact ⟨w, ⟨frame, wait⟩, wait⟩
  | capture at_ =>
    simp only [Linked, at_] at h
    obtain ⟨w, held⟩ := h
    exact ⟨w, t.tls, held, rfl⟩
  | leave at_ =>
    simp only [Linked, at_] at h
    exact .inr h
  | register at_ =>
    simp only [Linked, at_] at h
    exact .inl h
  | suspend kind tls at_ => exact ⟨_, rfl, rfl⟩
  | finish at_ => rfl
  | resume at_ => rfl
  | exit at_ => trivial
  | _ => simp_all only [Linked]

theorem Move.active (m : Move g t c g' t' c') (pos : t.stage.counted → 0 < g.active) :
    g'.active + (if t.stage.counted then 1 else 0) =
      g.active + (if t'.stage.counted then 1 else 0) := by
  cases m with
  | bar at_ _ =>
    obtain at_ | at_ | ⟨at_, -⟩ := at_ <;> simp [at_, Stage.counted]
  | endLoop at_ => obtain at_ | at_ := at_ <;> simp [at_, Stage.counted]
  | uncount at_ | pollReady at_ _ | park at_ | sleep at_ | leave at_ | leaveLast at_ =>
    have := pos (by simp [at_, Stage.counted])
    simp [at_, Stage.counted, Statics.leave]
    omega
  | _ => simp_all [Stage.counted, Statics.enter]

theorem Move.hostLoops (m : Move g t c g' t' c') (pos : t.stage.looping → 0 < g.hostLoops) :
    g'.hostLoops + (if t.stage.looping then 1 else 0) =
      g.hostLoops + (if t'.stage.looping then 1 else 0) := by
  cases m with
  | bar at_ _ =>
    obtain at_ | at_ | ⟨at_, -⟩ := at_ <;> simp [at_, Stage.looping]
  | endLoop at_ =>
    have := pos (by obtain at_ | at_ := at_ <;> simp [at_, Stage.looping])
    obtain at_ | at_ := at_ <;> simp [at_, Stage.looping] <;> omega
  | _ => simp_all [Stage.looping, Statics.enter, Statics.leave]

theorem Move.coro_eq (m : Move g t c g' t' c') : t'.coro = t.coro := by
  cases m <;> rfl

theorem Move.spawner_eq (m : Move g t c g' t' c') : t'.spawner = t.spawner := by
  cases m <;> rfl

theorem Move.gateClosed_eq (m : Move g t c g' t' c') : g'.gateClosed = g.gateClosed := by
  cases m <;> rfl

theorem Move.pollfdEpoch_eq (m : Move g t c g' t' c') : g'.pollfdEpoch = g.pollfdEpoch := by
  cases m <;> rfl

theorem Move.not_gone (m : Move g t c g' t' c') : t.stage ≠ .gone := by
  cases m with
  | bar at_ _ => obtain at_ | at_ | ⟨at_, -⟩ := at_ <;> simp [at_]
  | endLoop at_ => obtain at_ | at_ := at_ <;> simp [at_]
  | _ => simp_all

theorem Move.live_or_exit (m : Move g t c g' t' c') :
    t.stage.live = true ∨ t'.stage = .gone ∧ c' = c ∧ g' = g := by
  cases m with
  | bar at_ _ => obtain at_ | at_ | ⟨at_, -⟩ := at_ <;> simp [at_, Stage.live]
  | endLoop at_ => obtain at_ | at_ := at_ <;> simp [at_, Stage.live]
  | _ => simp_all [Stage.live]

theorem Move.mem_registry (m : Move g t c g' t' c') {x : Nat} (other : x ≠ t.coro) :
    x ∈ g'.registry ↔ x ∈ g.registry := by
  cases m with
  | register _ | unregister _ => simp [other]
  | _ => rfl

theorem Move.listed (m : Move g t c g' t' c') (live : t'.stage.live = true)
    (h : t.coro ∈ g.registry ↔ t.stage.listed = true) :
    t.coro ∈ g'.registry ↔ t'.stage.listed = true := by
  cases m with
  | bar at_ _ =>
    rw [h]
    obtain at_ | at_ | ⟨at_, -⟩ := at_ <;> simp [at_, Stage.listed]
  | register _ => simp [Stage.listed]
  | unregister _ => simp [Stage.listed]
  | endLoop _ | exit _ => simp [Stage.live] at live
  | _ => simp_all [Stage.listed, Statics.enter, Statics.leave]

theorem Move.registry_nodup (m : Move g t c g' t' c') (h : g.registry.Nodup)
    (new : t.stage = .spawned → t.coro ∉ g.registry) : g'.registry.Nodup := by
  cases m with
  | register at_ =>
    refine List.nodup_append.mpr ⟨h, List.nodup_singleton _, ?_⟩
    intro x hx y hy same
    rw [List.mem_singleton.mp hy] at same
    exact new at_ (same ▸ hx)
  | unregister _ => exact h.filter _
  | _ => exact h

theorem Move.handedOver (m : Move g t c g' t' c') (live : t.stage.live = true)
    (ended : t'.stage.live = false) (h : Linked t c)
    (listed : t.coro ∈ g.registry ↔ t.stage.listed = true) :
    t.coro ∉ g'.registry ∨ t.stage = .captured ∧ c'.Rests := by
  cases m with
  | endLoop at_ =>
    obtain at_ | at_ := at_
    · left
      simp only [listed, at_, Stage.listed]
      exact Bool.false_ne_true
    · simp only [Linked, at_] at h
      exact .inr ⟨at_, h⟩
  | exit at_ => simp [at_, Stage.live] at live
  | restore _ | stored _ _ _ _ => simp [Stage.live] at ended
  | _ => simp_all [Stage.live]

theorem Move.leaving (m : Move g t c g' t' c') (opened : g.gateClosed = false)
    (h : t.stage.leaving = false) : t'.stage.leaving = false := by
  cases m with
  | bar _ closed | drop _ closed => exact absurd (closed.symm.trans opened) (by simp)
  | _ => simp_all [Stage.leaving]

end Local

def State.Drives (s : State) (i c : Nat) : Prop :=
  (s.thread i).stage.live = true ∧ (s.thread i).coro = c

structure Book (s : State) : Prop where
  active : s.statics.active = tally (·.stage.counted) s.thread s.threads
  hostLoops : s.statics.hostLoops = tally (·.stage.looping) s.thread s.threads
  bounded : ∀ i, s.threads ≤ i → (s.thread i).stage = .gone
  driven_lt : ∀ i c, s.Drives i c → c < s.nextId
  registry_lt : ∀ c ∈ s.statics.registry, c < s.nextId
  registry_nodup : s.statics.registry.Nodup
  linked : ∀ i, (s.thread i).stage.live = true → Linked (s.thread i) (s.driven i)
  apart : ∀ i j c, s.Drives i c → s.Drives j c → i = j
  listed : ∀ i c, s.Drives i c → (c ∈ s.statics.registry ↔ (s.thread i).stage.listed = true)
  held : ∀ c ∈ s.statics.registry, (∃ i, s.Drives i c) ∨ (s.coro c).Rests
  leaving : s.statics.gateClosed = false → ∀ i, (s.thread i).stage.leaving = false

section Guest

variable {s : State} {i : Nat} {g : Statics} {t : Thread} {c : Coro}

@[simp] theorem put_statics (r : Statics × Thread × Coro) : (s.put i r).statics = r.1 := rfl

@[simp] theorem put_thread (r : Statics × Thread × Coro) (j : Nat) :
    (s.put i r).thread j = if j = i then r.2.1 else s.thread j :=
  Function.update_apply _ _ _ _

@[simp] theorem put_coro (r : Statics × Thread × Coro) (x : Nat) :
    (s.put i r).coro x = if x = (s.thread i).coro then r.2.2 else s.coro x :=
  Function.update_apply _ _ _ _

theorem put_coro_other (m : Move s.statics (s.thread i) (s.driven i) g t c)
    {x : Nat} (other : ¬ s.Drives i x) : (s.put i (g, t, c)).coro x = s.coro x := by
  rw [put_coro]
  split
  next same =>
    obtain live | ⟨-, rfl, -⟩ := m.live_or_exit
    · exact absurd ⟨live, same.symm⟩ other
    · exact congrArg s.coro same.symm
  · rfl

theorem put_drives_other {j x : Nat} (ne : j ≠ i) :
    (s.put i (g, t, c)).Drives j x ↔ s.Drives j x := by
  simp [State.Drives, ne]

theorem drives_of_put (m : Move s.statics (s.thread i) (s.driven i) g t c) {j x : Nat}
    (h : (s.put i (g, t, c)).Drives j x) : s.Drives j x := by
  by_cases same : j = i
  · subst same
    simp only [State.Drives, put_thread, if_true] at h
    obtain live | ⟨gone, -⟩ := m.live_or_exit
    · exact ⟨live, m.coro_eq ▸ h.2⟩
    · exact absurd h.1 (by simp [gone, Stage.live])
  · exact (put_drives_other same).mp h

theorem Book.lt_threads (h : Book s) {i : Nat} (here : (s.thread i).stage ≠ .gone) :
    i < s.threads := by
  by_contra beyond
  exact here (h.bounded i (Nat.le_of_not_lt beyond))

theorem Book.active_pos (h : Book s) {i : Nat} (counted : (s.thread i).stage.counted = true) :
    0 < s.statics.active := by
  have here : (s.thread i).stage ≠ .gone := by
    intro gone
    simp [gone, Stage.counted] at counted
  rw [h.active]
  exact tally_pos (h.lt_threads here) counted

theorem Book.hostLoops_pos (h : Book s) {i : Nat} (looping : (s.thread i).stage.looping = true) :
    0 < s.statics.hostLoops := by
  have here : (s.thread i).stage ≠ .gone := by
    intro gone
    simp [gone, Stage.looping] at looping
  rw [h.hostLoops]
  exact tally_pos (h.lt_threads here) looping

theorem Book.held_put (h : Book s) (m : Move s.statics (s.thread i) (s.driven i) g t c) :
    ∀ x ∈ g.registry, (∃ j, (s.put i (g, t, c)).Drives j x) ∨
      ((s.put i (g, t, c)).coro x).Rests := by
  intro x hx
  by_cases mine : s.Drives i x
  · obtain ⟨live, rfl⟩ := mine
    cases ends : t.stage.live with
    | true => exact .inl ⟨i, by simp [State.Drives, ends, m.coro_eq]⟩
    | false =>
      right
      rw [put_coro, if_pos rfl]
      have handed := m.handedOver live ends (h.linked i live) (h.listed i _ ⟨live, rfl⟩)
      exact (handed.resolve_left (fun out => out hx)).2
  · rw [put_coro_other m mine]
    have before : x ∈ s.statics.registry := by
      obtain live | ⟨-, -, rfl⟩ := m.live_or_exit
      · exact (m.mem_registry fun same => mine ⟨live, same.symm⟩).mp hx
      · exact hx
    obtain ⟨j, drives⟩ | rests := h.held x before
    · have ne : j ≠ i := by
        rintro rfl
        exact mine drives
      exact .inl ⟨j, (put_drives_other ne).mpr drives⟩
    · exact .inr rests

theorem Book.put (h : Book s) (m : Move s.statics (s.thread i) (s.driven i) g t c) :
    Book (s.put i (g, t, c)) where
  active := by
    have moved := tally_update (p := fun t : Thread => t.stage.counted) (f := s.thread)
      (h.lt_threads m.not_gone) t
    have local_ := m.active fun counted => h.active_pos counted
    have := h.active
    simp only [State.put]
    omega
  hostLoops := by
    have moved := tally_update (p := fun t : Thread => t.stage.looping) (f := s.thread)
      (h.lt_threads m.not_gone) t
    have local_ := m.hostLoops fun looping => h.hostLoops_pos looping
    have := h.hostLoops
    simp only [State.put]
    omega
  bounded j hj := by
    have ne : j ≠ i := by
      rintro rfl
      exact m.not_gone (h.bounded j hj)
    simpa [ne] using h.bounded j hj
  driven_lt j x drives := h.driven_lt j x (drives_of_put m drives)
  registry_lt x hx := by
    obtain ⟨j, drives⟩ | rests := h.held_put m x hx
    · exact h.driven_lt j x (drives_of_put m drives)
    · by_cases mine : s.Drives i x
      · exact h.driven_lt i x mine
      · obtain live | ⟨-, -, rfl⟩ := m.live_or_exit
        · exact h.registry_lt x ((m.mem_registry fun same => mine ⟨live, same.symm⟩).mp hx)
        · exact h.registry_lt x hx
  registry_nodup := by
    refine m.registry_nodup h.registry_nodup fun at_ => ?_
    rw [h.listed i _ ⟨by simp [at_, Stage.live], rfl⟩, at_]
    exact Bool.false_ne_true
  linked j live := by
    by_cases same : j = i
    · subst same
      simp only [put_thread, if_true] at live
      have before := (drives_of_put (j := j) m ⟨by simpa using live, rfl⟩).1
      simpa [State.driven, m.coro_eq] using m.linked (h.linked j before)
    · simp only [put_thread, if_neg same] at live
      have other : ¬ s.Drives i (s.thread j).coro :=
        fun mine => same (h.apart j i _ ⟨live, rfl⟩ mine)
      have kept := put_coro_other m other
      simp only [State.driven, put_thread, if_neg same, kept]
      exact h.linked j live
  apart j k x hj hk := h.apart j k x (drives_of_put m hj) (drives_of_put m hk)
  listed j x drives := by
    have before := drives_of_put m drives
    by_cases same : j = i
    · subst same
      have live : t.stage.live = true := by simpa using drives.1
      have new := m.listed live (before.2 ▸ h.listed j x before)
      rw [before.2] at new
      simpa using new
    · have other : x ≠ (s.thread i).coro ∨ g = s.statics := by
        obtain live | ⟨-, -, rfl⟩ := m.live_or_exit
        · exact .inl fun eq => same (h.apart j i x before ⟨live, eq.symm⟩)
        · exact .inr rfl
      have stays : x ∈ g.registry ↔ x ∈ s.statics.registry := by
        obtain ne | rfl := other
        · exact m.mem_registry ne
        · exact Iff.rfl
      simp only [put_thread, if_neg same]
      exact stays.trans (h.listed j x before)
  held := h.held_put m
  leaving opened j := by
    rw [put_statics, m.gateClosed_eq] at opened
    by_cases same : j = i
    · subst same
      simpa using m.leaving opened (h.leaving opened j)
    · simpa [same] using h.leaving opened j

end Guest

end ServiceCache.Suspend
