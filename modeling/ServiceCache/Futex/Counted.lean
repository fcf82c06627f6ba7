import ServiceCache.Futex.WakeAll

/-!
# The waiter a `futex_wake` counted

A closing gate makes that waiter's loop drop the kernel's answer, and the child compares the word
again. Where it still holds the expected value the waiter is back asleep and the wake is gone.
-/

namespace ServiceCache.Futex

open Transition

def Stage.compares : Stage → Bool
  | .requesting | .againWord | .registered => true
  | _ => false

def Differs (s : State) : Event → Prop
  | .thread i _ => (s.thread i).counted = true → (s.thread i).stage.compares = true →
      s.word ≠ (s.thread i).expected
  | _ => True

instance (s : State) : (e : Event) → Decidable (Differs s e)
  | .thread _ _ => inferInstanceAs (Decidable (_ = _ → _ = _ → _ ≠ _))
  | .probe _ | .interrupt _ | .interruptWake _ | .closeGate | .resurrect =>
    inferInstanceAs (Decidable True)

structure Thread.Delivered (t : Thread) : Prop where
  awake : t.queued = false ∧ t.stage ≠ .tabled
  woken : t.stage.waits = false → t.returned = some true

def Thread.Owed (t : Thread) : Prop :=
  match t.stage with
  | .asleep => t.hitWord = true
  | .answered | .stored | .kept | .resumed => t.result ≠ some .timedOut
  | .called | .reading | .suspending | .tabled => False
  | .idle | .waking | .wakingTable | .wakingAll | .wakingAllTable => t.returned = some true
  | _ => True

theorem Thread.Owed.delivered {t : Thread} (h : t.Owed) : t.Delivered := by
  cases at_ : t.stage <;> simp only [Thread.Owed, at_] at h <;>
    exact ⟨by simp [Thread.queued, at_, h], by simp [Stage.waits, at_, h]⟩

section Local

variable {v : View} {t t' : Thread} {f : Effect}

theorem WaitMove.owed (m : WaitMove v t t' f) (h : t.counted = true → t.Owed)
    (differs : t.counted = true → t.stage.compares = true → v.word ≠ t.expected)
    (counted : t'.counted = true) : t'.Owed := by
  cases m with
  | call _ _ _ => cases counted
  | retire at_ _ => trivial
  | interrupted at_ _ => simp [Thread.Owed, Thread.give]
  | resume at_ _ | keep at_ _ | store at_ _ => simpa [Thread.Owed, at_] using h counted
  | fallBack _ _ | drop _ _ | register _ | lost _ | indirect _ => trivial
  | sleep at_ word | expired at_ word _ | settle at_ word =>
    exact absurd word (differs counted (by simp [Stage.compares, at_]))
  | _ => simp_all [Thread.Owed, Thread.give, Thread.finish]

def Thread.holds (t : Thread) : Bool :=
  match t.stage with
  | .asleep => t.hitWord
  | .answered | .stored | .kept | .resumed => t.result == some .woken
  | _ => false

def Stage.distance : Stage → Nat
  | .waiting => 11
  | .entered => 10
  | .armed | .signalled => 9
  | .requesting => 8
  | .again => 7
  | .againWord | .asleep => 6
  | .answered => 5
  | .stored => 4
  | .resumed => 3
  | .fallback => 2
  | .registered => 1
  | _ => 0

structure Thread.Returning (t : Thread) (word : Nat) : Prop where
  owed : t.Owed
  waits : t.stage.waits = true
  loop : t.stage.retiredLoop = false
  free : t.holds = true ∨ word ≠ t.expected

theorem Thread.Returning.advance (h : t.Returning v.word) (opened : v.gateClosed = false) :
    ∃ t' f, waitStep v t .go = some (t', f) ∧
      (t'.stage = .idle ∧ t'.returned = some true ∨
        t'.Returning v.word ∧ t'.stage.distance < t.stage.distance) := by
  obtain ⟨owed, waits, loop, free⟩ := h
  cases at_ : t.stage with
  | idle | waking | wakingTable | wakingAll | wakingAllTable => simp [at_, Stage.waits] at waits
  | retired | kept => simp [at_, Stage.retiredLoop] at loop
  | called | reading | suspending | tabled => simp [at_, Thread.Owed] at owed
  | waiting | entered | armed | fallback =>
    refine ⟨_, _, by simp only [waitStep, at_, opened]; rfl, .inr ⟨⟨?_, rfl, rfl, ?_⟩, ?_⟩⟩
    · trivial
    · simpa [Thread.holds, at_] using free
    · simp [Stage.distance]
  | requesting =>
    have word : v.word ≠ t.expected := by simpa [Thread.holds, at_] using free
    refine ⟨{ t with stage := .again }, .none, ?_, .inr ⟨⟨trivial, rfl, rfl, .inr word⟩, ?_⟩⟩
    · simp [waitStep, at_, Thread.block, word]
    · simp [Stage.distance]
  | asleep =>
    have hit : t.hitWord = true := by simpa [Thread.Owed, at_] using owed
    refine ⟨t.give .woken, .none, by simp [waitStep, at_, hit], .inr ⟨⟨?_, rfl, rfl, .inl rfl⟩, ?_⟩⟩
    · simp [Thread.Owed, Thread.give]
    · simp [Stage.distance, Thread.give]
  | again | signalled =>
    have word : v.word ≠ t.expected := by simpa [Thread.holds, at_] using free
    refine ⟨_, _, by simp only [waitStep, at_]; rfl, .inr ?_⟩
    split
    · refine ⟨⟨?_, rfl, rfl, .inr word⟩, ?_⟩
      · simp [Thread.Owed, Thread.give]
      · simp [Stage.distance, Thread.give]
    · exact ⟨⟨trivial, rfl, rfl, .inr word⟩, by simp [Stage.distance]⟩
  | againWord =>
    have word : v.word ≠ t.expected := by simpa [Thread.holds, at_] using free
    refine ⟨t.give .woken, .none, by simp [waitStep, at_, word], .inr ⟨⟨?_, rfl, rfl, .inl rfl⟩, ?_⟩⟩
    · simp [Thread.Owed, Thread.give]
    · simp [Stage.distance, Thread.give]
  | answered | stored =>
    refine ⟨_, _, by simp only [waitStep, at_, opened]; rfl, .inr ⟨⟨?_, rfl, rfl, ?_⟩, ?_⟩⟩
    · simpa [Thread.Owed, at_] using owed
    · simpa [Thread.holds, at_] using free
    · simp [Stage.distance]
  | resumed =>
    have result : t.result ≠ some .timedOut := by simpa [Thread.Owed, at_] using owed
    refine ⟨_, _, by simp only [waitStep, at_]; rfl, ?_⟩
    split
    · exact .inl ⟨rfl, rfl⟩
    next timedOut => exact absurd timedOut result
    next woken _ =>
      have word : v.word ≠ t.expected :=
        free.resolve_left (by simpa [Thread.holds, at_] using woken)
      exact .inr ⟨⟨trivial, rfl, rfl, .inr word⟩, by simp [Stage.distance]⟩
  | registered =>
    have word : v.word ≠ t.expected := by simpa [Thread.holds, at_] using free
    exact ⟨t.finish true, .unregister, by simp [waitStep, at_, word], .inl ⟨rfl, rfl⟩⟩

end Local

theorem returns_woken {s : State} {i : Nat} (lt : i < s.threads) (opened : s.gate = .open_)
    (h : (s.thread i).Returning s.word) :
    ∃ k ≤ (s.thread i).stage.distance + 1, ∃ s',
      futexSystem.run s (List.replicate k (.thread i .go)) = some s' ∧
        (s'.thread i).stage = .idle ∧ (s'.thread i).returned = some true := by
  induction d : (s.thread i).stage.distance using Nat.strongRecOn generalizing s with
  | ind d ih =>
    obtain ⟨t, f, moved, out⟩ := h.advance (v := s.view i) (by simp [State.view, opened])
    have step : futexSystem.next s (.thread i .go) =
        some (s.tick ((s.effect i f).setThread i t)) := by
      simp [futexSystem, State.step, State.threadStep, lt, moved]
    have thread : ((s.tick ((s.effect i f).setThread i t)).thread i) = t := by
      simp [setThread_thread]
    obtain ⟨at_, returned⟩ | ⟨returning, closer⟩ := out
    · refine ⟨1, by omega, s.tick ((s.effect i f).setThread i t), ?_, ?_⟩
      · simp only [List.replicate, System.run, step]
        rfl
      · rw [thread]
        exact ⟨at_, returned⟩
    · have same : (s.tick ((s.effect i f).setThread i t)).word = s.word := effect_word i f
      obtain ⟨k, le, s', run, result⟩ := ih t.stage.distance (d ▸ closer)
        (s := s.tick ((s.effect i f).setThread i t)) (by cases f <;> exact lt)
        (by cases f <;> exact opened) (by rw [thread, same]; exact returning) (by rw [thread])
      refine ⟨k + 1, by omega, s', ?_, result⟩
      simp only [List.replicate_succ, System.run, step]
      exact run

section Global

variable {s s' : State}

theorem hit_owed {t : Thread} (h : t.counted = true → t.Owed) (counted : t.hit.counted = true) :
    t.hit.Owed := by
  unfold Thread.hit at counted ⊢
  split at counted
  next queued =>
    rw [if_pos queued]
    simp only [Thread.queued, Bool.and_eq_true, beq_iff_eq] at queued
    simp [queued.1, Thread.Owed]
  next unqueued =>
    rw [if_neg unqueued]
    exact h counted

theorem disturb_owed {t : Thread} (h : t.counted = true → t.Owed)
    (counted : t.disturb.counted = true) : t.disturb.Owed := by
  unfold Thread.disturb at counted ⊢
  split at counted
  next at_ =>
    rw [if_pos at_]
    simpa [at_, Thread.Owed] using h counted
  next other =>
    rw [if_neg other]
    exact h counted

theorem revive_owed {t : Thread} (h : t.counted = true → t.Owed)
    (counted : t.revive.counted = true) : t.revive.Owed := by
  unfold Thread.revive at counted ⊢
  cases at_ : t.stage <;> simp only [at_] at counted ⊢
  case retired => trivial
  case kept => simpa [at_, Thread.Owed] using h counted
  all_goals exact h counted

def AllOwed (s : State) : Prop := ∀ i, (s.thread i).counted = true → (s.thread i).Owed

theorem AllOwed.setThread (h : AllOwed s) {i : Nat} {t : Thread}
    (owed : t.counted = true → t.Owed) : AllOwed (s.setThread i t) := by
  intro j
  rw [setThread_thread]
  split
  · exact owed
  · exact h j

theorem Thread.Owed.waker {t t' : Thread} (h : t.counted = true → t.Owed)
    (before : t.stage.waits = false) (after : t'.stage.waits = false)
    (counted : t'.counted = t.counted) (returned : t'.returned = t.returned) :
    t'.counted = true → t'.Owed := by
  intro still
  have woken : t'.returned = some true := by
    rw [returned]
    exact (h (counted ▸ still)).delivered.woken before
  cases at_ : t'.stage <;> simp_all [Stage.waits, Thread.Owed]

theorem AllOwed.next (h : AllOwed s) {e : Event} (differs : Differs s e)
    (hn : futexSystem.next s e = some s') : AllOwed s' := by
  obtain ⟨u, hu, rfl⟩ := Option.map_eq_some_iff.mp hn
  change AllOwed u
  cases step_move hu with
  | wait i a t f _ m =>
    refine AllOwed.setThread (fun j => ?_) (m.owed (h i) differs)
    rw [effect_thread]
    exact h j
  | store i _ at_ =>
    exact h.setThread (i := i) (.waker (h i) (by simp [at_, Stage.waits])
      (by simp [at_, Stage.waits]) rfl rfl)
  | wake i at_ | nobody i at_ | unheard i at_ | wakeAll i at_ | unparked i at_ _ | unlist i _ at_
  | clear i at_ =>
    exact h.setThread (i := i) (.waker (h i) (by simp [at_, Stage.waits]) rfl rfl rfl)
  | release i j at_ _ queued =>
    have released : AllOwed (s.setThread j { s.thread j with hitWord := true, counted := true }) := by
      refine h.setThread fun _ => ?_
      simp only [Thread.queued, Bool.and_eq_true, beq_iff_eq] at queued
      simp [queued.1, Thread.Owed]
    exact released.setThread (.waker (h i) (by simp [at_, Stage.waits]) rfl rfl rfl)
  | releaseAll i at_ _ =>
    have hit : AllOwed { s with thread := fun j => (s.thread j).hit } :=
      fun j => hit_owed (h j)
    exact hit.setThread (.waker (h i) (by simp [at_, Stage.waits]) rfl rfl rfl)
  | probe b _ | interrupt i | gate g epoch _ => exact h
  | interruptWake i => exact h.setThread (disturb_owed (h i))
  | gateWake => exact fun i => disturb_owed (h i)
  | resurrect _ _ => exact fun i => revive_owed (h i)

theorem owed_reachable (h : futexSystem.ReachableBy Differs s) : AllOwed s := by
  refine h.invariant ?_ (fun s e s' _ owed differs hn => owed.next differs hn)
  rintro _ ⟨word, threads, rfl⟩ i counted
  cases counted

end Global

/-- In a run in which a counted waiter that compares the word again always finds another value,
no counted waiter is put back to sleep, its call returns as woken, and it does return: under an
open gate its own next steps take it there, unless it has yet to compare a word that holds its
expected value again. -/
theorem counted_wake_delivered {s : State} (reach : futexSystem.ReachableBy Differs s) {i : Nat}
    (lt : i < s.threads) (counted : (s.thread i).counted = true) :
    (s.thread i).Delivered ∧
    (s.gate = .open_ → (s.thread i).stage.waits = true →
      (s.thread i).holds = true ∨ s.word ≠ (s.thread i).expected →
      ∃ k ≤ 12, ∃ s', futexSystem.run s (List.replicate k (.thread i .go)) = some s' ∧
        (s'.thread i).stage = .idle ∧ (s'.thread i).returned = some true) := by
  have owed := owed_reachable reach i counted
  refine ⟨owed.delivered, fun opened waits free => ?_⟩
  have loop : (s.thread i).stage.retiredLoop = false := by
    rw [← Bool.not_eq_true]
    exact fun retired => retiring_reachable reach.reachable i retired opened
  obtain ⟨k, le, s', run⟩ := returns_woken lt opened ⟨owed, waits, loop, free⟩
  have bound : (s.thread i).stage.distance ≤ 11 := by
    cases (s.thread i).stage <;> simp [Stage.distance]
  exact ⟨k, by omega, s', run⟩

/-- Thread 1 releases the sleeping thread 0; the gate closes before thread 0 has looked at it. -/
def releasedThenFrozen : List Event :=
  sleepEvents ++ [.thread 1 .wake, .thread 1 (.pick 0), .closeGate, .closeGate, .closeGate] ++
    List.replicate 2 (.thread 0 .go)

/-- The gate drops the answer, the child finds a new value in the word and the call returns. -/
theorem counted_wake_delivered_frozen : ∃ s, futexSystem.ReachableBy Differs s ∧
    (s.thread 0).counted = true ∧ (s.thread 0).stage = .waiting ∧ (s.thread 0).result = none ∧
    (s.thread 0).Delivered ∧ ∃ k ≤ 12, ∃ s',
      futexSystem.run s (List.replicate k (.thread 0 .go)) = some s' ∧
        (s'.thread 0).stage = .idle ∧ (s'.thread 0).returned = some true := by
  obtain ⟨s, reach, threads, gate, word, counted, at_, result, expected⟩ :
      ∃ s, futexSystem.ReachableBy Differs s ∧ s.threads = 2 ∧ s.gate = .open_ ∧ s.word = 1 ∧
        (s.thread 0).counted = true ∧ (s.thread 0).stage = .waiting ∧
        (s.thread 0).result = none ∧ (s.thread 0).expected = 0 :=
    System.exists_reachableBy_of_runBy (s := { word := 0, threads := 2 }) (.init ⟨0, 2, rfl⟩)
      (show (futexSystem.runBy Differs _ (releasedThenFrozen ++
        [.resurrect, .thread 1 (.store 1)])).any _ = true by decide +kernel)
  obtain ⟨delivered, returns⟩ := counted_wake_delivered reach (i := 0) (by omega) counted
  exact ⟨s, reach, counted, at_, result, delivered,
    returns gate (by rw [at_]; rfl) (.inr (by rw [word, expected]; decide))⟩

/-- Where the word still holds the expected value the child puts the counted waiter back to
sleep. -/
theorem counted_wake_dropped : ¬ ∀ s, futexSystem.Reachable s → ∀ i,
    (s.thread i).counted = true → (s.thread i).Delivered := by
  intro claim
  obtain ⟨s, reach, counted, queued⟩ : ∃ s, futexSystem.Reachable s ∧
      (s.thread 0).counted = true ∧ (s.thread 0).queued = true :=
    System.exists_reachable_of_run (s := { word := 0, threads := 2 }) (.init ⟨0, 2, rfl⟩)
      (show (futexSystem.run _ (releasedThenFrozen ++ [.resurrect] ++
        List.replicate 4 (.thread 0 .go))).any _ = true by decide +kernel)
  exact absurd (claim s reach 0 counted).awake.1 (by simp [queued])

end ServiceCache.Futex
