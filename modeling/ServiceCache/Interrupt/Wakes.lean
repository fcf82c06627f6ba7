import ServiceCache.Interrupt.Heard

/-!
# Nothing is slept through
-/

namespace ServiceCache.Interrupt

open Transition (System)

def State.Blocked (s : State) : Prop := s.waiter.stage = .asleep ∨ s.waiter.stage = .pollAsleep

def State.Out (s : State) : Prop := s.waiter.stage = .left ∨ s.waiter.stage = .unregistering

instance (s : State) : Decidable s.Blocked := inferInstanceAs (Decidable (_ ∨ _))

instance (s : State) : Decidable s.Out := inferInstanceAs (Decidable (_ ∨ _))

def State.Freed (s : State) (j k : Nat) : Prop :=
  ∃ n m, n ≤ k ∧ m ≤ 3 ∧ ∃ s', interruptSystem.run s
    (List.replicate n (.caller j .go) ++ List.replicate m (.waiter .go)) = some s' ∧ s'.Out

section Freed

variable {s t : State} {j k : Nat}

theorem State.Freed.mono (h : s.Freed j k) {l : Nat} (le : k ≤ l) : s.Freed j l := by
  obtain ⟨n, m, few, rest⟩ := h
  exact ⟨n, m, Nat.le_trans few le, rest⟩

theorem State.Freed.step (h : t.Freed j k) (lt : j < s.callers)
    (next : s.callerStep j .go = some t) : s.Freed j (k + 1) := by
  obtain ⟨n, m, few, steps, s', run, out⟩ := h
  refine ⟨n + 1, m, Nat.succ_le_succ few, steps, s', ?_, out⟩
  have goes : interruptSystem.next s (.caller j .go) = some t := (if_pos lt).trans next
  rw [List.replicate_succ, List.cons_append, System.run, goes]
  exact run

theorem run_waiter {w : Waiter} (step : waiterStep s.view s.waiter .go = some (w, .none))
    (l : List Event) :
    interruptSystem.run s (.waiter .go :: l) = interruptSystem.run { s with waiter := w } l := by
  have goes : interruptSystem.next s (.waiter .go) = some { s with waiter := w } :=
    congrArg (Option.map _) step
  rw [System.run, goes]
  rfl

theorem waiterStep_hit {v : View} {w : Waiter} (at_ : w.stage = .asleep) (hit : w.hit = true) :
    waiterStep v w .go = some ({ w with stage := .left }, .none) := by
  unfold waiterStep
  rw [at_]
  exact if_pos hit

theorem waiterStep_readable {v : View} {w : Waiter} (at_ : w.stage = .pollAsleep)
    (readable : w.readable = true) :
    waiterStep v w .go = some ({ w with stage := .draining, undrained := true }, .none) := by
  unfold waiterStep
  rw [at_]
  exact if_pos readable

theorem waiterStep_moved {v : View} {w : Waiter} (at_ : w.stage = .comparing)
    (moved : v.generation ≠ w.expected) :
    waiterStep v w .go = some ({ w with stage := .unregistering, again := true }, .none) := by
  unfold waiterStep
  rw [at_]
  exact congrArg (fun w => some (w, Effect.none)) (if_neg moved)

theorem freed_hit (at_ : s.waiter.stage = .asleep) (hit : s.waiter.hit = true) : s.Freed j k :=
  ⟨0, 1, Nat.zero_le _, by decide, _, run_waiter (waiterStep_hit at_ hit) [], .inl rfl⟩

theorem freed_readable (at_ : s.waiter.stage = .pollAsleep) (readable : s.waiter.readable = true)
    (moved : s.generation ≠ s.waiter.expected) : s.Freed j k := by
  have drains := run_waiter (waiterStep_readable at_ readable) [.waiter .go, .waiter .go]
  have compares := drains.trans (run_waiter rfl [.waiter .go])
  have leaves := compares.trans (run_waiter (waiterStep_moved rfl (by exact moved)) [])
  exact ⟨0, 3, Nat.zero_le _, Nat.le_refl _, _, leaves, .inr rfl⟩

structure Reached (s : State) : Prop where
  blocked : s.Blocked
  listed : s.waiter.stage = .pollAsleep → s.waiter.listed = true
  moved : s.generation ≠ s.waiter.expected

variable (lt : j < s.callers)

include lt

theorem Reached.wakingPoll (h : Reached s) (poll : s.waiter.stage = .pollAsleep)
    (at_ : (s.caller j).stage = .wakingPoll) : s.Freed j 1 := by
  refine State.Freed.step (t := { s.setCaller j { s.caller j with stage := .idle } with
    waiter := { s.waiter with readable := true } }) (freed_readable poll rfl h.moved) lt ?_
  simp [State.callerStep, at_, Waiter.wakePoll, h.listed poll]

theorem Reached.counting (h : Reached s) (poll : s.waiter.stage = .pollAsleep)
    (at_ : (s.caller j).stage = .counting) : s.Freed j 2 := by
  refine State.Freed.step (t := s.setCaller j { s.caller j with stage := .wakingPoll }) ?_ lt ?_
  · exact Reached.wakingPoll lt ⟨h.blocked, h.listed, h.moved⟩ poll
      (by rw [setCaller_caller, if_pos rfl])
  · simp [State.callerStep, at_, State.waiterCount, h.listed poll]

theorem Reached.wakingFutex (h : Reached s) (at_ : (s.caller j).stage = .wakingFutex) :
    s.Freed j 3 := by
  refine State.Freed.step (t := { s.setCaller j { s.caller j with stage := .counting } with
    waiter := s.waiter.wakeFutex }) ?_ lt ?_
  · obtain asleep | poll := h.blocked
    · exact freed_hit (by simp [Waiter.wakeFutex, asleep]) (by simp [Waiter.wakeFutex, asleep])
    · have same : s.waiter.wakeFutex = s.waiter := by simp [Waiter.wakeFutex, poll]
      rw [same]
      exact Reached.counting lt ⟨h.blocked, h.listed, h.moved⟩ poll
        (by simp [State.setCaller])
  · simp [State.callerStep, at_]

end Freed

structure Waits (s : State) : Prop where
  blocked : s.Blocked
  listed : s.waiter.stage = .pollAsleep → s.waiter.listed = true
  seen : s.waiter.seenAt ≤ s.bumps
  few : s.bumps + 1 < s.waiter.seenAt + 2 ^ 32
  generation : s.generation = s.bumps % 2 ^ 32
  expected : s.waiter.expected = s.waiter.seenAt % 2 ^ 32

section Waits

variable {s : State} {j : Nat}

theorem Heard.waits (h : Heard s) (blocked : s.Blocked)
    (few : s.bumps + 1 < s.waiter.seenAt + 2 ^ 32) : Waits s :=
  ⟨blocked, fun poll => h.listed (by rw [poll]; rfl), h.seen, few, h.generation, h.expected⟩

theorem Waits.of_same {t : State} (h : Waits s) (waiter : t.waiter = s.waiter)
    (bumps : t.bumps = s.bumps) (generation : t.generation = s.generation) : Waits t := by
  obtain ⟨blocked, listed, seen, few, counted, expected⟩ := h
  constructor
  · unfold State.Blocked
    rwa [waiter]
  · rwa [waiter]
  · rwa [waiter, bumps]
  · rwa [waiter, bumps]
  · rwa [generation, bumps]
  · rwa [waiter]

theorem Waits.reached (h : Waits s) (after : s.waiter.seenAt < s.bumps) : Reached s := by
  refine ⟨h.blocked, h.listed, ?_⟩
  have few := h.few
  rw [h.generation, h.expected]
  omega

variable (lt : j < s.callers)

include lt

theorem Waits.bumping (h : Waits s) (at_ : (s.caller j).stage = .bumping) : s.Freed j 4 := by
  refine State.Freed.step (t := { s.setCaller j { s.caller j with stage := .wakingFutex } with
    generation := (s.generation + 1) % 2 ^ 32, bumps := s.bumps + 1 }) ?_ lt ?_
  · refine Reached.wakingFutex lt ⟨h.blocked, h.listed, ?_⟩ (by simp [State.setCaller])
    have seen := h.seen
    have few := h.few
    change (s.generation + 1) % 2 ^ 32 ≠ s.waiter.expected
    rw [h.generation, h.expected]
    omega
  · simp [State.callerStep, at_]

theorem Waits.unlocking (h : Waits s) (at_ : (s.caller j).stage = .unlocking) : s.Freed j 5 := by
  refine State.Freed.step (t := { s.setCaller j { s.caller j with stage := .bumping } with
    lock := none }) ?_ lt ?_
  · exact Waits.bumping lt (h.of_same rfl rfl rfl) (by simp [State.setCaller])
  · simp [State.callerStep, at_]

theorem Waits.flagging (h : Waits s) (at_ : (s.caller j).stage = .flagging) : s.Freed j 6 := by
  refine State.Freed.step (t := { s.setCaller j { s.caller j with stage := .unlocking } with
    pending := true }) ?_ lt ?_
  · exact Waits.unlocking lt (h.of_same rfl rfl rfl) (by simp [State.setCaller])
  · simp [State.callerStep, at_]

theorem Waits.sending (h : Waits s) (at_ : (s.caller j).stage = .sending) : s.Freed j 5 := by
  refine State.Freed.step (t := { s.setCaller j { s.caller j with stage := .bumping } with
    status := true }) ?_ lt ?_
  · exact Waits.bumping lt (h.of_same rfl rfl rfl) (by simp [State.setCaller])
  · simp [State.callerStep, at_]

theorem Waits.unbumped (h : Waits s) (at_ : (s.caller j).stage.unbumped = true) :
    s.Freed j 6 := by
  cases place : (s.caller j).stage with
  | flagging => exact Waits.flagging lt h place
  | unlocking => exact (Waits.unlocking lt h place).mono (by decide)
  | bumping => exact (Waits.bumping lt h place).mono (by decide)
  | _ => simp [place, CallStage.unbumped] at at_

omit lt

theorem Heard.freed_after (h : Heard s) (waits : Waits s) (after : s.waiter.seenAt < s.bumps) :
    ∃ j, s.Freed j 3 := by
  have reached := waits.reached after
  obtain asleep | poll := waits.blocked
  · by_cases hit : s.waiter.hit = true
    · exact ⟨0, freed_hit asleep hit⟩
    · obtain same | ⟨j, lt, at_⟩ := h.futex asleep (by simpa using hit)
      · exact absurd same (Nat.ne_of_gt after)
      · exact ⟨j, Reached.wakingFutex lt reached (by simpa using at_)⟩
  · by_cases readable : s.waiter.readable = true
    · exact ⟨0, freed_readable poll readable reached.moved⟩
    · obtain same | ⟨j, lt, at_⟩ := h.poll (.inr poll) (by simpa using readable)
      · exact absurd same (Nat.ne_of_gt after)
      · refine ⟨j, ?_⟩
        cases place : (s.caller j).stage with
        | wakingFutex => exact Reached.wakingFutex lt reached place
        | counting => exact (Reached.counting lt reached poll place).mono (by decide)
        | wakingPoll => exact (Reached.wakingPoll lt reached poll place).mono (by decide)
        | _ => simp [place, CallStage.ringing] at at_

theorem Heard.freed (h : Heard s) (waits : Waits s) (due : s.Due) : ∃ j, s.Freed j 6 := by
  obtain after | ⟨j, lt, at_⟩ := due
  · obtain ⟨j, freed⟩ := h.freed_after waits after
    exact ⟨j, freed.mono (by decide)⟩
  · exact ⟨j, Waits.unbumped lt waits at_⟩

end Waits

section Probing

def Stage.mayProbe : Stage → Bool
  | .idle | .capturing | .registering | .draining | .comparing | .polling | .unregistering
  | .left => true
  | _ => false

variable {v : View} {w w' : Waiter} {a : Action} {f : Effect}

theorem Waiter.found_probing : w.found.probing = w.probing := by
  unfold Waiter.found
  split <;> rfl

theorem Waiter.processed_probing : w.processed.probing = w.probing := by
  unfold Waiter.processed
  split <;> rfl

theorem Waiter.running_probing : (w.running v).probing = w.probing := by
  unfold Waiter.running
  split
  · rfl
  · exact processed_probing

theorem Waiter.popped_probing {taken : Bool} : (w.popped v taken).probing = w.probing := by
  unfold Waiter.popped
  split <;> rfl

theorem Move.mayProbe (m : Move v w a w' f) (h : w.probing = true → w.stage.mayProbe = true)
    (probing : w'.probing = true) : w'.stage.mayProbe = true := by
  cases m with
  | found at_ =>
    rw [Waiter.found_probing] at probing
    obtain at_ | at_ := at_ <;> simp [at_, Stage.mayProbe, probing] at h
  | running at_ =>
    rw [Waiter.running_probing] at probing
    obtain ⟨at_, -⟩ | ⟨at_, -⟩ := at_ <;> simp [at_, Stage.mayProbe, probing] at h
  | ignored at_ _ | handled at_ =>
    rw [Waiter.processed_probing] at probing
    simp [at_, Stage.mayProbe, probing] at h
  | empty at_ _ | popTake at_ =>
    rw [Waiter.popped_probing] at probing
    simp [at_, Stage.mayProbe, probing] at h
  | signalled at_ =>
    have probing : w.probing = true := probing
    obtain at_ | at_ := at_ <;> simp [at_, Stage.mayProbe, probing] at h
  | unregister stage into at_ =>
    have probing : w.probing = true := probing
    obtain ⟨-, unprobed⟩ | rfl | rfl := into
    · simp [probing] at unprobed
    · rfl
    · rfl
  | _ => simp_all [Stage.mayProbe]

theorem mayProbe_reachable {s : State} (h : interruptSystem.Reachable s) :
    s.waiter.probing = true → s.waiter.stage.mayProbe = true := by
  refine h.invariant (P := fun s => s.waiter.probing = true → s.waiter.stage.mayProbe = true) ?_
    (fun s e s' _ inv _ hn => ?_)
  · rintro _ ⟨callers, signalSet, hasHandler, rfl⟩ probing
    cases probing
  · cases step_cases hn with
    | caller j a s' lt m =>
      cases m with
      | wakeFutex at_ => rw [Waiter.wakeFutex_eq]; exact inv
      | wakePoll at_ => rw [Waiter.wakePoll_eq]; exact inv
      | _ => exact inv
    | waiter a w f m => exact m.mayProbe inv
    | callback hasHandler at_ => exact inv
    | others n => exact inv

end Probing

section Pending

variable {s s' : State}

def State.Marked (s : State) : Prop :=
  s.finished = true → s.status = true ∨ s.Calling (· = .sending)

theorem CallMove.marked {j : Nat} (m : CallMove s j s') (lt : j < s.callers) (h : s.Marked) :
    s'.Marked := by
  intro finished
  cases m with
  | mark at_ => exact .inr (State.Calling.own (p := (· = .sending)) lt rfl)
  | send at_ => exact .inl rfl
  | signal _ at_ | lock at_ | push at_ | flag at_ | unlock at_ | finish at_ | interrupt at_ | bump at_
  | wakeFutex at_ | nobody at_ _ | somebody at_ | wakePoll at_ =>
    exact (h finished).imp_right (·.move (by simp [at_]))

theorem marked_reachable (h : interruptSystem.Reachable s) : s.Marked := by
  refine h.invariant ?_ (fun s e s' _ marked _ hn => ?_)
  · rintro _ ⟨callers, signalSet, hasHandler, rfl⟩ finished
    cases finished
  · cases step_cases hn with
    | caller j a s' lt m => exact m.marked lt marked
    | waiter a w f m => cases f <;> exact marked
    | callback hasHandler at_ => exact marked
    | others n => exact marked

def State.Pending (s : State) : Prop := s.queue ≠ [] ∨ s.finished = true

instance (s : State) : Decidable s.Pending := inferInstanceAs (Decidable (_ ∨ _))

def State.Asleep (s : State) : Prop :=
  s.waiter.stage = .asleep ∧ s.waiter.hit = false ∨
    s.waiter.stage = .pollAsleep ∧ s.waiter.readable = false

def CallStage.underWay : CallStage → Bool
  | .sending => true
  | stage => stage.unbumped || stage.ringing

/-- Asleep with something pending, and no call is under way that could still wake the thread. -/
def State.SleptThrough (s : State) : Prop :=
  s.Asleep ∧ s.Pending ∧ ¬ s.Calling CallStage.underWay

instance (s : State) : Decidable s.Asleep := inferInstanceAs (Decidable (_ ∧ _ ∨ _ ∧ _))

instance (s : State) : Decidable s.SleptThrough := inferInstanceAs (Decidable (_ ∧ _ ∧ ¬ _))

theorem State.Blocked.unprobed (h : interruptSystem.Reachable s) (blocked : s.Blocked) :
    s.waiter.probing = false := by
  by_contra probing
  have may := mayProbe_reachable h (by simpa using probing)
  obtain at_ | at_ := blocked <;> simp [at_, Stage.mayProbe] at may

theorem Heard.due (h : Heard s) (blocked : s.Blocked) (unprobed : s.waiter.probing = false)
    (pending : s.queue ≠ [] ∨ s.status = true) : s.Due := by
  have past : s.waiter.stage.past = true := by
    obtain at_ | at_ := blocked <;> rw [at_] <;> rfl
  obtain queued | finished := pending
  · exact h.signals (by simp [Waiter.signalsSeen, past, unprobed]) queued
  · exact h.exit (by simp [Waiter.exitSeen, past, unprobed]) finished

theorem State.Asleep.blocked (h : s.Asleep) : s.Blocked := h.imp And.left And.left

theorem Heard.not_sleptThrough (h : Heard s) (reach : interruptSystem.Reachable s) :
    ¬ s.SleptThrough := by
  rintro ⟨asleep, pending, unseen⟩
  have nobody (p : CallStage → Bool) (within : ∀ c, p c = true → c.underWay = true) :
      ¬ s.Calling p := by
    rintro ⟨j, lt, at_⟩
    exact unseen ⟨j, lt, within _ at_⟩
  have pending : s.queue ≠ [] ∨ s.status = true := pending.imp_right fun finished =>
    (marked_reachable reach finished).resolve_right (nobody _ (by rintro ⟨⟩ <;> decide))
  obtain after | calling := h.due asleep.blocked (asleep.blocked.unprobed reach) pending
  · have later : s.bumps ≠ s.waiter.seenAt := Nat.ne_of_gt after
    obtain ⟨futex, unhit⟩ | ⟨poll, silent⟩ := asleep
    · exact (h.futex futex unhit).elim later (nobody _ (by rintro ⟨⟩ <;> decide))
    · exact (h.poll (.inr poll) silent).elim later (nobody _ (by rintro ⟨⟩ <;> decide))
  · exact nobody _ (by rintro ⟨⟩ <;> decide) calling

theorem Heard.getsOut (h : Heard s) (reach : interruptSystem.Reachable s) (blocked : s.Blocked)
    (pending : s.Pending) (few : s.bumps + 1 < s.waiter.seenAt + 2 ^ 32) : ∃ j, s.Freed j 6 := by
  have waits := h.waits blocked few
  have unprobed := blocked.unprobed reach
  obtain queued | finished := pending
  · exact h.freed waits (h.due blocked unprobed (.inl queued))
  · obtain finished | ⟨j, lt, at_⟩ := marked_reachable reach finished
    · exact h.freed waits (h.due blocked unprobed (.inr finished))
    · exact ⟨j, (Waits.sending lt waits (by simpa using at_)).mono (by decide)⟩

end Pending

/-- In a run whose checks leave nothing behind and whose generation does not go round, a blocked
thread with something pending has been woken once no call is under way; it needs at most six more
steps of one call and three of its own to get out; and `pop_signals` finds no flag only while each signal in the queue
belongs to a call that is still to set it. -/
theorem not_slept_through {s : State} (h : interruptSystem.ReachableBy Attends s) :
    ¬ s.SleptThrough ∧
    (s.Blocked → s.Pending → s.bumps + 1 < s.waiter.seenAt + 2 ^ 32 → ∃ j, s.Freed j 6) ∧
    (s.waiter.stage = .popping → s.pending = false →
      (∀ n ∈ s.queue, ∃ e ∈ s.askers, e.1 = n) ∧
      ∀ e ∈ s.askers, ∃ j < s.callers, (s.caller j).stage = .flagging ∧ (s.caller j).call = e.2) := by
  have heard := heard_reachable h
  refine ⟨heard.not_sleptThrough h.reachable, heard.getsOut h.reachable, fun at_ clear => ?_⟩
  exact ⟨heard.askers, heard.flag clear (by simp [at_])⟩

def goes (n : Nat) : List Event := List.replicate n (.caller 0 .go)

def futexWait (n : Nat) : List Event := .waiter (.call .futex) :: List.replicate n (.waiter .go)

/-- A signal that arrives at a blocked thread. -/
theorem not_slept_through_signal : ∃ s : State, s.Blocked ∧ s.Pending ∧ ∃ j, s.Freed j 6 := by
  obtain ⟨s, reach, blocked, pending, few⟩ : ∃ s, interruptSystem.ReachableBy Attends s ∧ s.Blocked ∧
      s.Pending ∧ s.bumps + 1 < s.waiter.seenAt + 2 ^ 32 :=
    System.exists_reachableBy_of_runBy (s := { callers := 1, signalSet := true, hasHandler := true })
      (l := futexWait 4 ++ [.waiter (.deliver false false), .waiter .go] ++
        .caller 0 (.signal 10) :: goes 2)
      (.init ⟨1, true, true, rfl⟩) (by decide +kernel)
  exact ⟨s, blocked, pending, (not_slept_through reach).2.1 blocked pending few⟩

/-- A signal that was queued before the call, while the guest had unset its handler: `futex_wait`
leaves it in the queue and blocks. -/
theorem undelivered_slept_through : ∃ s, interruptSystem.Reachable s ∧ s.SleptThrough :=
  System.exists_reachable_of_run (s := { callers := 1, signalSet := true, hasHandler := false })
    (l := .caller 0 (.signal 10) :: goes 7 ++ futexWait 4)
    (.init ⟨1, true, false, rfl⟩) (by decide +kernel)

end ServiceCache.Interrupt
