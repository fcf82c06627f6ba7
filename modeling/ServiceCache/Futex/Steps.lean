import ServiceCache.Futex.Model

/-!
# What a guest thread can do next
-/

namespace ServiceCache.Futex

inductive WaitMove (v : View) (t : Thread) : Thread → Effect → Prop
  | call (expected : Nat) (timed : Bool) (at_ : t.stage = .idle) :
      WaitMove v t { t with
        stage := .called, expected, timed, interruptExpected := v.interrupt, result := none,
        returned := none, counted := false, callAt := v.now } .none
  | indirect (at_ : t.stage = .called) : WaitMove v t { t with stage := .fallback } .none
  | direct (at_ : t.stage = .called) (supported : v.support = .supported) :
      WaitMove v t { t with stage := .reading } .none
  | differs (at_ : t.stage = .reading) (word : v.word ≠ t.expected) :
      WaitMove v t (t.finish true) .none
  | same (at_ : t.stage = .reading) (word : v.word = t.expected) :
      WaitMove v t { t with stage := .suspending } .none
  | suspend (at_ : t.stage = .suspending) (supported : v.support = .supported) :
      WaitMove v t { t with stage := .waiting } .none
  | lost (at_ : t.stage = .suspending) : WaitMove v t { t with stage := .fallback } .none
  | retire (at_ : t.stage = .waiting ∨ t.stage = .armed) (closed : v.gateClosed = true) :
      WaitMove v t { t with stage := .retired } .none
  | enter (at_ : t.stage = .waiting) (opened : v.gateClosed = false) :
      WaitMove v t { t with stage := .entered } .none
  | arm (at_ : t.stage = .entered) :
      WaitMove v t { t with stage := .armed, gateExpected := v.gateEpoch } .none
  | request (at_ : t.stage = .armed) (opened : v.gateClosed = false) :
      WaitMove v t { t with stage := .requesting } .none
  | sleep (at_ : t.stage = .requesting) (word : v.word = t.expected) :
      WaitMove v t
        { t with stage := .asleep, hitWord := false, hitGeneration := false, lookAt := v.now } .none
  | refuse (at_ : t.stage = .requesting) (moved : v.word ≠ t.expected ∨ t.changed v = true) :
      WaitMove v t { t with stage := .again } .none
  | fail (at_ : t.stage = .requesting) : WaitMove v t (t.give .unavailable) .disable
  | woken (at_ : t.stage = .asleep) (hit : t.hitWord = true) : WaitMove v t (t.give .woken) .none
  | disturbed (at_ : t.stage = .asleep) (unhit : t.hitWord = false)
      (hit : t.hitGeneration = true) : WaitMove v t (t.give .interrupted) .none
  | timedOut (at_ : t.stage = .asleep) (unhit : t.hitWord = false) (timed : t.timed = true) :
      WaitMove v t (t.give .timedOut) .none
  | hostSignal (at_ : t.stage = .asleep) (unhit : t.hitWord = false) :
      WaitMove v t { t with stage := .signalled } .none
  | interrupted (at_ : t.stage = .signalled ∨ t.stage = .again) (changed : t.changed v = true) :
      WaitMove v t (t.give .interrupted) .none
  | retry (at_ : t.stage = .signalled) (unchanged : t.changed v = false) :
      WaitMove v t { t with stage := .requesting } .none
  | reload (at_ : t.stage = .again) (unchanged : t.changed v = false) :
      WaitMove v t { t with stage := .againWord } .none
  | moved (at_ : t.stage = .againWord) (word : v.word ≠ t.expected) :
      WaitMove v t (t.give .woken) .none
  | retryWord (at_ : t.stage = .againWord) (word : v.word = t.expected) :
      WaitMove v t { t with stage := .requesting } .none
  | expired (at_ : t.stage = .againWord) (word : v.word = t.expected) (timed : t.timed = true) :
      WaitMove v t (t.give .timedOut) .none
  | drop (at_ : t.stage = .answered) (closed : v.gateClosed = true) :
      WaitMove v t { t with stage := .retired, result := none } .none
  | store (at_ : t.stage = .answered) (opened : v.gateClosed = false) :
      WaitMove v t { t with stage := .stored } .none
  | keep (at_ : t.stage = .stored) (closed : v.gateClosed = true) :
      WaitMove v t { t with stage := .kept } .none
  | resume (at_ : t.stage = .stored) (opened : v.gateClosed = false) :
      WaitMove v t { t with stage := .resumed } .none
  | returnWoken (at_ : t.stage = .resumed) (result : t.result = some .woken) :
      WaitMove v t (t.finish true) .none
  | returnTimedOut (at_ : t.stage = .resumed) (result : t.result = some .timedOut) :
      WaitMove v t (t.finish false) .none
  | fallBack (at_ : t.stage = .resumed) (woken : t.result ≠ some .woken) :
      WaitMove v t { t with stage := .fallback } .none
  | register (at_ : t.stage = .fallback) : WaitMove v t { t with stage := .registered } .register
  | changed (at_ : t.stage = .registered) (word : v.word ≠ t.expected) :
      WaitMove v t (t.finish true) .unregister
  | settle (at_ : t.stage = .registered) (word : v.word = t.expected) :
      WaitMove v t { t with stage := .tabled, lookAt := v.now } .none
  | removed (at_ : t.stage = .tabled) (out : v.inTable = false) : WaitMove v t (t.finish true) .none
  | tableTimedOut (at_ : t.stage = .tabled) (entry : v.inTable = true) (timed : t.timed = true) :
      WaitMove v t (t.finish false) .unregister

section Wait

variable {v : View} {t t' : Thread} {a : Action} {f : Effect}

theorem block_move (at_ : t.stage = .requesting) : WaitMove v t (t.block v) .none := by
  unfold Thread.block
  split
  next unchanged => exact .sleep at_ unchanged.1
  next moved =>
    refine .refuse at_ ?_
    by_cases word : v.word = t.expected
    · exact .inr (by simpa [word] using moved)
    · exact .inl word

theorem resumed_move (at_ : t.stage = .resumed) :
    WaitMove v t (match t.result with
      | some .woken => t.finish true
      | some .timedOut => t.finish false
      | _ => { t with stage := .fallback }) .none := by
  split
  next result => exact .returnWoken at_ result
  next result => exact .returnTimedOut at_ result
  next woken _ => exact .fallBack at_ woken

theorem waitStep_move (h : waitStep v t a = some (t', f)) : WaitMove v t t' f := by
  unfold waitStep at h
  split at h
  next expected timed at_ => cases h; exact .call expected timed at_
  next at_ => cases h; exact .indirect at_
  next at_ =>
    split at h
    next supported => cases h; exact .direct at_ supported
    · cases h
  next at_ =>
    split at h
    next word => cases h; exact .differs at_ word
    next word => cases h; exact .same at_ (not_not.mp word)
  next at_ =>
    cases h
    split
    next supported => exact .suspend at_ supported
    · exact .lost at_
  next at_ =>
    cases h
    split
    next closed => exact .retire (.inl at_) closed
    next opened => exact .enter at_ (by simpa using opened)
  next at_ => cases h; exact .arm at_
  next at_ =>
    cases h
    split
    next closed => exact .retire (.inr at_) closed
    next opened => exact .request at_ (by simpa using opened)
  next at_ => cases h; exact block_move at_
  next at_ => cases h; exact .fail at_
  next at_ =>
    split at h
    next hit => cases h; exact .woken at_ hit
    next unhit =>
      split at h
      next hit => cases h; exact .disturbed at_ (by simpa using unhit) hit
      · cases h
  next at_ =>
    obtain ⟨due, h⟩ := Transition.guarded h
    simp only [Bool.and_eq_true, Bool.not_eq_true'] at due
    cases h
    exact .timedOut at_ due.1.2 due.1.1
  next at_ =>
    obtain ⟨quiet, h⟩ := Transition.guarded h
    simp only [Bool.and_eq_true, Bool.not_eq_true'] at quiet
    cases h
    exact .hostSignal at_ quiet.1
  next at_ =>
    cases h
    split
    next changed => exact .interrupted (.inl at_) changed
    next unchanged => exact .retry at_ (by simpa using unchanged)
  next at_ =>
    cases h
    split
    next changed => exact .interrupted (.inr at_) changed
    next unchanged => exact .reload at_ (by simpa using unchanged)
  next at_ =>
    cases h
    split
    next word => exact .moved at_ word
    next word => exact .retryWord at_ (not_not.mp word)
  next at_ =>
    split at h
    next due => cases h; exact .expired at_ due.1 due.2
    · cases h
  next at_ =>
    cases h
    split
    next closed => exact .drop at_ closed
    next opened => exact .store at_ (by simpa using opened)
  next at_ =>
    cases h
    split
    next closed => exact .keep at_ closed
    next opened => exact .resume at_ (by simpa using opened)
  next at_ => cases h; exact resumed_move at_
  next at_ => cases h; exact .register at_
  next at_ =>
    split at h
    next word => cases h; exact .changed at_ word
    next word => cases h; exact .settle at_ (not_not.mp word)
  next at_ =>
    split at h
    · cases h
    next out =>
      simp only [Bool.or_eq_true, not_or, Bool.not_eq_true] at out
      cases h
      exact .removed at_ out.2
  next at_ =>
    obtain ⟨due, h⟩ := Transition.guarded h
    simp only [Bool.and_eq_true] at due
    cases h
    exact .tableTimedOut at_ due.2 due.1.1
  · cases h

end Wait

inductive Move (s : State) : Event → State → Prop
  | wait (i : Nat) (a : Action) (t : Thread) (f : Effect) (lt : i < s.threads)
      (moved : WaitMove (s.view i) (s.thread i) t f) :
      Move s (.thread i a) ((s.effect i f).setThread i t)
  | store (i value : Nat) (at_ : (s.thread i).stage = .idle) :
      Move s (.thread i (.store value))
        { s.setThread i { s.thread i with storedValue := value, storedAt := s.clock } with
          word := value }
  | wake (i : Nat) (at_ : (s.thread i).stage = .idle) :
      Move s (.thread i .wake) (s.setThread i { s.thread i with stage := .waking })
  | release (i j : Nat) (at_ : (s.thread i).stage = .waking) (wakes : s.support.wakes = true)
      (queued : (s.thread j).queued = true) :
      Move s (.thread i (.pick j))
        ((s.setThread j { s.thread j with hitWord := true, counted := true }).setThread i
          { s.thread i with stage := .idle })
  | nobody (i : Nat) (at_ : (s.thread i).stage = .waking) :
      Move s (.thread i .go) (s.setThread i { s.thread i with stage := .wakingTable })
  | unlist (i j : Nat) (at_ : (s.thread i).stage = .wakingTable) :
      Move s (.thread i (.pick j))
        { s.setThread i { s.thread i with stage := .idle } with table := s.table.filter (· ≠ j) }
  | unheard (i : Nat) (at_ : (s.thread i).stage = .wakingTable) :
      Move s (.thread i .go) (s.setThread i { s.thread i with stage := .idle })
  | wakeAll (i : Nat) (at_ : (s.thread i).stage = .idle) :
      Move s (.thread i .wakeAll)
        (s.setThread i { s.thread i with stage := .wakingAll, beganAt := s.clock })
  | releaseAll (i : Nat) (at_ : (s.thread i).stage = .wakingAll) (wakes : s.support.wakes = true) :
      Move s (.thread i .go)
        (State.setThread { s with thread := fun j => (s.thread j).hit } i
          { s.thread i with stage := .wakingAllTable })
  | unparked (i : Nat) (at_ : (s.thread i).stage = .wakingAll) (none : s.support.wakes = false) :
      Move s (.thread i .go) (s.setThread i { s.thread i with stage := .wakingAllTable })
  | clear (i : Nat) (at_ : (s.thread i).stage = .wakingAllTable) :
      Move s (.thread i .go)
        { s.setThread i { s.thread i with stage := .idle } with
          table := []
          notices := ⟨(s.thread i).storedValue, (s.thread i).storedAt, (s.thread i).beganAt⟩ ::
            s.notices }
  | probe (b : Bool) (unknown : s.support = .unknown) :
      Move s (.probe b) { s with support := if b then .supported else .unavailable }
  | interrupt (i : Nat) :
      Move s (.interrupt i)
        { s with interrupt := Function.update s.interrupt i ((s.interrupt i + 1) % 2 ^ 32) }
  | interruptWake (i : Nat) : Move s (.interruptWake i) (s.setThread i (s.thread i).disturb)
  | gate (g : Gate) (epoch : Nat) (closed : g ≠ .open_) :
      Move s .closeGate { s with gate := g, gateEpoch := epoch }
  | gateWake : Move s .closeGate
      { s with gate := .closed, thread := fun j => (s.thread j).disturb }
  | resurrect (closed : s.gate = .closed)
      (suspended : ∀ i < s.threads, (s.thread i).stage.suspended = true) :
      Move s .resurrect { s with gate := .open_, thread := fun i => (s.thread i).revive }

section Global

variable {s s' : State}

theorem wakeStep_move {i : Nat} {a : Action} (h : s.wakeStep i a = some s') :
    Move s (.thread i a) s' := by
  unfold State.wakeStep at h
  dsimp only at h
  split at h
  next value at_ => cases h; exact .store i value at_
  next at_ => cases h; exact .wake i at_
  next j at_ =>
    obtain ⟨free, h⟩ := Transition.guarded h
    rw [Bool.and_eq_true] at free
    cases h
    exact .release i j at_ free.1 free.2
  next at_ =>
    split at h
    · cases h
    · cases h; exact .nobody i at_
  next j at_ =>
    split at h
    · cases h; exact .unlist i j at_
    · cases h
  next at_ =>
    split at h
    · cases h; exact .unheard i at_
    · cases h
  next at_ => cases h; exact .wakeAll i at_
  next at_ =>
    cases h
    split
    next wakes => exact .releaseAll i at_ wakes
    next none => exact .unparked i at_ (by simpa using none)
  next at_ => cases h; exact .clear i at_
  · cases h

theorem step_move {e : Event} (h : s.step e = some s') : Move s e s' := by
  cases e with
  | thread i a =>
    simp only [State.step, State.threadStep] at h
    obtain ⟨lt, h⟩ := Transition.guarded h
    split at h
    next t f moved => cases h; exact .wait i a t f lt (waitStep_move moved)
    · exact wakeStep_move h
  | probe b =>
    obtain ⟨unknown, h⟩ := Transition.guarded h
    cases h; exact .probe b unknown
  | interrupt i => cases h; exact .interrupt i
  | interruptWake i => cases h; exact .interruptWake i
  | closeGate =>
    simp only [State.step, State.closeGate] at h
    split at h
    · cases h; exact .gate .stored s.gateEpoch (by simp)
    · cases h; exact .gate .moved _ (by simp)
    · cases h; exact .gateWake
    · cases h
  | resurrect =>
    simp only [State.step, State.resurrect] at h
    split at h
    next frozen => cases h; exact .resurrect frozen.1 frozen.2
    · cases h

@[simp] theorem setThread_thread (i j : Nat) (t : Thread) :
    (s.setThread i t).thread j = if j = i then t else s.thread j :=
  Function.update_apply _ _ _ _

@[simp] theorem effect_thread (i : Nat) (f : Effect) : (s.effect i f).thread = s.thread := by
  cases f <;> rfl

@[simp] theorem effect_notices (i : Nat) (f : Effect) : (s.effect i f).notices = s.notices := by
  cases f <;> rfl

@[simp] theorem effect_word (i : Nat) (f : Effect) : (s.effect i f).word = s.word := by
  cases f <;> rfl

end Global

end ServiceCache.Futex
