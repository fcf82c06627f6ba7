import ServiceCache.Interrupt.Model

/-!
# The moves of the waiting thread and of a caller
-/

namespace ServiceCache.Interrupt

inductive Move (v : View) (w : Waiter) (a : Action) : Waiter → Effect → Prop
  | call (kind : WaitKind) (at_ : w.stage = .idle) :
      Move v w a { w with stage := .capturing, kind, probing := false, hit := false } .none
  | capture (stage : Stage) (into : stage = .handlers ∨ stage = .flagCheck)
      (at_ : w.stage = .capturing) :
      Move v w a { w with stage, expected := v.generation, seenAt := v.bumps, probing := false } .none
  | probe (at_ : w.stage = .flagCheck) :
      Move v w a { w with stage := .registering, probing := true } .none
  | found (at_ : w.stage = .flagCheck ∨ w.stage = .exitStatus) : Move v w a w.found .none
  | noSignal (at_ : w.stage = .flagCheck) (clear : v.pending = false) :
      Move v w a { w with stage := .exitCheck } .none
  | flagged (at_ : w.stage = .exitCheck) : Move v w a { w with stage := .exitStatus } .none
  | noExit (at_ : w.stage = .exitCheck ∧ v.finished = false ∨
        w.stage = .exitStatus ∧ v.status = false) :
      Move v w a { w with stage := .registering } .none
  | handlers (at_ : w.stage = .handlers) (set : v.signalSet = true) :
      Move v w a { w with stage := .exiting } .none
  | noHandlers (at_ : w.stage = .handlers) (unset : v.signalSet = false) :
      Move v w a { w with stage := .popping } .none
  | exiting (at_ : w.stage = .exiting) : Move v w a { w with stage := .exitingStatus } .none
  | running (at_ : w.stage = .exiting ∧ v.finished = false ∨
        w.stage = .exitingStatus ∧ v.status = false) : Move v w a (w.running v) .none
  | leave (at_ : w.stage ≠ .popTake) : Move v w a { w with stage := .left } .none
  | looks (at_ : w.stage = .ignoring) : Move v w a { w with stage := .exiting } .none
  | ignored (at_ : w.stage = .ignoring) (action : a = .deliver false false) :
      Move v w a w.processed .none
  | handled (at_ : w.stage = .handling) : Move v w a w.processed .none
  | someSignal (at_ : w.stage = .popping) : Move v w a { w with stage := .popLock } .none
  | empty (at_ : w.stage = .popping) (clear : v.pending = false) :
      Move v w a (w.popped v false) .none
  | popLock (at_ : w.stage = .popLock) : Move v w a { w with stage := .popClear } .lock
  | popClear (at_ : w.stage = .popClear) : Move v w a { w with stage := .popTake } .clear
  | popTake (at_ : w.stage = .popTake) : Move v w a (w.popped v v.queued) .take
  | startOver (at_ : w.stage = .recheck ∨ w.stage = .registering) :
      Move v w a { w with stage := .capturing } .none
  | block (at_ : w.stage = .requesting) (same : v.generation = w.expected) :
      Move v w a { w with stage := .asleep, hit := false } .none
  | signalled (at_ : w.stage = .requesting ∨ w.stage = .asleep) :
      Move v w a { w with stage := .signalled } .none
  | retry (at_ : w.stage = .signalled) : Move v w a { w with stage := .requesting } .none
  | register (at_ : w.stage = .registering) :
      Move v w a { w with stage := .draining, listed := true } .none
  | drain (at_ : w.stage = .draining) :
      Move v w a { w with
        stage := .comparing, readable := w.readable && !w.undrained, undrained := false } .none
  | same (at_ : w.stage = .comparing) (same : v.generation = w.expected) :
      Move v w a { w with stage := .polling } .none
  | stopPoll (again : Bool)
      (at_ : w.stage = .comparing ∨ w.stage = .polling ∨ w.stage = .pollAsleep) :
      Move v w a { w with stage := .unregistering, again } .none
  | wake (at_ : w.stage = .polling ∨ w.stage = .pollAsleep) :
      Move v w a { w with stage := .draining, undrained := true } .none
  | blockPoll (at_ : w.stage = .polling) (unprobed : w.probing = false) :
      Move v w a { w with stage := .pollAsleep } .none
  | hostSignal (at_ : w.stage = .pollAsleep) : Move v w a { w with stage := .draining } .none
  | unregister (stage : Stage)
      (into : stage = .handlers ∧ w.probing = false ∨ stage = .left ∨ stage = .capturing)
      (at_ : w.stage = .unregistering) : Move v w a { w with listed := false, stage } .none
  | returned (at_ : w.stage = .left) : Move v w a { w with stage := .idle } .none

section Local

variable {v : View} {w w' : Waiter} {a : Action} {f : Effect}

theorem waiterStep_move (h : waiterStep v w a = some (w', f)) : Move v w a w' f := by
  unfold waiterStep at h
  split at h
  next kind at_ => cases h; exact .call kind at_
  next at_ =>
    cases h
    refine .capture _ ?_ at_
    split
    · exact .inl rfl
    · exact .inr rfl
  next at_ =>
    split at h
    · cases h; exact .probe at_
    · cases h
  next at_ =>
    cases h
    split
    · exact .found (.inl at_)
    next clear => exact .noSignal at_ (by simpa using clear)
  next at_ =>
    cases h
    split
    · exact .flagged at_
    next clear => exact .noExit (.inl ⟨at_, by simpa using clear⟩)
  next at_ =>
    cases h
    split
    · exact .found (.inr at_)
    next clear => exact .noExit (.inr ⟨at_, by simpa using clear⟩)
  next at_ =>
    cases h
    split
    next set => exact .handlers at_ set
    next unset => exact .noHandlers at_ (by simpa using unset)
  next at_ =>
    cases h
    split
    · exact .exiting at_
    next clear => exact .running (.inl ⟨at_, by simpa using clear⟩)
  next at_ =>
    cases h
    split
    · exact .leave (by simp [at_])
    next clear => exact .running (.inr ⟨at_, by simpa using clear⟩)
  next ends looks at_ =>
    cases h
    split
    · exact .leave (by simp [at_])
    next goesOn =>
      split
      · exact .looks at_
      next blind => exact .ignored at_ (by simp_all)
  next at_ =>
    cases h
    split
    · exact .leave (by simp [at_])
    · exact .handled at_
  next at_ =>
    cases h
    split
    · exact .someSignal at_
    next clear => exact .empty at_ (by simpa using clear)
  next at_ =>
    split at h
    · cases h
    · cases h; exact .popLock at_
  next at_ => cases h; exact .popClear at_
  next at_ => cases h; exact .popTake at_
  next at_ =>
    cases h
    split
    · exact .leave (by simp [at_])
    · exact .startOver (.inl at_)
  next at_ =>
    cases h
    split
    next same => exact .block at_ same
    · exact .signalled (.inl at_)
  next at_ => cases h; exact .leave (by simp [at_])
  next at_ =>
    split at h
    · cases h; exact .leave (by simp [at_])
    · cases h
  next at_ => cases h; exact .leave (by simp [at_])
  next at_ => cases h; exact .signalled (.inr at_)
  next at_ =>
    cases h
    split
    · exact .retry at_
    · exact .leave (by simp [at_])
  next at_ => cases h; exact .register at_
  next at_ => cases h; exact .leave (by simp [at_])
  next at_ => cases h; exact .startOver (.inr at_)
  next at_ => cases h; exact .drain at_
  next at_ =>
    cases h
    split
    next same => exact .same at_ same
    · exact .stopPoll true (.inl at_)
  next at_ =>
    cases h
    split
    · exact .wake (.inl at_)
    · split
      · exact .stopPoll false (.inr (.inl at_))
      next unprobed => exact .blockPoll at_ (by simpa using unprobed)
  next at_ =>
    split at h
    · cases h; exact .wake (.inr at_)
    · cases h
  next at_ => cases h; exact .stopPoll false (.inr (.inl at_))
  next at_ => cases h; exact .stopPoll false (.inr (.inr at_))
  next at_ => cases h; exact .hostSignal at_
  next at_ =>
    cases h
    refine .unregister _ ?_ at_
    split
    next again => exact .inl ⟨rfl, by simp_all⟩
    · exact .inr (.inl rfl)
  next at_ => cases h; exact .unregister _ (.inr (.inr rfl)) at_
  next at_ => cases h; exact .returned at_
  · cases h

end Local

inductive CallMove (s : State) (j : Nat) : State → Prop
  | signal (n : Nat) (at_ : (s.caller j).stage = .idle) :
      CallMove s j { s.setCaller j { stage := .locking, signal := n, call := s.calls } with
        calls := s.calls + 1 }
  | lock (at_ : (s.caller j).stage = .locking) :
      CallMove s j { s.setCaller j { s.caller j with stage := .pushing } with
        lock := some (.caller j) }
  | push (at_ : (s.caller j).stage = .pushing) :
      CallMove s j { s.setCaller j { s.caller j with stage := .flagging } with
        queue := s.push (s.caller j)
        askers := s.askers ++ [((s.caller j).signal, (s.caller j).call)] }
  | flag (at_ : (s.caller j).stage = .flagging) :
      CallMove s j { s.setCaller j { s.caller j with stage := .unlocking } with pending := true }
  | unlock (at_ : (s.caller j).stage = .unlocking) :
      CallMove s j { s.setCaller j { s.caller j with stage := .bumping } with lock := none }
  | finish (at_ : (s.caller j).stage = .idle) :
      CallMove s j (s.setCaller j { s.caller j with stage := .finishing })
  | mark (at_ : (s.caller j).stage = .finishing) :
      CallMove s j { s.setCaller j { s.caller j with stage := .sending } with finished := true }
  | send (at_ : (s.caller j).stage = .sending) :
      CallMove s j { s.setCaller j { s.caller j with stage := .bumping } with status := true }
  | interrupt (at_ : (s.caller j).stage = .idle) :
      CallMove s j (s.setCaller j { s.caller j with stage := .bumping })
  | bump (at_ : (s.caller j).stage = .bumping) :
      CallMove s j { s.setCaller j { s.caller j with stage := .wakingFutex } with
        generation := (s.generation + 1) % 2 ^ 32, bumps := s.bumps + 1 }
  | wakeFutex (at_ : (s.caller j).stage = .wakingFutex) :
      CallMove s j { s.setCaller j { s.caller j with stage := .counting } with
        waiter := s.waiter.wakeFutex }
  | nobody (at_ : (s.caller j).stage = .counting) (zero : s.waiterCount = 0) :
      CallMove s j (s.setCaller j { s.caller j with stage := .idle })
  | somebody (at_ : (s.caller j).stage = .counting) :
      CallMove s j (s.setCaller j { s.caller j with stage := .wakingPoll })
  | wakePoll (at_ : (s.caller j).stage = .wakingPoll) :
      CallMove s j { s.setCaller j { s.caller j with stage := .idle } with
        waiter := s.waiter.wakePoll }

theorem callerStep_move {s s' : State} {j : Nat} {a : CallAction}
    (h : s.callerStep j a = some s') : CallMove s j s' := by
  unfold State.callerStep at h
  dsimp only at h
  split at h
  next n at_ => cases h; exact .signal n at_
  next at_ =>
    split at h
    · cases h; exact .lock at_
    · cases h
  next at_ => cases h; exact .push at_
  next at_ => cases h; exact .flag at_
  next at_ => cases h; exact .unlock at_
  next at_ => cases h; exact .finish at_
  next at_ => cases h; exact .mark at_
  next at_ => cases h; exact .send at_
  next at_ => cases h; exact .interrupt at_
  next at_ => cases h; exact .bump at_
  next at_ => cases h; exact .wakeFutex at_
  next at_ =>
    cases h
    split
    next zero => exact .nobody at_ zero
    · exact .somebody at_
  next at_ => cases h; exact .wakePoll at_
  · cases h

theorem setCaller_caller (s : State) (i j : Nat) (c : Caller) :
    (s.setCaller j c).caller i = if i = j then c else s.caller i := Function.update_apply ..

inductive Step (s : State) : Event → State → Prop
  | caller (j : Nat) (a : CallAction) (s' : State) (lt : j < s.callers) (moved : CallMove s j s') :
      Step s (.caller j a) s'
  | waiter (a : Action) (w : Waiter) (f : Effect) (moved : Move s.view s.waiter a w f) :
      Step s (.waiter a) { s.apply f with waiter := w }
  | callback (hasHandler : Bool) (at_ : s.waiter.stage = .idle) :
      Step s (.callback hasHandler) { s with signalSet := true, hasHandler }
  | others (n : Nat) : Step s (.others n) { s with others := n }

theorem step_cases {s s' : State} {e : Event} (h : interruptSystem.next s e = some s') :
    Step s e s' := by
  cases e with
  | caller j a =>
    simp only [interruptSystem, State.step] at h
    split at h
    next lt => exact .caller j a s' lt (callerStep_move h)
    · cases h
  | waiter a =>
    obtain ⟨⟨w, f⟩, moved, rfl⟩ := Option.map_eq_some_iff.mp h
    exact .waiter a w f (waiterStep_move moved)
  | callback hasHandler =>
    simp only [interruptSystem, State.step] at h
    split at h
    next at_ => cases h; exact .callback hasHandler at_
    · cases h
  | others n => cases h; exact .others n

end ServiceCache.Interrupt
