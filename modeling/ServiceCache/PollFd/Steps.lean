import ServiceCache.PollFd.Model

/-!
# What a step of the descriptor wait can do
-/

namespace ServiceCache.PollFd

open Transition

inductive Move (s : State) : State → Prop
  | refuses (i : Nat) (support : Support) (out : (s.threads i).stage.isOutside = true) :
      Move s ({ s with support }.setStage i (.outside (some .unavailable)))
  | enters (i : Nat) (request : HostPollFdWait) (out : (s.threads i).stage.isOutside = true) :
      Move s (s.modify i (s.enter request))
  | registers (i : Nat) (stage : (s.threads i).stage = .registering) (lock : s.lock = none) :
      Move s ({ s with
        lock := some (.thread i), waiters := s.waiters ++ [s.entry i] }.setStage i .counting)
  | counts (i : Nat) (stage : (s.threads i).stage = .counting) :
      Move s ({ s with count := s.waiters.length, lock := none }.setStage i .draining)
  | drains (i : Nat) (stage : (s.threads i).stage = .draining) : Move s (s.modify i Thread.drain)
  | loadsGate (i : Nat) (stage : (s.threads i).stage = .loadingGate)
      (same : s.words (s.threads i).gate.address = (s.threads i).gate.expected) :
      Move s (s.setStage i .loadingWord)
  | loadsWord (i : Nat) (stage : (s.threads i).stage = .loadingWord)
      (same : s.words (s.threads i).word.address = (s.threads i).word.expected) :
      Move s (s.setStage i .reading)
  | reads (i : Nat) (stage : (s.threads i).stage = .reading) :
      Move s (s.setStage i (.entering s.now ((s.threads i).deadline.map (· - s.now))))
  | blocks (i read : Nat) (timeout : Option Nat)
      (stage : (s.threads i).stage = .entering read timeout) :
      Move s (s.setStage i (.blocked read s.now timeout))
  | gives (i : Nat) (r : HostPollFdResult) (support : Support)
      (stage : (s.threads i).stage = .loadingGate ∨ (s.threads i).stage = .loadingWord ∨
        ∃ read entered timeout, (s.threads i).stage = .blocked read entered timeout)
      (result : r = .interrupted ∨ r = .unavailable) :
      Move s ({ s with support }.setStage i (.unregistering r))
  | signalled (i read entered : Nat) (timeout : Option Nat)
      (stage : (s.threads i).stage = .blocked read entered timeout) : Move s (s.setStage i .draining)
  | timesOut (i read entered timeout : Nat)
      (stage : (s.threads i).stage = .blocked read entered (some timeout))
      (quiet : (s.threads i).readable = false) (due : entered + timeout ≤ s.now) :
      Move s (s.setStage i (.unregistering .timedOut))
  | answers (i read entered : Nat) (timeout : Option Nat) (conditions : List (BitVec 16 × Bool))
      (stage : (s.threads i).stage = .blocked read entered timeout)
      (length : conditions.length = (s.threads i).fds.length)
      (some_ : (s.threads i).readable = true ∨
        ((s.threads i).fds.zipWith (fun fd c => fd.reported c.1) conditions).any (· ≠ 0#16) = true) :
      Move s (s.modify i fun t => t.answer conditions)
  | unregisters (i : Nat) (r : HostPollFdResult) (stage : (s.threads i).stage = .unregistering r)
      (lock : s.lock = none) :
      Move s ({ s with
        lock := some (.thread i), waiters := s.unregister (s.entry i) }.setStage i (.uncounting r))
  | returns (i : Nat) (r : HostPollFdResult) (stage : (s.threads i).stage = .uncounting r) :
      Move s ({ s with count := s.waiters.length, lock := none }.setStage i (.outside (some r)))
  | closes (i : Nat) (out : (s.threads i).stage.isOutside = true) : Move s (s.modify i Thread.close)
  | wakes (j : Nat) (address : Option Nat) (idle : s.wakers j = .idle) :
      Move s (s.setWaker j (.counting ⟨address, s.changes⟩))
  | passes (j : Nat) (w : Wake) (stage : s.wakers j = .counting w) (none_ : s.count = 0) :
      Move s (s.finish j w)
  | sees (j : Nat) (w : Wake) (stage : s.wakers j = .counting w) : Move s (s.setWaker j (.locking w))
  | locks (j : Nat) (w : Wake) (stage : s.wakers j = .locking w) (lock : s.lock = none) :
      Move s ({ s with lock := some (.waker j) }.setWaker j (.writing w s.waiters))
  | writes (j : Nat) (w : Wake) (e : Waiter) (todo : List Waiter)
      (stage : s.wakers j = .writing w (e :: todo)) (names : w.names e.word = true) :
      Move s ((s.modify e.interrupt Thread.write).setWaker j (.writing w todo))
  | skips (j : Nat) (w : Wake) (e : Waiter) (todo : List Waiter)
      (stage : s.wakers j = .writing w (e :: todo)) (other : w.names e.word = false) :
      Move s (s.setWaker j (.writing w todo))
  | unlocks (j : Nat) (w : Wake) (stage : s.wakers j = .writing w []) :
      Move s ({ s with lock := none }.finish j w)
  | changes (address : Nat) (value : BitVec 32) : Move s (s.change address value)
  | passesTime (now : Nat) (support : Support) (later : s.now ≤ now) : Move s { s with now, support }

section Inversion

variable {s s' : State} {i j : Nat}

theorem call_move {request : HostPollFdWait} {created : Bool}
    (out : (s.threads i).stage.isOutside = true) : Move s (s.call i request created) := by
  unfold State.call
  split
  · exact .refuses i s.support out
  · split
    · exact .refuses i s.support out
    · split
      · exact .enters i request out
      · exact .refuses i .disabled out

theorem thread_move (step : s.thread i = some s') : Move s s' := by
  unfold State.thread at step
  dsimp only at step
  cases stage : (s.threads i).stage with
  | outside r | blocked read entered timeout =>
    rw [stage] at step
    cases step
  | registering =>
    rw [stage] at step
    obtain ⟨lock, ⟨⟩⟩ := guarded step
    exact .registers i stage lock
  | counting =>
    rw [stage] at step
    cases step
    exact .counts i stage
  | draining =>
    rw [stage] at step
    cases step
    exact .drains i stage
  | loadingGate =>
    rw [stage] at step
    cases step
    split
    next same => exact .loadsGate i stage same
    · exact .gives i .interrupted s.support (.inl stage) (.inl rfl)
  | loadingWord =>
    rw [stage] at step
    cases step
    split
    next same => exact .loadsWord i stage same
    · exact .gives i .interrupted s.support (.inr (.inl stage)) (.inl rfl)
  | reading =>
    rw [stage] at step
    cases step
    exact .reads i stage
  | entering read timeout =>
    rw [stage] at step
    cases step
    exact .blocks i read timeout stage
  | unregistering r =>
    rw [stage] at step
    obtain ⟨lock, ⟨⟩⟩ := guarded step
    exact .unregisters i r stage lock
  | uncounting r =>
    rw [stage] at step
    cases step
    exact .returns i r stage

theorem ppoll_move {answer : Answer} (step : s.ppoll i answer = some s') : Move s s' := by
  unfold State.ppoll at step
  dsimp only at step
  cases stage : (s.threads i).stage with
  | blocked read entered timeout =>
    rw [stage] at step
    cases answer with
    | error =>
      cases step
      exact .gives i .unavailable .disabled (.inr (.inr ⟨read, entered, timeout, stage⟩)) (.inr rfl)
    | eintr =>
      cases step
      exact .signalled i read entered timeout stage
    | timedOut =>
      obtain ⟨⟨quiet, due⟩, ⟨⟩⟩ := guarded step
      obtain ⟨timeout, rfl, due⟩ := (Option.any_eq_true _ _).mp due
      exact .timesOut i read entered timeout stage quiet (of_decide_eq_true due)
    | ready conditions =>
      obtain ⟨⟨length, some_⟩, ⟨⟩⟩ := guarded step
      exact .answers i read entered timeout conditions stage length (Bool.or_eq_true_iff.mp some_)
  | _ =>
    rw [stage] at step
    cases step

theorem waker_move (step : s.waker j = some s') : Move s s' := by
  unfold State.waker at step
  cases stage : s.wakers j with
  | idle =>
    rw [stage] at step
    cases step
  | counting w =>
    rw [stage] at step
    cases step
    split
    next none_ => exact .passes j w stage none_
    · exact .sees j w stage
  | locking w =>
    rw [stage] at step
    obtain ⟨lock, ⟨⟩⟩ := guarded step
    exact .locks j w stage lock
  | writing w todo =>
    rw [stage] at step
    cases todo with
    | nil =>
      cases step
      exact .unlocks j w stage
    | cons e todo =>
      cases step
      split
      next names => exact .writes j w e todo stage names
      next other => exact .skips j w e todo stage (eq_false_of_ne_true other)

end Inversion

theorem step_move {s s' : State} {e : Event} (step : s.step e = some s') : Move s s' := by
  cases e with
  | call i request created =>
    obtain ⟨out, ⟨⟩⟩ := guarded step
    exact call_move out
  | thread i => exact thread_move step
  | ppoll i answer => exact ppoll_move step
  | wake j address =>
    obtain ⟨idle, ⟨⟩⟩ := guarded step
    exact .wakes j address idle
  | waker j => exact waker_move step
  | change address value =>
    cases step
    exact .changes address value
  | tick =>
    cases step
    exact .passesTime (s.now + 1) s.support (Nat.le_succ _)
  | retire i =>
    obtain ⟨⟨out, -⟩, ⟨⟩⟩ := guarded step
    exact .closes i out
  | exit i =>
    obtain ⟨out, ⟨⟩⟩ := guarded step
    exact .closes i out
  | decide disable =>
    cases step
    split
    · exact .passesTime s.now _ (Nat.le_refl _)
    · exact .passesTime s.now s.support (Nat.le_refl _)

/-! ## The thread that moved, and the others -/

section Threads

variable {s : State} {i j : Nat} {f : Thread → Thread}

@[simp] theorem State.modify_self : (s.modify i f).threads i = f (s.threads i) :=
  Function.update_self ..

theorem State.modify_of_ne (ne : j ≠ i) : (s.modify i f).threads j = s.threads j :=
  Function.update_of_ne ne ..

theorem Stage.eq_of_isOutside {stage : Stage} (out : stage.isOutside = true) :
    ∃ r, stage = .outside r := by
  cases stage with
  | outside r => exact ⟨r, rfl⟩
  | _ => cases out

theorem Thread.close_spec (t : Thread) : t.close.stage = t.stage ∧ t.close.word = t.word := by
  unfold Thread.close
  split <;> exact ⟨rfl, rfl⟩

theorem Thread.write_spec (t : Thread) :
    t.write.stage = t.stage ∧ t.write.word = t.word ∧ t.write.gate = t.gate := by
  unfold Thread.write
  split <;> exact ⟨rfl, rfl, rfl⟩

theorem Watch.note_address (a : Nat) (v : BitVec 32) (n : Nat) (w : Watch) :
    (w.note a v n).address = w.address := by
  unfold Watch.note
  split <;> rfl

end Threads

end ServiceCache.PollFd
