import ServiceCache.Suspend.Model

/-!
# What a thread can do next

One inversion lemma for a guest thread and one for the freezing thread, on which every invariant
below splits.
-/

namespace ServiceCache.Suspend

inductive Move (g : Statics) (t : Thread) (c : Coro) : Statics → Thread → Coro → Prop
  | register (at_ : t.stage = .spawned) :
      Move g t c { g with registry := g.registry ++ [t.coro] } { t with stage := .starting } c
  | restore (at_ : t.stage = .revived) :
      Move g t c g
        { t with stage := .starting, wait := c.pending, tls := c.threadState.getD t.tls } c
  | start (at_ : t.stage = .starting) :
      Move g t c { g with hostLoops := g.hostLoops + 1 } { t with stage := .top } c
  | await (w : Wait) (at_ : t.stage = .top) (wait : t.wait = some w) :
      Move g t c g { t with stage := .waiting } c
  | skip (at_ : t.stage = .top) (wait : t.wait = none) : Move g t c g { t with stage := .ready } c
  | knock (w : Wait) (at_ : t.stage = .waiting) (wait : t.wait = some w)
      (fresh : w.kind = .pollFd → w.epoch = g.pollfdEpoch)
      (unanswered : w.kind ≠ .future → c.result = none) :
      Move g t c g { t with stage := .knocking } c
  | stored (w : Wait) (at_ : t.stage = .waiting) (wait : t.wait = some w)
      (result : c.result.isSome) : Move g t c g { t with stage := .ready } c
  | refuse (w : Wait) (at_ : t.stage = .waiting) (wait : t.wait = some w)
      (kind : w.kind = .pollFd) (unanswered : c.result = none) (old : w.epoch ≠ g.pollfdEpoch) :
      Move g t c g { t with stage := .ready } (c.complete g (some .unavailable))
  | count (at_ : t.stage = .knocking) : Move g t c g.enter { t with stage := .entering } c
  | bar (at_ : t.stage = .entering ∨ t.stage = .armed ∨
        t.stage = .admitting ∧ c.started = true) (closed : g.gateClosed = true) :
      Move g t c g { t with stage := .barred } c
  | pass (at_ : t.stage = .entering) (opened : g.gateClosed = false) :
      Move g t c g { t with stage := .inside } c
  | uncount (at_ : t.stage = .barred) : Move g t c g.leave { t with stage := .retiring } c
  | poll (ready : Bool) (at_ : t.stage = .inside) (kind : t.wait.map (·.kind) = some .future) :
      Move g t c g { t with stage := .polled, answer := (c.poll g ready).result } (c.poll g ready)
  | pollReady (at_ : t.stage = .polled) (answer : t.answer.isSome) :
      Move g t c g.leave { t with stage := .ready } c
  | park (at_ : t.stage = .polled) : Move g t c g.leave { t with stage := .parked } c
  | unpark (at_ : t.stage = .parked) : Move g t c g { t with stage := .knocking } c
  | arm (at_ : t.stage = .inside) (kind : t.wait.map (·.kind) ≠ some .future) :
      Move g t c g { t with stage := .armed, gateExpected := g.gateEpoch } c
  | request (at_ : t.stage = .armed) (opened : g.gateClosed = false) :
      Move g t c g { t with stage := .requested } c
  | sleep (at_ : t.stage = .requested) : Move g t c g.leave { t with stage := .asleep } c
  | wake (a : Answer) (at_ : t.stage = .asleep) :
      Move g t c g { t with stage := .woken, answer := some a } c
  | drop (at_ : t.stage = .woken) (closed : g.gateClosed = true) :
      Move g t c g { t with stage := .retiring } c
  | keep (at_ : t.stage = .woken) (opened : g.gateClosed = false) :
      Move g t c g { t with stage := .answered } c
  | complete (at_ : t.stage = .answered) :
      Move g t c g { t with stage := .ready } (c.complete g t.answer)
  | countStep (at_ : t.stage = .ready) : Move g t c g.enter { t with stage := .admitting } c
  | admitStep (at_ : t.stage = .admitting) (opened : (c.started && g.gateClosed) = false) :
      Move g t c g { t with stage := .admitted } c
  | resume (at_ : t.stage = .admitted) :
      Move g t c g { t with stage := .running, wait := none } (c.resume g)
  | suspend (kind : WaitKind) (tls : Nat) (at_ : t.stage = .running) :
      Move g t c g { t with stage := .yielded, wait := some (c.newWait g kind), tls }
        (c.suspend (c.newWait g kind) tls)
  | record (at_ : t.stage = .yielded) :
      Move g t c g { t with stage := .recorded } { c with pending := t.wait }
  | leave (at_ : t.stage = .recorded) : Move g t c g.leave { t with stage := .top } c
  | finish (at_ : t.stage = .running) :
      Move g t c g { t with stage := .returned } { c with frame := .finished }
  | unregister (at_ : t.stage = .returned) :
      Move g t c { g with registry := g.registry.filter (· ≠ t.coro) }
        { t with stage := .unregistered } c
  | leaveLast (at_ : t.stage = .unregistered) : Move g t c g.leave { t with stage := .dropping } c
  | capture (at_ : t.stage = .retiring) :
      Move g t c g { t with stage := .captured } { c with threadState := some t.tls }
  | endLoop (at_ : t.stage = .dropping ∨ t.stage = .captured) :
      Move g t c { g with hostLoops := g.hostLoops - 1 } { t with stage := .exiting } c
  | exit (at_ : t.stage = .exiting) : Move g t c g { t with stage := .gone } c

variable {g g' : Statics} {t t' : Thread} {c c' : Coro} {a : Action}

theorem beginWait_move {w : Wait} (at_ : t.stage = .waiting) (wait : t.wait = some w)
    (h : beginWait g t c w = (t', c')) : Move g t c g t' c' := by
  unfold beginWait at h
  split at h
  next kind => cases h; exact .knock w at_ wait (by simp [kind]) (by simp [kind])
  next kind =>
    split at h
    next result => cases h; exact .stored w at_ wait result
    next result =>
      cases h
      exact .knock w at_ wait (by simp [kind]) (fun _ => by simpa using result)
  next kind =>
    split at h
    next result => cases h; exact .stored w at_ wait result
    next result =>
      split at h
      next old => cases h; exact .refuse w at_ wait kind (by simpa using result) old
      next same =>
        cases h
        exact .knock w at_ wait (fun _ => not_not.mp same) (fun _ => by simpa using result)

theorem step_move (h : step g t c a = some (g', t', c')) : Move g t c g' t' c' := by
  unfold step at h
  split at h
  next at_ => cases h; exact .register at_
  next at_ => cases h; exact .restore at_
  next at_ => cases h; exact .start at_
  next at_ =>
    cases h
    split
    next wait =>
      obtain ⟨w, hw⟩ := Option.isSome_iff_exists.mp wait
      exact .await w at_ hw
    next wait => exact .skip at_ (by simpa using wait)
  next at_ => cases h; exact .countStep at_
  next at_ =>
    cases h
    split
    next closed =>
      rw [Bool.and_eq_true] at closed
      exact .bar (.inr (.inr ⟨at_, closed.1⟩)) closed.2
    next opened => exact .admitStep at_ (by simpa using opened)
  next at_ => cases h; exact .resume at_
  next kind tls at_ => cases h; exact .suspend kind tls at_
  next at_ => cases h; exact .record at_
  next at_ => cases h; exact .leave at_
  next at_ => cases h; exact .finish at_
  next at_ => cases h; exact .unregister at_
  next at_ => cases h; exact .leaveLast at_
  next at_ => cases h; exact .endLoop (.inl at_)
  next at_ =>
    obtain ⟨w, wait, h⟩ := Option.map_eq_some_iff.mp h
    obtain ⟨rfl, begun⟩ := Prod.mk.inj h
    exact beginWait_move at_ wait begun
  next at_ => cases h; exact .count at_
  next at_ =>
    cases h
    split
    next closed => exact .bar (.inl at_) closed
    next opened => exact .pass at_ (by simpa using opened)
  next at_ => cases h; exact .uncount at_
  next ready at_ =>
    split at h
    next kind => cases h; exact .poll ready at_ kind
    · cases h
  next at_ =>
    cases h
    split
    next answer => exact .pollReady at_ answer
    · exact .park at_
  next at_ => cases h; exact .unpark at_
  next at_ =>
    split at h
    · cases h
    next kind => cases h; exact .arm at_ kind
  next at_ =>
    cases h
    split
    next closed => exact .bar (.inr (.inl at_)) closed
    next opened => exact .request at_ (by simpa using opened)
  next at_ => cases h; exact .sleep at_
  next a at_ => cases h; exact .wake a at_
  next at_ =>
    cases h
    split
    next closed => exact .drop at_ closed
    next opened => exact .keep at_ (by simpa using opened)
  next at_ => cases h; exact .complete at_
  next at_ => cases h; exact .capture at_
  next at_ => cases h; exact .endLoop (.inr at_)
  next at_ => cases h; exact .exit at_
  · cases h

inductive FreezerMove (s : State) : State → Prop
  | close (at_ : s.freezer = .idle) :
      FreezerMove s { s with statics := s.statics.closeGate, freezer := .closing }
  | wake (at_ : s.freezer = .closing) :
      FreezerMove s { s with statics := s.statics.moveGateEpoch, freezer := .draining }
  | inactive (at_ : s.freezer = .draining) (zero : s.statics.active = 0) :
      FreezerMove s { s with freezer := .ending }
  | drained (at_ : s.freezer = .ending) (zero : s.statics.hostLoops = 0) :
      FreezerMove s { s with freezer := .drained s.statics.registry.length }
  | timeout (at_ : s.freezer = .draining ∨ s.freezer = .ending) :
      FreezerMove s { s with freezer := .failed s.statics.timeoutError }
  | alone (n : Nat) (at_ : s.freezer = .drained n)
      (gone : ∀ i < s.threads, (s.thread i).stage = .gone) :
      FreezerMove s { s with freezer := .frozen }
  | remain (n : Nat) (at_ : s.freezer = .drained n) :
      FreezerMove s { s with freezer := .failed .threadsRemain }
  | fork (at_ : s.freezer = .frozen) :
      FreezerMove s { s with thread := fun _ => {}, freezer := .forked }
  | refuse (c : Nat) (at_ : s.freezer = .forked) (found : s.unsuspended = some c) :
      FreezerMove s { s with freezer := .failed (.notSuspended c) }
  | revive (at_ : s.freezer = .forked) (none : s.unsuspended = none) :
      FreezerMove s { s with
        statics := s.statics.movePollfdEpoch
        freezer := .reviving s.statics.registry }
  | opening (entries : List Nat) (at_ : s.freezer = .reviving entries) :
      FreezerMove s { s with statics := s.statics.openGate, freezer := .spawning entries }
  | spawn (c : Nat) (entries : List Nat) (at_ : s.freezer = .spawning (c :: entries)) :
      FreezerMove s { s.addThread { coro := c, stage := .revived } with freezer := .spawning entries }
  | unspawned (c : Nat) (entries : List Nat) (at_ : s.freezer = .spawning (c :: entries)) :
      FreezerMove s { s with freezer := .failed .spawn }
  | resurrected (at_ : s.freezer = .spawning []) : FreezerMove s { s with freezer := .idle }

theorem freezerStep_move {s s' : State} {o : Outcome} (h : s.freezerStep o = some s') :
    FreezerMove s s' := by
  unfold State.freezerStep at h
  split at h
  next at_ => cases h; exact .close at_
  next at_ => cases h; exact .wake at_
  next at_ =>
    split at h
    next zero => cases h; exact .inactive at_ zero
    · cases h
  next at_ =>
    split at h
    · cases h
    · cases h; exact .timeout (.inl at_)
  next at_ =>
    split at h
    next zero => cases h; exact .drained at_ zero
    · cases h
  next at_ =>
    split at h
    · cases h
    · cases h; exact .timeout (.inr at_)
  next n at_ =>
    split at h
    next gone => cases h; exact .alone n at_ gone
    · cases h
  next n at_ =>
    split at h
    · cases h
    · cases h; exact .remain n at_
  next at_ => cases h; exact .fork at_
  next at_ =>
    split at h
    next c found => cases h; exact .refuse c at_ found
    next none => cases h; exact .revive at_ none
  next entries at_ => cases h; exact .opening entries at_
  next c entries at_ => cases h; exact .spawn c entries at_
  next c entries at_ => cases h; exact .unspawned c entries at_
  next at_ => cases h; exact .resurrected at_
  · cases h

end ServiceCache.Suspend
