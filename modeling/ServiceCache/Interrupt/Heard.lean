import ServiceCache.Interrupt.Steps

/-!
# A signal or a termination is not slept through

Behind its check a wait owes nothing to what came before the capture: whatever is pending belongs
to a call whose interrupt comes after it, and keeps the thread from blocking or is about to wake it.
-/

namespace ServiceCache.Interrupt

open Transition

def CallStage.unbumped : CallStage → Bool
  | .flagging | .unlocking | .bumping => true
  | _ => false

def CallStage.ringing : CallStage → Bool
  | .wakingFutex | .counting | .wakingPoll => true
  | _ => false

def State.Calling (s : State) (p : CallStage → Bool) : Prop :=
  ∃ j, j < s.callers ∧ p (s.caller j).stage = true

instance (s : State) (p : CallStage → Bool) : Decidable (s.Calling p) :=
  inferInstanceAs (Decidable (∃ j, j < s.callers ∧ p (s.caller j).stage = true))

def State.Due (s : State) : Prop := s.waiter.seenAt < s.bumps ∨ s.Calling CallStage.unbumped

instance (s : State) : Decidable s.Due := inferInstanceAs (Decidable (_ < _ ∨ _))

def Stage.past : Stage → Bool
  | .requesting | .asleep | .signalled | .registering | .draining | .comparing | .polling
  | .pollAsleep => true
  | _ => false

def Waiter.signalsSeen (w : Waiter) (signalSet : Bool) : Bool :=
  w.stage.past && !w.probing ||
    match w.stage with
    | .exitCheck | .exitStatus | .ignoring | .handling => true
    | .exiting | .exitingStatus => !signalSet
    | _ => false

def Waiter.exitSeen (w : Waiter) (signalSet : Bool) : Bool :=
  w.stage.past && !w.probing ||
    match w.stage with
    | .handling => true
    | .popping | .popLock | .popClear | .popTake => signalSet
    | _ => false

def Stage.inPoll : Stage → Bool
  | .draining | .comparing | .polling | .pollAsleep | .unregistering => true
  | _ => false

theorem Stage.inPoll_of_waiting {stage : Stage} (h : stage = .polling ∨ stage = .pollAsleep) :
    stage.inPoll = true := by
  obtain rfl | rfl := h <;> rfl

/-- The check of a wait on a futex leaves nothing behind that came before the capture: a queued
signal has a handler, or no handler was ever set, and a finished thread is noticed. -/
def Delivered (s : State) (a : Action) : Prop :=
  s.waiter.kind.onFutex = true →
    (s.waiter.stage = .exiting ∨ s.waiter.stage = .exitingStatus →
      s.signalSet = true → s.hasHandler = false → s.queue ≠ [] → s.Due) ∧
    (s.waiter.stage = .ignoring → a = .deliver false false → s.status = true → s.Due)

/-- A generation that compares equal has not gone round. -/
def Unwrapped (s : State) : Prop :=
  s.waiter.stage = .requesting ∨ s.waiter.stage = .comparing →
    s.generation = s.waiter.expected → s.bumps = s.waiter.seenAt

def Attends (s : State) : Event → Prop
  | .waiter a => Delivered s a ∧ Unwrapped s
  | _ => True

instance (s : State) (a : Action) : Decidable (Delivered s a) :=
  inferInstanceAs (Decidable (_ → (_ ∨ _ → _ → _ → _ ≠ _ → _) ∧ (_ → _ → _ → _)))

instance (s : State) : Decidable (Unwrapped s) :=
  inferInstanceAs (Decidable (_ ∨ _ → _ → _))

instance (s : State) : (e : Event) → Decidable (Attends s e)
  | .waiter _ => inferInstanceAs (Decidable (_ ∧ _))
  | .caller _ _ | .callback _ | .others _ => inferInstanceAs (Decidable True)

section Local

variable {v : View} {w w' : Waiter} {a : Action} {f : Effect}

theorem Waiter.processed_seenAt : w.processed.seenAt = w.seenAt := by
  unfold Waiter.processed
  split <;> rfl

theorem Waiter.running_seenAt : (w.running v).seenAt = w.seenAt := by
  unfold Waiter.running
  split
  · rfl
  · exact processed_seenAt

theorem Waiter.popped_seenAt {taken : Bool} : (w.popped v taken).seenAt = w.seenAt := by
  unfold Waiter.popped
  split <;> rfl

theorem Waiter.processed_signalsSeen {set : Bool} (h : w.processed.signalsSeen set = true) :
    w.kind.onFutex = true := by
  by_contra indirect
  unfold Waiter.processed at h
  rw [if_neg indirect] at h
  cases again : w.again <;> simp [again, Waiter.signalsSeen, Stage.past] at h

theorem Waiter.processed_exitSeen {set : Bool} (h : w.processed.exitSeen set = true) :
    w.kind.onFutex = true := by
  by_contra indirect
  unfold Waiter.processed at h
  rw [if_neg indirect] at h
  cases again : w.again <;> simp [again, Waiter.exitSeen, Stage.past] at h

theorem Move.signalsSeen (m : Move v w a w' f) (h : w'.signalsSeen v.signalSet = true) :
    w'.seenAt = w.seenAt ∧ (w.signalsSeen v.signalSet = true ∨
      v.pending = false ∧ w.stage ≠ .popTake ∨ f = .take ∨
      w.kind.onFutex = true ∧ (w.stage = .exiting ∨ w.stage = .exitingStatus) ∧
        v.signalSet = true ∧ v.hasHandler = false) := by
  cases m with
  | capture stage into _ => obtain rfl | rfl := into <;> simp [Waiter.signalsSeen, Stage.past] at h
  | unregister stage into _ =>
    obtain ⟨rfl, -⟩ | rfl | rfl := into <;> simp [Waiter.signalsSeen, Stage.past] at h
  | found _ =>
    unfold Waiter.found at h
    split at h <;> simp [Waiter.signalsSeen, Stage.past] at h
  | popTake _ => exact ⟨Waiter.popped_seenAt, .inr (.inr (.inl rfl))⟩
  | empty at_ clear => exact ⟨Waiter.popped_seenAt, .inr (.inl ⟨clear, by simp [at_]⟩)⟩
  | noSignal at_ clear => exact ⟨rfl, .inr (.inl ⟨clear, by simp [at_]⟩)⟩
  | running at_ =>
    refine ⟨Waiter.running_seenAt, ?_⟩
    have place : w.stage = .exiting ∨ w.stage = .exitingStatus := at_.imp And.left And.left
    cases set : v.signalSet with
    | false => exact .inl (by obtain at_ | at_ := place <;> simp [Waiter.signalsSeen, at_])
    | true =>
      unfold Waiter.running at h
      cases handler : v.hasHandler with
      | true => simp [set, handler, Waiter.signalsSeen, Stage.past] at h
      | false =>
        rw [set, handler] at h
        exact .inr (.inr (.inr ⟨Waiter.processed_signalsSeen h, place, rfl, rfl⟩))
  | ignored at_ _ | handled at_ =>
    exact ⟨Waiter.processed_seenAt, .inl (by simp [Waiter.signalsSeen, at_])⟩
  | noExit at_ => obtain ⟨at_, -⟩ | ⟨at_, -⟩ := at_ <;> simp [Waiter.signalsSeen, at_]
  | signalled at_ | wake at_ =>
    obtain at_ | at_ := at_ <;>
      exact ⟨rfl, .inl (by simpa [Waiter.signalsSeen, Stage.past, at_] using h)⟩
  | _ => simp_all [Waiter.signalsSeen, Stage.past]

theorem Move.exitSeen (m : Move v w a w' f) (h : w'.exitSeen v.signalSet = true) :
    w'.seenAt = w.seenAt ∧ (w.exitSeen v.signalSet = true ∨ v.finished = false ∨
      v.status = false ∨
      w.kind.onFutex = true ∧ w.stage = .ignoring ∧ a = .deliver false false) := by
  cases m with
  | capture stage into _ => obtain rfl | rfl := into <;> simp [Waiter.exitSeen, Stage.past] at h
  | unregister stage into _ =>
    obtain ⟨rfl, -⟩ | rfl | rfl := into <;> simp [Waiter.exitSeen, Stage.past] at h
  | found _ =>
    unfold Waiter.found at h
    split at h <;> simp [Waiter.exitSeen, Stage.past] at h
  | popTake at_ | empty at_ _ =>
    refine ⟨Waiter.popped_seenAt, .inl ?_⟩
    unfold Waiter.popped at h
    split at h
    next set => simp [Waiter.exitSeen, at_, set]
    · split at h <;> simp [Waiter.exitSeen, Stage.past] at h
  | running at_ =>
    refine ⟨Waiter.running_seenAt, .inr ?_⟩
    obtain ⟨-, clear⟩ | ⟨-, clear⟩ := at_
    · exact .inl clear
    · exact .inr (.inl clear)
  | ignored at_ action =>
    exact ⟨Waiter.processed_seenAt,
      .inr (.inr (.inr ⟨Waiter.processed_exitSeen h, at_, action⟩))⟩
  | handled at_ => exact ⟨Waiter.processed_seenAt, .inl (by simp [Waiter.exitSeen, at_])⟩
  | noExit at_ =>
    refine ⟨rfl, .inr ?_⟩
    obtain ⟨-, clear⟩ | ⟨-, clear⟩ := at_
    · exact .inl clear
    · exact .inr (.inl clear)
  | signalled at_ | wake at_ =>
    obtain at_ | at_ := at_ <;>
      exact ⟨rfl, .inl (by simpa [Waiter.exitSeen, Stage.past, at_] using h)⟩
  | _ => simp_all [Waiter.exitSeen, Stage.past]

theorem Waiter.processed_stage : w.processed.stage ≠ .asleep ∧ w.processed.stage ≠ .polling ∧
    w.processed.stage ≠ .pollAsleep ∧ w.processed.stage.inPoll = false := by
  unfold Waiter.processed
  split
  · simp [Stage.inPoll]
  · cases w.again <;> simp [Stage.inPoll]

theorem Waiter.running_stage : (w.running v).stage ≠ .asleep ∧ (w.running v).stage ≠ .polling ∧
    (w.running v).stage ≠ .pollAsleep ∧ (w.running v).stage.inPoll = false := by
  unfold Waiter.running
  split
  · simp [Stage.inPoll]
  · exact processed_stage

theorem Waiter.popped_stage {taken : Bool} : (w.popped v taken).stage ≠ .asleep ∧
    (w.popped v taken).stage ≠ .polling ∧ (w.popped v taken).stage ≠ .pollAsleep ∧
    (w.popped v taken).stage.inPoll = false := by
  unfold Waiter.popped
  split
  · simp [Stage.inPoll]
  · cases taken <;> simp [Stage.inPoll]

theorem Waiter.found_stage : w.found.stage ≠ .asleep ∧ w.found.stage ≠ .polling ∧
    w.found.stage ≠ .pollAsleep ∧ w.found.stage.inPoll = false := by
  unfold Waiter.found
  split <;> simp [Stage.inPoll]

theorem Move.asleep (m : Move v w a w' f) (h : w'.stage = .asleep) :
    w.stage = .requesting ∧ v.generation = w.expected ∧ w'.seenAt = w.seenAt := by
  cases m with
  | block at_ same => exact ⟨at_, same, rfl⟩
  | capture stage into _ => obtain rfl | rfl := into <;> cases h
  | unregister stage into _ => obtain ⟨rfl, -⟩ | rfl | rfl := into <;> cases h
  | found _ => exact absurd h Waiter.found_stage.1
  | running _ => exact absurd h Waiter.running_stage.1
  | ignored _ _ | handled _ => exact absurd h Waiter.processed_stage.1
  | empty _ _ | popTake _ => exact absurd h Waiter.popped_stage.1
  | _ => cases h

theorem Move.polling (m : Move v w a w' f) (h : w'.stage = .polling ∨ w'.stage = .pollAsleep) :
    w'.seenAt = w.seenAt ∧ (w.stage = .comparing ∧ v.generation = w.expected ∨
      w.stage = .polling ∧ w'.readable = w.readable) := by
  cases m with
  | same at_ same => exact ⟨rfl, .inl ⟨at_, same⟩⟩
  | blockPoll at_ _ => exact ⟨rfl, .inr ⟨at_, rfl⟩⟩
  | capture stage into _ => obtain rfl | rfl := into <;> simp at h
  | unregister stage into _ => obtain ⟨rfl, -⟩ | rfl | rfl := into <;> simp at h
  | found _ => exact absurd h (by simp [Waiter.found_stage])
  | running _ => exact absurd h (by simp [Waiter.running_stage])
  | ignored _ _ | handled _ => exact absurd h (by simp [Waiter.processed_stage])
  | empty _ _ | popTake _ => exact absurd h (by simp [Waiter.popped_stage])
  | _ => simp at h

theorem Move.listed (m : Move v w a w' f) (listed : w.stage.inPoll = true → w.listed = true)
    (h : w'.stage.inPoll = true) : w'.listed = true := by
  cases m with
  | capture stage into _ => obtain rfl | rfl := into <;> cases h
  | unregister stage into _ => obtain ⟨rfl, -⟩ | rfl | rfl := into <;> cases h
  | found _ => simp [Waiter.found_stage] at h
  | running _ => simp [Waiter.running_stage] at h
  | ignored _ _ | handled _ => simp [Waiter.processed_stage] at h
  | empty _ _ | popTake _ => simp [Waiter.popped_stage] at h
  | register _ => rfl
  | drain at_ | same at_ _ | blockPoll at_ _ | hostSignal at_ => exact listed (by rw [at_]; rfl)
  | wake at_ => exact listed (by obtain at_ | at_ := at_ <;> rw [at_] <;> rfl)
  | stopPoll _ at_ => exact listed (by obtain at_ | at_ | at_ := at_ <;> rw [at_] <;> rfl)
  | _ => cases h

theorem Move.takes (m : Move v w a w' f) (at_ : w.stage = .popTake) : f = .take := by
  cases m <;> simp_all

theorem Move.clears (m : Move v w a w' f) (clear : f = .clear) : w'.stage = .popTake := by
  cases m <;> first | rfl | cases clear

theorem Move.captured (m : Move v w a w' f) :
    w'.expected = w.expected ∧ w'.seenAt = w.seenAt ∨
      w'.expected = v.generation ∧ w'.seenAt = v.bumps := by
  cases m with
  | capture _ _ _ => exact .inr ⟨rfl, rfl⟩
  | found _ => exact .inl (by unfold Waiter.found; split <;> exact ⟨rfl, rfl⟩)
  | running _ =>
    refine .inl ?_
    unfold Waiter.running Waiter.processed
    split
    · exact ⟨rfl, rfl⟩
    · split <;> exact ⟨rfl, rfl⟩
  | ignored _ _ | handled _ => exact .inl (by unfold Waiter.processed; split <;> exact ⟨rfl, rfl⟩)
  | empty _ _ | popTake _ => exact .inl (by unfold Waiter.popped; split <;> exact ⟨rfl, rfl⟩)
  | _ => exact .inl ⟨rfl, rfl⟩

end Local

structure Heard (s : State) : Prop where
  seen : s.waiter.seenAt ≤ s.bumps
  generation : s.generation = s.bumps % 2 ^ 32
  expected : s.waiter.expected = s.waiter.seenAt % 2 ^ 32
  marked : ∀ j, (s.caller j).stage = .sending → s.finished = true
  sent : s.status = true → s.finished = true
  askers : ∀ n ∈ s.queue, ∃ e ∈ s.askers, e.1 = n
  flag : s.pending = false → s.waiter.stage ≠ .popTake → ∀ e ∈ s.askers,
    ∃ j, j < s.callers ∧ (s.caller j).stage = .flagging ∧ (s.caller j).call = e.2
  signals : s.waiter.signalsSeen s.signalSet = true → s.queue ≠ [] → s.Due
  exit : s.waiter.exitSeen s.signalSet = true → s.status = true → s.Due
  listed : s.waiter.stage.inPoll = true → s.waiter.listed = true
  futex : s.waiter.stage = .asleep → s.waiter.hit = false →
    s.bumps = s.waiter.seenAt ∨ s.Calling (· = .wakingFutex)
  poll : s.waiter.stage = .polling ∨ s.waiter.stage = .pollAsleep → s.waiter.readable = false →
    s.bumps = s.waiter.seenAt ∨ s.Calling CallStage.ringing

section Global

variable {s s' : State} {p : CallStage → Bool}

theorem Heard.flagging (h : Heard s) (clear : s.pending = false)
    (place : s.waiter.stage ≠ .popTake) (queued : s.queue ≠ []) : s.Due := by
  obtain ⟨n, mem⟩ := List.exists_mem_of_ne_nil _ queued
  obtain ⟨e, mem, -⟩ := h.askers n mem
  obtain ⟨j, lt, at_, -⟩ := h.flag clear place e mem
  exact .inr ⟨j, lt, by rw [at_]; rfl⟩

theorem apply_same (f : Effect) : (s.apply f).callers = s.callers ∧
    (s.apply f).caller = s.caller ∧ (s.apply f).bumps = s.bumps ∧
    (s.apply f).generation = s.generation ∧ (s.apply f).finished = s.finished ∧
    (s.apply f).status = s.status ∧ (s.apply f).signalSet = s.signalSet := by
  cases f <;> exact ⟨rfl, rfl, rfl, rfl, rfl, rfl, rfl⟩

theorem apply_queue {f : Effect} (h : f ≠ .take) :
    (s.apply f).queue = s.queue ∧ (s.apply f).askers = s.askers := by
  cases f with
  | take => exact absurd rfl h
  | none | lock | clear => exact ⟨rfl, rfl⟩

theorem Heard.waiter (h : Heard s) {a : Action} {w : Waiter} {f : Effect}
    (m : Move s.view s.waiter a w f) (delivered : Delivered s a) (unwrapped : Unwrapped s) :
    Heard { s.apply f with waiter := w } := by
  obtain ⟨callers, caller, bumps, generation, finished, status, signalSet⟩ := apply_same (s := s) f
  have calling (p : CallStage → Bool) (c : s.Calling p) :
      State.Calling { s.apply f with waiter := w } p := by
    obtain ⟨j, lt, at_⟩ := c
    exact ⟨j, by rw [callers]; exact lt, by rw [caller]; exact at_⟩
  have due (same : w.seenAt = s.waiter.seenAt) (d : s.Due) :
      State.Due { s.apply f with waiter := w } := by
    obtain after | c := d
    · exact .inl (by rw [same, bumps]; exact after)
    · exact .inr (calling _ c)
  refine ⟨?_, ?_, ?_, ?_, ?_, ?_, ?_, ?_, ?_, m.listed h.listed, ?_, ?_⟩ <;>
    simp only [callers, caller, bumps, generation, finished, status, signalSet] at calling due ⊢
  · obtain ⟨-, same⟩ | ⟨-, now⟩ := m.captured
    · rw [same]
      exact h.seen
    · rw [now]
      exact Nat.le_refl _
  · exact h.generation
  · obtain ⟨same, at_⟩ | ⟨now, at_⟩ := m.captured
    · rw [same, at_]
      exact h.expected
    · rw [now, at_]
      exact h.generation
  · exact h.marked
  · exact h.sent
  · cases f with
    | take => simp [State.apply]
    | none | lock | clear => exact h.askers
  · intro clear place e mem
    have take : f ≠ .take := by rintro rfl; simp [State.apply] at mem
    rw [(apply_queue take).2] at mem
    refine h.flag ?_ (fun at_ => take (m.takes at_)) e mem
    cases f with
    | clear => exact absurd (m.clears rfl) place
    | none | lock | take => exact clear
  · intro seen queued
    have take : f ≠ .take := by rintro rfl; simp [State.apply] at queued
    rw [(apply_queue take).1] at queued
    obtain ⟨same, before | ⟨clear, place⟩ | taken | ⟨onFutex, place, set, handler⟩⟩ :=
      m.signalsSeen seen
    · exact due same (h.signals before queued)
    · exact due same (h.flagging clear place queued)
    · exact absurd taken take
    · exact due same ((delivered onFutex).1 place set handler queued)
  · intro seen finished
    obtain ⟨same, before | clear | clear | ⟨onFutex, place, action⟩⟩ := m.exitSeen seen
    · exact due same (h.exit before finished)
    · exact absurd (h.sent finished) (by simpa [State.view] using clear)
    · exact absurd finished (by simpa [State.view] using clear)
    · exact due same ((delivered onFutex).2 place action finished)
  · intro at_ _
    obtain ⟨place, equal, same⟩ := m.asleep at_
    exact .inl (by rw [same]; exact unwrapped (.inl place) equal)
  · intro at_ silent
    obtain ⟨same, ⟨place, equal⟩ | ⟨place, readable⟩⟩ := m.polling at_
    · exact .inl (by rw [same]; exact unwrapped (.inr place) equal)
    · rw [same]
      exact (h.poll (.inl place) (readable ▸ silent)).imp_right (calling _)

theorem Waiter.wakeFutex_eq (w : Waiter) :
    w.wakeFutex = { w with hit := w.hit || w.stage == .asleep } := by
  unfold Waiter.wakeFutex
  split
  next at_ => simp [at_]
  next at_ => rw [beq_eq_false_iff_ne.mpr at_, Bool.or_false]

theorem Waiter.wakePoll_eq (w : Waiter) :
    w.wakePoll = { w with readable := w.readable || w.listed } := by
  unfold Waiter.wakePoll
  split
  next listed => simp [listed]
  next unlisted =>
    cases w
    simp_all

theorem State.Calling.move (h : s.Calling p) {j : Nat} {c : Caller}
    (kept : p (s.caller j).stage = true → p c.stage = true) : (s.setCaller j c).Calling p := by
  obtain ⟨i, lt, at_⟩ := h
  refine ⟨i, lt, ?_⟩
  rw [setCaller_caller]
  split
  next same => exact kept (same ▸ at_)
  · exact at_

theorem State.Calling.own {j : Nat} (lt : j < s.callers) {c : Caller} (h : p c.stage = true) :
    (s.setCaller j c).Calling p := ⟨j, lt, by rw [setCaller_caller, if_pos rfl]; exact h⟩

theorem CallMove.due {j : Nat} (m : CallMove s j s') (seen : s.waiter.seenAt ≤ s.bumps)
    (h : s.Due) : s'.Due := by
  cases m with
  | bump at_ => exact .inl (Nat.lt_succ_of_le seen)
  | wakeFutex at_ =>
    refine h.imp (fun after => ?_) (·.move (by simp [at_, CallStage.unbumped]))
    rw [Waiter.wakeFutex_eq]
    exact after
  | wakePoll at_ =>
    refine h.imp (fun after => ?_) (·.move (by simp [at_, CallStage.unbumped]))
    rw [Waiter.wakePoll_eq]
    exact after
  | signal _ at_ | lock at_ | push at_ | flag at_ | unlock at_ | finish at_ | mark at_ | send at_
  | interrupt at_ | nobody at_ _ | somebody at_ =>
    exact h.imp id (·.move (by simp [at_, CallStage.unbumped]))

section Caller

variable {j : Nat} {c : Caller}

theorem Heard.marked_setCaller (h : Heard s) (notSending : c.stage ≠ .sending) (i : Nat)
    (at_ : ((s.setCaller j c).caller i).stage = .sending) : s.finished = true := by
  rw [setCaller_caller] at at_
  split at at_
  · exact absurd at_ notSending
  · exact h.marked i at_

theorem Heard.flag_setCaller (h : Heard s) (notFlagging : (s.caller j).stage ≠ .flagging)
    (clear : s.pending = false) (place : s.waiter.stage ≠ .popTake) (e : Nat × Nat)
    (mem : e ∈ s.askers) : ∃ i, i < s.callers ∧ ((s.setCaller j c).caller i).stage = .flagging ∧
      ((s.setCaller j c).caller i).call = e.2 := by
  obtain ⟨i, lt, at_, call⟩ := h.flag clear place e mem
  have other : i ≠ j := fun same => notFlagging (same ▸ at_)
  exact ⟨i, lt, by rw [setCaller_caller, if_neg other]; exact ⟨at_, call⟩⟩

theorem Heard.setCaller (h : Heard s) (notSending : c.stage ≠ .sending)
    (notFlagging : (s.caller j).stage ≠ .flagging) (due : s.Due → (s.setCaller j c).Due)
    (futex : (s.caller j).stage ≠ .wakingFutex)
    (poll : s.waiter.listed = true → (s.caller j).stage.ringing = true → c.stage.ringing = true) :
    Heard (s.setCaller j c) :=
  { h with
    marked := h.marked_setCaller notSending
    flag := h.flag_setCaller notFlagging
    signals seen queued := due (h.signals seen queued)
    exit seen sent := due (h.exit seen sent)
    futex at_ unhit := (h.futex at_ unhit).imp_right (·.move (by simp [futex]))
    poll at_ silent :=
      (h.poll at_ silent).imp_right (·.move (poll (h.listed (Stage.inPoll_of_waiting at_)))) }

theorem Heard.unrelated (h : Heard s) (lock : Option Holder) (calls : Nat) :
    Heard { s with lock, calls } :=
  ⟨h.seen, h.generation, h.expected, h.marked, h.sent, h.askers, h.flag, h.signals, h.exit,
    h.listed, h.futex, h.poll⟩

theorem mem_push {n : Nat} (h : n ∈ s.push c) : n ∈ s.queue ∨ n = c.signal := by
  unfold State.push at h
  split at h
  · exact .inl h
  · exact (List.mem_append.mp h).imp_right List.mem_singleton.mp

theorem Heard.caller (h : Heard s) (lt : j < s.callers) (m : CallMove s j s') :
    Heard s' := by
  have due := m.due h.seen
  cases m with
  | signal n at_ =>
    exact (h.setCaller (by simp) (by simp [at_]) due (by simp [at_])
      (by simp [at_, CallStage.ringing])).unrelated _ _
  | lock at_ | unlock at_ =>
    exact (h.setCaller (by simp) (by simp [at_]) due (by simp [at_])
      (by simp [at_, CallStage.ringing])).unrelated _ _
  | finish at_ | interrupt at_ | somebody at_ =>
    exact h.setCaller (by simp) (by simp [at_]) due (by simp [at_])
      (by simp [at_, CallStage.ringing])
  | nobody at_ zero =>
    refine h.setCaller (by simp) (by simp [at_]) due (by simp [at_]) fun listed => ?_
    simp [State.waiterCount, listed] at zero
  | push at_ =>
    have own : (s.setCaller j { s.caller j with stage := .flagging }).Due := .inr (.own lt rfl)
    refine ⟨h.seen, h.generation, h.expected, h.marked_setCaller (by simp), h.sent, ?_, ?_,
      fun _ _ => own, fun _ _ => own, h.listed,
      fun a b => (h.futex a b).imp_right (·.move (by simp [at_])),
      fun a b => (h.poll a b).imp_right (·.move (by simp [at_, CallStage.ringing]))⟩
    · intro n mem
      obtain old | rfl := mem_push mem
      · obtain ⟨e, mem, same⟩ := h.askers n old
        exact ⟨e, List.mem_append_left _ mem, same⟩
      · exact ⟨_, List.mem_append_right _ (List.mem_singleton_self _), rfl⟩
    · intro clear place e mem
      obtain old | new := List.mem_append.mp mem
      · exact h.flag_setCaller (by simp [at_]) clear place e old
      · refine ⟨j, lt, ?_⟩
        change ((s.setCaller j _).caller j).stage = _ ∧ ((s.setCaller j _).caller j).call = _
        rw [setCaller_caller, if_pos rfl, List.mem_singleton.mp new]
        exact ⟨rfl, rfl⟩
  | flag at_ =>
    exact ⟨h.seen, h.generation, h.expected, h.marked_setCaller (by simp), h.sent,
      h.askers, fun clear => absurd clear (by simp), fun seen queued => due (h.signals seen queued),
      fun seen sent => due (h.exit seen sent), h.listed,
      fun a b => (h.futex a b).imp_right (·.move (by simp [at_])),
      fun a b => (h.poll a b).imp_right (·.move (by simp [at_, CallStage.ringing]))⟩
  | mark at_ =>
    exact ⟨h.seen, h.generation, h.expected, fun _ _ => rfl, fun _ => rfl,
      h.askers, h.flag_setCaller (by simp [at_]), fun seen queued => due (h.signals seen queued),
      fun seen sent => due (h.exit seen sent), h.listed,
      fun a b => (h.futex a b).imp_right (·.move (by simp [at_])),
      fun a b => (h.poll a b).imp_right (·.move (by simp [at_, CallStage.ringing]))⟩
  | send at_ =>
    exact ⟨h.seen, h.generation, h.expected, h.marked_setCaller (by simp),
      fun _ => h.marked j at_, h.askers, h.flag_setCaller (by simp [at_]),
      fun seen queued => due (h.signals seen queued), fun _ _ => .inr (.own lt rfl), h.listed,
      fun a b => (h.futex a b).imp_right (·.move (by simp [at_])),
      fun a b => (h.poll a b).imp_right (·.move (by simp [at_, CallStage.ringing]))⟩
  | bump at_ =>
    have own (p : CallStage → Bool) (ringing : p .wakingFutex = true) :
        (s.setCaller j { s.caller j with stage := .wakingFutex }).Calling p := .own lt ringing
    refine ⟨Nat.le_succ_of_le h.seen, ?_, h.expected, h.marked_setCaller (by simp), h.sent,
      h.askers, h.flag_setCaller (by simp [at_]), fun seen queued => due (h.signals seen queued),
      fun seen sent => due (h.exit seen sent), h.listed,
      fun _ _ => .inr (own (· = .wakingFutex) rfl), fun _ _ => .inr (own CallStage.ringing rfl)⟩
    change (s.generation + 1) % 2 ^ 32 = (s.bumps + 1) % 2 ^ 32
    rw [h.generation]
    omega
  | wakeFutex at_ =>
    rw [Waiter.wakeFutex_eq] at due ⊢
    refine ⟨h.seen, h.generation, h.expected, h.marked_setCaller (by simp), h.sent,
      h.askers, h.flag_setCaller (by simp [at_]), fun seen queued => due (h.signals seen queued),
      fun seen sent => due (h.exit seen sent), h.listed, fun asleep unhit => ?_,
      fun a b => (h.poll a b).imp_right (·.move (by simp [at_, CallStage.ringing]))⟩
    have asleep : s.waiter.stage = .asleep := asleep
    simp [asleep] at unhit
  | wakePoll at_ =>
    rw [Waiter.wakePoll_eq] at due ⊢
    refine ⟨h.seen, h.generation, h.expected, h.marked_setCaller (by simp), h.sent,
      h.askers, h.flag_setCaller (by simp [at_]), fun seen queued => due (h.signals seen queued),
      fun seen sent => due (h.exit seen sent), h.listed,
      fun a b => (h.futex a b).imp_right (·.move (by simp [at_])), fun place silent => ?_⟩
    have listed : s.waiter.listed = true := h.listed (Stage.inPoll_of_waiting place)
    simp [listed] at silent

end Caller

theorem heard_reachable (h : interruptSystem.ReachableBy Attends s) : Heard s := by
  refine h.invariant ?_ (fun s e s' _ heard attends hn => ?_)
  · rintro _ ⟨callers, signalSet, hasHandler, rfl⟩
    exact ⟨Nat.le_refl _, rfl, rfl, by simp, by simp, by simp, by simp, by simp, by simp,
      by simp [Stage.inPoll], by simp, by simp⟩
  · cases step_cases hn with
    | caller j a s' lt m => exact heard.caller lt m
    | waiter a w f m => exact heard.waiter m attends.1 attends.2
    | callback hasHandler at_ =>
      exact ⟨heard.seen, heard.generation, heard.expected, heard.marked, heard.sent, heard.askers, heard.flag,
        by simp [Waiter.signalsSeen, at_, Stage.past], by simp [Waiter.exitSeen, at_, Stage.past],
        heard.listed, heard.futex, heard.poll⟩
    | others n =>
      exact ⟨heard.seen, heard.generation, heard.expected, heard.marked, heard.sent, heard.askers, heard.flag,
        heard.signals, heard.exit, heard.listed, heard.futex, heard.poll⟩

end Global

end ServiceCache.Interrupt
