import ServiceCache.Poll.Model

/-!
# What a step of the call can do
-/

namespace ServiceCache.PollOneoff

open Transition

section Tagged

variable {α : Type} {tag : Nat → Source} {f : α → Nat → List Event} {l : List α}

theorem mem_tagged {r : Reported} :
    r ∈ tagged tag f l ↔ ∃ i a, l[i]? = some a ∧ ∃ e ∈ f a i, r = (tag i, e) := by
  unfold tagged
  rw [List.mem_flatMap]
  constructor
  · rintro ⟨⟨a, i⟩, mem, inMap⟩
    obtain ⟨e, of, rfl⟩ := List.mem_map.mp inMap
    exact ⟨i, a, List.mk_mem_zipIdx_iff_getElem?.mp mem, e, of, rfl⟩
  · rintro ⟨i, a, at_, e, of, rfl⟩
    exact ⟨(a, i), List.mk_mem_zipIdx_iff_getElem?.mpr at_, List.mem_map.mpr ⟨e, of, rfl⟩⟩

theorem nodup_tagged (inj : ∀ i j, tag i = tag j → i = j)
    (single : ∀ i a, l[i]? = some a → (f a i).length ≤ 1) :
    ((tagged tag f l).map Prod.fst).Nodup := by
  rw [List.Nodup, List.pairwise_map, tagged, List.pairwise_flatMap]
  constructor
  · rintro ⟨a, i⟩ mem
    have short := single i a (List.mk_mem_zipIdx_iff_getElem?.mp mem)
    change ((f a i).map _).Pairwise _
    generalize f a i = es at short ⊢
    match es, short with
    | [], _ => exact .nil
    | [e], _ => exact List.pairwise_singleton ..
  · have increasing : (l.zipIdx.map Prod.snd).Pairwise (· < ·) := by
      rw [List.zipIdx_map_snd]
      exact List.pairwise_lt_range'
    refine (List.pairwise_map.mp increasing).imp ?_
    rintro ⟨a, i⟩ ⟨b, j⟩ lt r mem r' mem' same
    obtain ⟨e, -, rfl⟩ := List.mem_map.mp mem
    obtain ⟨e', -, rfl⟩ := List.mem_map.mp mem'
    exact absurd (inj i j same) (Nat.ne_of_lt lt)

end Tagged

theorem directSubEvent_isSome (sub : DirectSub) (level : Bits) (nbytes : Nat) :
    (directSubEvent sub (level.reported sub.wanted) nbytes).isSome =
      (level.reported sub.wanted).any := by
  obtain ⟨write, userdata⟩ := sub
  obtain ⟨read, out, hup, err, rdhup⟩ := level
  cases write <;> cases read <;> cases out <;> cases hup <;> cases err <;> cases rdhup <;> rfl

section Moves

variable {call : Call} {s t : State} {e : Step}

def Stage.waits : Stage → Bool
  | .suspending | .entering | .comparingGate | .comparingWord | .waiting => true
  | _ => false

inductive Ends (call : Call) (s : State) : Step → HostPollFdResult → Prop
  | impossible : Ends call s (.suspend false) .unavailable
  | unavailable : Ends call s (.enter false) .unavailable
  | gate (moved : s.gate ≠ s.gateExpected) : Ends call s .compareGate .interrupted
  | word (moved : s.word ≠ s.captured) : Ends call s .compareWord .interrupted
  | failed : Ends call s (.kernel .failed) .unavailable
  | expired (quiet : s.anyReady call = false) (past : s.turnDeadline.any (· ≤ s.now) = true) :
      Ends call s (.kernel .expired) .timedOut

inductive Move (call : Call) (s : State) : Step → State → Prop
  | refuse (reason : Option Reason) (refused : Bool) (at_ : s.stage = .sorting) :
      Move call s (.sort refused) (s.answer (.fallthrough reason))
  | sort (refused : Bool) (at_ : s.stage = .sorting) :
      Move call s (.sort refused) { s with stage := .arming }
  | overflow (at_ : s.stage = .arming) :
      Move call s .arm (s.answer (.fallthrough (some .deadlineOverflow)))
  | arm (deadline : Option Nat) (at_ : s.stage = .arming)
      (armed : directPollDeadline s.now (timeToSleep call.clocks call.start) = some deadline) :
      Move call s .arm { s with stage := .turning, deadline }
  | linkError (at_ : s.stage = .turning) : Move call s (.turn true) (s.answer .error)
  | turn (at_ : s.stage = .turning) : Move call s (.turn false)
      { s with stage := .polling, captured := s.word, events := [] }
  | guards (answers : List (List Event)) (at_ : s.stage = .polling) : Move call s (.guards answers)
      { s with
        stage := .resolving, events := guardEvents answers
        produced := s.produced ++ guardEvents answers }
  | gone (at_ : s.stage = .resolving) :
      Move call s (.resolve true) (s.answer (directPollAnswer s.events))
  | resolve (at_ : s.stage = .resolving) :
      Move call s (.resolve false) { s with stage := .checking }
  | signalled (at_ : s.stage = .checking) (none_ : s.events = []) :
      Move call s .check { s with stage := .processing, probing := !s.events.isEmpty }
  | check (at_ : s.stage = .checking) : Move call s .check
      { s with
        stage := .suspending, probing := !s.events.isEmpty
        turnDeadline := if !s.events.isEmpty then some s.now else s.deadline }
  | processed (p : Processed) (o : Outcome) (signals : Bool)
      (at_ : s.stage = .processing ∨ s.stage = .handling)
      (is : o = .error ∨ (∃ e, o = .errno e) ∨ ∃ r, o = .fallthrough r) :
      Move call s (.process p) { s.answer o with signals }
  | round (p : Processed) (signals : Bool)
      (at_ : s.stage = .processing ∨ s.stage = .handling) :
      Move call s (.process p) { s with stage := .turning, signals }
  | suspend (at_ : s.stage = .suspending) :
      Move call s (.suspend true) { s with epochSeen := s.epoch, stage := .entering }
  | enter (at_ : s.stage = .entering) :
      Move call s (.enter true) { s with stage := .comparingGate, gateExpected := s.gate }
  | compareGate (at_ : s.stage = .comparingGate) :
      Move call s .compareGate { s with stage := .comparingWord }
  | compareWord (at_ : s.stage = .comparingWord) :
      Move call s .compareWord { s with stage := .waiting }
  | ended (e : Step) (r : HostPollFdResult) (epochSeen : Nat) (at_ : s.stage.waits = true)
      (ends : Ends call s e r) : Move call s e ({ s with epochSeen }.waited call r)
  | goesOn (k : Kernel) (at_ : s.stage = .waiting) :
      Move call s (.kernel k) { s with stage := .comparingGate }
  | probed (nbytes : List Nat) (at_ : s.stage = .waiting) (probing : s.probing = true) :
      Move call s (.kernel (.ready nbytes))
        ({ s with events := s.events ++ s.directEvents call nbytes }.answer
          (.events (s.events ++ s.directEvents call nbytes)))
  | ready (nbytes : List Nat) (at_ : s.stage = .waiting) (probing : s.probing = false) :
      Move call s (.kernel (.ready nbytes))
        { s with stage := .again, events := s.events ++ s.directEvents call nbytes }
  | retire (at_ : s.stage.waits = true) : Move call s .retire { s with stage := .entering }
  | nothing (answers : List (List Event)) (at_ : s.stage = .again)
      (none_ : s.events ++ guardEvents answers = []) : Move call s (.guards answers)
        { s with
          stage := .turning, events := s.events ++ guardEvents answers
          produced := s.produced ++ guardEvents answers }
  | again (answers : List (List Event)) (at_ : s.stage = .again) : Move call s (.guards answers)
      ({ s with
        events := s.events ++ guardEvents answers
        produced := s.produced ++ guardEvents answers }.answer
          (.events (s.events ++ guardEvents answers)))
  | others (e : Step) (word gate : UInt32) (signals exit : Bool) (epoch : Nat) :
      Move call s e { s with word, gate, signals, exit, epoch }
  | level (i : Nat) (bits : Bits) : Move call s (.level i bits)
      { s with
        level := Function.update s.level i bits
        lapsed := fun j => s.lapsed j || j == i && call.direct[i]?.any fun sub =>
          !(bits.reported sub.wanted).any }
  | tick (n : Nat) :
      Move call s (.tick n) { s with now := s.now + n, realtime := s.realtime + n }
  | setRealtime (r : Nat) (allowed : call.setBack = true ∨ s.realtime ≤ r) :
      Move call s (.setRealtime r) { s with realtime := r }

section Waited

variable (s) (r : HostPollFdResult)

theorem waited_level : (s.waited call r).level = s.level := by
  cases r <;> (unfold State.waited; (repeat' split) <;> rfl)

theorem waited_lapsed : (s.waited call r).lapsed = s.lapsed := by
  cases r <;> (unfold State.waited; (repeat' split) <;> rfl)

end Waited

theorem kernel_move {k : Kernel} (at_ : s.stage = .waiting) (h : s.kernel call k = some t) :
    Move call s (.kernel k) t := by
  have waits : s.stage.waits = true := by rw [at_]; rfl
  cases k with
  | eintr => cases h; exact .goesOn _ at_
  | failed => cases h; exact .ended _ _ s.epochSeen waits .failed
  | interrupt =>
    obtain ⟨-, ⟨⟩⟩ := guarded h
    exact .goesOn _ at_
  | expired =>
    obtain ⟨⟨quiet, past⟩, ⟨⟩⟩ := guarded h
    exact .ended _ _ s.epochSeen waits (.expired quiet past)
  | ready nbytes =>
    obtain ⟨-, h⟩ := guarded h
    split at h
    next probing => cases h; exact .probed nbytes at_ probing
    next probing => cases h; exact .ready nbytes at_ (by simpa using probing)

theorem step_move (h : s.step call e = some t) : Move call s e t := by
  unfold State.step at h
  split at h
  next refused at_ =>
    cases h
    split
    · exact .refuse _ refused at_
    · split
      · exact .refuse _ refused at_
      · exact .sort refused at_
  next at_ =>
    cases h
    split
    · exact .overflow at_
    next deadline armed => exact .arm deadline at_ armed
  next fails at_ =>
    cases h
    cases fails
    · exact .turn at_
    · exact .linkError at_
  next answers at_ =>
    obtain ⟨-, ⟨⟩⟩ := guarded h
    exact .guards answers at_
  next gone at_ =>
    cases h
    cases gone
    · exact .resolve at_
    · exact .gone at_
  next at_ =>
    cases h
    split
    next both =>
      rw [Bool.and_eq_true] at both
      exact .signalled at_ (by simpa using both.1)
    · exact .check at_
  next p at_ =>
    cases h
    match p with
    | .error => exact .processed _ _ s.signals (.inl at_) (.inl rfl)
    | .errno e => exact .processed _ _ s.signals (.inl at_) (.inr (.inl ⟨e, rfl⟩))
    | .done true => exact .processed _ _ true (.inl at_) (.inr (.inr ⟨_, rfl⟩))
    | .done false => exact .round _ false (.inl at_)
  next possible at_ =>
    cases h
    cases possible
    · exact .ended _ _ s.epoch (by rw [at_]; rfl) .impossible
    · exact .suspend at_
  next available at_ =>
    cases h
    cases available
    · exact .ended _ _ s.epochSeen (by rw [at_]; rfl) .unavailable
    · exact .enter at_
  next at_ =>
    cases h
    split
    next moved => exact .ended _ _ s.epochSeen (by rw [at_]; rfl) (.gate moved)
    · exact .compareGate at_
  next at_ =>
    cases h
    split
    next moved => exact .ended _ _ s.epochSeen (by rw [at_]; rfl) (.word moved)
    · exact .compareWord at_
  next k at_ => exact kernel_move at_ h
  next at_ => cases h; exact .retire (by rw [at_]; rfl)
  next at_ => cases h; exact .retire (by rw [at_]; rfl)
  next at_ => cases h; exact .retire (by rw [at_]; rfl)
  next answers at_ =>
    obtain ⟨-, h⟩ := guarded h
    cases h
    split
    next none_ => exact .nothing answers at_ none_
    · exact .again answers at_
  next p at_ =>
    cases h
    match p with
    | .error => exact .processed _ _ s.signals (.inr at_) (.inl rfl)
    | .errno e => exact .processed _ _ s.signals (.inr at_) (.inr (.inl ⟨e, rfl⟩))
    | .done left => exact .round _ left (.inr at_)
  · cases h; exact .others _ (s.word + 1) s.gate s.signals s.exit s.epoch
  · cases h; exact .others _ s.word (s.gate + 1) s.signals s.exit s.epoch
  · cases h; exact .others _ s.word s.gate true s.exit s.epoch
  · cases h; exact .others _ s.word s.gate s.signals true s.epoch
  · cases h; exact .others _ s.word s.gate s.signals s.exit (s.epoch + 1)
  next i bits => cases h; exact .level i bits
  next n => cases h; exact .tick n
  next r =>
    obtain ⟨allowed, ⟨⟩⟩ := guarded h
    exact .setRealtime r allowed
  · cases h

end Moves

end ServiceCache.PollOneoff
