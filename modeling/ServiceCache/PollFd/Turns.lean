import Mathlib.Data.List.Forall2
import ServiceCache.PollFd.Steps

/-!
# The hint, the deadline and the answer
-/

namespace ServiceCache.PollFd

open Transition

/-! ## The bits -/

theorem and_mapBits {m bits source target : BitVec 16} (none_ : m &&& target = 0#16) :
    m &&& mapBits bits source target = 0#16 := by
  unfold mapBits
  split
  · exact none_
  · exact BitVec.and_zero

theorem and_eq_zero_of_mapBits {m source target : BitVec 16} (bit : target ≠ 0#16)
    (none_ : mapBits m source target = 0#16) : m &&& source = 0#16 := by
  unfold mapBits at none_
  split at none_
  · exact absurd none_ bit
  next zero => exact Classical.not_not.mp zero

theorem hostRevents_reported_ne_zero {fd : HostPollFd} {condition : BitVec 16}
    (some_ : fd.reported condition ≠ 0#16) : hostRevents (fd.reported condition) ≠ 0#16 := by
  intro none_
  refine some_ ?_
  generalize reported : fd.reported condition = m at none_
  have within : m = m &&& (pollEvents fd ||| pollerr ||| pollhup ||| pollnval) := by
    rw [← reported, HostPollFd.reported, BitVec.and_assoc, BitVec.and_self]
  obtain ⟨⟨⟨⟨read, write⟩, hup⟩, rdhup⟩, err⟩ :
      (((mapBits m pollin hostPollRead = 0#16 ∧ mapBits m pollout hostPollWrite = 0#16) ∧
        mapBits m pollhup hostPollHup = 0#16) ∧ mapBits m pollrdhup hostPollRdhup = 0#16) ∧
        mapBits m (pollerr ||| pollnval) hostPollErr = 0#16 := by
    simpa only [hostRevents, BitVec.or_eq_zero_iff] using none_
  have failed := and_eq_zero_of_mapBits (by decide) err
  rw [BitVec.and_or_distrib_left, BitVec.or_eq_zero_iff] at failed
  rw [within]
  simp only [pollEvents, BitVec.and_or_distrib_left, BitVec.or_eq_zero_iff]
  exact ⟨⟨⟨⟨⟨and_mapBits (and_eq_zero_of_mapBits (by decide) read),
    and_mapBits (and_eq_zero_of_mapBits (by decide) write)⟩,
    and_mapBits (and_eq_zero_of_mapBits (by decide) rdhup)⟩, failed.1⟩,
    and_eq_zero_of_mapBits (by decide) hup⟩, failed.2⟩

/-! ## The invariant of a thread -/

@[simp] def Stage.result : Stage → Option HostPollFdResult
  | .outside r => r
  | .unregistering r | .uncounting r => some r
  | _ => none

@[simp] def Stage.drained : Stage → Bool
  | .loadingGate | .loadingWord | .reading | .entering .. | .blocked .. => true
  | _ => false

@[simp] def Stage.Timed (now : Nat) (deadline : Option Nat) : Stage → Prop
  | .entering read timeout => read ≤ now ∧ timeout = deadline.map (· - read)
  | .blocked read entered timeout =>
    read ≤ entered ∧ entered ≤ now ∧ timeout = deadline.map (· - read)
  | _ => True

def Thread.Answered (t : Thread) : Prop :=
  (∃ fd ∈ t.fds, fd.revents ≠ 0#16) ∧
    List.Forall₂ (fun slot fd => ∃ readable, fd = fd.answered slot readable) t.slots t.fds

structure Thread.Sound (now : Nat) (t : Thread) : Prop where
  cost : t.turns + t.count ≤ t.written + if t.undrained && t.readable then 1 else 0
  drained : t.stage.drained = true → t.undrained = false
  timed : t.stage.Timed now t.deadline
  due : t.stage.result = some .timedOut → ∃ d, t.deadline = some d ∧ d ≤ now
  answered : t.stage.result = some .ready → t.Answered

section Steps

variable {s s' : State} {t : Thread} {now : Nat}

theorem Thread.Sound.later (h : t.Sound now) {now' : Nat} (le : now ≤ now') : t.Sound now' where
  cost := h.cost
  drained := h.drained
  timed := by
    have timed := h.timed
    cases stage : t.stage with
    | entering read timeout =>
      rw [stage] at timed
      exact ⟨Nat.le_trans timed.1 le, timed.2⟩
    | blocked read entered timeout =>
      rw [stage] at timed
      exact ⟨timed.1, Nat.le_trans timed.2.1 le, timed.2.2⟩
    | _ => trivial
  due is := by
    obtain ⟨d, deadline, past⟩ := h.due is
    exact ⟨d, deadline, Nat.le_trans past le⟩
  answered := h.answered

theorem Thread.Sound.setStage (h : t.Sound now) {stage : Stage}
    (drained : stage.drained = true → t.undrained = false) (timed : stage.Timed now t.deadline)
    (due : stage.result = some .timedOut → ∃ d, t.deadline = some d ∧ d ≤ now)
    (answered : stage.result = some .ready → t.Answered) : { t with stage }.Sound now :=
  ⟨h.cost, drained, timed, due, answered⟩

theorem Thread.Sound.turns_le (h : t.Sound now) : t.turns ≤ t.written := by
  have cost := h.cost
  rw [Thread.readable] at cost
  split at cost
  next some_ =>
    have pos := of_decide_eq_true (Bool.and_eq_true_iff.mp some_).2
    omega
  · omega

theorem Thread.Sound.drain (h : t.Sound now) : t.drain.Sound now := by
  have cost := h.cost
  unfold Thread.drain
  split
  next undrained =>
    refine ⟨?_, fun _ => rfl, trivial, fun is => (by cases is), fun is => (by cases is)⟩
    have gone : (t.eventfd.map fun _ => 0).getD 0 = 0 := by cases t.eventfd <;> rfl
    change t.turns + (t.eventfd.map fun _ => 0).getD 0 ≤ t.written + 0
    rw [gone]
    rw [undrained, Bool.true_and, Thread.readable] at cost
    split at cost
    next some_ =>
      have pos := of_decide_eq_true some_
      omega
    · omega
  next clear =>
    exact h.setStage (fun _ => eq_false_of_ne_true clear) trivial nofun
      nofun

theorem Thread.Sound.write (h : t.Sound now) : t.write.Sound now := by
  have cost := h.cost
  unfold Thread.write
  split
  next count is =>
    refine ⟨?_, h.drained, h.timed, h.due, h.answered⟩
    have before : t.count = count := by rw [Thread.count, is]; rfl
    change t.turns + (count + 1) ≤ t.written + 1 + if t.undrained && decide (0 < count + 1) then 1 else 0
    rw [Thread.readable, before] at cost
    have more : (if t.undrained && decide (0 < count) then 1 else 0) ≤
        if t.undrained && decide (0 < count + 1) then 1 else 0 := by
      cases t.undrained with
      | false => exact Nat.le_refl _
      | true =>
        rw [Bool.true_and, Bool.true_and, if_pos (decide_eq_true (Nat.succ_pos _))]
        split <;> omega
    omega
  · exact h

theorem Thread.Sound.close (h : t.Sound now) : t.close.Sound now := by
  have cost := h.cost
  unfold Thread.close
  split
  · refine ⟨?_, fun _ => rfl, h.timed, h.due, h.answered⟩
    exact h.turns_le
  · exact h

theorem forall₂_answered {fds : List HostPollFd} {conditions : List (BitVec 16 × Bool)}
    (length : conditions.length = fds.length) :
    List.Forall₂ (fun slot fd => ∃ readable, fd = fd.answered slot readable)
      (fds.zipWith (fun fd c => fd.reported c.1) conditions)
      (fds.zipWith (fun fd c => fd.answered (fd.reported c.1) c.2) conditions) := by
  induction fds generalizing conditions with
  | nil => exact .nil
  | cons fd fds ih =>
    cases conditions with
    | nil => cases length
    | cons c conditions => exact .cons ⟨c.2, rfl⟩ (ih (Nat.succ.inj length))

theorem exists_answered {fds : List HostPollFd} {conditions : List (BitVec 16 × Bool)}
    (some_ : (fds.zipWith (fun fd c => fd.reported c.1) conditions).any (· ≠ 0#16) = true) :
    ∃ fd ∈ fds.zipWith (fun fd c => fd.answered (fd.reported c.1) c.2) conditions,
      fd.revents ≠ 0#16 := by
  induction fds generalizing conditions with
  | nil => cases some_
  | cons fd fds ih =>
    cases conditions with
    | nil => cases some_
    | cons c conditions =>
      rw [List.zipWith_cons_cons, List.any_cons, Bool.or_eq_true] at some_
      obtain here | rest := some_
      · exact ⟨_, .head _, hostRevents_reported_ne_zero (of_decide_eq_true here)⟩
      · obtain ⟨fd', mem, bit⟩ := ih rest
        exact ⟨fd', .tail _ mem, bit⟩

theorem Thread.Sound.answer (h : t.Sound now) (clear : t.undrained = false)
    {conditions : List (BitVec 16 × Bool)} (length : conditions.length = t.fds.length)
    (some_ : t.readable = true ∨
      (t.fds.zipWith (fun fd c => fd.reported c.1) conditions).any (· ≠ 0#16) = true) :
    (t.answer conditions).Sound now := by
  have cost : t.turns + t.count ≤ t.written := by
    have cost := h.cost
    rwa [clear, Bool.false_and] at cost
  unfold Thread.answer
  dsimp only
  split
  next reported =>
    refine ⟨?_, fun is => (by cases is), trivial, fun is => (by cases is), fun _ => ⟨?_, ?_⟩⟩
    · change t.turns + t.count ≤ t.written + _
      omega
    · exact exists_answered reported
    · exact forall₂_answered length
  next silent =>
    refine ⟨?_, fun is => (by cases is), trivial, fun is => (by cases is), fun is => (by cases is)⟩
    have readable := some_.resolve_right silent
    change t.turns + 1 + t.count ≤ t.written + if t.readable && t.readable then 1 else 0
    rw [readable]
    simp only [Bool.and_self, if_true]
    omega

theorem sound_update {i : Nat} {t : Thread} (h : ∀ j, (s.threads j).Sound s.now)
    (own : (s.threads i).Sound s.now → t.Sound s.now) (j : Nat) :
    (Function.update s.threads i t j).Sound s.now := by
  by_cases same : j = i
  · subst same
    rw [Function.update_self]
    exact own (h j)
  · rw [Function.update_of_ne same]
    exact h j

theorem sound_step (h : ∀ j, (s.threads j).Sound s.now) (move : Move s s') :
    ∀ j, (s'.threads j).Sound s'.now := by
  cases move with
  | refuses i support out | enters i request out =>
    refine sound_update h fun own => ?_
    exact ⟨own.cost, fun is => (by cases is), trivial, fun is => (by cases is), fun is => (by cases is)⟩
  | registers i stage | counts i stage | signalled i read entered timeout stage =>
    refine sound_update h fun own => ?_
    exact own.setStage nofun trivial nofun nofun
  | drains i stage => exact sound_update h Thread.Sound.drain
  | loadsGate i stage | loadsWord i stage =>
    refine sound_update h fun own => ?_
    exact own.setStage (fun _ => own.drained (by rw [stage]; rfl)) trivial nofun
      nofun
  | reads i stage =>
    refine sound_update h fun own => ?_
    exact own.setStage (fun _ => own.drained (by rw [stage]; rfl)) ⟨Nat.le_refl _, rfl⟩
      nofun nofun
  | blocks i read timeout stage =>
    refine sound_update h fun own => ?_
    have timed := own.timed
    rw [stage] at timed
    exact own.setStage (fun _ => own.drained (by rw [stage]; rfl)) ⟨timed.1, Nat.le_refl _, timed.2⟩
      nofun nofun
  | gives i r support stage result =>
    refine sound_update h fun own => ?_
    refine own.setStage nofun trivial ?_ ?_ <;>
      rintro ⟨⟩ <;> simp at result
  | timesOut i read entered timeout stage quiet due =>
    refine sound_update h fun own => own.setStage nofun trivial (fun _ => ?_)
      nofun
    obtain ⟨before, -, left⟩ : read ≤ entered ∧ entered ≤ s.now ∧
        some timeout = (s.threads i).deadline.map (· - read) := by
      have timed := own.timed
      rwa [stage] at timed
    obtain ⟨d, deadline, rfl⟩ := Option.map_eq_some_iff.mp left.symm
    exact ⟨d, deadline, by omega⟩
  | answers i read entered timeout conditions stage length some_ =>
    exact sound_update h fun own => own.answer (own.drained (by rw [stage]; rfl)) length some_
  | unregisters i r stage | returns i r stage =>
    refine sound_update h fun own => ?_
    exact own.setStage nofun trivial (fun is => own.due (by rw [stage]; exact is))
      fun is => own.answered (by rw [stage]; exact is)
  | closes i out => exact sound_update h Thread.Sound.close
  | wakes | passes | sees | locks | skips | unlocks => exact h
  | writes j w e todo => exact sound_update h Thread.Sound.write
  | changes address value =>
    exact fun j => ⟨(h j).cost, (h j).drained, (h j).timed, (h j).due, (h j).answered⟩
  | passesTime now support later => exact fun j => (h j).later later

end Steps

theorem sound {s : State} (reach : pollfd.Reachable s) (i : Nat) : (s.threads i).Sound s.now := by
  refine reach.invariant (P := fun s => ∀ j, (s.threads j).Sound s.now) ?_
    (fun s e t _ sound _ step => sound_step sound (step_move step)) i
  rintro _ ⟨eventfd, undrained, words, rfl⟩ j
  exact ⟨by simp [Thread.count], fun is => (by cases is), trivial, fun is => (by cases is),
    fun is => (by cases is)⟩

end ServiceCache.PollFd
