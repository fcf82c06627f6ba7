import Mathlib.Data.List.Count
import ServiceCache.Foreground.Model

/-!
# What the foreground command knows of its clones

As long as `reply` takes no report, the list holds the clones whose reports were not read.
-/

namespace ServiceCache.Foreground

open Transition (System guarded)

def State.Pending (s : State) (i : Nat) : Prop :=
  .forked i ∈ s.channel ∨ ∃ left, s.stage = .announcing left i

def State.Apart (s : State) (i j : Nat) : Prop :=
  (s.clone i).pid = (s.clone j).pid → [.exited i, .forked j].Sublist s.channel ∨
    [.exited j, .forked i].Sublist s.channel

structure Tracked (s : State) : Prop where
  fresh : ∀ i, s.born ≤ i ↔ (s.clone i).fate = .unborn
  queued : ∀ i, s.channel.count (.exited i) = if (s.clone i).fate.isReported then 1 else 0
  replies : s.channel.countP Message.isReply + (if s.request.isSome then 1 else 0) =
    if s.stage.awaits then 1 else 0
  pending : ∀ i, s.Pending i → (s.clone i).fate.unread = true
  held : ∀ i, i ∈ s.clones ↔ (s.clone i).fate.unread = true ∧ ¬ s.Pending i
  apart : ∀ i j, i ≠ j → (s.clone i).fate.unread = true → (s.clone j).fate.unread = true →
    s.Apart i j
  failed : s.cloneFailed = true ↔ ∃ i status, (s.clone i).fate = .known status ∧ status ≠ 0
  cold : s.template ≠ .frozen → s.born = 0 ∧ s.frozen = false ∧ .frozen ∉ s.channel
  guest : ∀ status, .guestExited status ∈ s.channel → s.template = .gone
  busy : s.frozen = true → s.stage.waits = true → s.clones ≠ []
  ended : ∀ r, s.stage = .returned r → s.frozen = true →
    s.clones = [] ∧ r = if s.cloneFailed then 1 else 0

theorem tracked_initial : Tracked {} where
  fresh i := by simp
  queued i := by simp [Fate.isReported]
  replies := rfl
  pending i := by simp [State.Pending]
  held i := by simp [Fate.unread]
  apart i j _ unread := by simp [Fate.unread] at unread
  failed := by simp
  cold _ := by simp
  guest := by simp
  busy := by simp
  ended := by simp

section Steps

variable {s t : State} {i j count : Nat}

theorem Tracked.no_reply (h : Tracked s) (calm : s.stage.awaits = false) {m : Message}
    (mem : m ∈ s.channel) : m.isReply = false := by
  have none := h.replies
  rw [calm, if_neg Bool.false_ne_true] at none
  have zero : s.channel.countP Message.isReply = 0 := by omega
  simpa using List.countP_eq_zero.mp zero m mem

theorem Tracked.no_request (h : Tracked s) (calm : s.stage.awaits = false) :
    s.request = none := by
  have none := h.replies
  rw [calm, if_neg Bool.false_ne_true] at none
  cases is : s.request with
  | none => rfl
  | some request => simp [is] at none

theorem Stage.not_awaits_of_waits {stage : Stage} (waits : stage.waits = true) :
    stage.awaits = false := by
  cases stage with
  | polling | woken => rfl
  | freezing | awaitingFrozen | forking | awaiting | announcing | returned | failed => cases waits

theorem Tracked.not_pending (h : Tracked s) (waits : s.stage.waits = true) : ¬ s.Pending i := by
  have calm := Stage.not_awaits_of_waits waits
  rintro (queued | ⟨left, announcing⟩)
  · have reply := h.no_reply calm queued
    cases reply
  · rw [announcing] at waits
    cases waits

theorem Tracked.move (h : Tracked s) {stage : Stage} {request : Option Request}
    {signal terminal inputEnded : Bool} {lines : Nat} {events : List Message}
    (replies : s.channel.countP Message.isReply + (if request.isSome then 1 else 0) =
      if stage.awaits then 1 else 0)
    (announcing : ∀ left i, stage = .announcing left i ↔ s.stage = .announcing left i)
    (busy : s.frozen = true → stage.waits = true → s.clones ≠ [])
    (ended : ∀ r, stage = .returned r → s.stage = .returned r) :
    Tracked { s with stage, request, signal, terminal, inputEnded, lines, events } := by
  have pending : ∀ i, (.forked i ∈ s.channel ∨ ∃ left, stage = .announcing left i) ↔
      s.Pending i := by
    intro i
    apply or_congr Iff.rfl
    apply exists_congr
    intro left
    exact announcing left i
  constructor
  · exact h.fresh
  · exact h.queued
  · exact replies
  · intro i waiting
    exact h.pending i ((pending i).mp waiting)
  · intro i
    rw [h.held i, ← pending i]
    rfl
  · exact h.apart
  · exact h.failed
  · exact h.cold
  · exact h.guest
  · exact busy
  · intro r returned
    exact h.ended r (ended r returned)

theorem Stage.forkNext_of_pos {left : Nat} (pos : 0 < left) : Stage.forkNext left = .forking left :=
  if_neg (Nat.ne_of_gt pos)

theorem State.turn_cases (s : State) (pos : 0 < count) (fork : Bool) :
    s.turn count fork = .polling ∨ s.turn count fork = .freezing ∨
      s.turn count fork = .forking count := by
  unfold State.turn
  rw [Stage.forkNext_of_pos pos]
  split
  · split <;> simp
  · simp

theorem Tracked.poll (h : Tracked s) (polling : s.stage = .polling) : Tracked s.poll := by
  have calm : s.stage.awaits = false := by rw [polling]; rfl
  apply h.move
  · have replies := h.replies
    rwa [calm] at replies
  · simp [polling]
  · intro frozen _
    exact h.busy frozen (by rw [polling]; rfl)
  · simp

theorem Tracked.look (h : Tracked s) (pos : 0 < count) {signal stdin : Bool}
    (woken : s.stage = .woken false signal stdin) : Tracked (s.look count signal stdin) := by
  have calm : s.stage.awaits = false := by rw [woken]; rfl
  have replies := h.replies
  rw [calm] at replies
  have cases := s.turn_cases pos (signal || (stdin && s.lines != 0))
  apply h.move
  · rw [replies]
    rcases cases with turn | turn | turn <;> rw [turn] <;> rfl
  · intro left i
    rw [woken]
    rcases cases with turn | turn | turn <;> simp [turn]
  · intro frozen _
    exact h.busy frozen (by rw [woken]; rfl)
  · intro r
    rcases cases with turn | turn | turn <;> simp [turn]

theorem Tracked.send (h : Tracked s) (step : s.send = some t) : Tracked t := by
  unfold State.send at step
  split at step
  next freezing =>
    cases step
    have replies := h.replies
    rw [h.no_request (by rw [freezing]; rfl), freezing] at replies
    apply h.move
    · simpa [Stage.awaits] using replies
    · simp [freezing]
    · simp [Stage.waits]
    · simp
  next left forking =>
    cases step
    have replies := h.replies
    rw [h.no_request (by rw [forking]; rfl), forking] at replies
    apply h.move
    · simpa [Stage.awaits] using replies
    · simp [forking]
    · simp [Stage.waits]
    · simp
  · cases step

theorem Tracked.input (h : Tracked s) (signal terminal inputEnded : Bool) (lines : Nat) :
    Tracked { s with signal, terminal, inputEnded, lines } :=
  h.move h.replies (fun _ _ => Iff.rfl) h.busy (fun _ same => same)

/-! ### The template and the clones -/

theorem count_push {m : Message} (other : ∀ i, m ≠ .exited i) (i : Nat) :
    (s.channel ++ [m]).count (.exited i) = s.channel.count (.exited i) := by
  rw [List.count_append, List.count_singleton]
  simp [other i]

theorem sublist_push {l : List Message} (h : l.Sublist s.channel) (m : Message) :
    l.Sublist (s.channel ++ [m]) :=
  h.trans (List.sublist_append_left ..)

theorem Tracked.push (h : Tracked s) {m : Message} {template : Template} {request : Option Request}
    (exit : ∀ i, m ≠ .exited i) (fork : ∀ i, m ≠ .forked i)
    (replies : (s.channel ++ [m]).countP Message.isReply + (if request.isSome then 1 else 0) =
      if s.stage.awaits then 1 else 0)
    (cold : template ≠ .frozen → s.born = 0 ∧ s.frozen = false ∧ .frozen ∉ s.channel ++ [m])
    (guest : ∀ status, .guestExited status ∈ s.channel ++ [m] → template = .gone) :
    Tracked ({ s with template, request }.push m) := by
  have pending : ∀ i, ({ s with template, request }.push m).Pending i ↔ s.Pending i := by
    intro i
    simp [State.Pending, (fork i).symm]
  constructor
  · exact h.fresh
  · intro i
    rw [State.push_channel, count_push exit]
    exact h.queued i
  · exact replies
  · intro i waiting
    exact h.pending i ((pending i).mp waiting)
  · intro i
    rw [pending i]
    exact h.held i
  · intro i j ne unread unread' same
    exact (h.apart i j ne unread unread' same).imp (sublist_push · _) (sublist_push · _)
  · exact h.failed
  · exact cold
  · exact guest
  · exact h.busy
  · exact h.ended

theorem Tracked.guestExits (h : Tracked s) (serving : s.template = .serving) (status : Int) :
    Tracked ({ s with template := .gone }.push (.guestExited status)) := by
  obtain ⟨unborn, warm, unfrozen⟩ := h.cold (by simp [serving])
  apply h.push (by simp) (by simp)
  · have replies := h.replies
    simpa [List.countP_append, Message.isReply] using replies
  · intro _
    exact ⟨unborn, warm, by simpa using unfrozen⟩
  · intro _ _
    rfl

theorem Tracked.serveFreeze (h : Tracked s) (asked : s.request = some .freeze)
    (serving : s.template = .serving) :
    Tracked ({ s with template := .frozen, request := none }.push .frozen) := by
  apply h.push (by simp) (by simp)
  · have replies := h.replies
    rw [asked] at replies
    simpa [List.countP_append, Message.isReply] using replies
  · intro unfrozen
    exact absurd rfl unfrozen
  · intro status mem
    have gone := h.guest status (by simpa using mem)
    rw [serving] at gone
    cases gone

theorem State.bear_clone (s : State) (pid j : Nat) :
    (s.bear pid).clone j = if j = s.born then ⟨pid, .running⟩ else s.clone j :=
  Function.update_apply ..

theorem Tracked.born_fate (h : Tracked s) : (s.clone s.born).fate = .unborn :=
  (h.fresh s.born).mp (Nat.le_refl _)

theorem Tracked.report_queued (h : Tracked s) (unread : (s.clone i).fate.unread = true)
    (reaped : (s.clone i).fate.unreaped = false) : .exited i ∈ s.channel := by
  have reported : (s.clone i).fate.isReported = true := by
    revert unread reaped
    cases (s.clone i).fate <;> simp [Fate.unread, Fate.unreaped, Fate.isReported]
  apply List.count_pos_iff.mp
  rw [h.queued i, reported]
  exact Nat.one_pos

theorem Tracked.behind_report (h : Tracked s) {pid : Nat}
    (free : ∀ i < s.born, (s.clone i).fate.unreaped → (s.clone i).pid ≠ pid)
    (unread : (s.clone i).fate.unread = true) (same : (s.clone i).pid = pid) :
    [.exited i, .forked s.born].Sublist (s.channel ++ [.forked s.born]) := by
  have known : i < s.born := by
    by_contra beyond
    rw [(h.fresh i).mp (Nat.le_of_not_lt beyond)] at unread
    cases unread
  have reaped : (s.clone i).fate.unreaped = false := by
    by_contra alive
    exact free i known (by simpa using alive) same
  exact (List.singleton_sublist.mpr (h.report_queued unread reaped)).append (List.Sublist.refl _)

theorem Tracked.bear (h : Tracked s) {pid : Nat} (asked : s.request = some .fork)
    (frozen : s.template = .frozen)
    (free : ∀ i < s.born, (s.clone i).fate.unreaped → (s.clone i).pid ≠ pid) :
    Tracked (s.bear pid) := by
  have pending : ∀ j, (s.bear pid).Pending j ↔ s.Pending j ∨ j = s.born := by
    intro j
    simp only [State.Pending, State.bear_channel, State.bear_stage, List.mem_append,
      List.mem_singleton, Message.forked.injEq]
    tauto
  constructor
  · intro j
    rw [State.bear_clone, State.bear_born]
    split
    next same => simp [same]
    next other =>
      rw [← h.fresh j]
      omega
  · intro j
    rw [State.bear_clone, State.bear_channel, count_push (by simp), h.queued j]
    by_cases same : j = s.born
    · rw [if_pos same, same, h.born_fate]
      rfl
    · rw [if_neg same]
  · have replies := h.replies
    rw [asked] at replies
    simpa [List.countP_append, Message.isReply] using replies
  · intro j waiting
    rw [State.bear_clone]
    split
    · rfl
    next other => exact h.pending j (((pending j).mp waiting).resolve_right other)
  · intro j
    rw [State.bear_clone, State.bear_clones, pending, h.held j]
    split
    next same => simp [same, h.born_fate, Fate.unread]
    next other => simp [other]
  · intro i j ne unread unread' same
    rw [State.bear_clone] at unread unread'
    rw [State.bear_clone, State.bear_clone] at same
    rw [State.bear_channel]
    split at unread <;> split at unread'
    next here here' => exact absurd (here.trans here'.symm) ne
    next here other =>
      rw [if_pos here, if_neg other] at same
      rw [here]
      exact .inr (h.behind_report free unread' same.symm)
    next other here =>
      rw [if_neg other, if_pos here] at same
      rw [here]
      exact .inl (h.behind_report free unread same)
    next other other' =>
      rw [if_neg other, if_neg other'] at same
      exact (h.apart i j ne unread unread' same).imp (sublist_push · _) (sublist_push · _)
  · rw [State.bear_cloneFailed, h.failed]
    apply exists_congr
    intro j
    rw [State.bear_clone]
    split
    next same => simp [same, h.born_fate]
    · rfl
  · intro unfrozen
    exact absurd frozen unfrozen
  · intro status mem
    exact h.guest status (by simpa using mem)
  · exact h.busy
  · exact h.ended

theorem State.setFate_clone (s : State) (i : Nat) (fate : Fate) (j : Nat) :
    (s.setFate i fate).clone j = if j = i then { s.clone i with fate } else s.clone j :=
  Function.update_apply ..

theorem State.setFate_pid (s : State) (i : Nat) (fate : Fate) (j : Nat) :
    ((s.setFate i fate).clone j).pid = (s.clone j).pid := by
  rw [State.setFate_clone]
  split
  next same => rw [same]
  · rfl

theorem Tracked.proceed (h : Tracked s) (fate : Fate) {l : List Message}
    (was : (s.clone i).fate.unread = true) (is : fate.unread = true)
    (only : ∀ m ∈ l, m = .exited i)
    (counted : (if (s.clone i).fate.isReported then 1 else 0) + l.count (.exited i) =
      if fate.isReported then 1 else 0) :
    Tracked { s.setFate i fate with channel := s.channel ++ l } := by
  have unread : ∀ j, ((s.setFate i fate).clone j).fate.unread = (s.clone j).fate.unread := by
    intro j
    rw [State.setFate_clone]
    split
    next same => rw [same, was, is]
    · rfl
  have added : ∀ m : Message, m.isExit = false → (m ∈ s.channel ++ l ↔ m ∈ s.channel) := by
    intro m other
    rw [List.mem_append]
    apply or_iff_left
    intro mem
    rw [only m mem] at other
    cases other
  have pending : ∀ j, State.Pending { s.setFate i fate with channel := s.channel ++ l } j ↔
      s.Pending j := fun j => or_congr (added _ rfl) Iff.rfl
  constructor
  · intro j
    show s.born ≤ j ↔ ((s.setFate i fate).clone j).fate = .unborn
    rw [h.fresh j, State.setFate_clone]
    split
    next same =>
      rw [same]
      constructor
      · intro unborn
        rw [unborn] at was
        cases was
      · intro unborn
        rw [show fate = .unborn from unborn] at is
        cases is
    · rfl
  · intro j
    show (s.channel ++ l).count (.exited j) =
      if ((s.setFate i fate).clone j).fate.isReported then 1 else 0
    rw [List.count_append, h.queued j, State.setFate_clone]
    by_cases same : j = i
    · rw [if_pos same, same]
      exact counted
    · have absent : .exited j ∉ l := fun mem => same (by simpa using only _ mem)
      rw [if_neg same, List.count_eq_zero.mpr absent, Nat.add_zero]
  · have none : l.countP Message.isReply = 0 := by
      apply List.countP_eq_zero.mpr
      intro m mem
      simp [only m mem, Message.isReply]
    show (s.channel ++ l).countP Message.isReply + _ = _
    rw [List.countP_append, none, Nat.add_zero]
    exact h.replies
  · intro j waiting
    show ((s.setFate i fate).clone j).fate.unread = true
    rw [unread]
    exact h.pending j ((pending j).mp waiting)
  · intro j
    rw [pending]
    show j ∈ s.clones ↔ ((s.setFate i fate).clone j).fate.unread = true ∧ _
    rw [unread]
    exact h.held j
  · intro j k ne alive alive' same
    change ((s.setFate i fate).clone j).fate.unread = true at alive
    change ((s.setFate i fate).clone k).fate.unread = true at alive'
    change ((s.setFate i fate).clone j).pid = ((s.setFate i fate).clone k).pid at same
    rw [unread] at alive alive'
    rw [State.setFate_pid, State.setFate_pid] at same
    have longer : s.channel.Sublist (s.channel ++ l) := List.sublist_append_left ..
    exact (h.apart j k ne alive alive' same).imp (·.trans longer) (·.trans longer)
  · show s.cloneFailed = true ↔ ∃ j status, ((s.setFate i fate).clone j).fate = .known status ∧ _
    rw [h.failed]
    apply exists_congr
    intro j
    apply exists_congr
    intro status
    rw [State.setFate_clone]
    split
    next same =>
      rw [same]
      constructor
      · rintro ⟨known, _⟩
        rw [known] at was
        cases was
      · rintro ⟨known, _⟩
        rw [show fate = .known status from known] at is
        cases is
    · rfl
  · intro unfrozen
    obtain ⟨unborn, warm, absent⟩ := h.cold unfrozen
    exact ⟨unborn, warm, fun mem => absent ((added _ rfl).mp mem)⟩
  · intro status mem
    exact h.guest status ((added _ rfl).mp mem)
  · exact h.busy
  · exact h.ended

theorem Tracked.exit (h : Tracked s) (running : (s.clone i).fate = .running) (status : Int) :
    Tracked (s.setFate i (.exited status)) := by
  have kept := h.proceed (i := i) (.exited status) (l := []) (by rw [running]; rfl) rfl
    (by simp) (by rw [running]; rfl)
  rwa [List.append_nil] at kept

theorem Tracked.report (h : Tracked s) (step : s.report i = some t) : Tracked t := by
  unfold State.report at step
  split at step
  next status exited =>
    cases step
    exact h.proceed _ (by rw [exited]; rfl) rfl (by simp) (by rw [exited]; simp [Fate.isReported])
  · cases step

/-! ### What the command reads -/

theorem apart_rest {m : Message} {rest : List Message} (channel : s.channel = m :: rest)
    (other : m.isExit = false)
    (apart : [.exited i, .forked j].Sublist s.channel) : [.exited i, .forked j].Sublist rest := by
  rw [channel, List.sublist_cons_iff] at apart
  rcases apart with apart | ⟨r, first, _⟩
  · exact apart
  · injection first with first
    rw [← first] at other
    cases other

theorem Tracked.take (h : Tracked s) {m : Message} {rest : List Message} {stage : Stage}
    (frozen : Bool) (channel : s.channel = m :: rest) (other : m.isExit = false)
    (replies : rest.countP Message.isReply + (if s.request.isSome then 1 else 0) =
      if stage.awaits then 1 else 0)
    (pending : ∀ i, (.forked i ∈ rest ∨ ∃ left, stage = .announcing left i) ↔ s.Pending i)
    (cold : s.template ≠ .frozen → frozen = false) (calm : stage.waits = false)
    (ended : ∀ r, stage = .returned r → frozen = false) :
    Tracked { s with channel := rest, frozen, stage } := by
  have sub : ∀ m ∈ rest, m ∈ s.channel := by
    intro m mem
    rw [channel]
    exact List.mem_cons_of_mem _ mem
  constructor
  · exact h.fresh
  · intro i
    have ne : m ≠ .exited i := by
      rintro rfl
      cases other
    rw [← h.queued i, channel, List.count_cons_of_ne ne]
  · exact replies
  · intro i waiting
    exact h.pending i ((pending i).mp waiting)
  · intro i
    rw [h.held i, ← pending i]
    rfl
  · intro i j ne unread unread' same
    exact (h.apart i j ne unread unread' same).imp (apart_rest channel other)
      (apart_rest channel other)
  · exact h.failed
  · intro unfrozen
    obtain ⟨unborn, _, absent⟩ := h.cold unfrozen
    exact ⟨unborn, cold unfrozen, fun mem => absent (sub _ mem)⟩
  · intro status mem
    exact h.guest status (sub _ mem)
  · intro _ waits
    rw [show stage.waits = true from waits] at calm
    cases calm
  · intro r returned warm
    rw [show frozen = true from warm] at ended
    cases ended r returned

theorem Tracked.replies_rest (h : Tracked s) {m : Message} {rest : List Message}
    (channel : s.channel = m :: rest) (reply : m.isReply = true) (awaits : s.stage.awaits = true) :
    rest.countP Message.isReply + (if s.request.isSome then 1 else 0) = 0 := by
  have replies := h.replies
  rw [channel, awaits, List.countP_cons, reply] at replies
  simp only [if_true] at replies
  omega

theorem Tracked.recvFrozen (h : Tracked s) (pos : 0 < count) {rest : List Message}
    (channel : s.channel = .frozen :: rest) (awaiting : s.stage = .awaitingFrozen) :
    Tracked { s with channel := rest, frozen := true, stage := .forkNext count } := by
  have forking := Stage.forkNext_of_pos pos
  apply h.take true channel rfl
  · rw [forking]
    exact h.replies_rest channel rfl (by rw [awaiting]; rfl)
  · intro i
    simp [State.Pending, channel, awaiting, forking]
  · intro unfrozen
    exact absurd (h.cold unfrozen).2.2 (by simp [channel])
  · rw [forking]
    rfl
  · simp [forking]

theorem Tracked.recvForked (h : Tracked s) {left : Nat} {rest : List Message}
    (channel : s.channel = .forked i :: rest) (awaiting : s.stage = .awaiting left) :
    Tracked { s with channel := rest, stage := .announcing left i } := by
  have none := h.replies_rest channel rfl (by rw [awaiting]; rfl)
  apply h.take s.frozen channel rfl
  · exact none
  · intro j
    have gone : .forked j ∉ rest := by
      intro mem
      have zero : rest.countP Message.isReply = 0 := by omega
      exact List.countP_eq_zero.mp zero _ mem rfl
    simp [State.Pending, channel, awaiting, gone, eq_comm]
  · intro unfrozen
    exact (h.cold unfrozen).2.1
  · rfl
  · simp

theorem Tracked.readGuest (h : Tracked s) {status : Int} {rest : List Message}
    (channel : s.channel = .guestExited status :: rest) (waits : s.stage.waits = true) :
    Tracked { s with channel := rest, stage := .returned status } := by
  have gone : s.template = .gone := h.guest status (by simp [channel])
  have warm : s.frozen = false := (h.cold (by simp [gone])).2.1
  have calm := Stage.not_awaits_of_waits waits
  apply h.take s.frozen channel rfl
  · have replies := h.replies
    rwa [channel, calm, List.countP_cons_of_neg Bool.false_ne_true] at replies
  · intro i
    apply iff_of_false _ (h.not_pending waits)
    rintro (mem | ⟨left, announcing⟩)
    · apply h.not_pending (i := i) waits
      exact .inl (by simp [channel, mem])
    · cases announcing
  · intro _
    exact warm
  · rfl
  · intro _ _
    exact warm

theorem Tracked.announced (h : Tracked s) (step : s.announced = some t) : Tracked t := by
  unfold State.announced at step
  split at step
  next left i announcing =>
    cases step
    have calm : s.stage.awaits = false := by rw [announcing]; rfl
    have next : ∀ l, (Stage.forkNext l).awaits = false := by
      intro l
      unfold Stage.forkNext
      split <;> rfl
    have not_announcing : ∀ l m j, Stage.forkNext l ≠ .announcing m j := by
      intro l m j
      unfold Stage.forkNext
      split <;> simp
    have pending : ∀ j, s.Pending j ↔ j = i := by
      intro j
      have absent : .forked j ∉ s.channel := by
        intro mem
        cases h.no_reply calm mem
      simp [State.Pending, absent, announcing, eq_comm]
    have settled : ∀ j, ¬ State.Pending { s with
        clones := s.clones ++ [i], stage := .forkNext (left - 1) } j := by
      intro j
      rintro (mem | ⟨l, again⟩)
      · cases h.no_reply calm mem
      · exact not_announcing _ _ _ again
    constructor
    · exact h.fresh
    · exact h.queued
    · have replies := h.replies
      rw [calm] at replies
      rw [next]
      exact replies
    · intro j waiting
      exact absurd waiting (settled j)
    · intro j
      have unread : (s.clone i).fate.unread = true := h.pending i ((pending i).mpr rfl)
      rw [List.mem_append, h.held j, pending, List.mem_singleton]
      by_cases same : j = i
      · subst same
        simp [unread, settled j]
      · simp [same, settled j]
    · exact h.apart
    · exact h.failed
    · exact h.cold
    · exact h.guest
    · simp
    · intro r returned
      unfold Stage.forkNext at returned
      split at returned <;> cases returned
  · cases step

/-! ### The report of a clone -/

theorem State.learn_clone (s : State) (i : Nat) (rest : List Message) (j : Nat) :
    (s.learn i rest).clone j =
      if j = i then { s.clone i with fate := (s.clone i).fate.learn } else s.clone j :=
  Function.update_apply ..

theorem State.learn_pid (s : State) (i : Nat) (rest : List Message) (j : Nat) :
    ((s.learn i rest).clone j).pid = (s.clone j).pid := by
  rw [State.learn_clone]
  split
  next same => rw [same]
  · rfl

theorem Tracked.mem_retain (h : Tracked s) (waits : s.stage.waits = true)
    (unread : (s.clone i).fate.unread = true) (j : Nat) :
    j ∈ s.retain i ↔ (s.clone j).fate.unread = true ∧ j ≠ i := by
  have listed : ∀ j, j ∈ s.clones ↔ (s.clone j).fate.unread = true := by
    intro j
    rw [h.held j, and_iff_left (h.not_pending waits)]
  unfold State.retain
  rw [List.mem_filter, listed, decide_eq_true_eq]
  apply and_congr_right
  intro alive
  constructor
  · rintro other rfl
    exact other rfl
  · intro ne same
    -- No clone that waits to be read was forked behind another's report.
    rcases h.apart j i ne alive unread same with sub | sub
    · exact h.not_pending (i := i) waits (.inl (sub.subset (by simp)))
    · exact h.not_pending (i := j) waits (.inl (sub.subset (by simp)))

theorem Tracked.reported (h : Tracked s) {rest : List Message}
    (channel : s.channel = .exited i :: rest) :
    (∃ status, (s.clone i).fate = .reported status) ∧ rest.count (.exited i) = 0 := by
  have one := h.queued i
  rw [channel, List.count_cons_self] at one
  cases fate : (s.clone i).fate with
  | reported status =>
    rw [fate] at one
    exact ⟨⟨status, rfl⟩, by simpa [Fate.isReported] using one⟩
  | unborn | running | exited _ | known _ => simp [fate, Fate.isReported] at one

theorem Tracked.cloneExited (h : Tracked s) {rest : List Message} {signal stdin : Bool}
    (channel : s.channel = .exited i :: rest) (waits : s.stage.waits = true) :
    Tracked (s.cloneExited i rest signal stdin) := by
  obtain ⟨⟨status, reported⟩, once⟩ := h.reported channel
  have calm := Stage.not_awaits_of_waits waits
  have unread : (s.clone i).fate.unread = true := by rw [reported]; rfl
  have sub : ∀ m ∈ rest, m ∈ s.channel := by
    intro m mem
    rw [channel]
    exact List.mem_cons_of_mem _ mem
  have left : ∀ j, ((s.learn i rest).clone j).fate.unread = true ↔
      (s.clone j).fate.unread = true ∧ j ≠ i := by
    intro j
    rw [State.learn_clone]
    by_cases same : j = i
    · simp [same, reported, Fate.learn, Fate.unread]
    · simp [same]
  have turned : (s.cloneExited i rest signal stdin).stage =
      if s.retain i = [] then
        .returned (if s.cloneFailed || decide ((s.clone i).fate.status ≠ 0) then 1 else 0)
      else .woken false signal stdin := rfl
  have settled : ∀ j, ¬ (s.cloneExited i rest signal stdin).Pending j := by
    rintro j (mem | ⟨n, announcing⟩)
    · exact h.not_pending waits (.inl (sub _ mem))
    · rw [turned] at announcing
      split at announcing <;> cases announcing
  constructor
  · intro j
    show s.born ≤ j ↔ ((s.learn i rest).clone j).fate = .unborn
    rw [State.learn_clone, h.fresh j]
    by_cases same : j = i
    · simp [same, reported, Fate.learn]
    · simp [same]
  · intro j
    show rest.count (.exited j) = if ((s.learn i rest).clone j).fate.isReported then 1 else 0
    rw [State.learn_clone]
    by_cases same : j = i
    · simp [same, reported, Fate.learn, Fate.isReported, once]
    · have queued := h.queued j
      rw [channel, List.count_cons_of_ne (by simpa using Ne.symm same)] at queued
      rw [if_neg same, queued]
  · have replies := h.replies
    rw [channel, calm, List.countP_cons_of_neg Bool.false_ne_true] at replies
    have quiet : (s.cloneExited i rest signal stdin).stage.awaits = false := by
      rw [turned]
      split <;> rfl
    rw [quiet]
    exact replies
  · intro j waiting
    exact absurd waiting (settled j)
  · intro j
    show j ∈ s.retain i ↔ ((s.learn i rest).clone j).fate.unread = true ∧ _
    rw [h.mem_retain waits unread, left, and_iff_left (settled j)]
  · intro j k ne alive alive' same
    change ((s.learn i rest).clone j).pid = ((s.learn i rest).clone k).pid at same
    rw [State.learn_pid, State.learn_pid] at same
    rcases h.apart j k ne ((left j).mp alive).1 ((left k).mp alive').1 same with behind | behind
    · exact absurd (.inl (behind.subset (by simp))) (h.not_pending (i := k) waits)
    · exact absurd (.inl (behind.subset (by simp))) (h.not_pending (i := j) waits)
  · show (s.cloneFailed || decide ((s.clone i).fate.status ≠ 0)) = true ↔
      ∃ j status, ((s.learn i rest).clone j).fate = .known status ∧ status ≠ 0
    rw [Bool.or_eq_true, h.failed, decide_eq_true_eq, reported]
    constructor
    · rintro (⟨j, code, known, bad⟩ | bad)
      · have other : j ≠ i := by
          rintro rfl
          rw [reported] at known
          cases known
        exact ⟨j, code, by rw [State.learn_clone, if_neg other, known], bad⟩
      · exact ⟨i, status, by rw [State.learn_clone, if_pos rfl, reported]; rfl, bad⟩
    · rintro ⟨j, code, known, bad⟩
      rw [State.learn_clone] at known
      split at known
      · rw [reported] at known
        injection known with known
        exact .inr (known ▸ bad)
      · exact .inl ⟨j, code, known, bad⟩
  · intro unfrozen
    obtain ⟨unborn, warm, absent⟩ := h.cold unfrozen
    exact ⟨unborn, warm, fun mem => absent (sub _ mem)⟩
  · intro status mem
    exact h.guest status (sub _ mem)
  · intro _ again none
    rw [turned, if_pos (show s.retain i = [] from none)] at again
    cases again
  · intro r returned _
    rw [turned] at returned
    split at returned
    next none =>
      injection returned with returned
      exact ⟨none, returned.symm⟩
    · cases returned

/-! ### Runs -/

theorem Tracked.readEvent (h : Tracked s) {m : Message} {rest : List Message}
    {signal stdin : Bool} (channel : s.channel = m :: rest) (waits : s.stage.waits = true) :
    Tracked (s.readEvent signal stdin rest m) := by
  have event : m.isReply = false := h.no_reply (Stage.not_awaits_of_waits waits) (by simp [channel])
  cases m with
  | exited i => exact h.cloneExited channel waits
  | guestExited status => exact h.readGuest channel waits
  | frozen | forked => cases event

theorem Tracked.recv (h : Tracked s) (pos : 0 < count) {m : Message} {rest : List Message}
    (channel : s.channel = m :: rest) (prompt : m.isExit = false)
    (fine : (s.recv count rest m).stage ≠ .failed) : Tracked (s.recv count rest m) := by
  cases m with
  | exited i => cases prompt
  | guestExited status => exact absurd rfl fine
  | frozen =>
    simp only [State.recv] at fine ⊢
    split at fine
    next awaiting =>
      simp only [if_pos awaiting]
      exact h.recvFrozen pos channel awaiting
    · exact absurd rfl fine
  | forked i =>
    simp only [State.recv] at fine ⊢
    split at fine
    next left awaiting => exact h.recvForked channel awaiting
    · exact absurd rfl fine

theorem Tracked.step (h : Tracked s) (pos : 0 < count) {e : Event} (prompt : Prompt s e)
    (step : s.step count e = some t) (fine : t.stage ≠ .failed) : Tracked t := by
  cases e with
  | poll =>
    obtain ⟨⟨polling, _⟩, ⟨⟩⟩ := guarded step
    exact h.poll polling
  | readEvent =>
    simp only [State.step] at step
    split at step
    next m rest woken channel =>
      cases step
      exact h.readEvent channel (by rw [woken]; rfl)
    · cases step
  | look =>
    simp only [State.step] at step
    split at step
    next woken =>
      cases step
      exact h.look pos woken
    · cases step
  | send => exact h.send step
  | recv =>
    simp only [State.step] at step
    split at step
    next m rest channel =>
      obtain ⟨_, ⟨⟩⟩ := guarded step
      have other : m.isExit = false := by simpa [Prompt, channel] using prompt
      exact h.recv pos channel other fine
    · cases step
  | announced => exact h.announced step
  | serveFreeze =>
    obtain ⟨⟨asked, serving⟩, ⟨⟩⟩ := guarded step
    exact h.serveFreeze asked serving
  | serveFork pid =>
    obtain ⟨⟨asked, frozen, free⟩, ⟨⟩⟩ := guarded step
    exact h.bear asked frozen free
  | report i => exact h.report step
  | guestExits status =>
    obtain ⟨serving, ⟨⟩⟩ := guarded step
    exact h.guestExits serving status
  | exit i status =>
    obtain ⟨running, ⟨⟩⟩ := guarded step
    exact h.exit running status
  | signalled =>
    cases step
    exact h.input true s.terminal s.inputEnded s.lines
  | line =>
    obtain ⟨_, ⟨⟩⟩ := (Option.ite_none_left_eq_some ..).mp step
    exact h.input s.signal s.terminal s.inputEnded (s.lines + 1)
  | endInput =>
    cases step
    exact h.input s.signal s.terminal true s.lines
  | idle =>
    cases step
    exact h

theorem failed_step {e : Event} (failed : s.stage = .failed) (step : s.step count e = some t) :
    t.stage = .failed := by
  cases e with
  | poll | readEvent | look => simp [State.step, failed] at step
  | send => simp [State.step, State.send, failed] at step
  | announced => simp [State.step, State.announced, failed] at step
  | recv =>
    simp only [State.step, failed, Stage.awaits] at step
    split at step <;> cases step
  | serveFreeze | serveFork | guestExits | exit =>
    obtain ⟨_, ⟨⟩⟩ := guarded step
    exact failed
  | report i =>
    simp only [State.step, State.report] at step
    split at step <;> cases step
    exact failed
  | line =>
    obtain ⟨_, ⟨⟩⟩ := (Option.ite_none_left_eq_some ..).mp step
    exact failed
  | signalled | endInput | idle =>
    cases step
    exact failed

end Steps

theorem tracked_of_reachableBy {s : State} {count : Nat} (pos : 0 < count)
    (h : (cloneSystem count).ReachableBy Prompt s) (fine : s.stage ≠ .failed) : Tracked s := by
  revert fine
  apply h.invariant
  · rintro _ rfl _
    exact tracked_initial
  · intro s e t _ inv prompt step fine
    have before : s.stage ≠ .failed := fun failed => fine (failed_step failed step)
    exact (inv before).step pos prompt step fine

end ServiceCache.Foreground
