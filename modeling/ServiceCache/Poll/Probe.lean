import ServiceCache.Poll.Steps

/-!
# What an answer of `direct_poll_oneoff` holds

A turn that has events of the guards looks at the sockets before it answers. The look can be
missed: the socket can no longer be named, the wait is not to be had, or the thread is interrupted
before the kernel is asked.
-/

namespace ServiceCache.PollOneoff

open Transition

section Call

variable {call : Call} {s t : State}

structure Guarded (l : List Reported) : Prop where
  nodup : (l.map Prod.fst).Nodup
  guards : ∀ r ∈ l, ∃ j, r.1 = .guard j

def State.Covered (call : Call) (s : State) (l : List Reported) : Prop :=
  ∀ i < call.direct.length, s.lapsed i = false → ∃ e, (Source.direct i, e) ∈ l

/-- An answer: one event for each socket that was ready all the time, no two for one
subscription, and every event of a guard. -/
def State.Right (call : Call) (s : State) : Outcome → Prop
  | .events l | .timeout l =>
    s.Covered call l ∧ (l.map Prod.fst).Nodup ∧ ∀ r ∈ s.produced, r ∈ l
  | .errno _ | .fallthrough _ | .error => s.produced = []

def State.Holds (call : Call) (s : State) : Prop :=
  match s.stage with
  | .sorting | .arming | .turning | .polling | .processing | .handling => s.produced = []
  | .resolving | .checking => s.events = s.produced ∧ Guarded s.events
  | .suspending | .entering | .comparingGate | .comparingWord | .waiting =>
    s.events = s.produced ∧ Guarded s.events ∧ s.probing = !s.events.isEmpty
  | .again =>
    s.produced = [] ∧ s.Covered call s.events ∧ (s.events.map Prod.fst).Nodup ∧
      ∀ r ∈ s.events, ∃ i, r.1 = .direct i
  | .answered o => s.Right call o

theorem State.Holds.lapse {level : Nat → Bits} {lapsed : Nat → Bool} (h : s.Holds call)
    (le : ∀ i, lapsed i = false → s.lapsed i = false) :
    { s with level, lapsed }.Holds call := by
  have covered {l : List Reported} (h : s.Covered call l) :
      { s with level, lapsed }.Covered call l := fun i lt ready => h i lt (le i ready)
  unfold State.Holds at h ⊢
  cases stage : s.stage with
  | again =>
    rw [stage] at h
    exact ⟨h.1, covered h.2.1, h.2.2⟩
  | answered o =>
    rw [stage] at h
    cases o with
    | events l | timeout l => exact ⟨covered h.1, h.2⟩
    | errno _ | fallthrough _ | error => exact h
  | _ =>
    rw [stage] at h
    exact h

structure Sound (call : Call) (s : State) : Prop where
  holds : s.Holds call
  lapsed : ∀ i, call.lapses s.level i = true → s.lapsed i = true

/-- The condition on a run. A guard's poll has one event at most; and a turn that has some can
name its sockets, is not interrupted before the kernel is asked, and gets its wait. -/
def Probes (s : State) : Step → Prop
  | .guards answers => ∀ l ∈ answers, l.length ≤ 1
  | .resolve gone => s.events ≠ [] → gone = false
  | .suspend possible => s.probing = true → possible = true
  | .enter available => s.probing = true → available = true
  | .compareGate => s.probing = true → s.gate = s.gateExpected
  | .compareWord => s.probing = true → s.word = s.captured
  | .kernel k => s.probing = true → k ≠ .failed
  | _ => True

instance (s : State) : DecidablePred (Probes s)
  | .guards answers => inferInstanceAs (Decidable (∀ l ∈ answers, l.length ≤ 1))
  | .resolve gone => inferInstanceAs (Decidable (s.events ≠ [] → gone = false))
  | .suspend possible => inferInstanceAs (Decidable (s.probing = true → possible = true))
  | .enter available => inferInstanceAs (Decidable (s.probing = true → available = true))
  | .compareGate => inferInstanceAs (Decidable (s.probing = true → s.gate = s.gateExpected))
  | .compareWord => inferInstanceAs (Decidable (s.probing = true → s.word = s.captured))
  | .kernel k => inferInstanceAs (Decidable (s.probing = true → k ≠ .failed))
  | .sort _ | .arm | .turn _ | .check | .process _ | .retire | .wake | .closeGate | .signal
  | .terminate | .fork | .level .. | .tick _ | .setRealtime _ => inferInstanceAs (Decidable True)

theorem guarded_guardEvents {answers : List (List Event)} (single : ∀ l ∈ answers, l.length ≤ 1) :
    Guarded (guardEvents answers) where
  nodup := by
    refine nodup_tagged (fun _ _ same => Source.guard.inj same) fun i l at_ => ?_
    exact single l (List.mem_of_getElem? at_)
  guards r mem := by
    obtain ⟨j, _, _, _, _, rfl⟩ := mem_tagged.mp mem
    exact ⟨j, rfl⟩

section Look

variable (nbytes : List Nat)

theorem directEvents_nodup : ((s.directEvents call nbytes).map Prod.fst).Nodup := by
  refine nodup_tagged (fun _ _ same => Source.direct.inj same) fun i sub _ => ?_
  generalize directSubEvent sub (s.revents i sub) (nbytes.getD i 0) = event
  cases event <;> simp

theorem directEvents_direct {r : Reported} (mem : r ∈ s.directEvents call nbytes) :
    ∃ i, r.1 = .direct i := by
  obtain ⟨i, _, _, _, _, rfl⟩ := mem_tagged.mp mem
  exact ⟨i, rfl⟩

theorem directEvents_covered (lapsed : ∀ i, call.lapses s.level i = true → s.lapsed i = true) :
    s.Covered call (s.directEvents call nbytes) := by
  intro i lt ready
  have sub : call.direct[i]? = some (call.direct.get ⟨i, lt⟩) := List.getElem?_eq_getElem lt
  have holds : call.lapses s.level i = false :=
    eq_false_of_ne_true fun lapses => by simp [lapsed i lapses] at ready
  rw [Call.lapses, sub, Option.any_some, Bool.not_eq_false'] at holds
  obtain ⟨event, is⟩ := Option.isSome_iff_exists.mp
    ((directSubEvent_isSome _ _ (nbytes.getD i 0)).trans holds)
  exact ⟨event, mem_tagged.mpr ⟨i, _, sub, event, by rw [State.revents, is]; exact .head _, rfl⟩⟩

theorem covered_of_quiet (lapsed : ∀ i, call.lapses s.level i = true → s.lapsed i = true)
    (quiet : s.anyReady call = false) (l : List Reported) : s.Covered call l := by
  intro i lt ready
  have sub : call.direct[i]? = some (call.direct.get ⟨i, lt⟩) := List.getElem?_eq_getElem lt
  have mem := List.mk_mem_zipIdx_iff_getElem?.mpr sub
  have none_ := List.any_eq_false.mp quiet _ mem
  have lapses : call.lapses s.level i = true := by
    rw [Call.lapses, sub, Option.any_some, Bool.not_eq_true']
    exact eq_false_of_ne_true none_
  simp [lapsed i lapses] at ready

end Look

theorem Guarded.append {l l' : List Reported} (h : Guarded l) (nodup : (l'.map Prod.fst).Nodup)
    (direct : ∀ r ∈ l', ∃ i, r.1 = .direct i) :
    ((l ++ l').map Prod.fst).Nodup ∧ ((l' ++ l).map Prod.fst).Nodup := by
  have apart : ∀ x ∈ l.map Prod.fst, ∀ y ∈ l'.map Prod.fst, x ≠ y := by
    intro x mem y mem' same
    obtain ⟨r, inL, rfl⟩ := List.mem_map.mp mem
    obtain ⟨r', inL', rfl⟩ := List.mem_map.mp mem'
    obtain ⟨j, guard⟩ := h.guards r inL
    obtain ⟨i, socket⟩ := direct r' inL'
    rw [guard, socket] at same
    cases same
  rw [List.map_append, List.map_append, List.nodup_append, List.nodup_append]
  exact ⟨⟨h.nodup, nodup, apart⟩, nodup, h.nodup, fun y mem x mem' same => apart x mem' y mem same.symm⟩

theorem clockEvents_nodup (clocks : List Clock) :
    ((directClockEvents clocks).map Prod.fst).Nodup :=
  nodup_tagged (fun _ _ same => Source.clock.inj same) fun _ _ _ => Nat.le_refl 1

theorem Sound.ended {e : Step} {r : HostPollFdResult} (h : Sound call s)
    (at_ : s.stage.waits = true) (ends : Ends call s e r) (probes : Probes s e) (epochSeen : Nat) :
    ({ s with epochSeen }.waited call r).Holds call := by
  have held : s.events = s.produced ∧ Guarded s.events ∧ s.probing = !s.events.isEmpty := by
    have holds := h.holds
    unfold State.Holds at holds
    cases stage : s.stage <;> simp only [stage] at holds at_ <;> first | exact holds | cases at_
  obtain ⟨same, guarded, probing⟩ := held
  unfold State.waited
  split
  next isProbe =>
    change s.probing = true at isProbe
    cases ends with
    | impossible => cases probes isProbe
    | unavailable => cases probes isProbe
    | gate moved => exact absurd (probes isProbe) moved
    | word moved => exact absurd (probes isProbe) moved
    | failed => exact absurd rfl (probes isProbe)
    | expired quiet past =>
      exact ⟨covered_of_quiet h.lapsed quiet s.events, guarded.nodup, fun r mem => same ▸ mem⟩
  next noProbe =>
    change ¬ s.probing = true at noProbe
    have none_ : s.produced = [] := by
      rw [← same]
      simpa [probing] using noProbe
    cases ends with
    | gate moved | word moved => exact none_
    | impossible | unavailable | failed =>
      dsimp only
      split
      · exact none_
      · exact none_
    | expired quiet past =>
      refine ⟨covered_of_quiet h.lapsed quiet _, clockEvents_nodup call.clocks, ?_⟩
      intro r mem
      change r ∈ s.produced at mem
      rw [none_] at mem
      cases mem

theorem Sound.step {e : Step} (h : Sound call s) (probes : Probes s e)
    (step : s.step call e = some t) : Sound call t := by
  have holds := h.holds
  unfold State.Holds at holds
  cases step_move step with
  | refuse _ _ at_ | sort _ at_ | overflow at_ | arm _ at_ _ | linkError at_ | turn at_ =>
    rw [at_] at holds
    exact ⟨holds, h.lapsed⟩
  | guards answers at_ =>
    rw [at_] at holds
    change s.produced = [] at holds
    refine ⟨?_, h.lapsed⟩
    change guardEvents answers = s.produced ++ guardEvents answers ∧ Guarded _
    rw [holds]
    exact ⟨rfl, guarded_guardEvents probes⟩
  | gone at_ =>
    rw [at_] at holds
    have none_ : s.events = [] := by
      by_contra some_
      cases probes some_
    refine ⟨?_, h.lapsed⟩
    change s.Right call (directPollAnswer s.events)
    rw [directPollAnswer, if_pos none_]
    exact holds.1.symm.trans none_
  | resolve at_ =>
    rw [at_] at holds
    exact ⟨holds, h.lapsed⟩
  | signalled at_ none_ =>
    rw [at_] at holds
    exact ⟨holds.1 ▸ none_, h.lapsed⟩
  | check at_ =>
    rw [at_] at holds
    exact ⟨⟨holds.1, holds.2, rfl⟩, h.lapsed⟩
  | processed p o signals at_ is =>
    have none_ : s.produced = [] := by
      obtain at_ | at_ := at_ <;> (rw [at_] at holds; exact holds)
    refine ⟨?_, h.lapsed⟩
    obtain rfl | ⟨e, rfl⟩ | ⟨r, rfl⟩ := is <;> exact none_
  | round p signals at_ =>
    refine ⟨?_, h.lapsed⟩
    obtain at_ | at_ := at_ <;> (rw [at_] at holds; exact holds)
  | suspend at_ | enter at_ | compareGate at_ | compareWord at_ | goesOn _ at_ =>
    rw [at_] at holds
    exact ⟨holds, h.lapsed⟩
  | retire at_ =>
    refine ⟨?_, h.lapsed⟩
    cases stage : s.stage <;> simp only [stage] at holds at_ <;> first | exact holds | cases at_
  | ended e r epochSeen at_ ends =>
    refine ⟨h.ended at_ ends probes epochSeen, ?_⟩
    rw [waited_level, waited_lapsed]
    exact h.lapsed
  | probed nbytes at_ probing =>
    rw [at_] at holds
    obtain ⟨same, guarded, -⟩ := holds
    refine ⟨⟨?_, (guarded.append (directEvents_nodup nbytes)
      fun r => directEvents_direct nbytes).1, ?_⟩, h.lapsed⟩
    · intro i lt ready
      obtain ⟨event, mem⟩ := directEvents_covered nbytes h.lapsed i lt ready
      exact ⟨event, List.mem_append_right _ mem⟩
    · exact fun r mem => List.mem_append_left _ (same ▸ mem)
  | ready nbytes at_ probing =>
    rw [at_] at holds
    obtain ⟨same, guarded, isProbe⟩ := holds
    have none_ : s.events = [] := by simpa [isProbe] using probing
    refine ⟨?_, h.lapsed⟩
    change s.produced = [] ∧ _
    rw [none_, List.nil_append]
    exact ⟨same ▸ none_, directEvents_covered nbytes h.lapsed, directEvents_nodup nbytes,
      fun r => directEvents_direct nbytes⟩
  | nothing answers at_ none_ =>
    rw [at_] at holds
    refine ⟨?_, h.lapsed⟩
    change s.produced ++ guardEvents answers = []
    rw [holds.1, (List.append_eq_nil_iff.mp none_).2]
    rfl
  | again answers at_ =>
    rw [at_] at holds
    obtain ⟨none_, covered, nodup, direct⟩ := holds
    have guarded := guarded_guardEvents probes
    refine ⟨⟨?_, (guarded.append nodup direct).2, ?_⟩, h.lapsed⟩
    · intro i lt ready
      obtain ⟨event, mem⟩ := covered i lt ready
      exact ⟨event, List.mem_append_left _ mem⟩
    · intro r mem
      change r ∈ s.produced ++ guardEvents answers at mem
      rw [none_] at mem
      exact List.mem_append_right _ mem
  | others e word gate signals exit epoch => exact ⟨h.holds, h.lapsed⟩
  | tick n => exact ⟨h.holds, h.lapsed⟩
  | setRealtime r allowed => exact ⟨h.holds, h.lapsed⟩
  | level i bits =>
    refine ⟨h.holds.lapse fun j ready => ?_, fun j lapses => ?_⟩
    · exact (Bool.or_eq_false_iff.mp ready).1
    · change call.lapses (Function.update s.level i bits) j = true at lapses
      change (s.lapsed j || j == i && _) = true
      by_cases same : j = i
      · subst same
        rw [Call.lapses, Function.update_self] at lapses
        rw [lapses, beq_self_eq_true, Bool.true_and, Bool.or_true]
      · rw [Call.lapses, Function.update_of_ne same] at lapses
        rw [h.lapsed j lapses, Bool.true_or]

theorem sound_initial (initial : (directPoll call).Initial s) : Sound call s := by
  obtain ⟨word, gate, level, signals, exit, epoch, rfl⟩ := initial
  exact ⟨rfl, fun _ lapses => lapses⟩

end Call

/-- Every answer holds an event for each socket that was ready all the time and all the events of
the guards, and none is for a subscription that has one. -/
theorem ready_socket_not_hidden {call : Call} {s : State} {o : Outcome}
    (reach : (directPoll call).ReachableBy Probes s) (answered : s.stage = .answered o) :
    s.Right call o := by
  have sound : Sound call s := by
    apply reach.invariant
    · exact fun s => sound_initial
    · intro s e t _ sound probes step
      exact sound.step probes step
  have holds := sound.holds
  rwa [State.Holds, answered] at holds

def socketAndPipe : Call where
  direct := [⟨false, 11⟩]
  guards := 1
  clocks := []
  start := ⟨0, 0⟩
  setBack := false

def readable : State := .start socketAndPipe 0 0 (fun _ => { read := true }) false false 0

def pipeTurn : List Step :=
  [.sort false, .arm, .turn false, .guards [[{ userdata := 12, type_ := .fdRead }]]]

theorem ready_socket_not_hidden_probed : ∃ s, (directPoll socketAndPipe).ReachableBy Probes s ∧
    s.stage = .answered (.events [(.guard 0, { userdata := 12, type_ := .fdRead }),
      (.direct 0, { userdata := 11, type_ := .fdRead, nbytes := 1 })]) ∧
    s.Right socketAndPipe (.events [(.guard 0, { userdata := 12, type_ := .fdRead }),
      (.direct 0, { userdata := 11, type_ := .fdRead, nbytes := 1 })]) := by
  obtain ⟨s, reach, answered⟩ : ∃ s, (directPoll socketAndPipe).ReachableBy Probes s ∧
      s.stage = .answered (.events [(.guard 0, { userdata := 12, type_ := .fdRead }),
        (.direct 0, { userdata := 11, type_ := .fdRead, nbytes := 1 })]) :=
    System.exists_reachableBy_of_runBy (s := readable)
      (l := pipeTurn ++ [.resolve false, .check, .suspend true, .enter true, .compareGate,
        .compareWord, .kernel (.ready [1])])
      (.init ⟨_, _, _, _, _, _, rfl⟩) (by decide +kernel)
  exact ⟨s, reach, answered, ready_socket_not_hidden reach answered⟩

/-- The pipe's waker fires again behind the capture: the probe is interrupted before it asks the
kernel, and the readable socket is not in the answer. -/
theorem interrupted_probe_hides_socket : ¬ ∀ call s o, (directPoll call).Reachable s →
    s.stage = .answered o → s.Right call o := by
  intro claim
  obtain ⟨s, reach, answered, lapsed⟩ : ∃ s, (directPoll socketAndPipe).Reachable s ∧
      s.stage = .answered (.events [(.guard 0, { userdata := 12, type_ := .fdRead })]) ∧
      s.lapsed 0 = false :=
    System.exists_reachable_of_run (s := readable)
      (l := pipeTurn ++ [.wake, .resolve false, .check, .suspend true, .enter true, .compareGate,
        .compareWord])
      (.init ⟨_, _, _, _, _, _, rfl⟩) (by decide +kernel)
  obtain ⟨event, mem⟩ := (claim socketAndPipe s _ reach answered).1 0 (by decide) lapsed
  simp at mem

end ServiceCache.PollOneoff
