import ServiceCache.Poll.Steps

/-!
# When a clock event is reported

A clock-only call takes an absolute time to be on the monotonic clock, whichever clock the
subscription names. `direct_poll_oneoff` waits for the first of its clocks and then reports all.
-/

namespace ServiceCache.PollOneoff

open Transition

def Clock.WentOff (c : Clock) (start answer : Readings) : Prop :=
  if c.absolute then c.timeout ≤ answer.of c.id
  else start.monotonic + c.timeout ≤ answer.monotonic

structure Later (setBack : Bool) (start answer : Readings) : Prop where
  monotonic : start.monotonic ≤ answer.monotonic
  realtime : setBack = false →
    start.realtime + answer.monotonic ≤ answer.realtime + start.monotonic

theorem Clock.wentOff_of_remaining {c : Clock} {setBack : Bool} {start answer : Readings}
    (later : Later setBack start answer)
    (pace : c.absolute = true → c.id = .realtime → setBack = false)
    (past : start.monotonic + c.remaining start ≤ answer.monotonic) : c.WentOff start answer := by
  unfold Clock.WentOff
  unfold Clock.remaining at past
  split
  next absolute =>
    rw [if_pos absolute] at past
    cases id : c.id with
    | monotonic =>
      rw [id] at past
      change c.timeout ≤ answer.monotonic
      change _ + (c.timeout - start.monotonic) ≤ _ at past
      omega
    | realtime =>
      have kept := later.realtime (pace absolute id)
      rw [id] at past
      change c.timeout ≤ answer.realtime
      change _ + (c.timeout - start.realtime) ≤ _ at past
      omega
  next relative => rwa [if_neg relative] at past

/-! ## The clock-only call -/

def Clock.AloneRight (c : Clock) (setBack : Bool) (start : Readings) : Prop :=
  ∀ monotonic now deadline answer, start.monotonic ≤ monotonic → monotonic ≤ now →
    clockOnlyDeadline c monotonic now = some deadline → deadline ≤ answer.monotonic →
    Later setBack start answer → c.WentOff start answer

/-- No absolute time on the realtime clock, unless that clock is ahead and is not set back, or
the time is past on the monotonic clock already. -/
def Clock.OwnClock (c : Clock) (setBack : Bool) (start : Readings) : Prop :=
  c.absolute = true → c.id = .realtime →
    c.timeout ≤ start.monotonic ∨ setBack = false ∧ start.monotonic ≤ start.realtime

theorem clockOnlyDeadline_eq_some {c : Clock} {monotonic now deadline : Nat}
    (h : clockOnlyDeadline c monotonic now = some deadline) :
    c.sleep monotonic ≠ 0 ∧ deadline = now + c.sleep monotonic := by
  obtain ⟨⟨-, sleeps⟩, h⟩ := guarded h
  obtain ⟨-, ⟨⟩⟩ := guarded h
  exact ⟨sleeps, rfl⟩

theorem Clock.aloneRight_of_ownClock {c : Clock} {setBack : Bool} {start : Readings}
    (own : c.OwnClock setBack start) : c.AloneRight setBack start := by
  intro monotonic now deadline answer read later armed past kept
  obtain ⟨sleeps, rfl⟩ := clockOnlyDeadline_eq_some armed
  unfold Clock.sleep at sleeps past
  unfold Clock.WentOff
  split
  next absolute =>
    rw [if_pos absolute] at sleeps past
    cases id : c.id with
    | monotonic =>
      change c.timeout ≤ answer.monotonic
      omega
    | realtime =>
      change c.timeout ≤ answer.realtime
      obtain reached | ⟨steady, ahead⟩ := own absolute id
      · omega
      · have pace := kept.realtime steady
        omega
  next relative =>
    rw [if_neg relative] at past
    omega

theorem Clock.ownClock_of_aloneRight {c : Clock} {setBack : Bool} {start : Readings}
    (above : 1 < c.timeout) (right : c.AloneRight setBack start) : c.OwnClock setBack start := by
  intro absolute id
  by_contra wrong
  obtain ⟨ahead, behind⟩ := not_or.mp wrong
  have sleep : c.sleep start.monotonic = c.timeout - start.monotonic := if_pos absolute
  have fits : start.monotonic + c.sleep start.monotonic ≤ instantMax := by
    have small := c.timeout_lt
    rw [instantMax]
    omega
  have armed : clockOnlyDeadline c start.monotonic start.monotonic =
      some (start.monotonic + c.sleep start.monotonic) := by
    rw [clockOnlyDeadline, if_pos ⟨above, by omega⟩, checkedAdd, if_pos fits]
  -- the clocks at the deadline, with the realtime clock set back if that may be
  have off := right start.monotonic start.monotonic _
    ⟨c.timeout, if setBack then 0 else start.realtime + (c.timeout - start.monotonic)⟩
    (Nat.le_refl _) (Nat.le_refl _) armed (by dsimp only; omega)
    ⟨by dsimp only; omega, fun steady => by
      simp only [steady, Bool.false_eq_true, if_false]
      omega⟩
  rw [Clock.WentOff, if_pos absolute, id] at off
  change c.timeout ≤ if setBack then 0 else start.realtime + (c.timeout - start.monotonic) at off
  cases setBack with
  | true =>
    change c.timeout ≤ 0 at off
    omega
  | false =>
    change c.timeout ≤ start.realtime + (c.timeout - start.monotonic) at off
    have not_behind : ¬ start.monotonic ≤ start.realtime := fun le => behind ⟨rfl, le⟩
    omega

/-! ## `direct_poll_oneoff` -/

def Call.TimeoutRight (call : Call) : Prop :=
  ∀ s l, (directPoll call).Reachable s → s.stage = .answered (.timeout l) →
    ∀ k c, call.clocks[k]? = some c → (Source.clock k, c.event) ∈ l →
      c.WentOff call.start s.at_

/-- The clocks go off together, and no absolute time is on a realtime clock that is set back. -/
def Call.Together (call : Call) : Prop :=
  ∀ c ∈ call.clocks, (c.absolute = true → c.id = .realtime → call.setBack = false) ∧
    ∀ c' ∈ call.clocks, c.remaining call.start ≤ c'.remaining call.start

section Runs

variable {call : Call} {s t : State}

def Call.Passed (call : Call) (r : Readings) : Prop :=
  ∃ sleep, timeToSleep call.clocks call.start = some sleep ∧
    call.start.monotonic + sleep ≤ r.monotonic ∧ Later call.setBack call.start r

structure Timed (call : Call) (s : State) : Prop where
  later : Later call.setBack call.start ⟨s.now, s.realtime⟩
  deadline : ∀ d, s.deadline = some d → ∃ sleep,
    timeToSleep call.clocks call.start = some sleep ∧ call.start.monotonic + sleep ≤ d
  turn : s.stage.waits = true → s.probing = false → s.turnDeadline = s.deadline
  answer : ∀ l, s.stage = .answered (.timeout l) → call.Passed s.at_

theorem deadline_of_arm {now start deadline : Nat} {sleep : Option Nat} (le : start ≤ now)
    (armed : directPollDeadline now sleep = some (some deadline)) :
    ∃ t, sleep = some t ∧ start + t ≤ deadline := by
  match sleep, armed with
  | some 0, armed =>
    cases armed
    exact ⟨0, rfl, le⟩
  | some (t + 1), armed =>
    obtain ⟨d, added, ⟨⟩⟩ := Option.map_eq_some_iff.mp armed
    obtain ⟨-, ⟨⟩⟩ := guarded added
    exact ⟨t + 1, rfl, by omega⟩

theorem Timed.stays (h : Timed call s) (later : Later call.setBack call.start ⟨t.now, t.realtime⟩)
    (deadline : t.deadline = s.deadline)
    (turn : t.stage.waits = true → t.probing = false → t.turnDeadline = t.deadline)
    (answer : ∀ l, t.stage = .answered (.timeout l) → call.Passed t.at_) : Timed call t :=
  ⟨later, deadline ▸ h.deadline, turn, answer⟩

theorem Timed.answered (h : Timed call s) {o : Outcome} (other : ∀ l, o ≠ .timeout l) :
    Timed call (s.answer o) :=
  ⟨h.later, h.deadline, fun waits => by (cases waits),
    fun l is => absurd (Stage.answered.inj is) (other l)⟩

theorem Timed.ended {e : Step} {r : HostPollFdResult} (h : Timed call s)
    (at_ : s.stage.waits = true) (ends : Ends call s e r) (epochSeen : Nat) :
    Timed call ({ s with epochSeen }.waited call r) := by
  have h' : Timed call { s with epochSeen } := ⟨h.later, h.deadline, h.turn, h.answer⟩
  unfold State.waited
  split
  · exact h'.answered (by simp)
  next noProbe =>
    cases ends with
    | gate moved | word moved =>
      exact h'.stays h.later rfl (fun waits => by (cases waits)) fun l is => by (cases is)
    | impossible | unavailable | failed =>
      dsimp only
      split
      · exact h'.stays h.later rfl (fun waits => by (cases waits)) fun l is => by (cases is)
      · exact h'.answered (by simp)
    | expired quiet past =>
      refine ⟨h.later, h.deadline, fun waits => by (cases waits), fun l is => ?_⟩
      have same := h.turn at_ (by simpa using noProbe)
      obtain ⟨d, isSome, passed⟩ := (Option.any_eq_true _ _).mp past
      obtain ⟨sleep, slept, le⟩ := h.deadline d (same ▸ isSome)
      have now := of_decide_eq_true passed
      exact ⟨sleep, slept, Nat.le_trans le now, h.later⟩

theorem Timed.step {e : Step} (h : Timed call s) (step : s.step call e = some t) :
    Timed call t := by
  cases step_move step with
  | refuse reason _ at_ => exact h.answered (by simp)
  | overflow at_ => exact h.answered (by simp)
  | linkError at_ => exact h.answered (by simp)
  | gone at_ =>
    refine h.answered fun l is => ?_
    unfold directPollAnswer at is
    split at is <;> cases is
  | processed p o signals at_ is =>
    have other : ∀ l, o ≠ .timeout l := by
      obtain rfl | ⟨e, rfl⟩ | ⟨r, rfl⟩ := is <;> simp
    have h' := h.answered other
    exact ⟨h'.later, h'.deadline, h'.turn, h'.answer⟩
  | arm deadline at_ armed =>
    refine ⟨h.later, fun d is => ?_, fun waits => by (cases waits), fun l is => by (cases is)⟩
    change deadline = some d at is
    rw [is] at armed
    exact deadline_of_arm h.later.monotonic armed
  | check at_ =>
    refine ⟨h.later, h.deadline, fun _ quiet => ?_, fun l is => by (cases is)⟩
    change (!s.events.isEmpty) = false at quiet
    change (if !s.events.isEmpty then _ else _) = s.deadline
    rw [quiet]
    rfl
  | suspend at_ | enter at_ | compareGate at_ | compareWord at_ | goesOn _ at_ =>
    exact ⟨h.later, h.deadline, fun _ => h.turn (by rw [at_]; rfl), fun l is => by (cases is)⟩
  | retire at_ => exact ⟨h.later, h.deadline, fun _ => h.turn at_, fun l is => by (cases is)⟩
  | ended e r epochSeen at_ ends => exact h.ended at_ ends epochSeen
  | sort _ at_ | turn at_ | guards _ at_ | resolve at_ | signalled at_ _ | round _ _ at_ =>
    exact ⟨h.later, h.deadline, fun waits => by (cases waits), fun l is => by (cases is)⟩
  | probed _ at_ _ | ready _ at_ _ | nothing _ at_ _ | again _ at_ =>
    exact ⟨h.later, h.deadline, fun waits => by (cases waits), fun l is => by (cases is)⟩
  | others _ _ _ _ _ _ => exact ⟨h.later, h.deadline, h.turn, h.answer⟩
  | level _ _ => exact ⟨h.later, h.deadline, h.turn, h.answer⟩
  | tick n =>
    refine ⟨⟨Nat.le_add_right_of_le h.later.monotonic, fun steady => ?_⟩, h.deadline, h.turn,
      h.answer⟩
    have kept := h.later.realtime steady
    dsimp only at kept ⊢
    omega
  | setRealtime r allowed =>
    refine ⟨⟨h.later.monotonic, fun steady => ?_⟩, h.deadline, h.turn, h.answer⟩
    have kept := h.later.realtime steady
    rw [steady] at allowed
    dsimp only at kept ⊢
    have forward : s.realtime ≤ r := by simpa using allowed
    omega

theorem timed_reachable (reach : (directPoll call).Reachable s) : Timed call s := by
  apply reach.invariant
  · rintro _ ⟨word, gate, level, signals, exit, epoch, rfl⟩
    refine ⟨⟨Nat.le_refl _, fun _ => Nat.le_refl _⟩, fun d is => by (cases is),
      fun waits => by (cases waits), fun l is => by (cases is)⟩
  · intro s e t _ timed _ step
    exact timed.step step

theorem Call.timeoutRight_of_together (together : call.Together) : call.TimeoutRight := by
  intro s l reach answered k c at_ _
  have mem := List.mem_of_getElem? at_
  obtain ⟨sleep, slept, past, later⟩ := (timed_reachable reach).answer l answered
  obtain ⟨pace, first⟩ := together c mem
  refine c.wentOff_of_remaining later pace ?_
  obtain ⟨c', mem', is⟩ := List.mem_map.mp (List.min?_mem slept)
  have le := first c' mem'
  omega

def Call.Served (call : Call) : Prop := call.direct ≠ [] ∧ call.direct.length ≤ directPollCap

def Call.asleep (call : Call) (deadline : Nat) : State :=
  { State.start call 0 0 (fun _ => {}) false false 0 with
    stage := .waiting, deadline := some deadline, turnDeadline := some deadline }

theorem guardEvents_replicate (n : Nat) : guardEvents (List.replicate n []) = [] := by
  refine List.eq_nil_iff_forall_not_mem.mpr fun r mem => ?_
  obtain ⟨i, l, at_, e, inside, -⟩ := mem_tagged.mp mem
  rw [List.eq_of_mem_replicate (List.mem_of_getElem? at_)] at inside
  cases inside

theorem Call.asleep_reachable (served : call.Served) {deadline : Nat}
    (armed : directPollDeadline call.start.monotonic (timeToSleep call.clocks call.start) =
      some (some deadline)) : (directPoll call).Reachable (call.asleep deadline) := by
  let start := State.start call 0 0 (fun _ => {}) false false 0
  have sorted : (directPoll call).next start (.sort false) = some { start with stage := .arming } := by
    change some (if directPollCap < call.direct.length then _ else _) = _
    rw [if_neg (Nat.not_lt.mpr served.2), if_neg (by simp [served.1])]
  have turning : (directPoll call).next { start with stage := .arming } .arm =
      some { start with stage := .turning, deadline := some deadline } := by
    dsimp only [directPoll, State.step]
    rw [show start.now = call.start.monotonic from rfl, armed]
  let polling := { start with stage := .polling, deadline := some deadline }
  have polled : (directPoll call).next polling (.guards (List.replicate call.guards [])) =
      some { polling with stage := .resolving } := by
    change (if _ then some _ else none) = _
    rw [if_pos List.length_replicate, guardEvents_replicate]
    rfl
  have turned : (directPoll call).next
      { start with stage := .turning, deadline := some deadline } (.turn false) = some polling := rfl
  have waits : (directPoll call).run { polling with stage := .resolving }
      [.resolve false, .check, .suspend true, .enter true, .compareGate, .compareWord] =
      some (call.asleep deadline) := rfl
  have reach : (directPoll call).Reachable start := .init ⟨0, 0, _, false, false, 0, rfl⟩
  have reach : (directPoll call).Reachable polling :=
    .step (.step (.step reach trivial sorted) trivial turning) trivial turned
  exact System.reachable_of_run (.step reach trivial polled) waits

theorem Call.timeout_reachable (served : call.Served) {sleep : Nat}
    (slept : timeToSleep call.clocks call.start = some sleep)
    (fits : call.start.monotonic + sleep ≤ instantMax) :
    ∃ s, (directPoll call).Reachable s ∧
      s.stage = .answered (.timeout (directClockEvents call.clocks)) ∧
      s.at_ = ⟨call.start.monotonic + sleep,
        if call.setBack then 0 else call.start.realtime + sleep⟩ := by
  have armed : directPollDeadline call.start.monotonic (timeToSleep call.clocks call.start) =
      some (some (call.start.monotonic + sleep)) := by
    rw [slept]
    cases sleep with
    | zero => rfl
    | succ n => simp [directPollDeadline, checkedAdd, fits]
  have quiet (s : State) (at_ : s.level = fun _ => {}) : s.anyReady call = false := by
    refine List.any_eq_false.mpr fun ⟨sub, i⟩ _ => ?_
    simp [State.revents, at_, Bits.reported, Bits.any]
  let asleep := call.asleep (call.start.monotonic + sleep)
  let realtime := if call.setBack then 0 else call.start.realtime + sleep
  let late := { asleep with
    now := call.start.monotonic + sleep, realtime := call.start.realtime + sleep }
  have set_ : (directPoll call).next late (.setRealtime realtime) = some { late with realtime } := by
    refine if_pos ?_
    cases back : call.setBack with
    | true => exact .inl rfl
    | false =>
      refine .inr ?_
      simp [late, realtime, back]
  have expired : (directPoll call).next { late with realtime } (.kernel .expired) =
      some ({ late with realtime }.answer (.timeout (directClockEvents call.clocks))) :=
    if_pos ⟨quiet _ rfl, decide_eq_true (Nat.le_refl _)⟩
  have reach : (directPoll call).Reachable asleep := Call.asleep_reachable served armed
  have reach : (directPoll call).Reachable late :=
    .step reach trivial (show (directPoll call).next asleep (.tick sleep) = some late from rfl)
  exact ⟨_, .step (.step reach trivial set_) trivial expired, rfl, rfl⟩

theorem Call.together_of_timeoutRight (served : call.Served)
    (above : ∀ c ∈ call.clocks, 1 < c.timeout) (right : call.TimeoutRight) : call.Together := by
  intro c mem
  obtain ⟨sleep, slept⟩ : ∃ sleep, timeToSleep call.clocks call.start = some sleep :=
    Option.ne_none_iff_exists'.mp fun none_ => by
      rw [timeToSleep, List.min?_eq_none_iff, List.map_eq_nil_iff] at none_
      simp [none_] at mem
  have shortest : ∀ c ∈ call.clocks, sleep ≤ c.remaining call.start := fun c mem =>
    (List.min?_eq_some_iff.mp slept).2 _ (List.mem_map_of_mem mem)
  have fits : call.start.monotonic + sleep ≤ instantMax := by
    have le : c.remaining call.start ≤ c.timeout := by
      unfold Clock.remaining
      split <;> omega
    have short := shortest c mem
    have small := c.timeout_lt
    have start := call.start_lt
    rw [instantMax]
    omega
  obtain ⟨s, reach, answered, at_⟩ := Call.timeout_reachable served slept fits
  obtain ⟨k, isClock⟩ := List.mem_iff_getElem?.mp mem
  have reported : (Source.clock k, c.event) ∈ directClockEvents call.clocks :=
    mem_tagged.mpr ⟨k, c, isClock, c.event, .head _, rfl⟩
  have off := right s _ reach answered k c isClock reported
  rw [Clock.WentOff, at_] at off
  have pace : c.absolute = true → c.id = .realtime → call.setBack = false := by
    intro absolute id
    by_contra back
    rw [if_pos absolute, id, eq_true_of_ne_false back] at off
    change c.timeout ≤ 0 at off
    have positive := above c mem
    omega
  refine ⟨pace, fun c' mem' => Nat.le_trans ?_ (shortest c' mem')⟩
  unfold Clock.remaining
  split
  next absolute =>
    rw [if_pos absolute] at off
    cases id : c.id with
    | monotonic =>
      rw [id] at off
      change c.timeout ≤ call.start.monotonic + sleep at off
      change c.timeout - call.start.monotonic ≤ sleep
      omega
    | realtime =>
      rw [id, pace absolute id] at off
      change c.timeout ≤ call.start.realtime + sleep at off
      change c.timeout - call.start.realtime ≤ sleep
      omega
  next relative =>
    rw [if_neg relative] at off
    dsimp only at off
    omega

end Runs

/-- A clock event means that its clock went off, just if an absolute time of a clock-only call is
not on a realtime clock behind the monotonic one, and if the clocks of a call with sockets go off
together; and, either way, if no absolute time is on a realtime clock that is set back. -/
theorem clock_events_went_off_iff (c : Clock) (setBack : Bool) (start : Readings) (call : Call)
    (above : 1 < c.timeout) (served : call.Served) (allAbove : ∀ c ∈ call.clocks, 1 < c.timeout) :
    (c.AloneRight setBack start ↔ c.OwnClock setBack start) ∧
      (call.TimeoutRight ↔ call.Together) := by
  constructor
  · exact ⟨c.ownClock_of_aloneRight above, c.aloneRight_of_ownClock⟩
  · exact ⟨call.together_of_timeoutRight served allAbove, call.timeoutRight_of_together⟩

def twoClocks (first second : Clock) : Call where
  direct := [⟨false, 11⟩]
  guards := 0
  clocks := [first, second]
  start := ⟨100, 0⟩
  setBack := false

/-- A relative clock, and an absolute one for the same time. -/
theorem clock_events_went_off_together :
    (⟨.monotonic, 50, false, 21, by decide⟩ : Clock).AloneRight true ⟨100, 0⟩ ∧
      (twoClocks ⟨.realtime, 50, false, 21, by decide⟩
        ⟨.monotonic, 150, true, 22, by decide⟩).TimeoutRight := by
  obtain ⟨alone, timeout⟩ := clock_events_went_off_iff ⟨.monotonic, 50, false, 21, by decide⟩ true
    ⟨100, 0⟩ (twoClocks ⟨.realtime, 50, false, 21, by decide⟩ ⟨.monotonic, 150, true, 22, by decide⟩)
    (by decide) ⟨by simp [twoClocks], by decide⟩ (by simp [twoClocks])
  refine ⟨alone.mpr fun absolute => ?_, timeout.mpr ?_⟩
  · cases absolute
  · simp [Call.Together, twoClocks, Clock.remaining, Readings.of]

def shortAndLong : Call :=
  twoClocks ⟨.monotonic, 2, false, 21, by decide⟩ ⟨.monotonic, 5, false, 22, by decide⟩

/-- An absolute time on the realtime clock is waited for on the monotonic one, which is ahead; and
the second of two clocks is reported when the first goes off. -/
theorem clocks_reported_early :
    ¬ (⟨.realtime, 101, true, 21, by decide⟩ : Clock).AloneRight false ⟨100, 0⟩ ∧
      ¬ shortAndLong.TimeoutRight := by
  constructor
  · intro right
    have off := right 100 100 101 ⟨101, 1⟩ (by decide) (by decide) (by decide) (by decide)
      ⟨by decide, fun _ => by decide⟩
    revert off
    simp [Clock.WentOff, Readings.of]
  · intro right
    obtain ⟨s, reach, stage, at_⟩ : ∃ s, (directPoll shortAndLong).Reachable s ∧
        s.stage = .answered (.timeout [(.clock 0, { userdata := 21, type_ := .clock }),
          (.clock 1, { userdata := 22, type_ := .clock })]) ∧ s.at_ = ⟨102, 2⟩ :=
      System.exists_reachable_of_run
        (s := .start shortAndLong 0 0 (fun _ => {}) false false 0)
        (l := [.sort false, .arm, .turn false, .guards [], .resolve false, .check, .suspend true,
          .enter true, .compareGate, .compareWord, .tick 2, .kernel .expired])
        (.init ⟨_, _, _, _, _, _, rfl⟩) (by decide +kernel)
    have off := right s _ reach stage 1 _ rfl (by simp [Clock.event])
    rw [at_] at off
    revert off
    simp [Clock.WentOff, shortAndLong, twoClocks]

end ServiceCache.PollOneoff
