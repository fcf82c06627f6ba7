import ServiceCache.Counting
import ServiceCache.Fairness
import ServiceCache.Foreground.Tracked

/-!
# The foreground command ends with its clones
-/

namespace ServiceCache.Foreground

open Transition (System guarded)
open Counting

def Stage.quiet : Stage → Bool
  | .polling | .returned _ => true
  | .woken _ signal _ => !signal
  | _ => false

structure State.Quiet (s : State) : Prop where
  ended : ∀ i < s.born, (s.clone i).fate.ended = true
  signal : s.signal = false
  lines : s.lines = 0
  stage : s.stage.quiet = true

def Stage.expects : Stage → Bool
  | .woken true _ _ => true
  | _ => false

def State.Fed (s : State) : Prop := s.stage.expects = true → s.channel ≠ []

section Fed

variable {s t : State} {count : Nat} {e : Event}

theorem Stage.forkNext_expects (left : Nat) : (Stage.forkNext left).expects = false := by
  unfold Stage.forkNext
  split <;> rfl

theorem State.turn_expects (s : State) (count : Nat) (fork : Bool) :
    (s.turn count fork).expects = false := by
  unfold State.turn
  split
  · split
    · exact Stage.forkNext_expects count
    · rfl
  · rfl

theorem State.readEvent_expects (s : State) (signal stdin : Bool) (rest : List Message)
    (m : Message) : (s.readEvent signal stdin rest m).stage.expects = false := by
  cases m with
  | exited i =>
    show (if s.retain i = [] then _ else Stage.woken false signal stdin).expects = false
    split <;> rfl
  | guestExited | frozen | forked => rfl

theorem State.recv_expects (awaits : s.stage.awaits = true) (rest : List Message) (m : Message) :
    (s.recv count rest m).stage.expects = false := by
  cases m with
  | exited i =>
    show s.stage.expects = false
    revert awaits
    cases s.stage <;> simp [Stage.awaits, Stage.expects]
  | guestExited => rfl
  | frozen =>
    simp only [State.recv]
    split
    · exact Stage.forkNext_expects count
    · rfl
  | forked i =>
    simp only [State.recv]
    split <;> rfl

theorem State.Fed.of_expects (h : s.stage.expects = false) : s.Fed := by
  intro expects
  rw [h] at expects
  cases expects

theorem State.Fed.step (h : s.Fed) (step : s.step count e = some t) : t.Fed := by
  cases e with
  | poll =>
    obtain ⟨_, ⟨⟩⟩ := guarded step
    intro expects empty
    change (Stage.woken (!s.channel.isEmpty) s.signal s.stdinReady).expects = true at expects
    rw [show s.channel = [] from empty] at expects
    cases expects
  | readEvent =>
    simp only [State.step] at step
    split at step <;> cases step
    exact .of_expects (s.readEvent_expects ..)
  | look =>
    simp only [State.step] at step
    split at step <;> cases step
    exact .of_expects (s.turn_expects ..)
  | send =>
    simp only [State.step, State.send] at step
    split at step <;> cases step <;> exact .of_expects rfl
  | recv =>
    simp only [State.step] at step
    split at step
    · obtain ⟨awaits, ⟨⟩⟩ := guarded step
      exact .of_expects (State.recv_expects awaits ..)
    · cases step
  | announced =>
    simp only [State.step, State.announced] at step
    split at step <;> cases step
    exact .of_expects (Stage.forkNext_expects _)
  | serveFreeze | guestExits | serveFork =>
    obtain ⟨_, ⟨⟩⟩ := guarded step
    simp [State.Fed]
  | report i =>
    simp only [State.step, State.report] at step
    split at step <;> cases step
    simp [State.Fed]
  | exit =>
    obtain ⟨_, ⟨⟩⟩ := guarded step
    exact h
  | line =>
    obtain ⟨_, ⟨⟩⟩ := (Option.ite_none_left_eq_some ..).mp step
    exact h
  | signalled | endInput | idle =>
    cases step
    exact h

theorem fed_reachable (h : (cloneSystem count).Reachable s) : s.Fed := by
  apply h.invariant
  · rintro _ rfl
    exact .of_expects rfl
  · intro s e t _ fed _ step
    exact fed.step step

end Fed

/-! ## What is left to do -/

def Fate.isExited : Fate → Bool
  | .exited _ => true
  | .unborn | .running | .reported _ | .known _ => false

def State.left (s : State) : Nat :=
  match s.stage with
  | .polling => 2
  | .woken true _ _ => 1
  | .woken false _ false => 3
  | .woken false _ true => if s.terminal then 1 else 3
  | _ => 0

def State.rank (s : State) : Nat :=
  4 * tally (fun c => c.fate.isExited) s.clone s.born + 3 * s.channel.length +
    (if s.terminal then 4 else 0) + s.left

section Rank

variable {s t : State} {count i : Nat} {e : Event}

theorem Tracked.known_of_fate (h : Tracked s) (born : (s.clone i).fate ≠ .unborn) :
    i < s.born := by
  by_contra beyond
  exact born ((h.fresh i).mp (Nat.le_of_not_lt beyond))

theorem State.Quiet.calm (q : s.Quiet) : s.stage.awaits = false := by
  have quiet := q.stage
  revert quiet
  cases s.stage <;> simp [Stage.quiet, Stage.awaits]

structure Nearer (s t : State) (e : Event) : Prop where
  quiet : t.Quiet
  frozen : t.frozen = s.frozen
  le : t.rank ≤ s.rank
  lt : e.working = true → t.rank < s.rank

theorem Nearer.of_lt (quiet : t.Quiet) (frozen : t.frozen = s.frozen) (lt : t.rank < s.rank) :
    Nearer s t e :=
  ⟨quiet, frozen, Nat.le_of_lt lt, fun _ => lt⟩

theorem State.Quiet.poll_left (q : s.Quiet) (ready : s.channel ≠ [] ∨ s.signal ∨ s.stdinReady) :
    s.poll.left = 1 := by
  unfold State.poll State.left
  cases channel : s.channel with
  | cons m rest => rfl
  | nil =>
    have stdin : s.stdinReady = true := by simpa [channel, q.signal] using ready
    have terminal : s.terminal = true := by
      unfold State.stdinReady at stdin
      exact (Bool.and_eq_true_iff.mp stdin).1
    simp [stdin, terminal]

theorem State.Quiet.poll (q : s.Quiet) (polling : s.stage = .polling)
    (ready : s.channel ≠ [] ∨ s.signal ∨ s.stdinReady) : Nearer s s.poll e := by
  apply Nearer.of_lt
  · refine ⟨q.ended, q.signal, q.lines, ?_⟩
    show (!s.signal) = true
    rw [q.signal]
    rfl
  · rfl
  · have before : s.left = 2 := by simp [State.left, polling]
    have after := q.poll_left ready
    have same : s.poll.rank = s.rank - s.left + s.poll.left := by
      unfold State.rank
      rw [Nat.add_sub_cancel]
      rfl
    have least : s.left ≤ s.rank := Nat.le_add_left ..
    omega

theorem State.Quiet.look (q : s.Quiet) {signal stdin : Bool}
    (woken : s.stage = .woken false signal stdin) : Nearer s (s.look count signal stdin) e := by
  have unsignalled : signal = false := by
    have quiet := q.stage
    rw [woken] at quiet
    simpa [Stage.quiet] using quiet
  have polling : (s.look count signal stdin).stage = .polling := by
    simp [State.look, State.turn, unsignalled, q.lines]
  apply Nearer.of_lt
  · refine ⟨q.ended, ?_, ?_, ?_⟩
    · simp [State.look, q.signal]
    · simp [State.look, q.lines]
    · rw [polling]
      rfl
  · rfl
  · have after : (s.look count signal stdin).left = 2 := by simp [State.left, polling]
    unfold State.rank
    rw [after]
    cases stdin with
    | false => simp [State.look, State.left, woken]
    | true =>
      cases terminal : s.terminal <;> simp [State.look, State.left, woken, q.lines, terminal]

theorem Fate.isExited_learn (fate : Fate) : fate.learn.isExited = fate.isExited := by
  cases fate <;> rfl

theorem tally_learn (rest : List Message) :
    tally (fun c => c.fate.isExited) (s.learn i rest).clone s.born =
      tally (fun c => c.fate.isExited) s.clone s.born := by
  apply tally_congr
  intro j _
  rw [State.learn_clone]
  split
  next same =>
    rw [same]
    exact Fate.isExited_learn _
  · rfl

theorem State.Quiet.cloneExited (q : s.Quiet) {rest : List Message} {signal stdin : Bool}
    (channel : s.channel = .exited i :: rest) (woken : s.stage = .woken true signal stdin) :
    Nearer s (s.cloneExited i rest signal stdin) e := by
  have unsignalled : signal = false := by
    have quiet := q.stage
    rw [woken] at quiet
    simpa [Stage.quiet] using quiet
  apply Nearer.of_lt
  · refine ⟨?_, q.signal, q.lines, ?_⟩
    · intro j lt
      show ((s.learn i rest).clone j).fate.ended = true
      have ended := q.ended j lt
      rw [State.learn_clone]
      split
      next same =>
        rw [same] at ended
        revert ended
        cases (s.clone i).fate <;> simp [Fate.learn, Fate.ended]
      · exact ended
    · show (if s.retain i = [] then _ else Stage.woken false signal stdin).quiet = true
      split
      · rfl
      · rw [unsignalled]
        rfl
  · rfl
  · have after : (s.cloneExited i rest signal stdin).left ≤ 3 := by
      unfold State.left
      split <;> [omega; omega; omega; split; omega] <;> omega
    have shorter : s.channel.length = rest.length + 1 := by rw [channel]; rfl
    have before : s.left = 1 := by simp [State.left, woken]
    have rank : (s.cloneExited i rest signal stdin).rank =
        4 * tally (fun c => c.fate.isExited) s.clone s.born + 3 * rest.length +
          (if s.terminal then 4 else 0) + (s.cloneExited i rest signal stdin).left := by
      unfold State.rank
      rw [← tally_learn (s := s) (i := i) rest]
      rfl
    rw [rank]
    unfold State.rank
    omega

theorem State.Quiet.readEvent (q : s.Quiet) (h : Tracked s) (frozen : s.frozen = true)
    {m : Message} {rest : List Message} {signal stdin : Bool} (channel : s.channel = m :: rest)
    (woken : s.stage = .woken true signal stdin) :
    Nearer s (s.readEvent signal stdin rest m) e := by
  have event : m.isReply = false := h.no_reply q.calm (by simp [channel])
  cases m with
  | exited i => exact q.cloneExited channel woken
  | guestExited status =>
    have gone : s.template = .gone := h.guest status (by simp [channel])
    have warm := (h.cold (by simp [gone])).2.1
    rw [frozen] at warm
    cases warm
  | frozen | forked => cases event

theorem State.Quiet.report (q : s.Quiet) (h : Tracked s) (step : s.report i = some t) :
    Nearer s t e := by
  unfold State.report at step
  split at step
  next status exited =>
    cases step
    have known : i < s.born := h.known_of_fate (by simp [exited])
    apply Nearer.of_lt
    · refine ⟨?_, q.signal, q.lines, q.stage⟩
      intro j lt
      show ((s.setFate i (.reported status)).clone j).fate.ended = true
      rw [State.setFate_clone]
      split
      · rfl
      · exact q.ended j lt
    · rfl
    · have moved := tally_update (p := fun c : Clone => c.fate.isExited) (f := s.clone) known
        ⟨(s.clone i).pid, .reported status⟩
      have was : (s.clone i).fate.isExited = true := by rw [exited]; rfl
      rw [if_pos was, if_neg (show ¬ (Fate.reported status).isExited = true by simp [Fate.isExited])]
        at moved
      show 4 * tally _ (Function.update s.clone i _) s.born + 3 * (s.channel ++ [_]).length +
        (if s.terminal then 4 else 0) + s.left < s.rank
      unfold State.rank
      rw [List.length_append]
      simp only [List.length_singleton]
      omega
  · cases step

theorem Nearer.of_idle (q : s.Quiet) (idle : e.working = false) (inputEnded : Bool) :
    Nearer s { s with inputEnded } e where
  quiet := ⟨q.ended, q.signal, q.lines, q.stage⟩
  frozen := rfl
  le := Nat.le_refl _
  lt working := by
    rw [idle] at working
    cases working

theorem State.Quiet.step (q : s.Quiet) (h : Tracked s) (frozen : s.frozen = true)
    (asked : e.requests = false) (step : s.step count e = some t) : Nearer s t e := by
  have unasked := h.no_request q.calm
  have cold : s.template = .frozen := by
    by_contra warm
    rw [(h.cold warm).2.1] at frozen
    cases frozen
  cases e with
  | poll =>
    obtain ⟨⟨polling, ready⟩, ⟨⟩⟩ := guarded step
    exact q.poll polling ready
  | readEvent =>
    simp only [State.step] at step
    split at step
    next m rest woken channel =>
      cases step
      exact q.readEvent h frozen channel woken
    · cases step
  | look =>
    simp only [State.step] at step
    split at step
    next woken =>
      cases step
      exact q.look woken
    · cases step
  | send =>
    have quiet := q.stage
    simp only [State.step, State.send] at step
    split at step
    next freezing =>
      rw [freezing] at quiet
      cases quiet
    next forking =>
      rw [forking] at quiet
      cases quiet
    · cases step
  | recv =>
    simp only [State.step, q.calm] at step
    split at step <;> cases step
  | announced =>
    have quiet := q.stage
    simp only [State.step, State.announced] at step
    split at step
    next announcing =>
      rw [announcing] at quiet
      cases quiet
    · cases step
  | serveFreeze => simp [State.step, unasked] at step
  | serveFork pid => simp [State.step, unasked] at step
  | report i => exact q.report h step
  | guestExits status => simp [State.step, cold] at step
  | exit i status =>
    obtain ⟨running, _⟩ := guarded step
    have ended := q.ended i (h.known_of_fate (by simp [running]))
    rw [running] at ended
    cases ended
  | signalled | line => cases asked
  | endInput =>
    cases step
    exact .of_idle q rfl true
  | idle =>
    cases step
    exact .of_idle q rfl s.inputEnded

theorem State.Quiet.returned (q : s.Quiet) (h : Tracked s) (fed : s.Fed)
    (frozen : s.frozen = true)
    (stuck : ¬ (cloneSystem count).Enabled (fun e => e.working = true) s) :
    ∃ r, s.stage = .returned r := by
  have unable : ∀ e, e.working = true → s.step count e = none := by
    intro e working
    by_contra able
    exact stuck ⟨e, working, able⟩
  have quiet := q.stage
  cases stage : s.stage with
  | returned r => exact ⟨r, rfl⟩
  | woken template signal stdin =>
    cases template with
    | false =>
      have look := unable .look rfl
      simp [State.step, stage] at look
    | true =>
      have read := unable .readEvent rfl
      cases channel : s.channel with
      | nil => exact absurd channel (fed (by rw [stage]; rfl))
      | cons m rest => simp [State.step, stage, channel] at read
  | polling =>
    -- A clone is listed, so it is not read; its report is to come or in the channel.
    have empty : s.channel = [] := by
      by_contra full
      have poll := unable .poll rfl
      simp [State.step, stage, full] at poll
    obtain ⟨i, listed⟩ := List.exists_mem_of_ne_nil _ (h.busy frozen (by rw [stage]; rfl))
    have unread := ((h.held i).mp listed).1
    cases fate : (s.clone i).fate with
    | exited status =>
      have report := unable (.report i) rfl
      simp [State.step, State.report, fate] at report
    | reported status =>
      have queued := h.queued i
      simp [empty, fate, Fate.isReported] at queued
    | running =>
      have ended := q.ended i (h.known_of_fate (by simp [fate]))
      rw [fate] at ended
      cases ended
    | unborn | known =>
      rw [fate] at unread
      cases unread
  | freezing | awaitingFrozen | forking | awaiting | announcing | failed =>
    rw [stage] at quiet
    cases quiet

theorem State.Quiet.not_failed (q : s.Quiet) : s.stage ≠ .failed := by
  intro failed
  have quiet := q.stage
  rw [failed] at quiet
  cases quiet

end Rank

theorem returns_once_quiet {count : Nat} (pos : 0 < count) (p : (cloneSystem count).Path)
    (prompt : ∀ m, Prompt (p.state m) (p.event m)) (fair : p.Fair (fun e => e.working = true))
    {n : Nat} (frozen : (p.state n).frozen = true) (quiet : (p.state n).Quiet)
    (asked : ∀ m ≥ n, (p.event m).requests = false) :
    ∃ m ≥ n, ∃ r, (p.state m).stage = .returned r := by
  have tracked : ∀ m, (p.state m).Quiet → Tracked (p.state m) := fun m q =>
    tracked_of_reachableBy pos (p.reachableBy prompt m) q.not_failed
  have stays : ∀ m ≥ n, (p.state m).Quiet ∧ (p.state m).frozen = true := by
    intro m le
    induction m, le using Nat.le_induction with
    | base => exact ⟨quiet, frozen⟩
    | succ m le ih =>
      have nearer := ih.1.step (tracked m ih.1) ih.2 (asked m le) (p.step m)
      exact ⟨nearer.quiet, nearer.frozen.trans ih.2⟩
  have nearer : ∀ m ≥ n, Nearer (p.state m) (p.state (m + 1)) (p.event m) := by
    intro m le
    obtain ⟨q, cold⟩ := stays m le
    exact q.step (tracked m q) cold (asked m le) (p.step m)
  obtain ⟨k, le, stuck⟩ := fair.stuck (w := State.rank) (fun m le => (nearer m le).le)
    fun m le => (nearer m le).lt
  obtain ⟨q, cold⟩ := stays k le
  exact ⟨k, le, q.returned (tracked k q) (fed_reachable (p.reachable k)) cold (stuck k (Nat.le_refl k))⟩

section Results

variable {s : State} {count : Nat}

theorem Tracked.waits_for (h : Tracked s) (frozen : s.frozen = true)
    (waits : s.stage.waits = true) : ∃ i < s.born, (s.clone i).fate.unread = true := by
  obtain ⟨i, listed⟩ := List.exists_mem_of_ne_nil _ (h.busy frozen waits)
  have unread := ((h.held i).mp listed).1
  refine ⟨i, h.known_of_fate ?_, unread⟩
  intro unborn
  rw [unborn] at unread
  cases unread

theorem Tracked.all_known (h : Tracked s) (frozen : s.frozen = true) {r : Int}
    (returned : s.stage = .returned r) {i : Nat} (born : i < s.born) :
    ∃ status, (s.clone i).fate = .known status := by
  obtain ⟨empty, _⟩ := h.ended r returned frozen
  have settled : ¬ s.Pending i := by
    rintro (mem | ⟨left, announcing⟩)
    · cases h.no_reply (by rw [returned]; rfl) mem
    · rw [returned] at announcing
      cases announcing
  have read : (s.clone i).fate.unread ≠ true := by
    intro unread
    have listed := (h.held i).mpr ⟨unread, settled⟩
    rw [empty] at listed
    cases listed
  cases fate : (s.clone i).fate with
  | known status => exact ⟨status, rfl⟩
  | unborn =>
    have beyond := (h.fresh i).mpr fate
    omega
  | running | exited | reported =>
    rw [fate] at read
    exact absurd rfl read

theorem Tracked.result (h : Tracked s) (frozen : s.frozen = true) {r : Int}
    (returned : s.stage = .returned r) :
    r ≠ 0 ↔ ∃ i < s.born, (s.clone i).fate.status ≠ 0 := by
  obtain ⟨_, result⟩ := h.ended r returned frozen
  have nonzero : r ≠ 0 ↔ s.cloneFailed = true := by
    rw [result]
    cases s.cloneFailed <;> simp
  rw [nonzero, h.failed]
  constructor
  · rintro ⟨i, status, known, bad⟩
    exact ⟨i, h.known_of_fate (by simp [known]), by rw [known]; exact bad⟩
  · rintro ⟨i, born, bad⟩
    obtain ⟨status, known⟩ := h.all_known frozen returned born
    rw [known] at bad
    exact ⟨i, status, known, bad⟩

theorem Tracked.over (h : Tracked s) (frozen : s.frozen = true) {r : Int}
    (returned : s.stage = .returned r) :
    ¬ (cloneSystem count).Enabled (fun e => e.working = true) s := by
  have unasked := h.no_request (by rw [returned]; rfl)
  rintro ⟨e, working, enabled⟩
  apply enabled
  show s.step count e = none
  cases e with
  | poll | readEvent | look => simp [State.step, returned]
  | send => simp [State.step, State.send, returned]
  | announced => simp [State.step, State.announced, returned]
  | recv =>
    simp only [State.step, returned, Stage.awaits]
    split <;> rfl
  | serveFreeze | serveFork => simp [State.step, unasked]
  | report i =>
    simp only [State.step, State.report]
    split
    next status exited =>
      have born : i < s.born := h.known_of_fate (by simp [exited])
      obtain ⟨status, known⟩ := h.all_known frozen returned born
      rw [known] at exited
      cases exited
    · rfl
  | guestExits | exit | signalled | line | endInput | idle => cases working

end Results

/-- In every run in which `reply` takes no report: a command that waits has a clone to wait for,
one that has returned has none, its result says whether one failed, and it does not wait for
ever when all have ended and no fork is asked for. -/
theorem foreground_ends {count : Nat} (pos : 0 < count) :
    (∀ s, (cloneSystem count).ReachableBy Prompt s → s.frozen = true →
      (s.stage.waits = true → ∃ i < s.born, (s.clone i).fate.unread = true) ∧
      ∀ r, s.stage = .returned r → (∀ i < s.born, (s.clone i).fate.ended = true) ∧
        (r ≠ 0 ↔ ∃ i < s.born, (s.clone i).fate.status ≠ 0)) ∧
    ∀ p : (cloneSystem count).Path, (∀ m, Prompt (p.state m) (p.event m)) →
      p.Fair (fun e => e.working = true) → ∀ n, (p.state n).frozen = true → (p.state n).Quiet →
        (∀ m ≥ n, (p.event m).requests = false) → ∃ m ≥ n, ∃ r, (p.state m).stage = .returned r := by
  constructor
  · intro s reached frozen
    constructor
    · intro waits
      have fine : s.stage ≠ .failed := by
        intro failed
        rw [failed] at waits
        cases waits
      exact (tracked_of_reachableBy pos reached fine).waits_for frozen waits
    · intro r returned
      have tracked := tracked_of_reachableBy pos reached (by simp [returned])
      refine ⟨?_, tracked.result frozen returned⟩
      intro i born
      obtain ⟨status, known⟩ := tracked.all_known frozen returned born
      rw [known]
      rfl
  · intro p prompt fair n frozen quiet asked
    exact returns_once_quiet pos p prompt fair frozen quiet asked

/-- Two clones, one of which fails; when both have been reported the command returns 1, and
from then on nothing happens. -/
theorem foreground_ends_failed :
    (∃ s, (cloneSystem 2).ReachableBy Prompt s ∧ s.stage = .polling ∧
      ∃ i < s.born, (s.clone i).fate.unread = true) ∧
    (∃ s, (cloneSystem 2).ReachableBy Prompt s ∧ s.stage = .returned 1 ∧
      ∃ i < s.born, (s.clone i).fate.status ≠ 0) ∧
    ∃ (p : (cloneSystem 2).Path) (n : Nat), (p.state n).Quiet ∧
      ∃ m ≥ n, ∃ r, (p.state m).stage = .returned r := by
  have forked : ∃ s, (cloneSystem 2).ReachableBy Prompt s ∧
      (s.frozen = true ∧ s.stage = .polling) :=
    System.exists_reachableBy_of_runBy (s := {})
      (l := [.line, .poll, .look, .send, .serveFreeze, .recv, .send, .serveFork 10, .recv,
        .announced, .send, .serveFork 11, .recv, .announced]) (.init rfl) (by decide +kernel)
  have ended : ∃ s, (cloneSystem 2).ReachableBy Prompt s ∧ (s.frozen = true ∧
      s.stage = .returned 1 ∧ s.signal = false ∧ s.lines = 0 ∧
      ∀ i < s.born, (s.clone i).fate.ended = true) :=
    System.exists_reachableBy_of_runBy (s := {})
      (l := [.line, .poll, .look, .send, .serveFreeze, .recv, .send, .serveFork 10, .recv,
        .announced, .send, .serveFork 11, .recv, .announced, .exit 1 1, .report 1, .poll,
        .readEvent, .look, .exit 0 0, .report 0, .poll, .readEvent]) (.init rfl) (by decide +kernel)
  obtain ⟨waiting, live⟩ := foreground_ends Nat.two_pos
  obtain ⟨s, reached, frozen, polling⟩ := forked
  obtain ⟨t, run, cold, returned, signal, lines, all⟩ := ended
  refine ⟨⟨s, reached, polling, ?_⟩, ⟨t, run, returned, ?_⟩, ?_⟩
  · exact (waiting s reached frozen).1 (by rw [polling]; rfl)
  · exact ((waiting t run cold).2 1 returned).2.mp (by decide)
  · obtain ⟨p, k, prompt, tail⟩ := run.exists_path (fun _ => t) (fun _ => .idle) rfl
      fun _ => ⟨trivial, rfl⟩
    have after : ∀ m ≥ k, p.state m = t ∧ p.event m = .idle := by
      intro m le
      obtain ⟨d, rfl⟩ := Nat.exists_eq_add_of_le le
      exact tail d
    have fair : p.Fair (fun e => e.working = true) := by
      apply System.Path.fair_of_stuck (n := k)
      intro m le
      rw [(after m le).1]
      exact (tracked_of_reachableBy (by decide) run (by simp [returned])).over cold returned
    have here := (after k (Nat.le_refl k)).1
    have quiet : (p.state k).Quiet := by
      rw [here]
      exact ⟨all, signal, lines, by rw [returned]; rfl⟩
    refine ⟨p, k, quiet, live p prompt fair k (by rw [here, cold]) quiet ?_⟩
    intro m le
    rw [(after m le).2]
    rfl

/-- A clone ends while the reply to the next fork is awaited. Its report is put aside, so the
command still lists it when the other clone has been reported, and waits for ever. -/
theorem put_aside_exit_waits :
    ∃ s, (cloneSystem 1).Reachable s ∧ (s.frozen = true ∧ s.stage = .polling ∧
      s.events = [.exited 0] ∧ s.clones = [0] ∧ s.channel = [] ∧ s.signal = false ∧ s.lines = 0 ∧
      s.born = 2 ∧ (s.clone 0).fate = .known 1 ∧ (s.clone 1).fate = .known 0 ∧
      (State.step 1 s .poll).isNone) :=
  System.exists_reachable_of_run (s := {})
    (l := [.signalled, .poll, .look, .send, .serveFreeze, .recv, .send, .serveFork 10, .recv,
      .announced, .signalled, .poll, .look, .send, .exit 0 1, .report 0, .serveFork 11, .recv,
      .recv, .announced, .exit 1 0, .report 1, .poll, .readEvent, .look])
    (.init rfl) (by decide +kernel)

end ServiceCache.Foreground
