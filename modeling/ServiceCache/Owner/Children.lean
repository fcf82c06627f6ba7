import ServiceCache.Owner.Model

/-!
# The children an owner counts

Every exit the host reported is on its way, kept by `fork`, counted by `drain_events`, or
subtracted; every fork it acknowledged is counted or being announced.
-/

namespace ServiceCache.Owner

open Function
open Transition (System guarded)
open Counting (tally tally_update tally_push tally_congr tally_add_le tally_le all_of_tally)
open Control (Reply Link)

def forks (replies : List (Option Nat × Reply)) : Nat := replies.countP fun f => f.2.isForked

def exits (replies : List (Option Nat × Reply)) : Nat := replies.countP fun f => f.2.isChild

@[simp] theorem forks_cons (f : Option Nat × Reply) (rest : List (Option Nat × Reply)) :
    forks (f :: rest) = forks rest + f.2.isForked.toNat := by
  cases h : f.2.isForked <;> simp [forks, h]

@[simp] theorem exits_cons (f : Option Nat × Reply) (rest : List (Option Nat × Reply)) :
    exits (f :: rest) = exits rest + f.2.isChild.toNat := by
  cases h : f.2.isChild <;> simp [exits, h]

@[simp] theorem forks_send (f : Option Nat × Reply) (replies : List (Option Nat × Reply)) :
    forks (replies ++ [f]) = forks replies + f.2.isForked.toNat := by
  cases h : f.2.isForked <;> simp [forks, h]

@[simp] theorem exits_send (f : Option Nat × Reply) (replies : List (Option Nat × Reply)) :
    exits (replies ++ [f]) = exits replies + f.2.isChild.toNat := by
  cases h : f.2.isChild <;> simp [exits, h]

theorem not_forked_of_child {r : Reply} (child : r.isChild = true) : r.isForked = false := by
  cases r with
  | exited => rfl
  | ready | frozen | forked | error => cases child

def Stage.open : Stage → Nat
  | .forking => 1
  | _ => 0

namespace State

variable {s : State}

structure Sound (s : State) : Prop where
  clones : s.clones = s.acknowledged + forks s.host.replies
  pending : forks s.host.replies + s.asked.toNat ≤ s.stage.open
  reaped : tally Clone.reaped s.clone s.clones = s.consumed + exits s.host.replies
  count : s.children + s.consumed + s.stage.acknowledged =
    s.acknowledged + s.host.events.length + s.stage.exits
  kept : s.stage.inFork = false → s.host.events = []
  events : ∀ e ∈ s.host.events, e.isChild = true
  dead : ∀ k, (s.clone k).reaped = true → (s.clone k).alive = false
  past : ∀ k e, (s.clone k).ended = some e → e ≤ s.now
  idle : s.stage.inFork = false → s.children = 0 →
    ∀ k < s.clones, ∃ e, (s.clone k).ended = some e ∧ e ≤ s.idleSince

theorem Sound.quiet (sound : s.Sound) (resting : s.stage ≠ .forking) :
    forks s.host.replies = 0 ∧ s.asked = false := by
  have pending := sound.pending
  cases is : s.stage with
  | forking => exact absurd is resting
  | waiting | announcing | draining | checking | ended =>
    simp only [is, Stage.open] at pending
    exact ⟨by omega, Bool.toNat_eq_zero.mp (by omega)⟩

theorem Sound.enough (sound : s.Sound) (resting : s.stage ≠ .forking) :
    s.host.events.length + s.stage.exits ≤ s.children + s.stage.acknowledged := by
  have quiet := sound.quiet resting
  have reported : tally Clone.reaped s.clone s.clones ≤ s.clones := tally_le
  have := sound.clones
  have := sound.reaped
  have := sound.count
  omega

theorem Sound.all_ended (sound : s.Sound) (all : s.clones ≤ s.consumed) :
    ∀ k < s.clones, ∃ e, (s.clone k).ended = some e ∧ e ≤ s.now := by
  intro k known
  have every : s.clones ≤ tally Clone.reaped s.clone s.clones := by
    have := sound.reaped
    omega
  have ended : (s.clone k).alive = false := sound.dead k (all_of_tally every known)
  obtain ⟨e, is⟩ := Option.isSome_iff_exists.mp (Option.isNone_eq_false_iff.mp ended)
  exact ⟨e, is, sound.past k e is⟩

theorem Sound.live_le (sound : s.Sound) : s.live + s.consumed ≤ s.clones := by
  have apart : s.live + tally Clone.reaped s.clone s.clones ≤ s.clones := by
    apply tally_add_le
    intro k _ alive
    cases is : (s.clone k).reaped with
    | false => rfl
    | true => rw [sound.dead k is] at alive; cases alive
  have := sound.reaped
  omega

theorem Sound.reclone (sound : s.Sound) {f : Nat → Clone}
    (reaped : ∀ k, (f k).reaped = (s.clone k).reaped)
    (kept : ∀ k e, (s.clone k).ended = some e → (f k).ended = some e)
    (past : ∀ k e, (f k).ended = some e → e ≤ s.now) : Sound { s with clone := f } :=
  { sound with
    reaped := (tally_congr fun k _ => reaped k).trans sound.reaped
    dead := by
      intro k is
      rw [reaped k] at is
      have ended := sound.dead k is
      unfold Clone.alive at ended ⊢
      obtain ⟨e, at_⟩ := Option.isSome_iff_exists.mp (Option.isNone_eq_false_iff.mp ended)
      rw [kept k e at_]
      rfl
    past
    idle := by
      intro stage none k known
      obtain ⟨e, ended, le⟩ := sound.idle stage none k known
      exact ⟨e, kept k e ended, le⟩ }

theorem Sound.setLink (sound : s.Sound) (k : Nat) (l : Link) : (s.setLink k l).Sound := by
  have same : ∀ j, ((s.setLink k l).clone j).reaped = (s.clone j).reaped ∧
      ((s.setLink k l).clone j).ended = (s.clone j).ended := by
    intro j
    by_cases at_ : j = k
    · subst at_
      simp [State.setLink, setClone]
    · simp [State.setLink, setClone, at_]
  exact sound.reclone (fun j => (same j).1) (fun j e is => (same j).2.trans is)
    fun j e is => sound.past j e ((same j).2.symm.trans is)

theorem endAt_ended {c : Clone} {now e : Nat} (past : ∀ e, c.ended = some e → e ≤ now)
    (is : (c.endAt now).ended = some e) : e ≤ now := by
  cases before : c.ended with
  | none => simp_all [Clone.endAt]
  | some e' =>
    have := past e' before
    simp_all [Clone.endAt]

theorem Sound.hostEnds (sound : s.Sound) : s.hostEnds.Sound := by
  have ended : Sound { s with clone := fun k => (s.clone k).endAt s.now } :=
    sound.reclone (fun _ => rfl) (fun k e is => by simp [Clone.endAt, is])
      fun k e is => endAt_ended (sound.past k) is
  have := sound.pending
  exact { ended with pending := by simp only [State.hostEnds, Bool.toNat_false]; omega }

theorem Sound.cloneEnds (sound : s.Sound) (k : Nat) :
    (s.setClone k ((s.clone k).endAt s.now)).Sound := by
  apply sound.reclone
  · intro j
    by_cases at_ : j = k
    · subst at_
      simp [Clone.endAt]
    · simp [at_]
  · intro j e is
    by_cases at_ : j = k
    · subst at_
      simp [Clone.endAt, is]
    · simp [at_, is]
  · intro j e is
    by_cases at_ : j = k
    · subst at_
      rw [update_self] at is
      exact endAt_ended (sound.past j) is
    · rw [update_of_ne at_] at is
      exact sound.past j e is

theorem Sound.tick (sound : s.Sound) (d : Nat) : Sound { s with now := s.now + d } :=
  { sound with past := fun k e is => Nat.le_add_right_of_le (sound.past k e is) }

theorem Sound.hostForks (sound : s.Sound) (asked : s.asked = true) (endpoint : Nat) :
    (s.hostForks endpoint).Sound := by
  have pending := sound.pending
  rw [asked, Bool.toNat_true] at pending
  have forking : s.stage = .forking := by
    by_contra resting
    rw [(sound.quiet resting).2] at asked
    cases asked
  refine
    { clones := ?_, pending := ?_, reaped := ?_, count := sound.count, kept := sound.kept
      events := sound.events, dead := ?_, past := ?_, idle := ?_ }
  · have := sound.clones
    simp only [State.hostForks, send, setClone, forks_send, Reply.isForked, Bool.toNat_true]
    omega
  · simpa only [State.hostForks, send, setClone, forks_send, Reply.isForked, Bool.toNat_true,
      Bool.toNat_false] using pending
  · have := sound.reaped
    simp only [State.hostForks, send, setClone, consumed, exits_send, Reply.isChild,
      Bool.toNat_false, tally_push] at this ⊢
    simpa using this
  · intro k is
    by_cases at_ : k = s.clones
    · subst at_
      simp [State.hostForks, send, setClone] at is
    · simp only [State.hostForks, send, setClone, update_of_ne at_] at is ⊢
      exact sound.dead k is
  · intro k e is
    by_cases at_ : k = s.clones
    · subst at_
      simp [State.hostForks, send, setClone] at is
    · simp only [State.hostForks, send, setClone, update_of_ne at_] at is ⊢
      exact sound.past k e is
  · intro resting
    simp [State.hostForks, send, setClone, forking, Stage.inFork] at resting

theorem Sound.hostRefuses (sound : s.Sound) (text : String) :
    Sound { s.send (.error text) with asked := false } := by
  have := sound.pending
  refine { sound with clones := ?_, pending := ?_, reaped := ?_ }
  · simpa [send, Reply.isForked] using sound.clones
  · simp only [send, forks_send, Reply.isForked, Bool.toNat_false]
    omega
  · simpa [send, consumed, Reply.isChild] using sound.reaped

theorem Sound.hostReaps (sound : s.Sound) {k : Nat} (known : k < s.clones)
    (ended : (s.clone k).alive = false) (fresh : (s.clone k).reaped = false) (status : Int) :
    (s.hostReaps k status).Sound := by
  refine
    { clones := ?_, pending := ?_, reaped := ?_, count := sound.count, kept := sound.kept
      events := sound.events, dead := ?_, past := ?_, idle := ?_ }
  · simpa [State.hostReaps, send, setClone, Reply.isForked] using sound.clones
  · simpa [State.hostReaps, send, setClone, Reply.isForked] using sound.pending
  · have moved := tally_update (p := Clone.reaped) (f := s.clone) known
      { s.clone k with reaped := true }
    have := sound.reaped
    simp only [fresh, Bool.false_eq_true, if_false, if_true] at moved
    simp only [State.hostReaps, send, setClone, consumed, exits_send, Reply.isChild,
      Bool.toNat_true] at this ⊢
    omega
  · intro j is
    by_cases at_ : j = k
    · subst at_
      simpa [State.hostReaps, send, setClone, Clone.alive] using ended
    · simp only [State.hostReaps, send, setClone, update_of_ne at_] at is ⊢
      exact sound.dead j is
  · intro j e is
    by_cases at_ : j = k
    · subst at_
      simp only [State.hostReaps, send, setClone, update_self] at is
      exact sound.past j e is
    · simp only [State.hostReaps, send, setClone, update_of_ne at_] at is
      exact sound.past j e is
  · intro stage none j below
    obtain ⟨e, is, le⟩ := sound.idle stage none j below
    refine ⟨e, ?_, le⟩
    by_cases at_ : j = k
    · subst at_
      simpa [State.hostReaps, send, setClone] using is
    · simpa only [State.hostReaps, send, setClone, update_of_ne at_] using is

/-! ### The owner's steps -/

theorem uncount_eq {n : Nat} (enough : n ≤ s.children) :
    s.uncount n = { s with children := s.children - n } := by
  simp [uncount, Nat.not_lt.mpr enough]

theorem restart_eq :
    s.restart = { s with idleSince := if s.children = 0 then s.now else s.idleSince } := by
  unfold restart
  split <;> rfl

theorem foldl_countEvent {l : List Reply} (child : ∀ e ∈ l, e.isChild = true)
    (enough : l.length ≤ s.children) :
    l.foldl countEvent s = { s with children := s.children - l.length } := by
  induction l generalizing s with
  | nil => rfl
  | cons e l ih =>
    have first : 1 ≤ s.children := Nat.le_trans (by simp) enough
    have one : s.countEvent e = { s with children := s.children - 1 } := by
      rw [countEvent, child e List.mem_cons_self, if_pos rfl, uncount_eq first]
    rw [List.foldl_cons, one, ih (fun e mem => child e (List.mem_cons_of_mem _ mem))]
    · simp only [List.length_cons]
      congr 1
      omega
    · simp only [List.length_cons] at enough ⊢
      omega

theorem takeEvents_eq (none : s.host.events = []) : s.takeEvents = s := by
  unfold takeEvents
  rw [none, List.append_nil, ← none]

theorem Sound.settled (sound : s.Sound) (resting : s.stage ≠ .forking) {n : Nat}
    (count : n + s.consumed = s.acknowledged) (stage : Stage)
    (plain : stage.acknowledged = 0 ∧ stage.exits = 0) :
    Sound { s.takeEvents with
      children := n, stage
      idleSince := if n = 0 then s.now else s.idleSince } := by
  have quiet : forks s.host.replies = 0 ∧ s.asked = false := sound.quiet resting
  have clones : s.clones = s.acknowledged := by
    have := sound.clones
    omega
  refine
    { sound with
      pending := ?_, count := ?_, kept := fun _ => rfl, events := nofun, idle := ?_ }
  · simp [takeEvents, quiet]
  · simpa [takeEvents, consumed, plain] using count
  · intro _ zero k known
    simp only [takeEvents] at zero known ⊢
    rw [if_pos zero]
    exact sound.all_ended (by omega) k known

theorem Sound.forked (sound : s.Sound) {k : Nat} (stage : s.stage = .announcing k) :
    s.forked.Sound ∧ s.forked.saturated = s.saturated := by
  have resting : s.stage ≠ .forking := by simp [stage]
  have enough : s.host.events.length ≤ s.children + 1 := by
    have := sound.enough resting
    simpa [stage, Stage.exits, Stage.acknowledged] using this
  have count : s.children + 1 - s.host.events.length + s.consumed = s.acknowledged := by
    have := sound.count
    simp only [stage, Stage.exits, Stage.acknowledged] at this
    omega
  have settled := sound.settled resting count .waiting ⟨rfl, rfl⟩
  have eq : s.forked = { s.takeEvents with
      children := s.children + 1 - s.host.events.length
      stage := .waiting
      idleSince := if s.children + 1 - s.host.events.length = 0 then s.now else s.idleSince } := by
    simp only [State.forked]
    rw [foldl_countEvent sound.events enough, restart_eq]
    rfl
  rw [eq]
  exact ⟨{ settled with }, rfl⟩

theorem Sound.settle (sound : s.Sound) {exits : Nat} (stage : s.stage = .draining exits) :
    (s.settle exits).Sound ∧ (s.settle exits).saturated = s.saturated := by
  have resting : s.stage ≠ .forking := by simp [stage]
  have none : s.host.events = [] := sound.kept (by rw [stage]; rfl)
  have count := sound.count
  simp only [stage, none, Stage.exits, Stage.acknowledged, List.length_nil] at count
  by_cases some : 0 < exits
  · have enough : exits ≤ s.children := by
      have := sound.enough resting
      simpa [stage, none, Stage.exits, Stage.acknowledged] using this
    have settled := sound.settled resting (n := s.children - exits) (by omega) .checking ⟨rfl, rfl⟩
    have eq : s.settle exits = { s with
        children := s.children - exits
        stage := .checking
        idleSince := if s.children - exits = 0 then s.now else s.idleSince } := by
      simp only [State.settle, if_pos some, uncount_eq enough, restart_eq]
    rw [takeEvents_eq none] at settled
    rw [eq]
    exact ⟨settled, rfl⟩
  · have eq : s.settle exits = { s with stage := .checking } := by
      simp only [State.settle, if_neg some]
    rw [eq]
    have quiet := sound.quiet resting
    refine ⟨{ sound with pending := ?_, count := ?_, kept := ?_, idle := ?_ }, rfl⟩
    · simp [quiet]
    · simp only [consumed] at count
      simp only [consumed, none, Stage.exits, Stage.acknowledged, List.length_nil]
      omega
    · exact fun _ => none
    · exact fun _ => sound.idle (by rw [stage]; rfl)

theorem Sound.keep (sound : s.Sound) (stage : s.stage = .forking) {tag : Option Nat} {r : Reply}
    {rest : List (Option Nat × Reply)} (first : s.host.replies = (tag, r) :: rest)
    (child : r.isChild = true) :
    Sound { s with host := { s.host with
      replies := rest, events := s.host.events ++ [r], arrived := s.host.arrived ++ [(r, true)] } } := by
  have same : forks s.host.replies = forks rest := by
    rw [first, forks_cons, not_forked_of_child child]
    rfl
  have fewer : exits s.host.replies = exits rest + 1 := by
    rw [first, exits_cons, child]
    rfl
  refine { sound with clones := ?_, pending := ?_, reaped := ?_, count := ?_, kept := ?_, events := ?_ }
  · exact same ▸ sound.clones
  · exact same ▸ sound.pending
  · have := sound.reaped
    simp only [consumed, List.length_append, List.length_singleton] at this ⊢
    omega
  · have := sound.count
    simp only [consumed, List.length_append, List.length_singleton] at this ⊢
    omega
  · intro resting
    simp [stage, Stage.inFork] at resting
  · intro e mem
    rcases List.mem_append.mp mem with old | new
    · exact sound.events e old
    · exact List.mem_singleton.mp new ▸ child

theorem Sound.acknowledge (sound : s.Sound) (stage : s.stage = .forking) {tag : Option Nat}
    {pid endpoint : Nat} {rest : List (Option Nat × Reply)}
    (first : s.host.replies = (tag, .forked pid endpoint) :: rest) :
    Sound { s with
      host := { s.host with replies := rest }
      stage := .announcing pid
      acknowledged := s.acknowledged + 1 } := by
  have one : forks s.host.replies = forks rest + 1 := by
    rw [first, forks_cons]
    rfl
  have same : exits s.host.replies = exits rest := by
    rw [first, exits_cons]
    rfl
  have count := sound.count
  have pending := sound.pending
  simp only [stage, Stage.open, Stage.acknowledged, Stage.exits] at count pending
  refine { sound with clones := ?_, pending := ?_, reaped := ?_, count := ?_, kept := ?_, idle := ?_ }
  · have := sound.clones
    simp only
    omega
  · simp only [Stage.open]
    omega
  · exact same ▸ sound.reaped
  · simp only [consumed] at count
    simp only [consumed, Stage.acknowledged, Stage.exits]
    omega
  · exact nofun
  · exact nofun

theorem Sound.drain (sound : s.Sound) {n : Nat} (stage : s.stage = .draining n) {tag : Option Nat}
    {r : Reply} {rest : List (Option Nat × Reply)} (first : s.host.replies = (tag, r) :: rest) :
    Sound { s with
      host := { s.host with
        replies := rest
        arrived := if r.isChild then s.host.arrived ++ [(r, false)] else s.host.arrived }
      stage := .draining (if r.isChild then n + 1 else n) } := by
  have quiet := sound.quiet (by simp [stage])
  have forked : forks rest = 0 := by
    have := quiet.1
    rw [first, forks_cons] at this
    omega
  have fewer : exits s.host.replies = exits rest + r.isChild.toNat := by
    rw [first, exits_cons]
  have reaped := sound.reaped
  have count := sound.count
  simp only [stage, Stage.acknowledged, Stage.exits, consumed] at count reaped
  refine { sound with clones := ?_, pending := ?_, reaped := ?_, count := ?_, kept := ?_, idle := ?_ }
  · have := sound.clones
    simp only
    omega
  · simp [forked, quiet.2]
  · cases child : r.isChild <;> simp [consumed, child] at fewer ⊢ <;> omega
  · cases child : r.isChild <;> simp [consumed, Stage.acknowledged, Stage.exits] <;> omega
  · exact fun _ => sound.kept (by rw [stage]; rfl)
  · exact fun _ => sound.idle (by rw [stage]; rfl)

theorem Sound.rest (sound : s.Sound) {stage : Stage} (from_ : s.stage.inFork = false)
    (same : stage.exits = s.stage.exits) (to_ : stage.inFork = false) : Sound { s with stage } := by
  have resting : s.stage ≠ .forking := by
    intro is
    rw [is] at from_
    cases from_
  have quiet := sound.quiet resting
  have plain : ∀ {x : Stage}, x.inFork = false → x.acknowledged = 0 := by
    intro x out
    cases x with
    | announcing => cases out
    | waiting | forking | draining | checking | ended => rfl
  have count := sound.count
  refine { sound with pending := ?_, count := ?_, kept := fun _ => sound.kept from_
                      idle := fun _ => sound.idle from_ }
  · simp [quiet]
  · rw [plain from_] at count
    simp only [consumed] at count
    simp only [consumed, plain to_, same]
    exact count

/-! ### Runs -/

structure Inv (s : State) : Prop where
  exact : s.saturated = false
  running : s.stage.isEnded = false → s.Sound

theorem Inv.finish {how : End} (inv : s.Inv) : (s.finish how).Inv := ⟨inv.exact, nofun⟩

theorem Inv.beside (inv : s.Inv) {t : State} (stage : t.stage = s.stage)
    (exact : t.saturated = s.saturated) (kept : s.Sound → t.Sound) : t.Inv :=
  ⟨exact.trans inv.exact, fun running => kept (inv.running (stage ▸ running))⟩

theorem Inv.fork (inv : s.Inv) {made : Bool} {t : State} (h : s.fork made = some t) : t.Inv := by
  unfold State.fork at h
  split at h
  next stage =>
    obtain rfl := Option.some.inj h
    have sound : s.Sound := inv.running (by rw [stage]; rfl)
    cases made with
    | false => exact inv.finish
    | true =>
      refine ⟨inv.exact, fun _ => ?_⟩
      have quiet := sound.quiet (by simp [stage])
      have count := sound.count
      simp only [stage, Stage.exits, Stage.acknowledged, consumed] at count
      refine { sound with pending := ?_, count := ?_, kept := nofun, idle := nofun }
      · simpa [quiet, Stage.open] using Bool.toNat_le s.up
      · simpa [consumed, Stage.exits, Stage.acknowledged] using count
  next => cases h

theorem Inv.reply (inv : s.Inv) {t : State} (h : s.reply = some t) : t.Inv := by
  unfold State.reply at h
  split at h
  next stage =>
    have sound : s.Sound := inv.running (by rw [stage]; rfl)
    obtain ⟨⟨l, got⟩, read, rfl⟩ := Option.map_eq_some_iff.mp h
    obtain ⟨tag, r, rest, first, ⟨child, rfl, rfl⟩ | ⟨-, rfl, rfl⟩ | ⟨-, -, rfl, rfl⟩⟩ :=
      Link.reply_cases read
    · exact ⟨inv.exact, fun _ => sound.keep stage first child⟩
    · exact ⟨inv.exact, nofun⟩
    · cases r with
      | forked pid endpoint => exact ⟨inv.exact, fun _ => sound.acknowledge stage first⟩
      | ready | exited | frozen | error => exact ⟨inv.exact, nofun⟩
  next k stage =>
    have sound : s.Sound := inv.running (by rw [stage]; rfl)
    obtain ⟨⟨l, got⟩, read, rfl⟩ := Option.map_eq_some_iff.mp h
    have linked : (s.setLink k l).Sound := sound.setLink k l
    obtain ⟨tag, r, rest, first, ⟨child, rfl, rfl⟩ | ⟨-, rfl, rfl⟩ | ⟨-, -, rfl, rfl⟩⟩ :=
      Link.reply_cases read
    · exact ⟨inv.exact, fun _ => linked⟩
    · exact ⟨inv.exact, nofun⟩
    · cases r with
      | forked pid endpoint =>
        obtain ⟨counted, same⟩ := linked.forked (k := k) stage
        exact ⟨same.trans inv.exact, fun _ => counted⟩
      | ready | exited | frozen | error => exact ⟨inv.exact, nofun⟩
  next => cases h

theorem Inv.fails (inv : s.Inv) {t : State} (h : s.fails = some t) : t.Inv := by
  unfold State.fails at h
  split at h
  · exact Option.some.inj h ▸ inv.finish
  · exact Option.some.inj h ▸ inv.finish
  · exact Option.some.inj h ▸ inv.finish
  · cases h

theorem Inv.drain (inv : s.Inv) {t : State} (h : s.drain = some t) : t.Inv := by
  unfold State.drain at h
  split at h
  next n tag r rest stage first =>
    have sound : s.Sound := inv.running (by rw [stage]; rfl)
    obtain ⟨l, read, rfl⟩ := Option.map_eq_some_iff.mp h
    unfold Link.readEvent at read
    rw [first] at read
    obtain rfl := Option.some.inj read
    cases r with
    | exited run status pid => exact ⟨inv.exact, fun _ => sound.drain stage first⟩
    | ready | frozen | forked | error => exact ⟨inv.exact, nofun⟩
  next => cases h

theorem Inv.step (inv : s.Inv) {e : Event} {t : State} (h : s.step e = some t) : t.Inv := by
  cases e with
  | tick d =>
    obtain rfl := Option.some.inj h
    exact inv.beside rfl rfl fun sound => sound.tick d
  | fork made => exact inv.fork h
  | reply => exact inv.reply h
  | fails => exact inv.fails h
  | drain => exact inv.drain h
  | timeout =>
    obtain ⟨stage, ⟨⟩⟩ := guarded h
    have sound : s.Sound := inv.running (by rw [stage]; rfl)
    exact ⟨inv.exact, fun _ => sound.rest (by rw [stage]; rfl) (by rw [stage]; rfl) rfl⟩
  | drained =>
    simp only [State.step] at h
    split at h
    next n stage =>
      obtain ⟨-, ⟨⟩⟩ := guarded h
      have sound : s.Sound := inv.running (by rw [stage]; rfl)
      obtain ⟨settled, same⟩ := sound.settle stage
      exact ⟨same.trans inv.exact, fun _ => settled⟩
    next => cases h
  | check =>
    obtain ⟨stage, ⟨⟩⟩ := guarded h
    have sound : s.Sound := inv.running (by rw [stage]; rfl)
    unfold State.check
    split
    · exact inv.finish
    · exact ⟨inv.exact, fun _ => sound.rest (by rw [stage]; rfl) (by rw [stage]; rfl) rfl⟩
  | disconnected =>
    obtain ⟨-, ⟨⟩⟩ := guarded h
    exact inv.finish
  | hostForks endpoint =>
    obtain ⟨⟨-, asked⟩, ⟨⟩⟩ := guarded h
    exact inv.beside rfl rfl fun sound => sound.hostForks asked endpoint
  | hostRefuses text =>
    obtain ⟨-, ⟨⟩⟩ := guarded h
    exact inv.beside rfl rfl fun sound => sound.hostRefuses text
  | hostReaps k status =>
    obtain ⟨⟨-, known, ended, fresh⟩, ⟨⟩⟩ := guarded h
    exact inv.beside rfl rfl fun sound => sound.hostReaps known ended fresh status
  | hostDies =>
    obtain ⟨-, ⟨⟩⟩ := guarded h
    exact inv.beside rfl rfl fun sound => sound.hostEnds
  | cloneSends k r =>
    obtain ⟨-, ⟨⟩⟩ := guarded h
    exact inv.beside rfl rfl fun sound => sound.setLink k _
  | cloneEnds k =>
    obtain ⟨-, ⟨⟩⟩ := guarded h
    exact inv.beside rfl rfl fun sound => sound.cloneEnds k

end State

theorem inv_reachable {s : State} (h : owner.Reachable s) : s.Inv := by
  refine System.ReachableBy.invariant (P := State.Inv) ?_ ?_ h
  · rintro s ⟨ttl, now, rfl⟩
    refine ⟨rfl, fun _ => ?_⟩
    exact
      { clones := rfl, pending := Nat.le_refl 0, reaped := rfl, count := rfl, kept := fun _ => rfl
        events := nofun, dead := nofun, past := nofun, idle := nofun }
  · intro s e t _ inv _ next
    exact inv.step next

def State.earlier (s : State) : Nat := s.acknowledged - s.stage.acknowledged

def Unharmed (s t : State) : Prop :=
  ∀ k < s.earlier, (s.clone k).alive = true → (t.clone k).alive = true

instance (s t : State) : Decidable (Unharmed s t) := Nat.decidableBallLT _ _

theorem step_finish {s t : State} {e : Event} (next : s.step e = some t) :
    t.stage = s.stage ∨ t.stage.isEnded = false ∨ ∃ u how, t = State.finish u how := by
  cases e with
  | fork made =>
    simp only [State.step, State.fork] at next
    split at next
    · obtain rfl := Option.some.inj next
      cases made with
      | false => exact .inr (.inr ⟨_, _, rfl⟩)
      | true => exact .inr (.inl rfl)
    · cases next
  | reply =>
    simp only [State.step, State.reply] at next
    split at next
    · obtain ⟨⟨l, got⟩, -, rfl⟩ := Option.map_eq_some_iff.mp next
      cases got with
      | event => exact .inl rfl
      | failed => exact .inr (.inr ⟨_, _, rfl⟩)
      | reply tag r =>
        cases r with
        | forked => exact .inr (.inl rfl)
        | ready | exited | frozen | error => exact .inr (.inr ⟨_, _, rfl⟩)
    · obtain ⟨⟨l, got⟩, -, rfl⟩ := Option.map_eq_some_iff.mp next
      cases got with
      | event => exact .inl rfl
      | failed => exact .inr (.inr ⟨_, _, rfl⟩)
      | reply tag r =>
        cases r with
        | forked => exact .inr (.inl rfl)
        | ready | exited | frozen | error => exact .inr (.inr ⟨_, _, rfl⟩)
    · cases next
  | fails =>
    simp only [State.step, State.fails] at next
    split at next
    · exact .inr (.inr ⟨_, _, (Option.some.inj next).symm⟩)
    · exact .inr (.inr ⟨_, _, (Option.some.inj next).symm⟩)
    · exact .inr (.inr ⟨_, _, (Option.some.inj next).symm⟩)
    · cases next
  | drain =>
    simp only [State.step, State.drain] at next
    split at next
    next r rest stage first =>
      obtain ⟨l, -, rfl⟩ := Option.map_eq_some_iff.mp next
      cases r with
      | exited => exact .inr (.inl rfl)
      | ready | frozen | forked | error => exact .inr (.inr ⟨_, _, rfl⟩)
    next => cases next
  | drained =>
    simp only [State.step] at next
    split at next
    · obtain ⟨-, ⟨⟩⟩ := guarded next
      exact .inr (.inl rfl)
    · cases next
  | check =>
    obtain ⟨-, ⟨⟩⟩ := guarded next
    unfold State.check
    split
    · exact .inr (.inr ⟨_, _, rfl⟩)
    · exact .inr (.inl rfl)
  | timeout =>
    obtain ⟨-, ⟨⟩⟩ := guarded next
    exact .inr (.inl rfl)
  | disconnected =>
    obtain ⟨-, ⟨⟩⟩ := guarded next
    exact .inr (.inr ⟨_, _, rfl⟩)
  | tick =>
    obtain rfl := Option.some.inj next
    exact .inl rfl
  | hostForks | hostRefuses | hostReaps | hostDies | cloneSends | cloneEnds =>
    obtain ⟨-, ⟨⟩⟩ := guarded next
    exact .inl rfl

theorem dead_of_ended {s t : State} {e : Event} (next : s.step e = some t)
    (serving : s.stage.isEnded = false) (ended : t.stage.isEnded = true) (k : Nat) :
    (t.clone k).alive = false := by
  rcases step_finish next with same | serves | ⟨u, how, rfl⟩
  · rw [same, serving] at ended
    cases ended
  · rw [serves] at ended
    cases ended
  · rfl

/-- A fork that fails while the host is up leaves the earlier clones running only if none ran. -/
theorem failed_fork_harmless_iff {s t : State} {e : Event} (_ : owner.Reachable s)
    (next : s.step e = some t) (serving : s.stage.isEnded = false)
    (failed : t.stage = .ended .forkFailed) (_ : s.up = true) :
    Unharmed s t ↔ ∀ k < s.earlier, (s.clone k).alive = false := by
  constructor
  · intro unharmed k before
    cases is : (s.clone k).alive with
    | false => rfl
    | true =>
      have runs := unharmed k before is
      rw [dead_of_ended next serving (by rw [failed]; rfl) k] at runs
      cases runs
  · intro none k before runs
    rw [none k before] at runs
    cases runs

/-- The host refuses a fork after its only clone ended. -/
theorem failed_fork_harmless_after_end : ∃ s, owner.Reachable s ∧
    (s.up = true ∧ s.earlier = 1 ∧ (s.clone 0).alive = false ∧
      (s.step .reply).any (fun t => decide (t.stage = .ended .forkFailed)) = true) ∧
    ∀ t, s.step .reply = some t → Unharmed s t := by
  have reached : ∃ s, owner.Reachable s ∧
      ((s.stage = .forking ∧ s.up = true ∧ s.earlier = 1 ∧ (s.clone 0).alive = false) ∧
        (s.step .reply).any (fun t => decide (t.stage = .ended .forkFailed)) = true) := by
    refine System.exists_reachable_of_run (s := { ttl := 5, now := 0, idleSince := 0 })
      (l := [.fork true, .hostForks 80, .cloneSends 0 (.forked 0 80), .reply, .reply,
        .cloneEnds 0, .fork true, .hostRefuses "fork failed"])
      (.init ⟨5, 0, rfl⟩) (by decide +kernel)
  obtain ⟨s, reachable, ⟨stage, up, one, ended⟩, fails⟩ := reached
  refine ⟨s, reachable, ⟨up, one, ended, fails⟩, fun t next => ?_⟩
  have failed : t.stage = .ended .forkFailed := by simpa [next] using fails
  refine (failed_fork_harmless_iff reachable next (by rw [stage]; rfl) failed up).mpr ?_
  intro k before
  obtain rfl : k = 0 := by omega
  exact ended

/-- The host refuses a fork, and the clone it forked before ends with it. -/
theorem failed_fork_kills_clone : ∃ s, owner.Reachable s ∧
    (s.stage = .forking ∧ s.up = true ∧ s.earlier = 1 ∧ (s.clone 0).alive = true) ∧
    (s.step .reply).any
      (fun t => decide (t.stage = .ended .forkFailed ∧ ¬ Unharmed s t)) = true := by
  refine System.exists_reachable_of_run (s := { ttl := 5, now := 0, idleSince := 0 })
    (l := [.fork true, .hostForks 80, .cloneSends 0 (.forked 0 80), .reply, .reply,
      .fork true, .hostRefuses "fork failed"])
    (.init ⟨5, 0, rfl⟩) (by decide +kernel)

end ServiceCache.Owner
