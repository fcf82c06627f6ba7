import ServiceCache.Control.Turns

/-!
# A frozen host keeps what a fork needs

The clone's `rebuild` wants the guest's handle, the listener and the snapshot. They are there
in every serving state of a frozen host, through any chain of forks.
-/

namespace ServiceCache.Control

open Function
open Transition (System)

def Stage.phase? : Stage → Option Phase
  | .waiting (some .prepare) | .ticking (some .prepare) _ | .reaping (some .prepare) _
  | .receiving (some .prepare) | .checking .prepare => some .fresh
  | .starting | .started _ | .startReceiving => some (.running false)
  | .freezing | .rebuilding _ => some .frozen
  | .announcing => some (.running true)
  | _ => none

namespace Host

structure Sound (h : Host) : Prop where
  staged : ∀ p, h.stage.phase? = some p → h.phase = p
  guest : ∀ b, h.phase = .running b → h.guest.isSome = true
  listening : h.listening = true → h.adopted.isSome = true
  probe : h.probe.isSome = true → h.adopted.isSome = true
  ready : h.phase = .running true → h.adopted.isSome = true
  frozen : h.phase = .frozen → h.guest.isSome = true ∧ h.adopted.isSome = true
  snapshot : h.phase = .frozen → h.stage ≠ .freezing → h.stage ≠ .ended → h.sharedMemory = true
  compaction : h.compaction = true → h.phase = .frozen
  scans : ∀ p ∈ h.scans, p = .frozen

def Froze (h : Host) : Prop := h.phase = .frozen ∧ ∀ l, h.stage ≠ .rebuilding l

section Kept

variable {h : Host}

theorem sound_new (pid : Nat) (manifest : Manifest) : (Host.new pid manifest).Sound where
  staged _ is := by cases is
  guest _ is := by cases is
  listening is := by cases is
  probe is := by cases is
  ready is := by cases is
  frozen is := by cases is
  snapshot is := by cases is
  compaction is := by cases is
  scans _ mem := by cases mem

theorem Sound.goTo (sound : h.Sound) {stage : Stage} (fits : ∀ p, stage.phase? = some p → h.phase = p)
    (freezing : h.stage ≠ .freezing) (ended : h.stage ≠ .ended) : (h.goTo stage).host.Sound :=
  { sound with
    staged := fits
    snapshot := fun is _ _ => sound.snapshot is freezing ended }

theorem Sound.end (sound : h.Sound) : (h.goTo .ended).host.Sound :=
  { sound with
    staged := nofun
    snapshot := fun _ _ past => absurd rfl past }

theorem Sound.answer (sound : h.Sound) (r : Reply) (freezing : h.stage ≠ .freezing)
    (ended : h.stage ≠ .ended) : (h.answer r).host.Sound :=
  sound.goTo (nofun) freezing ended

theorem Sound.drain (sound : h.Sound) : Sound { h with listening := false, probed := false } :=
  { sound with listening := nofun }

theorem Sound.prepared (sound : h.Sound) (fresh : h.phase = .fresh) (r : Reply) :
    ({ h with phase := .prepared }.answer r).host.Sound :=
  { sound with
    staged := nofun
    guest := nofun
    ready := nofun
    frozen := nofun
    snapshot := nofun
    compaction := fun is => by
      have := sound.compaction is
      rw [fresh] at this
      cases this }

section Handled

variable {frame : Frame} (sound : h.Sound) (at_ : h.stage = .handling frame)

include sound at_

theorem Sound.goOn {stage : Stage} (fits : ∀ p, stage.phase? = some p → h.phase = p) :
    (h.goTo stage).host.Sound :=
  sound.goTo fits (by simp [at_]) (by simp [at_])

theorem Sound.refused (text : String) : (h.refuse text).host.Sound :=
  sound.answer _ (by simp [at_]) (by simp [at_])

theorem Sound.handlePrepare (first second : Option String) :
    (h.handlePrepare first second).host.Sound := by
  unfold Host.handlePrepare
  split
  next => exact sound.refused at_ _
  next fresh =>
    have fresh : h.phase = .fresh := by simpa using fresh
    split
    · split
      · exact sound.refused at_ _
      · have begun : Sound { h with run := none } := { sound with staged := sound.staged }
        refine begun.goOn at_ fun p is => ?_
        cases is
        exact fresh
    · exact sound.prepared fresh _

theorem Sound.handleStart (fds : List Nat) (first second : Option String) :
    (h.handleStart fds first second).host.Sound := by
  unfold Host.handleStart
  split
  next => exact sound.refused at_ _
  next early =>
    have compaction : h.compaction ≠ true := by
      intro is
      rw [sound.compaction is] at early
      exact early (by simp)
    split
    next listener =>
      split
      · exact sound.refused at_ _
      · split
        · exact sound.refused at_ _
        · have passed : Sound { h with passed := some listener } :=
            { sound with staged := sound.staged }
          exact passed.refused at_ _
        · exact { sound with
            staged := fun p is => by
              cases is
              rfl
            guest := fun _ _ => rfl
            ready := nofun
            frozen := nofun
            snapshot := nofun
            compaction := fun is => absurd is compaction }
    next => exact sound.refused at_ _

theorem Sound.handleInitialize (first second : Option String) :
    (h.handleInitialize first second).host.Sound := by
  unfold Host.handleInitialize
  split
  next => exact sound.refused at_ _
  next =>
    split
    · split
      · exact sound.refused at_ _
      · exact sound.refused at_ _
      · have begun : Sound { h with run := none } := { sound with staged := sound.staged }
        exact begun.goOn at_ fun p is => by cases is
    · exact sound.refused at_ _

theorem Sound.handleFreeze : h.handleFreeze.host.Sound := by
  unfold Host.handleFreeze
  split
  next => exact sound.refused at_ _
  next ready =>
    have ready : h.phase = .running true := by simpa using ready
    exact { sound with
      staged := fun p is => by
        cases is
        rfl
      guest := nofun
      ready := nofun
      frozen := fun _ => ⟨sound.guest true ready, sound.ready ready⟩
      snapshot := fun _ freezing => absurd rfl freezing
      compaction := fun _ => rfl }

theorem Sound.handleFork (fds : List Nat) (first second : Option String) (pid : Nat) :
    (h.handleFork fds first second pid).host.Sound ∧
      ∀ c ∈ (h.handleFork fds first second pid).child,
        c.2.Sound ∧ ∃ listener, c.2.stage = .rebuilding listener := by
  have refused (text : String) : (h.refuse text).host.Sound ∧
      ∀ c ∈ (h.refuse text).child, c.2.Sound ∧ ∃ listener, c.2.stage = .rebuilding listener :=
    ⟨sound.refused at_ text, fun c none => nomatch none⟩
  unfold Host.handleFork
  split
  next => exact refused _
  next frozen =>
    have frozen : h.phase = .frozen := by simpa using frozen
    split
    next control listener =>
      split
      · exact refused _
      · refine ⟨sound.answer (.forked pid listener) (by simp [at_]) (by simp [at_]), fun c is => ?_⟩
        cases is
        refine ⟨{ sound with staged := ?_, snapshot := ?_, scans := ?_ }, listener, rfl⟩
        · intro p is
          cases is
          exact frozen
        · exact fun _ _ _ => sound.snapshot frozen (by simp [at_]) (by simp [at_])
        · exact fun _ mem => nomatch mem
    next => exact refused _

end Handled

theorem Sound.tick (sound : h.Sound) {busy : Option Job} {readable : Bool}
    (at_ : h.stage = .ticking busy readable) : (h.tick busy readable).host.Sound := by
  have fits : ∀ p, (Stage.reaping busy readable).phase? = some p → h.phase = p := by
    intro p is
    refine sound.staged p ?_
    rw [at_]
    cases busy with
    | none => cases is
    | some run => cases run <;> exact is
  have next : ({ h with listening := false, probed := false }.goTo (.reaping busy readable)).host.Sound :=
    sound.drain.goTo fits (by simp [at_]) (by simp [at_])
  unfold Host.tick
  dsimp only
  split
  · split
    · exact sound.drain.end
    · exact next
  · exact next

theorem Sound.reap (sound : h.Sound) {busy : Option Job} {readable : Bool}
    (at_ : h.stage = .reaping busy readable) : (h.reap busy readable).host.Sound := by
  unfold Host.reap
  split
  next => exact { sound with staged := sound.staged }
  next =>
    refine sound.goTo (fun p is => sound.staged p ?_) (by simp [at_]) (by simp [at_])
    rw [at_]
    cases busy with
    | none => cases readable <;> cases is
    | some run => cases run <;> cases readable <;> exact is

theorem Sound.compact (sound : h.Sound) (at_ : h.stage = .compacting) (done : Bool) :
    (h.compact done).host.Sound := by
  unfold Host.compact
  split
  next scanning =>
    have scanned : Sound { h with scans := h.scans ++ [h.phase], compaction := !done } :=
      { sound with
        compaction := fun _ => sound.compaction scanning
        scans := fun p mem => by
          obtain old | new := List.mem_append.mp mem
          · exact sound.scans p old
          · rw [List.mem_singleton.mp new]
            exact sound.compaction scanning }
    exact scanned.goTo (nofun) (by simp [at_]) (by simp [at_])
  next => exact sound.goTo (nofun) (by simp [at_]) (by simp [at_])

theorem Sound.refuseWhileBusy (sound : h.Sound) (frame : Option Frame) (why : String) {loop : Stage}
    (fits : ∀ p, loop.phase? = some p → h.phase = p) (freezing : h.stage ≠ .freezing)
    (ended : h.stage ≠ .ended) : (h.refuseWhileBusy frame why loop).host.Sound := by
  unfold Host.refuseWhileBusy
  split
  · exact sound.end
  · split
    · exact sound.end
    · exact sound.goTo fits freezing ended

theorem Sound.finished (sound : h.Sound) {job : Job} (at_ : h.stage = .checking job) (status : Int) :
    (h.finished job status).host.Sound := by
  unfold Host.finished
  split
  · exact sound.prepared (sound.staged _ (by rw [at_]; rfl)) _
  · exact sound.answer _ (by simp [at_]) (by simp [at_])

theorem Sound.becomeReady (sound : h.Sound) (running : h.phase = .running false)
    (bound : h.adopted.isSome = true) (endpoint : Option String) :
    (h.becomeReady endpoint).host.Sound := by
  have ready (r : Reply) : ({ h with phase := .running true }.answer r).host.Sound :=
    { sound with
      staged := nofun
      guest := fun _ _ => sound.guest false running
      ready := fun _ => bound
      frozen := nofun
      snapshot := nofun
      compaction := fun is => by
        have := sound.compaction is
        rw [running] at this
        cases this }
  unfold Host.becomeReady
  dsimp only
  split
  · exact ready _
  · exact ready _

theorem Sound.startProbed (sound : h.Sound) {readable : Bool} (at_ : h.stage = .started readable)
    (probed : Bool) (endpoint : Option String) :
    (h.startProbed probed readable endpoint).host.Sound := by
  have running : h.phase = .running false := sound.staged _ (by rw [at_]; rfl)
  have answered (r : Reply) : (h.answer r).host.Sound :=
    sound.answer r (by simp [at_]) (by simp [at_])
  unfold Host.startProbed
  split
  · split
    next passed => exact sound.becomeReady running (sound.probe (by simp [passed])) endpoint
    next => exact answered _
    next => exact answered _
  · split
    · exact answered _
    · refine sound.goTo (fun p is => ?_) (by simp [at_]) (by simp [at_])
      split at is <;> cases is <;> exact running

theorem Sound.turn (sound : h.Sound) {readable : Bool} (at_ : h.stage = .started readable)
    (endpoint probe : Option String) : (h.turn readable endpoint probe).host.Sound := by
  have running : h.phase = .running false := sound.staged _ (by rw [at_]; rfl)
  have drained := sound.drain
  have refused (text : String) :
      ({ h with listening := false, probed := false }.refuse text).host.Sound :=
    drained.answer _ (by simp [at_]) (by simp [at_])
  unfold Host.turn
  dsimp only
  split
  next listening =>
    have bound := sound.listening listening
    split
    · split
      · split
        · exact refused _
        · exact refused _
        · have begun : Sound { h with listening := false, probed := false, probe := some .running } :=
            { drained with probe := fun _ => bound }
          exact begun.startProbed at_ _ _
      · exact drained.startProbed at_ _ _
    · exact drained.becomeReady running bound _
  next => exact drained.startProbed at_ _ _

theorem Sound.froze (sound : h.Sound) (at_ : h.stage = .freezing) (result : Except String Nat) :
    (h.froze result).host.Sound := by
  have frozen : h.phase = .frozen := sound.staged _ (by rw [at_]; rfl)
  unfold Host.froze
  split
  · exact { sound with
      staged := nofun
      snapshot := fun _ _ _ => rfl
      compaction := fun _ => frozen }
  · exact sound.end

theorem rebuilt_eq (listener : Nat) (fails : RebuildStep → Option String)
    (snapshot : h.sharedMemory = true) (bound : h.adopted.isSome = true) :
    h.rebuilt listener fails =
      match [RebuildStep.inherit, .reshare, .runtime, .replace, .selector, .resurrect].findSome? fails with
      | some text => .error text
      | none => .ok { h with adopted := some listener } := by
  have unbound : h.adopted.isNone = false := by
    rw [← Option.not_isSome, bound]
    rfl
  simp only [rebuilt, snapshot, unbound, Bool.true_eq_false, Bool.false_eq_true, if_false,
    List.findSome?]
  cases fails .inherit with
  | some text => rfl
  | none => cases fails .reshare with
    | some text => rfl
    | none => cases fails .runtime with
      | some text => rfl
      | none => cases fails .replace with
        | some text => rfl
        | none => cases fails .selector with
          | some text => rfl
          | none => cases fails .resurrect <;> rfl

theorem rebuilt_error {listener : Nat} {fails : RebuildStep → Option String} {text : String}
    (snapshot : h.sharedMemory = true) (bound : h.adopted.isSome = true)
    (error : h.rebuilt listener fails = .error text) : ∃ step, fails step = some text := by
  rw [rebuilt_eq listener fails snapshot bound] at error
  split at error
  next found =>
    cases error
    obtain ⟨step, -, fault⟩ := List.exists_of_findSome?_eq_some found
    exact ⟨step, fault⟩
  next => cases error

theorem Sound.rebuild (sound : h.Sound) {listener : Nat} (at_ : h.stage = .rebuilding listener)
    (fails : RebuildStep → Option String) : (h.rebuild listener fails).host.Sound := by
  have frozen : h.phase = .frozen := sound.staged _ (by rw [at_]; rfl)
  obtain ⟨guest, bound⟩ := sound.frozen frozen
  have snapshot := sound.snapshot frozen (by simp [at_]) (by simp [at_])
  unfold Host.rebuild
  rw [rebuilt_eq listener fails snapshot bound]
  cases [RebuildStep.inherit, .reshare, .runtime, .replace, .selector, .resurrect].findSome? fails with
  | some text => exact sound.end
  | none =>
    exact {
      staged := fun p is => by
        cases is
        rfl
      guest := fun _ _ => guest
      listening := fun _ => rfl
      probe := fun _ => rfl
      ready := fun _ => rfl
      frozen := nofun
      snapshot := nofun
      compaction := nofun
      scans := sound.scans }

theorem Sound.announce (sound : h.Sound) (at_ : h.stage = .announcing) (endpoint : Option String) :
    (h.announce endpoint).host.Sound := by
  unfold Host.announce
  split
  · exact sound.goTo (nofun) (by simp [at_]) (by simp [at_])
  · exact sound.end

theorem Sound.loopStep (sound : h.Sound) {fresh : Nat} {a : Act} {effect : Effect}
    (step : h.loopStep fresh a = some effect) : effect.host.Sound := by
  cases a with
  | poll readable =>
    simp only [Host.loopStep] at step
    split at step <;> cases step
    next busy at_ =>
      refine sound.goTo (fun p is => sound.staged p ?_) (by simp [at_]) (by simp [at_])
      rw [at_]
      cases busy with
      | none => cases is
      | some run => cases run <;> exact is
    next at_ =>
      refine sound.goTo (fun p is => sound.staged p ?_) (by simp [at_]) (by simp [at_])
      rw [at_]
      exact is
  | tick =>
    simp only [Host.loopStep] at step
    split at step <;> cases step
    next at_ => exact sound.tick at_
  | reap =>
    simp only [Host.loopStep] at step
    split at step <;> cases step
    next at_ => exact sound.reap at_
  | compact done =>
    simp only [Host.loopStep] at step
    split at step <;> cases step
    next at_ => exact sound.compact at_ done
  | recv frame =>
    simp only [Host.loopStep] at step
    split at step
    next at_ =>
      split at step <;> cases step
      · exact sound.goTo (fun _ is => by cases is) (by simp [at_]) (by simp [at_])
      · exact sound.end
    next run at_ =>
      cases step
      refine sound.refuseWhileBusy frame _ (fun p is => sound.staged p ?_) (by simp [at_])
        (by simp [at_])
      rw [at_]
      cases run <;> exact is
    next at_ =>
      cases step
      refine sound.refuseWhileBusy frame _ (fun p is => sound.staged p ?_) (by simp [at_])
        (by simp [at_])
      rw [at_]
      exact is
    next => cases step
  | handle first second =>
    simp only [Host.loopStep] at step
    split at step <;> cases step
    next frame at_ =>
      unfold Host.handle
      split
      · exact sound.handlePrepare at_ _ _
      · exact sound.handleStart at_ _ _ _
      · exact sound.handleInitialize at_ _ _
      · exact sound.handleFreeze at_
      · exact (sound.handleFork at_ _ _ _ _).1
      · exact sound.end
  | check =>
    simp only [Host.loopStep] at step
    split at step
    next run at_ =>
      split at step <;> cases step
      · exact sound.finished at_ _
      · refine sound.goTo (fun p is => sound.staged p ?_) (by simp [at_]) (by simp [at_])
        rw [at_]
        cases run <;> exact is
    next => cases step
  | turn endpoint probe =>
    simp only [Host.loopStep] at step
    split at step <;> cases step
    next at_ => exact sound.turn at_ _ _
  | froze result =>
    simp only [Host.loopStep] at step
    split at step <;> cases step
    next at_ => exact sound.froze at_ _
  | rebuild fails =>
    simp only [Host.loopStep] at step
    split at step <;> cases step
    next at_ => exact sound.rebuild at_ _
  | announce endpoint =>
    simp only [Host.loopStep] at step
    split at step <;> cases step
    next at_ => exact sound.announce at_ _
  | die =>
    simp only [Host.loopStep] at step
    split at step <;> cases step
    exact sound.end
  | runEnds | guestExits | bind | listen | probeEnds | childExits => cases step

theorem Sound.besideStep (sound : h.Sound) {a : Act} {h' : Host} (step : h.besideStep a = some h') :
    h'.Sound := by
  cases a with
  | runEnds status =>
    simp only [Host.besideStep] at step
    split at step <;> cases step
    exact { sound with staged := sound.staged }
  | guestExits status =>
    simp only [Host.besideStep] at step
    split at step <;> cases step
    exact { sound with
      guest := fun _ _ => rfl
      frozen := fun is => ⟨rfl, (sound.frozen is).2⟩ }
  | bind registered =>
    simp only [Host.besideStep] at step
    split at step <;> cases step
    next address passed =>
      have kept (bound : h.adopted.isSome = true) :
          (if registered then some address else h.adopted).isSome = true := by
        cases registered
        · exact bound
        · rfl
      exact { sound with
        listening := fun is => kept (sound.listening is)
        probe := fun is => kept (sound.probe is)
        ready := fun is => kept (sound.ready is)
        frozen := fun is => ⟨(sound.frozen is).1, kept (sound.frozen is).2⟩ }
  | listen =>
    simp only [Host.besideStep] at step
    split at step <;> cases step
    next bound => exact { sound with listening := fun _ => bound }
  | probeEnds failed =>
    simp only [Host.besideStep] at step
    split at step <;> cases step
    next running => exact { sound with probe := fun _ => sound.probe (by simp [running]) }
  | childExits pid status =>
    cases step
    exact { sound with staged := sound.staged }
  | _ => cases step

theorem Sound.step (sound : h.Sound) {fresh : Nat} {a : Act} {effect : Effect}
    (step : h.step fresh a = some effect) : effect.host.Sound := by
  unfold Host.step at step
  split at step
  next beside =>
    cases step
    exact sound.besideStep beside
  next => exact sound.loopStep step

theorem Sound.child (sound : h.Sound) {fresh : Nat} {a : Act} {effect : Effect}
    (step : h.step fresh a = some effect) {c : Nat × Host} (forked : effect.child = some c) :
    c.2.Sound ∧ ∃ listener, c.2.stage = .rebuilding listener := by
  cases turn_of_step step with
  | @fork first second host child frame control listener before fds after young copy =>
    change h.loopStep fresh (.handle first second) = _ at step
    simp only [Host.loopStep, before, Host.handle, fds.1, Option.some.injEq] at step
    exact (sound.handleFork before _ _ _ _).2 c (by rw [step]; exact forked)
  | _ => cases forked

section Frozen

variable (frozen : h.phase = .frozen)

include frozen

theorem froze_goTo {stage : Stage} (grown : ∀ l, stage ≠ .rebuilding l) : (h.goTo stage).host.Froze :=
  ⟨frozen, grown⟩

theorem froze_answer (r : Reply) : (h.answer r).host.Froze := ⟨frozen, nofun⟩

theorem froze_handle (frame : Frame) (first second : Option String) (pid : Nat) :
    (h.handle frame first second pid).host.Froze := by
  unfold Host.handle
  split
  · unfold Host.handlePrepare
    rw [if_pos (by simp [frozen])]
    exact froze_answer frozen _
  · unfold Host.handleStart
    rw [if_pos (by simp [frozen])]
    exact froze_answer frozen _
  · unfold Host.handleInitialize
    rw [if_pos (by simp [frozen])]
    exact froze_answer frozen _
  · unfold Host.handleFreeze
    rw [if_pos (by simp [frozen])]
    exact froze_answer frozen _
  · unfold Host.handleFork
    split
    · exact froze_answer frozen _
    · split
      next control listener _ =>
        split
        · exact froze_answer frozen _
        · exact froze_answer frozen (.forked pid listener)
      next => exact froze_answer frozen _
  · exact froze_goTo frozen (nofun)

end Frozen

theorem Froze.loopStep (froze : h.Froze) (sound : h.Sound) {fresh : Nat} {a : Act} {effect : Effect}
    (step : h.loopStep fresh a = some effect) : effect.host.Froze := by
  obtain ⟨frozen, grown⟩ := froze
  have not {stage : Stage} {p : Phase} (at_ : h.stage = stage) (is : stage.phase? = some p)
      (ne : p ≠ .frozen) : False := by
    have := sound.staged p (by rw [at_]; exact is)
    exact ne (this.symm.trans frozen)
  cases a with
  | poll readable =>
    simp only [Host.loopStep] at step
    split at step <;> cases step
    · exact froze_goTo frozen (by simp)
    · exact froze_goTo frozen (by simp)
  | tick =>
    simp only [Host.loopStep] at step
    split at step <;> cases step
    unfold Host.tick
    dsimp only
    split
    · rw [if_neg (by simp [frozen])]
      exact ⟨frozen, fun _ is => by cases is⟩
    · exact ⟨frozen, fun _ is => by cases is⟩
  | reap =>
    simp only [Host.loopStep] at step
    split at step <;> cases step
    next busy readable at_ =>
      unfold Host.reap
      split
      · exact ⟨frozen, grown⟩
      · refine froze_goTo frozen fun l is => ?_
        unfold ticked at is
        split at is
        · cases is
        · split at is <;> cases is
  | compact done =>
    simp only [Host.loopStep] at step
    split at step <;> cases step
    unfold Host.compact
    split <;> exact ⟨frozen, fun _ is => by cases is⟩
  | recv frame =>
    have busy {why : String} {loop : Stage} (mode : ∀ l, loop ≠ .rebuilding l) :
        (h.refuseWhileBusy frame why loop).host.Froze := by
      unfold Host.refuseWhileBusy
      split
      · exact froze_goTo frozen (by simp)
      · split
        · exact froze_goTo frozen (by simp)
        · exact ⟨frozen, mode⟩
    simp only [Host.loopStep] at step
    split at step
    · split at step <;> cases step <;> exact froze_goTo frozen (by simp)
    · cases step
      exact busy (by simp)
    · cases step
      exact busy (by simp)
    · cases step
  | handle first second =>
    simp only [Host.loopStep] at step
    split at step <;> cases step
    exact froze_handle frozen _ _ _ _
  | check =>
    simp only [Host.loopStep] at step
    split at step
    next run at_ =>
      split at step <;> cases step
      · cases run with
        | prepare => exact (not at_ rfl (by decide)).elim
        | _ => exact froze_answer frozen _
      · exact froze_goTo frozen (by simp)
    next => cases step
  | turn endpoint probe =>
    simp only [Host.loopStep] at step
    split at step <;> cases step
    next at_ => exact (not at_ rfl (by decide)).elim
  | froze result =>
    simp only [Host.loopStep] at step
    split at step <;> cases step
    unfold Host.froze
    split <;> exact ⟨frozen, fun _ is => by cases is⟩
  | rebuild fails =>
    unfold Host.loopStep at step
    dsimp only at step
    split at step
    next at_ => exact absurd at_ (grown _)
    next => cases step
  | announce endpoint =>
    simp only [Host.loopStep] at step
    split at step <;> cases step
    next at_ => exact (not at_ rfl (by decide)).elim
  | die =>
    simp only [Host.loopStep] at step
    split at step <;> cases step
    exact froze_goTo frozen (by simp)
  | runEnds | guestExits | bind | listen | probeEnds | childExits => cases step

theorem Froze.step (froze : h.Froze) (sound : h.Sound) {fresh : Nat} {a : Act} {effect : Effect}
    (step : h.step fresh a = some effect) : effect.host.Froze := by
  unfold Host.step at step
  split at step
  next beside =>
    cases step
    obtain ⟨stage, phase, -⟩ := besideStep_keeps beside
    exact ⟨phase.trans froze.1, fun l is => froze.2 l (stage.symm.trans is)⟩
  next => exact froze.loopStep sound step

end Kept

end Host

section Runs

variable {s t : Family}

theorem fresh_reachable (h : family.Reachable s) : ∀ p, s.next ≤ p → s.host p = none := by
  refine System.ReachableBy.invariant (P := fun s => ∀ p, s.next ≤ p → s.host p = none)
    (fun s start => ?_) (fun s e t _ old _ next => ?_) h
  · rw [show s = {} from start]
    exact fun _ _ => rfl
  · cases e with
    | spawn manifest =>
      cases next
      intro p le
      change s.next + 1 ≤ p at le
      change update s.host s.next _ p = none
      rw [update_of_ne (by omega)]
      exact old p (by omega)
    | act q a =>
      obtain ⟨h, there, next⟩ := Option.bind_eq_some_iff.mp next
      obtain ⟨effect, step, rfl⟩ := Option.map_eq_some_iff.mp next
      have below : q < s.next := by
        by_contra past
        rw [old q (by omega)] at there
        cases there
      intro p le
      unfold Family.take at le ⊢
      dsimp only at le ⊢
      split at le <;> dsimp only at le ⊢
      · rw [update_of_ne (by omega), update_of_ne (by omega)]
        exact old p (by omega)
      · rw [update_of_ne (by omega)]
        exact old p le

theorem host_of_step (reach : family.Reachable s) {e : FamilyEvent} (next : s.step e = some t) {p : Nat}
    {h : Host} (there : t.host p = some h) :
    (s.host p = none ∧ ((∃ manifest, h = Host.new p manifest) ∨
      ∃ q g a effect c, s.host q = some g ∧ g.step s.next a = some effect ∧ effect.child = some c ∧
        h = c.2)) ∨
    ∃ g, s.host p = some g ∧ (h = g ∨ ∃ a effect, g.step s.next a = some effect ∧ h = effect.host) := by
  have free := fresh_reachable reach
  cases e with
  | spawn manifest =>
    cases next
    change update s.host s.next _ p = some h at there
    by_cases is : p = s.next
    · subst is
      rw [update_self] at there
      cases there
      exact .inl ⟨free _ (Nat.le_refl _), .inl ⟨manifest, rfl⟩⟩
    · rw [update_of_ne is] at there
      exact .inr ⟨h, there, .inl rfl⟩
  | act q a =>
    obtain ⟨g, at_, next⟩ := Option.bind_eq_some_iff.mp next
    obtain ⟨effect, step, rfl⟩ := Option.map_eq_some_iff.mp next
    have moved (there : update s.host q (some effect.host) p = some h) :
        ∃ g, s.host p = some g ∧
          (h = g ∨ ∃ a effect, g.step s.next a = some effect ∧ h = effect.host) := by
      by_cases is : p = q
      · subst is
        rw [update_self] at there
        cases there
        exact ⟨g, at_, .inr ⟨a, effect, step, rfl⟩⟩
      · rw [update_of_ne is] at there
        exact ⟨h, there, .inl rfl⟩
    unfold Family.take at there
    dsimp only at there
    split at there
    next control child forked =>
      change update (update s.host q _) s.next (some child) p = some h at there
      by_cases is : p = s.next
      · subst is
        rw [update_self] at there
        cases there
        exact .inl ⟨free _ (Nat.le_refl _), .inr ⟨q, g, a, effect, _, at_, step, forked, rfl⟩⟩
      · rw [update_of_ne is] at there
        exact .inr (moved there)
    next => exact .inr (moved there)

theorem sound_reachable (h : family.Reachable s) : ∀ p h, s.host p = some h → h.Sound := by
  refine System.ReachableBy.invariant (P := fun s => ∀ p h, s.host p = some h → h.Sound)
    (fun s start => ?_) (fun s e t reach sound _ next => ?_) h
  · rw [show s = {} from start]
    intro p h there
    cases there
  · intro p h there
    obtain ⟨-, ⟨manifest, rfl⟩ | ⟨q, g, a, effect, c, at_, step, forked, rfl⟩⟩ |
      ⟨g, at_, rfl | ⟨a, effect, step, rfl⟩⟩ := host_of_step reach next there
    · exact Host.sound_new p manifest
    · exact ((sound q g at_).child step forked).1
    · exact sound p h at_
    · exact (sound p g at_).step step

theorem host_kept (reach : family.Reachable s) {e : FamilyEvent} (next : s.step e = some t) {p : Nat}
    {h : Host} (there : s.host p = some h) : ∃ h', t.host p = some h' := by
  have old : p ≠ s.next := by
    rintro rfl
    rw [fresh_reachable reach _ (Nat.le_refl _)] at there
    cases there
  cases e with
  | spawn manifest =>
    cases next
    refine ⟨h, ?_⟩
    change update s.host s.next _ p = some h
    rwa [update_of_ne old]
  | act q a =>
    obtain ⟨g, -, next⟩ := Option.bind_eq_some_iff.mp next
    obtain ⟨effect, -, rfl⟩ := Option.map_eq_some_iff.mp next
    have moved : ∃ h', update s.host q (some effect.host) p = some h' := by
      by_cases is : p = q
      · subst is
        exact ⟨_, update_self ..⟩
      · rw [update_of_ne is]
        exact ⟨h, there⟩
    unfold Family.take
    dsimp only
    split
    · change ∃ h', update (update s.host q _) s.next _ p = some h'
      rwa [update_of_ne old]
    · exact moved

theorem froze_of_run (reach : family.Reachable s) {p : Nat} {h : Host} (there : s.host p = some h)
    (froze : h.Froze) {events : List FamilyEvent} (run : family.run s events = some t) :
    ∃ h', t.host p = some h' ∧ h'.Froze := by
  refine (System.run_invariant (S := family)
    (P := fun s => family.Reachable s ∧ ∃ h, s.host p = some h ∧ h.Froze) (fun s e t old next => ?_)
    ⟨reach, h, there, froze⟩ run).2
  obtain ⟨reach, h, there, froze⟩ := old
  refine ⟨.step reach trivial next, ?_⟩
  obtain ⟨h', after⟩ := host_kept reach next there
  refine ⟨h', after, ?_⟩
  obtain ⟨new, -⟩ | ⟨g, at_, same | ⟨a, effect, step, rfl⟩⟩ := host_of_step reach next after
  · rw [there] at new
    cases new
  · rw [there] at at_
    cases at_
    rwa [same]
  · rw [there] at at_
    cases at_
    exact froze.step (sound_reachable reach p h there) step

/-- In every reachable state of every process, with any requests: a frozen host that serves has the
guest's handle, the adopted listener and the snapshot, and a clone's `rebuild` fails only where one of
its operations does; a host that froze itself stays frozen; the zero-page scan runs in a frozen host
only; and a clone that announces itself is running and ready. -/
theorem frozen_host_forkable (reach : family.Reachable s) {p : Nat} {h : Host}
    (there : s.host p = some h) :
    (h.phase = .frozen → h.stage ≠ .freezing → h.stage ≠ .ended →
      h.guest.isSome = true ∧ h.adopted.isSome = true ∧ h.sharedMemory = true) ∧
    (∀ listener, h.stage = .rebuilding listener → ∀ fails text,
      h.rebuilt listener fails = .error text → ∃ step, fails step = some text) ∧
    (h.Froze → ∀ events t, family.run s events = some t → ∃ h', t.host p = some h' ∧ h'.phase = .frozen) ∧
    (∀ phase ∈ h.scans, phase = .frozen) ∧
    (h.stage = .announcing → h.phase = .running true) ∧
    ∀ e t, s.step e = some t → ∀ q g, s.host q = none → t.host q = some g →
      (∃ manifest, g = Host.new q manifest) ∨ ∃ listener, g.stage = .rebuilding listener := by
  have sound := sound_reachable reach p h there
  refine ⟨fun frozen freezing ended => ?_, fun listener at_ fails text error => ?_,
    fun froze events t run => ?_, sound.scans, fun at_ => sound.staged _ (by rw [at_]; rfl),
    fun e t next q g free new => ?_⟩
  · exact ⟨(sound.frozen frozen).1, (sound.frozen frozen).2, sound.snapshot frozen freezing ended⟩
  · have frozen : h.phase = .frozen := sound.staged _ (by rw [at_]; rfl)
    exact Host.rebuilt_error (sound.snapshot frozen (by simp [at_]) (by simp [at_]))
      (sound.frozen frozen).2 error
  · obtain ⟨h', after, froze⟩ := froze_of_run reach there froze run
    exact ⟨h', after, froze.1⟩
  · obtain ⟨-, fresh | ⟨q', g', a, effect, c, at_, step, forked, rfl⟩⟩ | ⟨g', at_, -⟩ :=
      host_of_step reach next new
    · exact .inl fresh
    · exact .inr ((sound_reachable reach q' g' at_).child step forked).2
    · rw [free] at at_
      cases at_

def takes (p : Nat) (frame : Frame) : List FamilyEvent :=
  [.poll true, .tick, .reap, .recv (some frame), .handle none none].map (.act p)

/-- A host that is started, frozen and forked, and its clone, which is frozen, scanned and forked
again. -/
theorem frozen_host_forkable_twice : ∃ s, family.Reachable s ∧ ∃ h, s.host 1 = some h ∧
    h.phase = .frozen ∧ h.guest.isSome = true ∧ h.adopted.isSome = true ∧ h.sharedMemory = true ∧
      (s.host 2).map Host.stage = some (.rebuilding 82) := by
  obtain ⟨s, reach, clone, stage, second⟩ : ∃ s, family.Reachable s ∧
      (s.host 1).map Host.phase = some .frozen ∧ (s.host 1).map Host.stage = some (.waiting none) ∧
        (s.host 2).map Host.stage = some (.rebuilding 82) :=
    System.exists_reachable_of_run (s := ({} : Family))
      (l := .spawn {} :: takes 0 ⟨.start, [80]⟩ ++
        [Act.bind true, .listen, .poll false, .turn none none].map (.act 0) ++
        takes 0 ⟨.freeze, []⟩ ++ [.act 0 (.froze (.ok 3))] ++ takes 0 ⟨.fork, [5, 81]⟩ ++
        [Act.rebuild fun _ => none, .announce none].map (.act 1) ++
        takes 1 ⟨.freeze, []⟩ ++ [Act.froze (.ok 3), .poll false, .tick, .reap, .compact true].map (.act 1) ++
        takes 1 ⟨.fork, [6, 82]⟩)
      (.init rfl) (by decide +kernel)
  obtain ⟨h, there, phase⟩ := Option.map_eq_some_iff.mp clone
  rw [there] at stage
  have stage : h.stage = .waiting none := Option.some.inj stage
  obtain ⟨needs, -⟩ := frozen_host_forkable reach there
  obtain ⟨guest, bound, snapshot⟩ := needs phase (by simp [stage]) (by simp [stage])
  exact ⟨s, reach, h, there, phase, guest, bound, snapshot, second⟩

end Runs

end ServiceCache.Control
