import ServiceCache.Control.Host

/-!
# What a step of a host can do to its channel
-/

namespace ServiceCache.Control

inductive Mode
  | idle
  | request
  | young
  | ended
  deriving DecidableEq, Repr

def Stage.mode : Stage → Mode
  | .waiting none | .ticking none _ | .reaping none _ | .compacting | .receiving none => .idle
  | .waiting (some _) | .ticking (some _) _ | .reaping (some _) _ | .receiving (some _)
  | .handling _ | .checking _ | .starting | .started _ | .startReceiving | .freezing => .request
  | .rebuilding _ | .announcing => .young
  | .ended => .ended

def Stage.frame? : Stage → Option Frame
  | .handling frame => some frame
  | _ => none

def Reply.isChild : Reply → Bool
  | .exited .child _ _ => true
  | _ => false

inductive Turn (h : Host) (fresh : Nat) : Act → Effect → Prop
  | quiet {a : Act} {host : Host} (nothing : ∀ frame, a ≠ .recv (some frame))
      (mode : host.stage.mode = h.stage.mode ∨ host.stage.mode = .ended)
      (read : host.stage = h.stage ∨ host.stage.frame? = none) : Turn h fresh a { host }
  | take {frame : Frame} {host : Host} (before : h.stage.mode = .idle)
      (after : host.stage = .handling frame) : Turn h fresh (.recv (some frame)) { host }
  | stop {frame : Frame} {host : Host} (after : host.stage.mode = .ended) :
      Turn h fresh (.recv (some frame)) { host }
  | refuse {frame : Frame} {host : Host} (text : String) (before : h.stage.mode = .request)
      (after : host.stage.mode = .request) (read : host.stage.frame? = none) :
      Turn h fresh (.recv (some frame)) { host, sent := [.refusal (.error text)] }
  | answer {a : Act} {host : Host} (r : Reply) (nothing : ∀ frame, a ≠ .recv (some frame))
      (own : r.isChild = false) (before : h.stage.mode = .request)
      (after : host.stage.mode = .idle ∨ host.stage.mode = .ended) :
      Turn h fresh a { host, sent := [.answer r] }
  | fork {first second : Option String} {host child : Host} {frame : Frame} {control listener : Nat}
      (before : h.stage = .handling frame)
      (fds : frame.message = .fork ∧ frame.fds = [control, listener])
      (after : host.stage.mode = .idle) (young : child.stage = .rebuilding listener)
      (copy : child.pid = fresh) :
      Turn h fresh (.handle first second)
        { host, sent := [.answer (.forked fresh listener)], child := some (control, child) }
  | reap {a : Act} {host : Host} (status : Int) (pid : Nat)
      (nothing : ∀ frame, a ≠ .recv (some frame)) (same : host.stage = h.stage)
      (before : h.stage.mode = .idle ∨ h.stage.mode = .request) :
      Turn h fresh a { host, sent := [.event (.exited .child status (some pid))] }
  | guest {a : Act} {host : Host} (status : Int) (nothing : ∀ frame, a ≠ .recv (some frame))
      (before : h.stage.mode = .idle ∨ h.stage.mode = .request) (after : host.stage.mode = .ended) :
      Turn h fresh a { host, sent := [.event (.exited .guest status none)] }
  | announce {a : Act} {host : Host} (pid endpoint : Nat)
      (nothing : ∀ frame, a ≠ .recv (some frame)) (before : h.stage.mode = .young)
      (after : host.stage.mode = .idle) :
      Turn h fresh a { host, sent := [.announcement (.forked pid endpoint)] }
  | fail {a : Act} {host : Host} (text : String) (nothing : ∀ frame, a ≠ .recv (some frame))
      (before : h.stage.mode = .young) (after : host.stage.mode = .ended) :
      Turn h fresh a { host, sent := [.announcement (.error text)] }

namespace Host

section Turns

variable {h : Host} {fresh : Nat} {a : Act} (nothing : ∀ frame, a ≠ .recv (some frame))

include nothing

theorem turn_answer {r : Reply} (own : r.isChild = false) (before : h.stage.mode = .request)
    {h' : Host} : Turn h fresh a (h'.answer r) :=
  .answer r nothing own before (.inl rfl)

theorem turn_refuse (text : String) (before : h.stage.mode = .request) {h' : Host} :
    Turn h fresh a (h'.refuse text) :=
  turn_answer nothing rfl before

theorem turn_goTo {stage : Stage} (mode : stage.mode = h.stage.mode ∨ stage.mode = .ended)
    (read : stage.frame? = none) {h' : Host} : Turn h fresh a (h'.goTo stage) :=
  .quiet nothing mode (.inr read)

theorem turn_becomeReady (before : h.stage.mode = .request) {h' : Host} (endpoint : Option String) :
    Turn h fresh a (h'.becomeReady endpoint) := by
  unfold becomeReady
  dsimp only
  split
  · exact turn_answer nothing rfl before
  · exact turn_refuse nothing _ before

theorem turn_startProbed (before : h.stage.mode = .request) {h' : Host} (probed readable : Bool)
    (endpoint : Option String) : Turn h fresh a (h'.startProbed probed readable endpoint) := by
  unfold startProbed
  split
  · split
    · exact turn_becomeReady nothing before endpoint
    · exact turn_refuse nothing _ before
    · exact turn_refuse nothing _ before
  · split
    · exact turn_answer nothing rfl before
    · refine turn_goTo nothing (.inl ?_) ?_
      · rw [before]
        cases readable <;> rfl
      · cases readable <;> rfl

theorem turn_turn (before : h.stage.mode = .request) (readable : Bool)
    (endpoint probe : Option String) : Turn h fresh a (h.turn readable endpoint probe) := by
  unfold Host.turn
  dsimp only
  split
  · split
    · split
      · split
        · exact turn_refuse nothing _ before
        · exact turn_refuse nothing _ before
        · exact turn_startProbed nothing before _ _ _
      · exact turn_startProbed nothing before _ _ _
    · exact turn_becomeReady nothing before _
  · exact turn_startProbed nothing before _ _ _

theorem turn_tick {busy : Option Job} {readable : Bool} (at_ : h.stage = .ticking busy readable) :
    Turn h fresh a (h.tick busy readable) := by
  have mode : (Stage.reaping busy readable).mode = h.stage.mode := by
    rw [at_]
    cases busy <;> rfl
  have before : h.stage.mode = .idle ∨ h.stage.mode = .request := by
    rw [at_]
    cases busy
    · exact .inl rfl
    · exact .inr rfl
  unfold Host.tick
  dsimp only
  split
  · split
    · exact .guest _ nothing before rfl
    · exact turn_goTo nothing (.inl mode) rfl
  · exact turn_goTo nothing (.inl mode) rfl

theorem turn_reap {busy : Option Job} {readable : Bool} (at_ : h.stage = .reaping busy readable) :
    Turn h fresh a (h.reap busy readable) := by
  unfold Host.reap
  split
  · refine .reap _ _ nothing rfl ?_
    rw [at_]
    cases busy
    · exact .inl rfl
    · exact .inr rfl
  · refine turn_goTo nothing (.inl ?_) ?_
    · rw [at_]
      cases busy <;> cases readable <;> rfl
    · cases busy <;> cases readable <;> rfl

end Turns

theorem turn_handle {h : Host} {fresh : Nat} {frame : Frame} (at_ : h.stage = .handling frame)
    (first second : Option String) :
    Turn h fresh (.handle first second) (h.handle frame first second fresh) := by
  have nothing : ∀ frame, Act.handle first second ≠ .recv (some frame) := fun _ is => by cases is
  have before : h.stage.mode = .request := by rw [at_]; rfl
  have refuse {h' : Host} (text : String) : Turn h fresh (.handle first second) (h'.refuse text) :=
    turn_refuse nothing text before
  have on {h' : Host} {stage : Stage} (mode : stage.mode = .request) (read : stage.frame? = none) :
      Turn h fresh (.handle first second) (h'.goTo stage) :=
    turn_goTo nothing (.inl (mode.trans before.symm)) read
  unfold Host.handle
  cases message : frame.message with
  | prepare =>
    dsimp only
    unfold handlePrepare
    split
    · exact refuse _
    · split
      · split
        · exact refuse _
        · exact on rfl rfl
      · exact turn_answer nothing rfl before
  | start =>
    dsimp only
    unfold handleStart
    split
    · exact refuse _
    · split
      · split
        · exact refuse _
        · split
          · exact refuse _
          · exact refuse _
          · exact on rfl rfl
      · exact refuse _
  | runInitializer =>
    dsimp only
    unfold handleInitialize
    split
    · exact refuse _
    · split
      · split
        · exact refuse _
        · exact refuse _
        · exact on rfl rfl
      · exact refuse _
  | freeze =>
    dsimp only
    unfold handleFreeze
    split
    · exact refuse _
    · exact on rfl rfl
  | fork =>
    dsimp only
    unfold handleFork
    split
    · exact refuse _
    · split
      next control listener fds =>
        split
        · exact refuse _
        · exact .fork at_ ⟨message, fds⟩ rfl rfl rfl
      next => exact refuse _
  | stop => exact turn_goTo nothing (.inr rfl) rfl

theorem turn_refuseWhileBusy {h : Host} {fresh : Nat} (before : h.stage.mode = .request)
    (frame : Option Frame) (why : String) {loop : Stage} (mode : loop.mode = .request)
    (read : loop.frame? = none) : Turn h fresh (.recv frame) (h.refuseWhileBusy frame why loop) := by
  unfold refuseWhileBusy
  cases frame with
  | none => exact turn_goTo (fun _ is => by cases is) (.inr rfl) rfl
  | some frame =>
    dsimp only
    split
    · exact .stop rfl
    · exact .refuse _ before mode read

theorem turn_of_loopStep {h : Host} {fresh : Nat} {a : Act} {effect : Effect}
    (step : h.loopStep fresh a = some effect) : Turn h fresh a effect := by
  cases a with
  | poll readable =>
    simp only [loopStep] at step
    split at step <;> cases step
    next busy at_ =>
      refine turn_goTo (fun _ is => by cases is) (.inl ?_) rfl
      rw [at_]
      cases busy <;> rfl
    next at_ =>
      refine turn_goTo (fun _ is => by cases is) (.inl ?_) rfl
      rw [at_]
      rfl
  | tick =>
    simp only [loopStep] at step
    split at step <;> cases step
    next at_ => exact turn_tick (fun _ is => by cases is) at_
  | reap =>
    simp only [loopStep] at step
    split at step <;> cases step
    next at_ => exact turn_reap (fun _ is => by cases is) at_
  | compact done =>
    simp only [loopStep] at step
    split at step <;> cases step
    next at_ =>
      have mode : (Stage.waiting none).mode = h.stage.mode := by
        rw [at_]
        rfl
      unfold Host.compact
      split <;> exact turn_goTo (fun _ is => by cases is) (.inl mode) rfl
  | recv frame =>
    simp only [loopStep] at step
    split at step
    next at_ =>
      have before : h.stage.mode = .idle := by
        rw [at_]
        rfl
      cases frame with
      | some frame =>
        cases step
        exact .take before rfl
      | none =>
        cases step
        exact turn_goTo (fun _ is => by cases is) (.inr rfl) rfl
    next run at_ =>
      cases step
      exact turn_refuseWhileBusy (by rw [at_]; rfl) frame _ rfl rfl
    next at_ =>
      cases step
      exact turn_refuseWhileBusy (by rw [at_]; rfl) frame _ rfl rfl
    next => cases step
  | handle first second =>
    simp only [loopStep] at step
    split at step <;> cases step
    next at_ => exact turn_handle at_ first second
  | check =>
    simp only [loopStep] at step
    split at step
    next run at_ =>
      have before : h.stage.mode = .request := by
        rw [at_]
        rfl
      split at step <;> cases step
      · unfold finished
        split <;> exact turn_answer (fun _ is => by cases is) rfl before
      · exact .quiet (fun _ is => by cases is) (.inl before.symm) (.inr rfl)
    next => cases step
  | turn endpoint probe =>
    simp only [loopStep] at step
    split at step <;> cases step
    next at_ => exact turn_turn (fun _ is => by cases is) (by rw [at_]; rfl) _ _ _
  | froze result =>
    simp only [loopStep] at step
    split at step <;> cases step
    next at_ =>
      have before : h.stage.mode = .request := by
        rw [at_]
        rfl
      unfold Host.froze
      split
      · exact turn_answer (fun _ is => by cases is) rfl before
      · exact .answer _ (fun _ is => by cases is) rfl before (.inr rfl)
  | rebuild fails =>
    simp only [loopStep] at step
    split at step <;> cases step
    next at_ =>
      have before : h.stage.mode = .young := by
        rw [at_]
        rfl
      unfold Host.rebuild
      split
      · exact .quiet (fun _ is => by cases is) (.inl before.symm) (.inr rfl)
      · exact .fail _ (fun _ is => by cases is) before rfl
  | announce endpoint =>
    simp only [loopStep] at step
    split at step <;> cases step
    next at_ =>
      have before : h.stage.mode = .young := by
        rw [at_]
        rfl
      unfold Host.announce
      split
      · exact .announce _ _ (fun _ is => by cases is) before rfl
      · exact turn_goTo (fun _ is => by cases is) (.inr rfl) rfl
  | die =>
    simp only [loopStep] at step
    split at step <;> cases step
    exact turn_goTo (fun _ is => by cases is) (.inr rfl) rfl
  | runEnds | guestExits | bind | listen | probeEnds | childExits => cases step

theorem besideStep_keeps {h h' : Host} {a : Act} (step : h.besideStep a = some h') :
    h'.stage = h.stage ∧ h'.phase = h.phase ∧ ∀ frame, a ≠ .recv (some frame) := by
  cases a with
  | bind registered =>
    simp only [besideStep] at step
    split at step <;> cases step
    exact ⟨rfl, rfl, fun _ is => by cases is⟩
  | runEnds | guestExits | listen | probeEnds =>
    simp only [besideStep] at step
    split at step <;> cases step
    exact ⟨rfl, rfl, fun _ is => by cases is⟩
  | childExits =>
    cases step
    exact ⟨rfl, rfl, fun _ is => by cases is⟩
  | _ => cases step

theorem turn_of_step {h : Host} {fresh : Nat} {a : Act} {effect : Effect}
    (step : h.step fresh a = some effect) : Turn h fresh a effect := by
  unfold Host.step at step
  split at step
  next beside =>
    cases step
    obtain ⟨stage, -, nothing⟩ := besideStep_keeps beside
    exact .quiet nothing (.inl (by rw [stage])) (.inl stage)
  next => exact turn_of_loopStep step

end Host

end ServiceCache.Control
