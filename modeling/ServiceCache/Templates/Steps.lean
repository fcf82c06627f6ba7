import ServiceCache.Templates.Model

/-!
# What a step of the template cache can do

One case lemma for a `create_instance` call and one for an owner thread.
-/

namespace ServiceCache.Templates

inductive CallCase (cfg : Config) (s : State) (r : Nat) : State → Prop
  | slot (at_ : (s.request r).stage = .slot) :
      CallCase cfg s r ((slotFor s ((s.request r).key cfg)).1.setRequest r
        { s.request r with
          stage := .lock, slot := some (slotFor s ((s.request r).key cfg)).2 })
  | lock (sl : Nat) (at_ : (s.request r).stage = .lock)
      (slot : (s.request r).slot = some sl) (free : (s.slot sl).lockedBy = none) :
      CallCase cfg s r ((s.setSlot sl { s.slot sl with lockedBy := some r }).setRequest r
        { s.request r with stage := .check, guard := some sl })
  | clone (sl : Nat) (t : Nat) (at_ : (s.request r).stage = .check)
      (guard : (s.request r).guard = some sl) (alive : s.aliveIn sl = some t) :
      CallCase cfg s r ((unlock s sl).setRequest r ((s.request r).got t))
  | spawnBase (sl : Nat) (at_ : (s.request r).stage = .check)
      (guard : (s.request r).guard = some sl) (dead : s.aliveIn sl = none) :
      CallCase cfg s r (spawnBase s r)
  | sendBase (sl : Nat) (b : Nat) (at_ : (s.request r).stage = .check)
      (guard : (s.request r).guard = some sl) (dead : s.aliveIn sl = none)
      (base : (s.request r).base = some b) (receiver : (s.host b).phase ≠ .ended) :
      CallCase cfg s r (send s r b .forkBase)
  | filled (sl : Nat) (t : Nat) (at_ : (s.request r).stage = .fill)
      (guard : (s.request r).guard = some sl) (filling : (s.request r).filling = some t)
      (ready : (s.host t).ready = some true) :
      CallCase cfg s r ((store s sl t).setRequest r ((s.request r).got t))
  | giveUp (sl : Nat) (guard : (s.request r).guard = some sl)
      (failed : (s.request r).stage = .check ∨
        ((s.request r).stage = .forkBase ∧ (s.request r).reply ≠ none) ∨
        ((s.request r).stage = .fill ∧
          ∃ t, (s.request r).filling = some t ∧ (s.host t).ready = some false)) :
      CallCase cfg s r (giveUp s r sl)
  | send (t : Nat) (at_ : (s.request r).stage = .fork)
      (handle : (s.request r).handle = some t) (receiver : (s.host t).phase ≠ .ended) :
      CallCase cfg s r (send s r t .forking)
  | forkFailed (gone : ((s.request r).stage = .fork ∧
          ∃ t, (s.request r).handle = some t ∧ (s.host t).phase = .ended) ∨
        ((s.request r).stage = .forking ∧ (s.request r).reply = some none)) :
      CallCase cfg s r (forkFailed s r)
  | spawnRecipe (sl : Nat) (p : Nat) (at_ : (s.request r).stage = .forkBase)
      (guard : (s.request r).guard = some sl)
      (reply : (s.request r).reply = some (some p)) : CallCase cfg s r (spawnRecipe s r p)
  | adopting (p : Nat) (at_ : (s.request r).stage = .forking)
      (reply : (s.request r).reply = some (some p)) :
      CallCase cfg s r (s.setRequest r
        { s.request r with reply := none, stage := .adopt, handle := none })
  | forget (at_ : (s.request r).stage = .forget) :
      CallCase cfg s r
        ((s.removeSlot (Key.new cfg (s.request r).manifest (s.request r).recipe)).setRequest r
          { s.request r with retry := true, stage := .slot })
  | adopted (at_ : (s.request r).stage = .adopt) :
      CallCase cfg s r (s.setRequest r ((s.request r).finish true))

@[simp] theorem slotFor_request (s : State) (key : Key) :
    (slotFor s key).1.request = s.request := by
  unfold slotFor
  split <;> rfl

@[simp] theorem slotFor_arrived (s : State) (key : Key) :
    (slotFor s key).1.arrived = s.arrived := by
  unfold slotFor
  split <;> rfl

@[simp] theorem slotFor_host (s : State) (key : Key) : (slotFor s key).1.host = s.host := by
  unfold slotFor
  split <;> rfl

@[simp] theorem slotFor_nextHost (s : State) (key : Key) :
    (slotFor s key).1.nextHost = s.nextHost := by
  unfold slotFor
  split <;> rfl

variable {cfg : Config} {s s' : State} {r : Nat}

theorem checkStep_cases {spawned : Bool} (h : checkStep s r spawned = some s') :
    CallCase cfg s r s' := by
  unfold checkStep at h
  split at h
  next sl at_ guard =>
    split at h
    next _ t alive => cases h; exact .clone sl t at_ guard alive
    next dead _ =>
      cases h
      split
      · exact .spawnBase sl at_ guard dead
      · exact .giveUp sl guard (.inl at_)
    next b dead base =>
      cases h
      split
      · exact .giveUp sl guard (.inl at_)
      next receiver => exact .sendBase sl b at_ guard dead base receiver
  · cases h

theorem filledStep_cases (h : filledStep s r = some s') : CallCase cfg s r s' := by
  unfold filledStep at h
  split at h
  next sl t at_ guard filling =>
    split at h
    next ready => cases h; exact .filled sl t at_ guard filling ready
    next failed =>
      cases h
      exact .giveUp sl guard (.inr (.inr ⟨at_, t, filling, failed⟩))
    · cases h
  · cases h

theorem sendStep_cases (h : sendStep s r = some s') : CallCase cfg s r s' := by
  unfold sendStep at h
  split at h
  next t at_ handle =>
    cases h
    split
    next gone => exact .forkFailed (.inl ⟨at_, t, handle, gone⟩)
    next receiver => exact .send t at_ handle receiver
  · cases h

theorem answerStep_cases {spawned : Bool} (h : answerStep s r spawned = some s') :
    CallCase cfg s r s' := by
  unfold answerStep at h
  split at h
  next p sl at_ reply guard =>
    cases h
    split
    · exact .spawnRecipe sl p at_ guard reply
    · exact .giveUp sl guard (.inr (.inl ⟨at_, by simp [reply]⟩))
  next sl at_ reply guard =>
    cases h
    exact .giveUp sl guard (.inr (.inl ⟨at_, by simp [reply]⟩))
  next _ p at_ reply => cases h; exact .adopting p at_ reply
  next at_ reply => cases h; exact .forkFailed (.inr ⟨at_, reply⟩)
  · cases h

theorem callStep_cases {c : Call} (h : callStep cfg s r c = some s') : CallCase cfg s r s' := by
  cases c with
  | slot =>
    simp only [callStep, slotStep] at h
    split at h
    next at_ => cases h; exact .slot at_
    · cases h
  | lock =>
    simp only [callStep, lockStep] at h
    split at h
    next sl at_ slot =>
      split at h
      next free => cases h; exact .lock sl at_ slot free
      · cases h
    · cases h
  | check spawned => exact checkStep_cases h
  | filled => exact filledStep_cases h
  | send => exact sendStep_cases h
  | answer spawned => exact answerStep_cases h
  | forget =>
    simp only [callStep, forgetStep] at h
    split at h
    next at_ => cases h; exact .forget at_
    · cases h
  | adopt =>
    simp only [callStep, adoptStep] at h
    split at h
    next at_ => cases h; exact .adopted at_
    · cases h

attribute [simp] unlock store send spawnBase giveUp forkFailed spawnRecipe

theorem call_request_other (h : CallCase cfg s r s') {r' : Nat} (hr : r' ≠ r) :
    s'.request r' = s.request r' := by
  cases h <;> simp [hr]

theorem call_arrived (h : CallCase cfg s r s') : s'.arrived = s.arrived := by
  cases h <;> simp

theorem call_not_done (h : CallCase cfg s r s') {created : Bool} :
    (s.request r).stage ≠ .done created := by
  cases h <;> grind

inductive OwnerCase (cfg : Config) (s : State) (t : Nat) : State → Prop
  | froze (at_ : (s.host t).phase = .preparing) (runs : s.Running t) :
      OwnerCase cfg s t (s.setHost t
        { s.host t with phase := .serving, ready := some true, idleSince := s.now })
  | broke (at_ : (s.host t).phase = .preparing) :
      OwnerCase cfg s t (s.setHost t
        { s.host t with phase := .ended, ready := some false, exited := true })
  | cloned (k : Nat) (r : Nat) (rest : List Nat) (at_ : (s.host t).phase = .serving)
      (asked : (s.host t).commands = r :: rest) (runs : s.Running t)
      (read : k ≤ (s.host t).exits) : OwnerCase cfg s t (cloned s t k r rest)
  | forkFails (r : Nat) (rest : List Nat) (at_ : (s.host t).phase = .serving)
      (asked : (s.host t).commands = r :: rest) :
      OwnerCase cfg s t ((s.setHost t
        { s.host t with alive := false, phase := .killing, commands := rest }).setRequest r
          { s.request r with reply := some none })
  | ended (at_ : (s.host t).phase = .killing ∨ (s.host t).phase = .stopping) :
      OwnerCase cfg s t (endOwner s t)
  | hostGone (at_ : (s.host t).phase = .serving) (idle : (s.host t).commands = []) :
      OwnerCase cfg s t (s.setHost t { s.host t with alive := false, phase := .killing })
  | drained (at_ : (s.host t).phase = .serving) (idle : (s.host t).commands = []) :
      OwnerCase cfg s t (s.setHost t ((s.host t).drained s.now))
  | expired (at_ : (s.host t).phase = .serving) (idle : (s.host t).commands = [])
      (childless : ((s.host t).drained s.now).children = 0)
      (due : cfg.ttl ≤ s.now - ((s.host t).drained s.now).idleSince) :
      OwnerCase cfg s t (s.setHost t
        { (s.host t).drained s.now with alive := false, phase := .stopping })
  | disconnected (at_ : (s.host t).phase = .serving) (idle : (s.host t).commands = [])
      (gone : ¬ s.Connected t) :
      OwnerCase cfg s t (s.setHost t { s.host t with alive := false, phase := .stopping })

theorem preparedStep_cases {t : Nat} {ok : Bool} (h : preparedStep s t ok = some s') :
    OwnerCase cfg s t s' := by
  obtain ⟨at_, h⟩ := Transition.guarded h
  split at h
  · split at h
    next runs => cases h; exact .froze at_ runs
    · cases h
  · cases h; exact .broke at_

theorem timeoutStep_cases {t : Nat} (h : timeoutStep cfg s t = some s') :
    OwnerCase cfg s t s' := by
  obtain ⟨at_, ⟨⟩⟩ := Transition.guarded h
  split
  next due => exact .expired at_.1 at_.2 due.1 due.2
  · exact .drained at_.1 at_.2

theorem ownerStep_cases {t : Nat} {turn : Turn} (h : ownerStep cfg s t turn = some s') :
    OwnerCase cfg s t s' := by
  cases turn with
  | prepared ok => exact preparedStep_cases h
  | serveFork k =>
    simp only [ownerStep, serveForkStep] at h
    split at h
    next r rest at_ asked =>
      split at h
      next ok => cases h; exact .cloned k r rest at_ asked ok.1 ok.2
      · cases h
    · cases h
  | forkFails =>
    simp only [ownerStep, forkFailsStep] at h
    split at h
    next r rest at_ asked => cases h; exact .forkFails r rest at_ asked
    · cases h
  | kill =>
    simp only [ownerStep, killStep] at h
    split at h
    next at_ => cases h; exact .ended (.inl at_)
    · cases h
  | hostGone =>
    simp only [ownerStep, hostGoneStep] at h
    split at h
    next at_ => cases h; exact .hostGone at_.1 at_.2
    · cases h
  | timeout => exact timeoutStep_cases h
  | disconnected =>
    simp only [ownerStep, disconnectedStep] at h
    split at h
    next at_ => cases h; exact .disconnected at_.1 at_.2.1 at_.2.2
    · cases h
  | stop =>
    simp only [ownerStep, stopStep] at h
    split at h
    next at_ => cases h; exact .ended (.inr at_)
    · cases h

theorem exitStep_eq {p : Nat} (h : exitStep s p = some s') :
    p < s.nextHost ∧ s' = s.setHost p { s.host p with exited := true } := by
  obtain ⟨hp, h⟩ := Transition.guarded h
  cases h; exact ⟨hp, rfl⟩

theorem reportStep_eq {p : Nat} (h : reportStep s p = some s') :
    ∃ t rest, (s.host p).ancestors = t :: rest ∧ p < s.nextHost ∧
      (s.host p).reported = false ∧ ¬ s.Running p ∧
      s' = reportTo (s.setHost p { s.host p with reported := true }) t := by
  unfold reportStep at h
  split at h
  next t rest ha =>
    split at h
    next ok => cases h; exact ⟨t, rest, ha, ok.1, ok.2.2.1, ok.2.2.2, rfl⟩
    · cases h
  · cases h

end ServiceCache.Templates
