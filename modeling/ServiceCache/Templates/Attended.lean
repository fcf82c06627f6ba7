import ServiceCache.Templates.Owners

/-!
# What a call waits for

A locked slot has its holder, a bring-up that is not announced still runs, and a fork command that
is not answered is in the queue of an owner that reads it.
-/

namespace ServiceCache.Templates

open Function

structure Request.Formed (q : Request) : Prop where
  lock : q.stage = .lock → q.slot ≠ none
  guard : q.stage = .check ∨ q.stage = .fill ∨ q.stage = .forkBase ↔ q.guard ≠ none
  fill : q.stage = .fill → q.filling ≠ none
  forkBase : q.stage = .forkBase → q.base ≠ none
  fork : q.stage = .fork ∨ q.stage = .forking → q.handle ≠ none
  forget : q.stage = .forget → q.retry = false ∧ q.handle = none

structure Host.Attentive (h : Host) : Prop where
  queue : h.commands ≠ [] → h.phase = .serving ∨ h.phase = .killing ∨ h.phase = .stopping
  retired : h.phase = .killing ∨ h.phase = .stopping → h.alive = false
  ended : h.phase = .ended → h.alive = false ∨ h.ready = some false

def State.Handed (s : State) (t : Nat) : Prop :=
  (∃ sl, (s.slot sl).template = some t) ∨
    ∃ r, (s.request r).base = some t ∨ (s.request r).handle = some t

structure Attended (s : State) : Prop where
  formed : ∀ r, (s.request r).Formed
  owners : ∀ t, (s.host t).Attentive
  frozen : ∀ t, s.Handed t → (s.host t).ready = some true
  bringUps : ∀ r t, (s.request r).filling = some t →
    (s.host t).phase = .preparing ∨ (s.host t).ready ≠ none
  locks : ∀ sl r, (s.slot sl).lockedBy = some r → (s.request r).guard = some sl
  asked : ∀ r t, (s.request r).Waits t → (s.request r).reply = none → r ∈ (s.host t).commands
  refused : ∀ r t, (s.request r).Waits t → (s.request r).reply = some none →
    (s.host t).alive = false

/-! ## Steps of a call -/

section Call

variable {cfg : Config} {s s' : State} {r : Nat}

theorem Request.formed_finish (q : Request) (created : Bool) : (q.finish created).Formed where
  lock := nofun
  guard := by simp
  fill := nofun
  forkBase := nofun
  fork := nofun
  forget := nofun

theorem Request.formed_got (q : Request) (t : Nat) : (q.got t).Formed := by
  unfold Request.got
  split
  · constructor <;> simp
  · constructor <;> simp [Request.obtained, Request.leave]

theorem formed_call (formed : ∀ r, (s.request r).Formed) (hc : CallCase cfg s r s') (r' : Nat) :
    (s'.request r').Formed := by
  by_cases mine : r' = r
  · subst mine
    have old := formed r'
    -- outside a fill there is no guard
    have unguarded : (s.request r').stage ≠ .check → (s.request r').stage ≠ .fill →
        (s.request r').stage ≠ .forkBase → (s.request r').guard = none := by
      intro h₁ h₂ h₃
      by_contra guard
      rcases old.guard.mpr guard with at_ | at_ | at_ <;> contradiction
    cases hc with
    | clone sl t => simpa using Request.formed_got _ t
    | filled sl t => simpa using Request.formed_got _ t
    | giveUp sl => simpa using Request.formed_finish _ false
    | adopted at_ => simpa using Request.formed_finish _ true
    | slot at_ => constructor <;> simp [unguarded, at_]
    | forget at_ => constructor <;> simp [unguarded, at_]
    | lock sl at_ => constructor <;> simp
    | spawnBase sl at_ guard => constructor <;> simp [guard]
    | sendBase sl b at_ guard dead base => constructor <;> simp [guard, base]
    | send t at_ handle => constructor <;> simp [handle, unguarded, at_]
    | spawnRecipe sl p at_ guard => constructor <;> simp [guard]
    | adopting p at_ => constructor <;> simp [unguarded, at_]
    | forkFailed gone =>
      have clear : (s.request r').guard = none := by
        rcases gone with g | g <;> simp [unguarded, g.1]
      simp only [forkFailed, State.setRequest_request, update_self]
      split
      · exact Request.formed_finish _ false
      next first => constructor <;> simp [clear, first]
  · rw [call_request_other hc mine]
    exact formed r'

theorem commands_call (hb : Bounded s) (hc : CallCase cfg s r s') (t : Nat) :
    (s'.host t).commands = (s.host t).commands ∨
      ((s'.host t).commands = (s.host t).commands ++ [r] ∧ (s'.request r).Waits t ∧
        (s'.request r).reply = none ∧ (s.host t).phase ≠ .ended ∧ s.Handed t) := by
  cases hc with
  | sendBase sl b at_ guard dead base receiver =>
    by_cases here : t = b
    · subst here
      exact .inr ⟨by simp, .inl (by simpa using base), by simp, receiver, .inr ⟨r, .inl base⟩⟩
    · exact .inl (by simp [here])
  | send u at_ handle receiver =>
    by_cases here : t = u
    · subst here
      exact .inr ⟨by simp, .inr (by simpa using handle), by simp, receiver, .inr ⟨r, .inr handle⟩⟩
    · exact .inl (by simp [here])
  | spawnBase sl at_ guard dead =>
    by_cases here : t = s.nextHost
    · subst here
      exact .inl (by simp [hb.hosts _ (Nat.le_refl _)])
    · exact .inl (by simp [here])
  | spawnRecipe sl p at_ guard reply =>
    by_cases here : t = p
    · subst here
      exact .inl (by simp)
    · exact .inl (by simp [here])
  | slot | lock | clone | filled | giveUp | forkFailed | adopting | forget | adopted =>
    exact .inl (by simp)

theorem waits_call (hc : CallCase cfg s r s') {t : Nat} (waits : (s'.request r).Waits t) :
    (s'.request r).reply = none ∧ r ∈ (s'.host t).commands := by
  cases hc with
  | sendBase sl b at_ guard dead base receiver =>
    obtain rfl : b = t := by simpa [Request.Waits, base] using waits
    simp
  | send u at_ handle receiver =>
    obtain rfl : u = t := by simpa [Request.Waits, handle] using waits
    simp
  | clone sl u | filled sl u =>
    rcases Request.got_stage (s.request r) u with at_ | at_ <;> simp [Request.Waits, at_] at waits
  | forkFailed gone =>
    simp only [forkFailed, State.setRequest_request, update_self] at waits
    split at waits <;> simp [Request.Waits] at waits
  | slot | lock | spawnBase | giveUp | spawnRecipe | adopting | forget | adopted =>
    simp [Request.Waits] at waits

theorem slotFor_old (s : State) (key : Key) (sl : Nat) :
    (slotFor s key).1.slot sl = s.slot sl ∨ (slotFor s key).1.slot sl = { key } := by
  unfold slotFor
  split
  · exact .inl rfl
  · by_cases new : sl = s.nextSlot
    · exact .inr (by simp [new])
    · exact .inl (by simp [new])

theorem Request.handed_got {q : Request} {t u : Nat}
    (h : (q.got t).base = some u ∨ (q.got t).handle = some u) : u = t ∨ q.handle = some u := by
  unfold Request.got at h
  split at h
  · exact h.imp_left fun is => (Option.some.inj is).symm
  · rcases h with is | is
    · cases is
    · exact .inl (Option.some.inj is).symm

theorem template_of_call (hc : CallCase cfg s r s') {sl t : Nat}
    (h : (s'.slot sl).template = some t) :
    (s.slot sl).template = some t ∨ (s.host t).ready = some true := by
  cases hc with
  | slot at_ =>
    rcases slotFor_old s ((s.request r).key cfg) sl with same | new
    · exact .inl (by simpa [same] using h)
    · simp [new] at h
  | lock sl' | clone sl' | giveUp sl' =>
    by_cases here : sl = sl'
    · subst here
      exact .inl (by simpa using h)
    · exact .inl (by simpa [here] using h)
  | filled sl' u at_ guard filling ready =>
    by_cases here : sl = sl'
    · subst here
      obtain rfl : u = t := by simpa using h
      exact .inr ready
    · exact .inl (by simpa [here] using h)
  | spawnBase | sendBase | send | forkFailed | spawnRecipe | adopting | forget | adopted =>
    exact .inl h

theorem handed_call (hc : CallCase cfg s r s') {t : Nat} (h : s'.Handed t) :
    s.Handed t ∨ (s.host t).ready = some true := by
  rcases h with ⟨sl, template⟩ | ⟨r', has⟩
  · exact (template_of_call hc template).imp_left fun old => .inl ⟨sl, old⟩
  by_cases mine : r' = r
  case neg =>
    rw [call_request_other hc mine] at has
    exact .inl (.inr ⟨r', has⟩)
  subst mine
  cases hc with
  | clone sl u at_ guard alive =>
    rcases Request.handed_got (by simpa using has) with rfl | handle
    · exact .inl (.inl ⟨sl, (State.aliveIn_eq_some.mp alive).1⟩)
    · exact .inl (.inr ⟨r', .inr handle⟩)
  | filled sl u at_ guard filling ready =>
    rcases Request.handed_got (by simpa using has) with rfl | handle
    · exact .inr ready
    · exact .inl (.inr ⟨r', .inr handle⟩)
  | giveUp | adopted => simp [Request.finish, Request.leave] at has
  | forkFailed gone =>
    simp only [forkFailed, State.setRequest_request, update_self] at has
    split at has
    · simp [Request.finish, Request.leave] at has
    · exact .inl (.inr ⟨r', .inl (by simpa using has)⟩)
  | adopting p at_ reply => exact .inl (.inr ⟨r', .inl (by simpa using has)⟩)
  | slot | lock | spawnBase | sendBase | send | spawnRecipe | forget =>
    exact .inl (.inr ⟨r', by simpa using has⟩)

theorem filling_of_call (hc : CallCase cfg s r s') {r' t : Nat}
    (h : (s'.request r').filling = some t) :
    (s.request r').filling = some t ∨ (s'.host t).phase = .preparing := by
  by_cases mine : r' = r
  case neg =>
    rw [call_request_other hc mine] at h
    exact .inl h
  subst mine
  cases hc with
  | spawnBase sl at_ guard dead =>
    obtain rfl : s.nextHost = t := by simpa using h
    exact .inr (by simp)
  | spawnRecipe sl p at_ guard reply =>
    obtain rfl : p = t := by simpa using h
    exact .inr (by simp)
  | clone | filled | giveUp | adopted => simp at h
  | forkFailed gone =>
    simp only [forkFailed, State.setRequest_request, update_self] at h
    split at h
    · simp at h
    · exact .inl h
  | slot | lock | sendBase | send | adopting | forget => exact .inl (by simpa using h)

theorem lockedBy_call (hc : CallCase cfg s r s') {sl h : Nat}
    (locked : (s'.slot sl).lockedBy = some h) :
    (s.slot sl).lockedBy = some h ∨ ((s.slot sl).lockedBy = none ∧ h = r ∧
      (s'.request r).guard = some sl) := by
  cases hc with
  | slot at_ =>
    rcases slotFor_old s ((s.request r).key cfg) sl with same | new
    · exact .inl (by simpa [same] using locked)
    · simp [new] at locked
  | lock sl' at_ slot free =>
    by_cases here : sl = sl'
    · subst here
      exact .inr ⟨free, by simpa [eq_comm] using locked, by simp⟩
    · exact .inl (by simpa [here] using locked)
  | clone sl' | giveUp sl' | filled sl' =>
    by_cases here : sl = sl'
    · subst here
      simp at locked
    · exact .inl (by simpa [here] using locked)
  | spawnBase | sendBase | send | forkFailed | spawnRecipe | adopting | forget | adopted =>
    exact .inl locked

theorem guard_call (ha : Attended s) (hc : CallCase cfg s r s') {sl : Nat}
    (guard : (s.request r).guard = some sl) :
    (s'.request r).guard = some sl ∨ (s'.slot sl).lockedBy = none := by
  have guarded := (ha.formed r).guard.mpr (by simp [guard])
  cases hc with
  | clone sl' t at_ guard' | giveUp sl' guard' | filled sl' t at_ guard' =>
    obtain rfl : sl' = sl := by simpa [guard'] using guard
    exact .inr (by simp)
  | spawnBase | sendBase | spawnRecipe => exact .inl (by simpa using guard)
  | slot at_ | lock sl' at_ | send t at_ | adopting p at_ | forget at_ | adopted at_ =>
    simp [at_] at guarded
  | forkFailed gone => rcases gone with g | g <;> simp [g.1] at guarded

theorem locks_call (ha : Attended s) (hc : CallCase cfg s r s') (sl h : Nat)
    (locked : (s'.slot sl).lockedBy = some h) : (s'.request h).guard = some sl := by
  rcases lockedBy_call hc locked with old | ⟨_, rfl, guard⟩
  · have guard := ha.locks sl h old
    by_cases mine : h = r
    · subst mine
      exact (guard_call ha hc guard).resolve_right (by simp [locked])
    · rw [call_request_other hc mine]
      exact guard
  · exact guard

theorem ready_call (hb : Bounded s) (hd : Desk s) (hc : CallCase cfg s r s') (t : Nat) :
    (s'.host t).ready = (s.host t).ready := by
  cases host_call hb hd hc t with
  | same eq => rw [eq]
  | queue eq => rw [eq]
  | start eq => rw [eq]

theorem attentive_call (hb : Bounded s) (hd : Desk s) (ha : Attended s)
    (hc : CallCase cfg s r s') (t : Nat) : (s'.host t).Attentive := by
  have old := ha.owners t
  cases host_call hb hd hc t with
  | same eq => rwa [eq]
  | start eq filling unowned source =>
    rw [eq]
    refine ⟨fun asked => ?_, by simp, by simp⟩
    simpa [unowned] using old.queue asked
  | queue eq waits asked holds idle =>
    rw [eq]
    refine ⟨fun _ => ?_, old.retired, old.ended⟩
    -- the channel has a receiver, and the template was announced
    rcases commands_call hb hc t with same | ⟨_, _, _, receiver, handed⟩
    · simp [eq] at same
    · have ready := ha.frozen t handed
      have quiet := (hd.owners t).quiet
      cases phase : (s.host t).phase <;> simp_all

theorem attended_call (hb : Bounded s) (hd : Desk s) (ha : Attended s)
    (hc : CallCase cfg s r s') : Attended s' where
  formed := formed_call ha.formed hc
  owners := attentive_call hb hd ha hc
  frozen := by
    intro t handed
    rw [ready_call hb hd hc]
    exact (handed_call hc handed).elim (ha.frozen t) id
  bringUps := by
    intro r' t filling
    rcases filling_of_call hc filling with old | new
    · rw [ready_call hb hd hc]
      cases host_call hb hd hc t with
      | same eq => rw [eq]; exact ha.bringUps r' t old
      | queue eq => rw [eq]; exact ha.bringUps r' t old
      | start eq => exact .inl (by rw [eq])
    · exact .inl new
  locks := locks_call ha hc
  asked := by
    intro r' t waits unanswered
    by_cases mine : r' = r
    · subst mine
      exact (waits_call hc waits).2
    · rw [call_request_other hc mine] at waits unanswered
      have mem := ha.asked r' t waits unanswered
      rcases commands_call hb hc t with same | ⟨more, -⟩
      · rwa [same]
      · rw [more]
        exact List.mem_append_left _ mem
  refused := by
    intro r' t waits refused
    by_cases mine : r' = r
    · subst mine
      rw [(waits_call hc waits).1] at refused
      cases refused
    · rw [call_request_other hc mine] at waits refused
      have known : t < s.nextHost :=
        hb.handles r' t (waits.elim (fun w => .inr (.inl w.2)) fun w => .inr (.inr (.inr w.2)))
      rw [call_alive hc known]
      exact ha.refused r' t waits refused

end Call

/-! ## Turns of an owner -/

section Owner

variable {cfg : Config} {s s' : State} {t : Nat}

theorem OwnerFrame.waits (hf : OwnerFrame s s') {r u : Nat} :
    (s'.request r).Waits u ↔ (s.request r).Waits u := by
  obtain ⟨x, hx⟩ := hf.request r
  rw [hx]
  exact Iff.rfl

theorem OwnerFrame.handed (hf : OwnerFrame s s') {u : Nat} : s'.Handed u ↔ s.Handed u := by
  have same : ∀ r, ((s'.request r).base = some u ∨ (s'.request r).handle = some u) ↔
      ((s.request r).base = some u ∨ (s.request r).handle = some u) := by
    intro r
    obtain ⟨x, hx⟩ := hf.request r
    rw [hx]
  simp only [State.Handed, hf.slot, same]

theorem OwnerFrame.formed (hf : OwnerFrame s s') (formed : ∀ r, (s.request r).Formed) (r : Nat) :
    (s'.request r).Formed := by
  obtain ⟨x, hx⟩ := hf.request r
  rw [hx]
  exact { formed r with }

theorem OwnerFrame.guard (hf : OwnerFrame s s') {r : Nat} :
    (s'.request r).guard = (s.request r).guard := by
  obtain ⟨x, hx⟩ := hf.request r
  rw [hx]

theorem answered_owner (hb : Bounded s) (hc : OwnerCase cfg s t s') {r : Nat}
    (mem : r ∈ (s.host t).commands) (gone : r ∉ (s'.host t).commands) :
    (s'.request r).reply ≠ none := by
  cases hc with
  | cloned k r' rest at_ asked runs read =>
    have hne : t ≠ s.nextHost := Nat.ne_of_lt (hb.lt_of_owned (by simp [at_]))
    have head : r = r' := by
      rw [asked, List.mem_cons] at mem
      exact mem.resolve_right (by simpa [cloned, hne, Host.forked] using gone)
    simp [cloned, head]
  | forkFails r' rest at_ asked =>
    have head : r = r' := by
      rw [asked, List.mem_cons] at mem
      exact mem.resolve_right (by simpa using gone)
    simp [head]
  | ended at_ => simp [endOwner, State.dropCommands, mem]
  | froze | broke | hostGone | expired | disconnected | drained =>
    exact absurd mem (by simpa [Host.drained] using gone)

theorem refused_owner (ha : Attended s) (hc : OwnerCase cfg s t s') {r : Nat}
    (unanswered : (s.request r).reply = none) (refused : (s'.request r).reply = some none) :
    (s'.host t).alive = false := by
  cases hc with
  | cloned k r' rest at_ asked runs read =>
    by_cases head : r = r'
    · simp [cloned, head] at refused
    · simp [cloned, head, unanswered] at refused
  | forkFails r' rest at_ asked => simp
  | ended at_ =>
    have given := (ha.owners t).retired at_
    simpa [endOwner, State.dropCommands] using given
  | froze | broke | hostGone | expired | disconnected | drained => simp [unanswered] at refused

theorem attentive_owner (hb : Bounded s) (ha : Attended s) (hc : OwnerCase cfg s t s') (u : Nat) :
    (s'.host u).Attentive := by
  by_cases mine : u = t
  case neg =>
    rcases owner_host_other hc mine with eq | ⟨-, eq⟩
    · rw [eq]
      exact ha.owners u
    · rw [eq]
      exact ⟨nofun, nofun, nofun⟩
  subst mine
  have old := ha.owners u
  cases hc with
  | froze at_ runs => constructor <;> simp
  | broke at_ =>
    refine ⟨?_, by simp, by simp⟩
    simpa [at_] using old.queue
  | cloned k r rest at_ asked runs read =>
    have hne : u ≠ s.nextHost := Nat.ne_of_lt (hb.lt_of_owned (by simp [at_]))
    constructor <;> simp [cloned, hne, Host.forked, at_]
  | forkFails r rest at_ asked => constructor <;> simp
  | ended at_ => constructor <;> simp [endOwner, State.dropCommands, old.retired at_]
  | hostGone at_ idle => constructor <;> simp
  | drained at_ idle => constructor <;> simp [Host.drained, at_]
  | expired at_ idle childless due => constructor <;> simp
  | disconnected at_ idle gone => constructor <;> simp

theorem ready_owner (hb : Bounded s) (hd : Desk s) (hc : OwnerCase cfg s t s') {u : Nat} {b : Bool}
    (ready : (s.host u).ready = some b) : (s'.host u).ready = some b := by
  have loud : (s.host u).phase ≠ .preparing := by
    intro at_
    simp [(hd.owners u).quiet (.inr at_)] at ready
  rcases owner_host_cases hb hc u with ⟨rfl, turned⟩ | eq | ⟨fresh, -⟩
  · cases turned with
    | announced before | broken before => exact absurd before loud
    | serves _ _ same | leaves _ _ same => rw [same, ready]
  · rw [eq, ready]
  · simp [fresh] at ready

theorem bringUps_owner (hb : Bounded s) (hd : Desk s) (hc : OwnerCase cfg s t s') {u : Nat}
    (old : (s.host u).phase = .preparing ∨ (s.host u).ready ≠ none) :
    (s'.host u).phase = .preparing ∨ (s'.host u).ready ≠ none := by
  rcases old with preparing | announced
  · by_cases mine : u = t
    · subst mine
      cases hc with
      | froze | broke => exact .inr (by simp)
      | cloned k r rest at_ | forkFails r rest at_ | hostGone at_ | drained at_ | expired at_
      | disconnected at_ => simp [preparing] at at_
      | ended at_ => simp [preparing] at at_
    · rcases owner_host_other hc mine with eq | ⟨rfl, -⟩
      · exact .inl (by rw [eq, preparing])
      · simp [hb.hosts _ (Nat.le_refl _)] at preparing
  · obtain ⟨b, ready⟩ := Option.ne_none_iff_exists'.mp announced
    exact .inr (by simp [ready_owner hb hd hc ready])

theorem attended_owner (hb : Bounded s) (hd : Desk s) (ha : Attended s)
    (hc : OwnerCase cfg s t s') : Attended s' := by
  have frame := owner_frame hc
  refine
    { formed := frame.formed ha.formed, owners := attentive_owner hb ha hc, frozen := ?_,
      bringUps := ?_, locks := ?_, asked := ?_, refused := ?_ }
  · intro u handed
    exact ready_owner hb hd hc (ha.frozen u (frame.handed.mp handed))
  · intro r u filling
    exact bringUps_owner hb hd hc (ha.bringUps r u (frame.filling ▸ filling))
  · intro sl r locked
    rw [frame.guard]
    exact ha.locks sl r (frame.slot ▸ locked)
  · intro r u waits unanswered
    rw [frame.waits] at waits
    have before : (s.request r).reply = none := by
      rcases reply_owner hb hd hc r with eq | ⟨mem, -⟩
      · rw [← eq, unanswered]
      · exact (hd.queued t r mem).1
    have mem := ha.asked r u waits before
    rcases owner_host_cases hb hc u with ⟨rfl, -⟩ | eq | ⟨fresh, -⟩
    · by_contra gone
      exact answered_owner hb hc mem gone unanswered
    · rwa [eq]
    · simp [fresh] at mem
  · intro r u waits refused
    rw [frame.waits] at waits
    rcases reply_owner hb hd hc r with eq | ⟨mem, -⟩
    · have given := ha.refused r u waits (eq ▸ refused)
      by_contra alive
      rw [alive_owner hb hc u (by simpa using alive)] at given
      cases given
    · obtain ⟨unanswered, here⟩ := hd.queued t r mem
      obtain rfl := waits.unique here
      exact refused_owner ha hc unanswered refused

end Owner

/-! ## The other events -/

section Rest

variable {cfg : Config} {s s' : State}

theorem attended_process (ha : Attended s) (hp : ProcessStep s s') : Attended s' where
  formed := hp.frame.formed ha.formed
  owners := by
    intro t
    have old := ha.owners t
    refine ⟨?_, ?_, ?_⟩
    · rw [hp.commands, hp.phase]
      exact old.queue
    · rw [hp.phase, hp.alive]
      exact old.retired
    · rw [hp.phase, hp.alive, hp.ready]
      exact old.ended
  frozen := by
    intro t handed
    rw [hp.ready]
    exact ha.frozen t (hp.frame.handed.mp handed)
  bringUps := by
    intro r t
    rw [hp.request, hp.phase, hp.ready]
    exact ha.bringUps r t
  locks := by
    rw [hp.slot, hp.request]
    exact ha.locks
  asked := by
    intro r t
    rw [hp.request, hp.commands]
    exact ha.asked r t
  refused := by
    intro r t
    rw [hp.request, hp.alive]
    exact ha.refused r t

theorem attended_arrive (hb : Bounded s) (ha : Attended s) (manifest : Manifest)
    (recipe : Option (List UInt8)) : Attended (arrive s manifest recipe) := by
  have cases := arrive_request_cases (s := s) manifest recipe
  refine { formed := ?_, owners := ha.owners, frozen := ?_, bringUps := ?_, locks := ?_,
           asked := ?_, refused := ?_ }
  · intro r
    rcases cases r with eq | eq
    · rw [eq]
      exact ha.formed r
    · rw [eq]
      constructor <;> simp
  · rintro t (template | ⟨r, has⟩)
    · exact ha.frozen t (.inl template)
    · rcases cases r with eq | eq
      · rw [eq] at has
        exact ha.frozen t (.inr ⟨r, has⟩)
      · simp [eq] at has
  · intro r t filling
    rcases cases r with eq | eq
    · rw [eq] at filling
      exact ha.bringUps r t filling
    · simp [eq] at filling
  · intro sl r locked
    have guard := ha.locks sl r locked
    have known : r ≠ s.arrived := Nat.ne_of_lt (hb.arrived_of_holdsSlot (.inr (.inr guard)))
    simpa [arrive, known] using guard
  · intro r t waits unanswered
    rcases cases r with eq | eq
    · rw [eq] at waits unanswered
      exact ha.asked r t waits unanswered
    · simp [eq, Request.Waits] at waits
  · intro r t waits refused
    rcases cases r with eq | eq
    · rw [eq] at waits refused
      exact ha.refused r t waits refused
    · simp [eq, Request.Waits] at waits

theorem attended_initial : Attended {} where
  formed _ := by constructor <;> simp
  owners _ := ⟨nofun, nofun, nofun⟩
  frozen _ := by simp [State.Handed]
  bringUps := nofun
  locks := nofun
  asked _ _ := by simp [Request.Waits]
  refused := nofun

theorem attended_next {e : Event} (hb : Bounded s) (hd : Desk s) (ha : Attended s)
    (h : next cfg s e = some s') : Attended s' := by
  cases e with
  | arrive manifest recipe =>
    cases h
    exact attended_arrive hb ha manifest recipe
  | call r c => exact attended_call hb hd ha (callStep_cases h)
  | prune =>
    cases h
    exact { ha with }
  | owner t turn => exact attended_owner hb hd ha (ownerStep_cases h)
  | exit p => exact attended_process ha (processStep_exit h)
  | report p => exact attended_process ha (processStep_report hb h)
  | tick =>
    cases h
    exact attended_process ha (processStep_tick s)

end Rest

theorem attended_reachable {cfg : Config} {ok : State → Event → Prop} {s : State}
    (h : (cache cfg).ReachableBy ok s) : Attended s := by
  refine h.invariant (P := Attended) ?_ ?_
  · rintro s rfl
    exact attended_initial
  · intro s e s' reached ha _ next
    exact attended_next (bounded_reachable reached) (desk_reachable reached) ha next

end ServiceCache.Templates
