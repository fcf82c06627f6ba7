import ServiceCache.Templates.Bookkeeping

/-!
# The book under the owners' turns

Owner threads and processes leave the slots and the calls alone, up to the answers they send.
-/

namespace ServiceCache.Templates

structure OwnerFrame (s s' : State) : Prop where
  slots : s'.slots = s.slots
  slot : s'.slot = s.slot
  arrived : s'.arrived = s.arrived
  request : ∀ r, ∃ x, s'.request r = { s.request r with reply := x }

section Owner

variable {cfg : Config} {s s' : State} {t : Nat}

theorem ownerFrame_of_eq (slots : s'.slots = s.slots) (slot : s'.slot = s.slot)
    (arrived : s'.arrived = s.arrived) (request : s'.request = s.request) : OwnerFrame s s' :=
  ⟨slots, slot, arrived, fun r => ⟨(s.request r).reply, by rw [request]⟩⟩

theorem owner_frame (hc : OwnerCase cfg s t s') : OwnerFrame s s' := by
  cases hc with
  | cloned k r rest at_ asked runs read =>
    refine ⟨rfl, rfl, rfl, ?_⟩
    intro r'
    by_cases h : r' = r
    · subst h
      exact ⟨some (some s.nextHost), by simp [cloned]⟩
    · exact ⟨(s.request r').reply, by simp [cloned, h]⟩
  | forkFails r rest at_ asked =>
    refine ⟨rfl, rfl, rfl, ?_⟩
    intro r'
    by_cases h : r' = r
    · subst h
      exact ⟨some none, by simp⟩
    · exact ⟨(s.request r').reply, by simp [h]⟩
  | ended at_ =>
    refine ⟨rfl, rfl, rfl, ?_⟩
    intro r
    by_cases h : r ∈ (s.host t).commands
    · exact ⟨some none, by simp [endOwner, State.dropCommands, h]⟩
    · exact ⟨(s.request r).reply, by simp [endOwner, State.dropCommands, h]⟩
  | froze | broke | hostGone | drained | expired | disconnected =>
    exact ownerFrame_of_eq rfl rfl rfl rfl

theorem owner_host_other (hc : OwnerCase cfg s t s') {p : Nat} (hp : p ≠ t) :
    s'.host p = s.host p ∨
      (p = s.nextHost ∧ s'.host p = { ancestors := t :: (s.host t).ancestors }) := by
  cases hc with
  | cloned k r rest at_ asked runs read =>
    by_cases h : p = s.nextHost
    · exact .inr ⟨h, by simp [cloned, h]⟩
    · exact .inl (by simp [cloned, h, hp])
  | ended at_ => exact .inl (by simp [endOwner, State.dropCommands, hp])
  | froze | broke | forkFails | hostGone | drained | expired | disconnected =>
    exact .inl (by simp [hp])

inductive Turned (h h' : Host) : Prop
  | announced (before : h.phase = .preparing) (phase : h'.phase = .serving)
      (ready : h'.ready = some true) (alive : h'.alive = h.alive) (commands : h'.commands = h.commands)
  | broken (before : h.phase = .preparing) (phase : h'.phase = .ended)
      (alive : h'.alive = h.alive) (commands : h'.commands = h.commands)
  | serves (before : h.phase = .serving) (phase : h'.phase = .serving) (ready : h'.ready = h.ready)
      (alive : h'.alive = h.alive)
      (commands : h'.commands = h.commands ∨ ∃ r, h.commands = r :: h'.commands)
  | leaves (before : h.phase ≠ .unowned ∧ h.phase ≠ .preparing)
      (phase : h'.phase ≠ .unowned ∧ h'.phase ≠ .preparing ∧ h'.phase ≠ .serving)
      (ready : h'.ready = h.ready) (failed : h.phase ≠ .ended)
      (alive : h'.alive = true → h.alive = true)
      (commands : h'.commands = [] ∨ ∃ r, h.commands = r :: h'.commands)

theorem owner_turned (hb : Bounded s) (hc : OwnerCase cfg s t s') :
    Turned (s.host t) (s'.host t) := by
  cases hc with
  | froze at_ runs => exact .announced at_ (by simp) (by simp) (by simp) (by simp)
  | broke at_ => exact .broken at_ (by simp) (by simp) (by simp)
  | cloned k r rest at_ asked runs read =>
    have hne : t ≠ s.nextHost := Nat.ne_of_lt (hb.lt_of_owned (by simp [at_]))
    refine .serves at_ ?_ ?_ ?_ (.inr ⟨r, ?_⟩) <;> simp [cloned, hne, Host.forked, at_, asked]
  | drained at_ idle =>
    refine .serves at_ ?_ ?_ ?_ (.inl ?_) <;> simp [Host.drained, at_]
  | forkFails r rest at_ asked =>
    refine .leaves ?_ ?_ ?_ ?_ ?_ (.inr ⟨r, ?_⟩) <;> simp [at_, asked]
  | ended at_ =>
    refine .leaves ?_ ?_ ?_ ?_ ?_ (.inl ?_) <;>
      rcases at_ with h | h <;> simp [endOwner, State.dropCommands, h]
  | hostGone at_ idle =>
    refine .leaves ?_ ?_ ?_ ?_ ?_ (.inl ?_) <;> simp [at_, idle]
  | expired at_ idle childless due =>
    refine .leaves ?_ ?_ ?_ ?_ ?_ (.inl ?_) <;> simp [Host.drained, at_, idle]
  | disconnected at_ idle gone =>
    refine .leaves ?_ ?_ ?_ ?_ ?_ (.inl ?_) <;> simp [at_, idle]

/-! ## What survives any step that leaves slots and calls alone -/

theorem OwnerFrame.holds (hf : OwnerFrame s s') {r p : Nat} :
    (s'.request r).Holds p ↔ (s.request r).Holds p := by
  obtain ⟨x, hx⟩ := hf.request r
  rw [hx]
  exact Iff.rfl

theorem OwnerFrame.templateHeld (hf : OwnerFrame s s') {p : Nat} :
    s'.TemplateHeld p ↔ s.TemplateHeld p := by
  unfold State.TemplateHeld
  rw [hf.arrived]
  simp only [hf.holds]

theorem OwnerFrame.mapped (hf : OwnerFrame s s') {sl : Nat} : s'.Mapped sl ↔ s.Mapped sl := by
  unfold State.Mapped
  rw [hf.slots, hf.slot]

theorem OwnerFrame.filling (hf : OwnerFrame s s') {r : Nat} :
    (s'.request r).filling = (s.request r).filling := by
  obtain ⟨x, hx⟩ := hf.request r
  rw [hx]

theorem OwnerFrame.aliveIn (hf : OwnerFrame s s')
    (alive : ∀ p, (s'.host p).alive = true → (s.host p).alive = true) {sl : Nat}
    (h : s.aliveIn sl = none) : s'.aliveIn sl = none := by
  rw [State.aliveIn_eq_none] at h ⊢
  intro p hp
  rw [hf.slot] at hp
  cases ha : (s'.host p).alive with
  | false => rfl
  | true =>
    have := h p hp
    rw [alive p ha] at this
    cases this

theorem OwnerFrame.anchored (hf : OwnerFrame s s') (hb : Bounded s) (hk : Book s)
    (hl : LedgerStep s s') {p : Nat} (h : Anchored s p) : Anchored s' p := by
  rcases h with ⟨r, hr⟩ | ⟨sl, hm, htp⟩ | ⟨unheld, quiet⟩
  · exact .inl ⟨r, by rw [hf.filling, hr]⟩
  · exact .inr (.inl ⟨sl, hf.mapped.mpr hm, by rw [hf.slot, htp]⟩)
  · refine .inr (.inr ⟨fun held => unheld (hf.templateHeld.mp held), ?_⟩)
    intro hrd
    rcases hl.runningDescendant hb hrd with old | ⟨_, asked⟩
    · exact quiet old
    · exact unheld (queue_nonempty_held hb hk.desk asked)

theorem desk_frame (hd : Desk s) (hf : OwnerFrame s s') (owners : ∀ p, OwnerOk (s'.host p))
    (clones : ∀ r p, (s'.request r).reply = some (some p) → (s'.host p).phase = .unowned)
    (cloneOnce : ∀ r r' p, (s'.request r).reply = some (some p) →
      (s'.request r').reply = some (some p) → r = r')
    (queued : ∀ p, ∀ r ∈ (s'.host p).commands,
      (s'.request r).reply = none ∧ r ∈ (s.host p).commands)
    (queuedOnce : ∀ p, (s'.host p).commands.Nodup)
    (preparing : ∀ p, (s'.host p).phase = .preparing → (s.host p).phase = .preparing) : Desk s' where
  filling := by
    intro r h
    obtain ⟨x, hx⟩ := hf.request r
    rw [hx] at h ⊢
    exact hd.filling r h
  owners := owners
  clones := clones
  cloneOnce := cloneOnce
  queued := by
    intro p r hr
    obtain ⟨unanswered, hmem⟩ := queued p r hr
    refine ⟨unanswered, ?_⟩
    obtain ⟨x, hx⟩ := hf.request r
    rw [hx]
    exact (hd.queued p r hmem).2
  queuedOnce := queuedOnce
  makers := by
    intro p h
    obtain ⟨r, hr⟩ := hd.makers p (preparing p h)
    exact ⟨r, by rw [hf.filling, hr]⟩

theorem book_frame (hb : Bounded s) (hk : Book s) (hf : OwnerFrame s s') (hl : LedgerStep s s')
    (hd' : Desk s') (alive : ∀ p, (s'.host p).alive = true → (s.host p).alive = true)
    (serving : ∀ p, (s'.host p).phase = .serving →
      (s.host p).phase = .serving ∨ (s.host p).phase = .preparing)
    (stops : ∀ p, (s'.host p).phase = .stopping → ¬ s'.RunningDescendant p) : Book s' := by
  refine hd'.book { mapped := ?_, guards := ?_, dead := ?_, anchors := ?_, stops := stops }
  · intro r sl h
    obtain ⟨x, hx⟩ := hf.request r
    rw [hx] at h
    exact hf.mapped.mpr (hk.mapped r sl h)
  · intro r sl h
    obtain ⟨x, hx⟩ := hf.request r
    rw [hx] at h
    rw [hf.slot]
    exact hk.guards r sl h
  · intro r sl stage h
    obtain ⟨x, hx⟩ := hf.request r
    rw [hx] at h stage
    exact hf.aliveIn alive (hk.dead r sl stage h)
  · intro p h
    rcases serving p h with hs | hs
    · exact hf.anchored hb hk hl (hk.anchors p hs)
    · obtain ⟨r, hr⟩ := hk.makers p hs
      exact .inl ⟨r, by rw [hf.filling, hr]⟩

/-! ## An owner's turn -/

theorem ownerOk_default (ancestors : List Nat) : OwnerOk { ancestors := ancestors } :=
  ⟨fun _ => rfl, by simp, by simp⟩

theorem Turned.ownerOk {h h' : Host} (ht : Turned h h') (hok : OwnerOk h) : OwnerOk h' := by
  cases ht with
  | announced before phase ready alive commands =>
    refine ⟨by simp [phase], by simp [ready], ?_⟩
    intro _
    rw [alive]
    exact hok.alive (.inr (.inl before))
  | broken before phase alive commands =>
    exact ⟨by simp [phase], fun _ => phase, by simp [phase]⟩
  | serves before phase ready alive commands =>
    refine ⟨by simp [phase], ?_, ?_⟩
    · intro hr
      rw [ready] at hr
      have := hok.failed hr
      simp [before] at this
    · intro _
      rw [alive]
      exact hok.alive (.inr (.inr before))
  | leaves before phase ready failed alive commands =>
    refine ⟨by simp [phase], ?_, by simp [phase]⟩
    intro hr
    rw [ready] at hr
    exact absurd (hok.failed hr) failed

theorem Turned.alive_mono {h h' : Host} (ht : Turned h h') : h'.alive = true → h.alive = true := by
  cases ht with
  | announced before phase ready alive commands => rw [alive]; exact id
  | broken before phase alive commands => rw [alive]; exact id
  | serves before phase ready alive commands => rw [alive]; exact id
  | leaves before phase ready failed alive commands => exact alive

theorem Turned.owned {h h' : Host} (ht : Turned h h') :
    h.phase ≠ .unowned ∧ h'.phase ≠ .unowned ∧ h'.phase ≠ .preparing := by
  cases ht with
  | announced before phase => simp [before, phase]
  | broken before phase => simp [before, phase]
  | serves before phase => simp [before, phase]
  | leaves before phase => exact ⟨before.1, phase.1, phase.2.1⟩

theorem Turned.commands_sublist {h h' : Host} (ht : Turned h h') :
    h'.commands.Sublist h.commands := by
  have popped : (∃ r, h.commands = r :: h'.commands) → h'.commands.Sublist h.commands := by
    rintro ⟨r, hr⟩
    rw [hr]
    exact List.sublist_cons_self r _
  cases ht with
  | announced before phase ready alive commands => rw [commands]
  | broken before phase alive commands => rw [commands]
  | serves before phase ready alive commands =>
    rcases commands with eq | hr
    · rw [eq]
    · exact popped hr
  | leaves before phase ready failed alive commands =>
    rcases commands with eq | hr
    · rw [eq]
      exact List.nil_sublist _
    · exact popped hr

theorem Turned.serving {h h' : Host} (ht : Turned h h') (hs : h'.phase = .serving) :
    h.phase = .serving ∨ h.phase = .preparing := by
  cases ht with
  | announced before => exact .inr before
  | broken before phase => simp [hs] at phase
  | serves before => exact .inl before
  | leaves before phase => exact absurd hs phase.2.2

section Turn

variable {cfg : Config} {s s' : State} {t : Nat}

theorem owner_host_cases (hb : Bounded s) (hc : OwnerCase cfg s t s') (p : Nat) :
    (p = t ∧ Turned (s.host p) (s'.host p)) ∨ s'.host p = s.host p ∨
      (s.host p = {} ∧ ∃ ancestors, s'.host p = { ancestors := ancestors }) := by
  by_cases hp : p = t
  · subst hp
    exact .inl ⟨rfl, owner_turned hb hc⟩
  · rcases owner_host_other hc hp with eq | ⟨rfl, eq⟩
    · exact .inr (.inl eq)
    · exact .inr (.inr ⟨hb.hosts _ (Nat.le_refl _), _, eq⟩)

theorem Request.Waits.unique {q : Request} {a b : Nat} (ha : q.Waits a) (hb : q.Waits b) :
    a = b := by
  rcases ha with ⟨s₁, h₁⟩ | ⟨s₁, h₁⟩ <;> rcases hb with ⟨s₂, h₂⟩ | ⟨s₂, h₂⟩
  · simpa [h₁] using h₂
  · simp [s₁] at s₂
  · simp [s₁] at s₂
  · simpa [h₁] using h₂

theorem reply_owner (hb : Bounded s) (hd : Desk s) (hc : OwnerCase cfg s t s') (r : Nat) :
    (s'.request r).reply = (s.request r).reply ∨
      (r ∈ (s.host t).commands ∧ r ∉ (s'.host t).commands ∧
        ((s'.request r).reply = some none ∨
          ((s'.request r).reply = some (some s.nextHost) ∧
            ∃ rest, (s.host t).commands = r :: rest))) := by
  have once := hd.queuedOnce t
  cases hc with
  | cloned k r' rest at_ asked runs read =>
    by_cases h : r = r'
    · subst h
      rw [asked, List.nodup_cons] at once
      have hne : t ≠ s.nextHost := Nat.ne_of_lt (hb.lt_of_owned (by simp [at_]))
      refine .inr ⟨by simp [asked], by simpa [cloned, hne, Host.forked] using once.1, .inr ?_⟩
      exact ⟨by simp [cloned], rest, asked⟩
    · exact .inl (by simp [cloned, h])
  | forkFails r' rest at_ asked =>
    by_cases h : r = r'
    · subst h
      rw [asked, List.nodup_cons] at once
      exact .inr ⟨by simp [asked], by simpa using once.1, .inl (by simp)⟩
    · exact .inl (by simp [h])
  | ended at_ =>
    by_cases h : r ∈ (s.host t).commands
    · exact .inr ⟨h, by simp [endOwner, State.dropCommands],
        .inl (by simp [endOwner, State.dropCommands, h])⟩
    · exact .inl (by simp [endOwner, State.dropCommands, h])
  | froze | broke | hostGone | drained | expired | disconnected => exact .inl rfl

theorem clones_owner (hb : Bounded s) (hd : Desk s) (hc : OwnerCase cfg s t s') (r p : Nat)
    (h : (s'.request r).reply = some (some p)) : (s'.host p).phase = .unowned := by
  have unowned : (s.host p).phase = .unowned := by
    rcases reply_owner hb hd hc r with eq | ⟨_, _, eq | ⟨eq, _⟩⟩
    · exact hd.clones r p (eq ▸ h)
    · rw [eq] at h
      cases h
    · rw [eq] at h
      cases h
      rw [hb.hosts _ (Nat.le_refl _)]
  rcases owner_host_cases hb hc p with ⟨_, turned⟩ | eq | ⟨_, ancestors, eq⟩
  · exact absurd unowned turned.owned.1
  · rwa [eq]
  · rw [eq]

theorem cloneOnce_owner (hb : Bounded s) (hd : Desk s) (hc : OwnerCase cfg s t s') (r r' p : Nat)
    (h : (s'.request r).reply = some (some p)) (h' : (s'.request r').reply = some (some p)) :
    r = r' := by
  have fresh : ∀ r₀, (s.request r₀).reply ≠ some (some s.nextHost) :=
    fun r₀ h₀ => Nat.lt_irrefl _ (hb.replies r₀ _ h₀)
  rcases reply_owner hb hd hc r with eq | ⟨_, _, eq | ⟨eq, rest, head⟩⟩ <;>
    rcases reply_owner hb hd hc r' with eq' | ⟨_, _, eq' | ⟨eq', rest', head'⟩⟩ <;>
    rw [eq] at h <;> rw [eq'] at h'
  · exact hd.cloneOnce r r' p h h'
  · cases h'
  · cases h'
    exact absurd h (fresh r)
  · cases h
  · cases h
  · cases h
  · cases h
    exact absurd h' (fresh r')
  · cases h'
  · rw [head] at head'
    exact (List.cons.inj head').1

theorem queued_owner (hb : Bounded s) (hd : Desk s) (hc : OwnerCase cfg s t s') (p r : Nat)
    (h : r ∈ (s'.host p).commands) :
    (s'.request r).reply = none ∧ r ∈ (s.host p).commands := by
  have before : r ∈ (s.host p).commands := by
    rcases owner_host_cases hb hc p with ⟨_, turned⟩ | eq | ⟨_, ancestors, eq⟩
    · exact turned.commands_sublist.subset h
    · rwa [eq] at h
    · rw [eq] at h
      cases h
  refine ⟨?_, before⟩
  obtain ⟨unanswered, waits⟩ := hd.queued p r before
  rcases reply_owner hb hd hc r with eq | ⟨mine, gone, _⟩
  · rw [eq]
    exact unanswered
  · -- a request waits in one queue only, and this one it has left
    have : p = t := waits.unique (hd.queued t r mine).2
    subst this
    exact absurd h gone

theorem queuedOnce_owner (hb : Bounded s) (hd : Desk s) (hc : OwnerCase cfg s t s') (p : Nat) :
    (s'.host p).commands.Nodup := by
  rcases owner_host_cases hb hc p with ⟨_, turned⟩ | eq | ⟨_, ancestors, eq⟩
  · exact (hd.queuedOnce p).sublist turned.commands_sublist
  · rw [eq]
    exact hd.queuedOnce p
  · rw [eq]
    exact List.nodup_nil

theorem stopping_owner (hb : Bounded s) (hL : Ledger s) (hk : Book s)
    (hc : OwnerCase cfg s t s') (h : (s'.host t).phase = .stopping) :
    ¬ s.RunningDescendant t ∧ (s.host t).commands = [] := by
  cases hc with
  | expired at_ idle childless due =>
    refine ⟨hL.not_runningDescendant hb ?_, idle⟩
    have := hL.count t
    simp only [Host.drained] at childless
    omega
  | disconnected at_ idle gone =>
    refine ⟨?_, idle⟩
    rcases hk.anchors t at_ with ⟨r, hf⟩ | ⟨sl, hm, htp⟩ | ⟨_, quiet⟩
    · have holds : (s.request r).Holds t := .inr (.inr (.inl hf))
      exact absurd (.inr ⟨r, hb.arrived_of_holds holds, holds⟩) gone
    · exact absurd (.inl ⟨sl, (hb.slots _ sl hm).1, .inl hm, htp⟩) gone
    · exact quiet
  | froze at_ | broke at_ | hostGone at_ => simp at h
  | forkFails r rest at_ => simp at h
  | drained at_ => simp [Host.drained, at_] at h
  | ended at_ => simp [endOwner] at h
  | cloned k r rest at_ =>
    have hne : t ≠ s.nextHost := Nat.ne_of_lt (hb.lt_of_owned (by simp [at_]))
    simp [cloned, hne, Host.forked, at_] at h

theorem stopping_kept (hb : Bounded s) (hk : Book s) (hl : LedgerStep s s') {p : Nat}
    (h : (s.host p).phase = .stopping) : ¬ s'.RunningDescendant p := by
  intro hrd
  rcases hl.runningDescendant hb hrd with old | ⟨serving, _⟩
  · exact hk.stops p h old
  · rw [h] at serving
    cases serving

theorem stops_owner (hb : Bounded s) (hL : Ledger s) (hk : Book s) (hc : OwnerCase cfg s t s')
    (p : Nat) (h : (s'.host p).phase = .stopping) : ¬ s'.RunningDescendant p := by
  rcases owner_host_cases hb hc p with ⟨rfl, _⟩ | eq | ⟨_, ancestors, eq⟩
  · obtain ⟨quiet, idle⟩ := stopping_owner hb hL hk hc h
    intro hrd
    rcases (ledger_owner hc).runningDescendant hb hrd with old | ⟨_, asked⟩
    · exact quiet old
    · exact asked idle
  · rw [eq] at h
    exact stopping_kept hb hk (ledger_owner hc) h
  · simp [eq] at h

theorem alive_owner (hb : Bounded s) (hc : OwnerCase cfg s t s') (p : Nat)
    (h : (s'.host p).alive = true) : (s.host p).alive = true := by
  rcases owner_host_cases hb hc p with ⟨_, turned⟩ | eq | ⟨fresh, _⟩
  · exact turned.alive_mono h
  · rwa [eq] at h
  · rw [fresh]

theorem desk_owner (hb : Bounded s) (hd : Desk s) (hc : OwnerCase cfg s t s') : Desk s' := by
  refine desk_frame hd (owner_frame hc) ?_ (clones_owner hb hd hc) (cloneOnce_owner hb hd hc)
    (queued_owner hb hd hc) (queuedOnce_owner hb hd hc) ?_
  · intro p
    rcases owner_host_cases hb hc p with ⟨_, turned⟩ | eq | ⟨_, ancestors, eq⟩
    · exact turned.ownerOk (hd.owners p)
    · rw [eq]
      exact hd.owners p
    · rw [eq]
      exact ownerOk_default ancestors
  · intro p h
    rcases owner_host_cases hb hc p with ⟨_, turned⟩ | eq | ⟨_, ancestors, eq⟩
    · exact absurd h turned.owned.2.2
    · rwa [eq] at h
    · simp [eq] at h

theorem book_owner (hb : Bounded s) (hL : Ledger s) (hk : Book s) (hc : OwnerCase cfg s t s') :
    Book s' := by
  refine book_frame hb hk (owner_frame hc) (ledger_owner hc) (desk_owner hb hk.desk hc)
    (alive_owner hb hc) ?_ (stops_owner hb hL hk hc)
  intro p h
  rcases owner_host_cases hb hc p with ⟨_, turned⟩ | eq | ⟨_, ancestors, eq⟩
  · exact turned.serving h
  · rw [eq] at h
    exact .inl h
  · simp [eq] at h

end Turn

end Owner

/-! ## Processes, requests arriving, and pruning -/

section Rest

variable {s s' : State}

structure ProcessStep (s s' : State) : Prop where
  slots : s'.slots = s.slots
  slot : s'.slot = s.slot
  arrived : s'.arrived = s.arrived
  request : s'.request = s.request
  phase : ∀ p, (s'.host p).phase = (s.host p).phase
  alive : ∀ p, (s'.host p).alive = (s.host p).alive
  ready : ∀ p, (s'.host p).ready = (s.host p).ready
  commands : ∀ p, (s'.host p).commands = (s.host p).commands

theorem ProcessStep.frame (hp : ProcessStep s s') : OwnerFrame s s' :=
  ownerFrame_of_eq hp.slots hp.slot hp.arrived hp.request

theorem processStep_exit {p : Nat} (h : exitStep s p = some s') : ProcessStep s s' := by
  obtain ⟨_, rfl⟩ := exitStep_eq h
  constructor
  case slots | slot | arrived | request => rfl
  all_goals
    intro q
    by_cases hq : q = p
    · subst hq
      simp
    · simp [hq]

theorem processStep_report {p : Nat} (hb : Bounded s) (h : reportStep s p = some s') :
    ProcessStep s s' := by
  obtain ⟨t, rest, parent, hp, _, _, rfl⟩ := reportStep_eq h
  have hne : t ≠ p := Nat.ne_of_lt (hb.ancestors p t (by simp [parent]))
  constructor
  case slots | slot | arrived | request => rfl
  all_goals
    intro q
    by_cases hq : q = t
    · subst hq
      simp [reportTo, hne]
    · by_cases hqp : q = p
      · subst hqp
        simp [reportTo, hq]
      · simp [reportTo, hq, hqp]

theorem processStep_tick (s : State) : ProcessStep s { s with now := s.now + 1 } :=
  ⟨rfl, rfl, rfl, rfl, fun _ => rfl, fun _ => rfl, fun _ => rfl, fun _ => rfl⟩

theorem desk_process (hd : Desk s) (hp : ProcessStep s s') : Desk s' := by
  refine desk_frame hd hp.frame ?_ ?_ ?_ ?_ ?_ ?_
  · intro p
    have old := hd.owners p
    exact ⟨by rw [hp.phase, hp.ready]; exact old.quiet, by rw [hp.phase, hp.ready]; exact old.failed,
      by rw [hp.phase, hp.alive]; exact old.alive⟩
  · intro r p h
    rw [hp.request] at h
    rw [hp.phase]
    exact hd.clones r p h
  · intro r r' p
    rw [hp.request]
    exact hd.cloneOnce r r' p
  · intro p r h
    rw [hp.commands] at h
    rw [hp.request]
    exact ⟨(hd.queued p r h).1, h⟩
  · intro p
    rw [hp.commands]
    exact hd.queuedOnce p
  · intro p
    rw [hp.phase]
    exact id

theorem book_process (hb : Bounded s) (hk : Book s) (hl : LedgerStep s s') (hp : ProcessStep s s') :
    Book s' := by
  refine book_frame hb hk hp.frame hl (desk_process hk.desk hp) ?_ ?_ ?_
  · intro p
    rw [hp.alive]
    exact id
  · intro p h
    rw [hp.phase] at h
    exact .inl h
  · intro p h
    rw [hp.phase] at h
    exact stopping_kept hb hk hl h

theorem request_arrive (hb : Bounded s) (manifest : Manifest) (recipe : Option (List UInt8))
    {r : Nat} (h : (s.request r).stage ≠ .done false) :
    (arrive s manifest recipe).request r = s.request r := by
  have hne : r ≠ s.arrived := Nat.ne_of_lt (hb.arrived_of_active h)
  simp [arrive, hne]

theorem arrive_request_cases (manifest : Manifest) (recipe : Option (List UInt8)) (r : Nat) :
    (arrive s manifest recipe).request r = s.request r ∨
      (arrive s manifest recipe).request r = { manifest, recipe, stage := .slot } := by
  by_cases h : r = s.arrived
  · exact .inr (by simp [arrive, h])
  · exact .inl (by simp [arrive, h])

theorem filling_arrive (hb : Bounded s) (hd : Desk s) (manifest : Manifest)
    (recipe : Option (List UInt8)) {r t : Nat} (h : (s.request r).filling = some t) :
    ((arrive s manifest recipe).request r).filling = some t := by
  rw [request_arrive hb manifest recipe (by simp [hd.filling r (by simp [h])])]
  exact h

theorem desk_arrive (hb : Bounded s) (hd : Desk s) (manifest : Manifest)
    (recipe : Option (List UInt8)) : Desk (arrive s manifest recipe) where
  filling := by
    intro r h
    rcases arrive_request_cases manifest recipe r with eq | eq
    · rw [eq] at h ⊢
      exact hd.filling r h
    · simp [eq] at h
  owners := hd.owners
  clones := by
    intro r p h
    rcases arrive_request_cases manifest recipe r with eq | eq
    · rw [eq] at h
      exact hd.clones r p h
    · simp [eq] at h
  cloneOnce := by
    intro r r' p h h'
    rcases arrive_request_cases manifest recipe r with eq | eq
    · rcases arrive_request_cases manifest recipe r' with eq' | eq'
      · exact hd.cloneOnce r r' p (eq ▸ h) (eq' ▸ h')
      · simp [eq'] at h'
    · simp [eq] at h
  queued := by
    intro t r h
    have old := hd.queued t r h
    rw [request_arrive hb manifest recipe (by rcases old.2 with w | w <;> simp [w.1])]
    exact old
  queuedOnce := hd.queuedOnce
  makers := by
    intro t h
    obtain ⟨r, hr⟩ := hd.makers t h
    exact ⟨r, filling_arrive hb hd manifest recipe hr⟩

theorem book_arrive (hb : Bounded s) (hk : Book s) (manifest : Manifest)
    (recipe : Option (List UInt8)) : Book (arrive s manifest recipe) := by
  have mine := arrive_request_cases (s := s) manifest recipe
  refine (desk_arrive hb hk.desk manifest recipe).book
    { mapped := ?_, guards := ?_, dead := ?_, anchors := ?_, stops := hk.stops }
  · intro r sl h
    rcases mine r with eq | eq
    · rw [eq] at h
      exact hk.mapped r sl h
    · simp [eq, Request.HoldsSlot] at h
  · intro r sl h
    rcases mine r with eq | eq
    · rw [eq] at h
      exact hk.guards r sl h
    · simp [eq] at h
  · intro r sl stage h
    rcases mine r with eq | eq
    · rw [eq] at h stage
      exact hk.dead r sl stage h
    · simp [eq] at h
  · intro t h
    rcases hk.anchors t h with ⟨r, hr⟩ | hm | ⟨unheld, quiet⟩
    · exact .inl ⟨r, filling_arrive hb hk.desk manifest recipe hr⟩
    · exact .inr (.inl hm)
    · refine .inr (.inr ⟨?_, quiet⟩)
      rintro ⟨r, _, holds⟩
      rcases mine r with eq | eq
      · rw [eq] at holds
        exact unheld ⟨r, hb.arrived_of_holds holds, holds⟩
      · simp [eq, Request.Holds] at holds

theorem mapped_prune {sl : Nat} (h : s.Mapped sl) (keep : retained s sl = true) :
    (prune s).Mapped sl := by
  have hm : s.slots (s.slot sl).key = some sl := h
  show (s.slots (s.slot sl).key).filter (retained s) = some sl
  rw [hm, Option.filter_some, if_pos keep]

theorem desk_prune (hd : Desk s) : Desk (prune s) :=
  ⟨hd.filling, hd.owners, hd.clones, hd.cloneOnce, hd.queued, hd.queuedOnce, hd.makers⟩

theorem book_prune (hb : Bounded s) (hk : Book s) : Book (prune s) := by
  refine (desk_prune hk.desk).book
    { mapped := ?_, guards := hk.guards, dead := hk.dead, anchors := ?_, stops := hk.stops }
  · intro r sl h
    refine mapped_prune (hk.mapped r sl h) ?_
    have held : s.SlotHeld sl := ⟨r, hb.arrived_of_holdsSlot h, h⟩
    simp [retained, held]
  · intro t h
    rcases hk.anchors t h with fill | ⟨sl, hm, htp⟩ | quiet
    · exact .inl fill
    · refine .inr (.inl ⟨sl, mapped_prune hm ?_, htp⟩)
      have alive := (hk.owners t).alive (.inr (.inr h))
      have hal : s.aliveIn sl = some t := State.aliveIn_eq_some.mpr ⟨htp, alive⟩
      simp [retained, hal]
    · exact .inr (.inr quiet)

theorem book_initial : Book {} := by
  constructor <;> intros <;> simp_all [Request.HoldsSlot]
  exact ownerOk_default []

/-! ## All events together -/

theorem alive_next {cfg : Config} {e : Event} (hb : Bounded s) (h : next cfg s e = some s') {t : Nat}
    (alive : (s'.host t).alive = true) : (s.host t).alive = true := by
  by_cases known : t < s.nextHost
  case neg => rw [hb.hosts t (Nat.le_of_not_lt known)]
  cases e with
  | arrive | prune | tick =>
    cases h
    exact alive
  | call r c => rwa [call_alive (callStep_cases h) known] at alive
  | owner p turn => exact alive_owner hb (ownerStep_cases h) t alive
  | exit p => rwa [(processStep_exit h).alive] at alive
  | report p => rwa [(processStep_report hb h).alive] at alive

theorem frame_next {cfg : Config} {e : Event} (hb : Bounded s) (h : next cfg s e = some s')
    (beside : match e with
      | .owner _ _ | .exit _ | .report _ | .tick => True
      | _ => False) : OwnerFrame s s' := by
  cases e with
  | arrive | call | prune => exact absurd beside id
  | owner t turn => exact owner_frame (ownerStep_cases h)
  | exit p => exact (processStep_exit h).frame
  | report p => exact (processStep_report hb h).frame
  | tick =>
    cases h
    exact (processStep_tick s).frame

theorem desk_next {cfg : Config} {e : Event} (hb : Bounded s) (hd : Desk s)
    (h : next cfg s e = some s') : Desk s' := by
  cases e with
  | arrive manifest recipe =>
    cases h
    exact desk_arrive hb hd manifest recipe
  | call r c => exact desk_call hb hd (callStep_cases h)
  | prune =>
    cases h
    exact desk_prune hd
  | owner t turn => exact desk_owner hb hd (ownerStep_cases h)
  | exit p => exact desk_process hd (processStep_exit h)
  | report p => exact desk_process hd (processStep_report hb h)
  | tick =>
    cases h
    exact desk_process hd (processStep_tick s)

theorem book_next {cfg : Config} {e : Event} (hb : Bounded s) (hL : Ledger s) (hk : Book s)
    (orderly : Orderly cfg s e) (h : next cfg s e = some s') : Book s' := by
  have hl : LedgerStep s s' := ledger_next hb h
  cases e with
  | arrive manifest recipe =>
    cases h
    exact book_arrive hb hk manifest recipe
  | call r c =>
    refine book_call hb hk (callStep_cases h) ?_
    intro at_
    cases c with
    | forget => exact orderly
    | slot | lock | check | filled | send | answer | adopt =>
      simp [next, callStep, slotStep, lockStep, checkStep, filledStep, sendStep, answerStep,
        adoptStep, at_] at h
  | prune =>
    cases h
    exact book_prune hb hk
  | owner t turn => exact book_owner hb hL hk (ownerStep_cases h)
  | exit p => exact book_process hb hk hl (processStep_exit h)
  | report p => exact book_process hb hk hl (processStep_report hb h)
  | tick =>
    cases h
    exact book_process hb hk hl (processStep_tick s)

theorem desk_reachable {cfg : Config} {ok : State → Event → Prop}
    (h : (cache cfg).ReachableBy ok s) : Desk s := by
  refine h.invariant (P := Desk) ?_ ?_
  · rintro s rfl
    exact book_initial.desk
  · intro s e s' hr hd _ hn
    exact desk_next (bounded_reachable hr) hd hn

theorem book_reachable {cfg : Config} (h : (cache cfg).ReachableBy (Orderly cfg) s) : Book s := by
  refine h.invariant (P := Book) ?_ ?_
  · rintro s rfl
    exact book_initial
  · intro s e s' hr hk ho hn
    exact book_next (bounded_reachable hr) (ledger_reachable hr) hk ho hn

end Rest

end ServiceCache.Templates
