import ServiceCache.Templates.Ledger

/-!
# Which template handles exist

The last two fields of `Book` carry the result: a serving template has its fill's handle or a
mapped slot, or nobody can reach it and nothing runs under it. `Templates::forget` is the one
operation that can break this; `ForgetSafe` says when it does no harm.
-/

namespace ServiceCache.Templates

open Function

def Request.Waits (q : Request) (t : Nat) : Prop :=
  (q.stage = .forkBase ∧ q.base = some t) ∨ (q.stage = .forking ∧ q.handle = some t)

structure OwnerOk (h : Host) : Prop where
  quiet : h.phase = .unowned ∨ h.phase = .preparing → h.ready = none
  failed : h.ready = some false → h.phase = .ended
  alive : h.phase = .unowned ∨ h.phase = .preparing ∨ h.phase = .serving → h.alive = true

def Anchored (s : State) (t : Nat) : Prop :=
  (∃ r, (s.request r).filling = some t) ∨
    (∃ sl, s.Mapped sl ∧ (s.slot sl).template = some t) ∨
    (¬ s.TemplateHeld t ∧ ¬ s.RunningDescendant t)

structure Book (s : State) : Prop where
  filling : ∀ r, (s.request r).filling ≠ none → (s.request r).stage = .fill
  mapped : ∀ r sl, (s.request r).HoldsSlot sl → s.Mapped sl
  guards : ∀ r sl, (s.request r).guard = some sl → (s.slot sl).lockedBy = some r
  dead : ∀ r sl, (s.request r).stage = .fill ∨ (s.request r).stage = .forkBase →
    (s.request r).guard = some sl → s.aliveIn sl = none
  owners : ∀ t, OwnerOk (s.host t)
  clones : ∀ r p, (s.request r).reply = some (some p) → (s.host p).phase = .unowned
  cloneOnce : ∀ r r' p, (s.request r).reply = some (some p) →
    (s.request r').reply = some (some p) → r = r'
  queued : ∀ t, ∀ r ∈ (s.host t).commands, (s.request r).reply = none ∧ (s.request r).Waits t
  queuedOnce : ∀ t, (s.host t).commands.Nodup
  makers : ∀ t, (s.host t).phase = .preparing → ∃ r, (s.request r).filling = some t
  anchors : ∀ t, (s.host t).phase = .serving → Anchored s t
  stops : ∀ t, (s.host t).phase = .stopping → ¬ s.RunningDescendant t

structure Desk (s : State) : Prop where
  filling : ∀ r, (s.request r).filling ≠ none → (s.request r).stage = .fill
  owners : ∀ t, OwnerOk (s.host t)
  clones : ∀ r p, (s.request r).reply = some (some p) → (s.host p).phase = .unowned
  cloneOnce : ∀ r r' p, (s.request r).reply = some (some p) →
    (s.request r').reply = some (some p) → r = r'
  queued : ∀ t, ∀ r ∈ (s.host t).commands, (s.request r).reply = none ∧ (s.request r).Waits t
  queuedOnce : ∀ t, (s.host t).commands.Nodup
  makers : ∀ t, (s.host t).phase = .preparing → ∃ r, (s.request r).filling = some t

structure Shelf (s : State) : Prop where
  mapped : ∀ r sl, (s.request r).HoldsSlot sl → s.Mapped sl
  guards : ∀ r sl, (s.request r).guard = some sl → (s.slot sl).lockedBy = some r
  dead : ∀ r sl, (s.request r).stage = .fill ∨ (s.request r).stage = .forkBase →
    (s.request r).guard = some sl → s.aliveIn sl = none
  anchors : ∀ t, (s.host t).phase = .serving → Anchored s t
  stops : ∀ t, (s.host t).phase = .stopping → ¬ s.RunningDescendant t

theorem Desk.book {s : State} (hd : Desk s) (shelf : Shelf s) : Book s := { hd, shelf with }

theorem Book.desk {s : State} (hk : Book s) : Desk s := { hk with }

/-- `forget` finds no slot under its key, or one that no `obtain` is using and that
holds no alive template, or an alive one that no request has a handle on and that
nothing runs under. -/
def ForgetSafe (cfg : Config) (s : State) (r : Nat) : Prop :=
  ∀ sl ∈ s.slots (Key.new cfg (s.request r).manifest (s.request r).recipe),
    ¬ s.SlotHeld sl ∧ ∀ t ∈ s.aliveIn sl, ¬ s.TemplateHeld t ∧ ¬ s.RunningDescendant t

instance (cfg : Config) (s : State) (r : Nat) : Decidable (ForgetSafe cfg s r) :=
  inferInstanceAs (Decidable (∀ sl ∈ s.slots _, _))

def Orderly (cfg : Config) (s : State) : Event → Prop
  | .call r .forget => ForgetSafe cfg s r
  | _ => True

instance (cfg : Config) (s : State) (e : Event) : Decidable (Orderly cfg s e) := by
  unfold Orderly
  split <;> infer_instance

/-! ## Steps of a call -/

section Request

variable (q : Request) (t : Nat)

@[simp] theorem Request.got_guard : (q.got t).guard = none := by
  unfold Request.got
  split <;> rfl

@[simp] theorem Request.got_filling : (q.got t).filling = none := by
  unfold Request.got
  split <;> rfl

theorem Request.got_stage : (q.got t).stage = .slot ∨ (q.got t).stage = .fork := by
  unfold Request.got
  split
  · exact .inl rfl
  · exact .inr rfl

theorem Request.holdsSlot_got {sl : Nat} (h : (q.got t).HoldsSlot sl) : q.HoldsSlot sl := by
  unfold Request.got at h
  split at h
  · simp only [Request.HoldsSlot] at h ⊢
    grind
  · simp [Request.obtained, Request.leave, Request.HoldsSlot] at h

@[simp] theorem Request.finish_guard (b : Bool) : (q.finish b).guard = none := rfl
@[simp] theorem Request.finish_filling (b : Bool) : (q.finish b).filling = none := rfl
@[simp] theorem Request.finish_stage (b : Bool) : (q.finish b).stage = .done b := rfl

end Request

section Slots

variable {s : State}

theorem slotFor_mapped (hb : Bounded s) (key : Key) :
    (slotFor s key).1.Mapped (slotFor s key).2 := by
  unfold slotFor
  split
  next sl h =>
    show s.slots (s.slot sl).key = some sl
    rw [(hb.slots key sl h).2]
    exact h
  · simp [State.Mapped]

theorem mapped_slotFor (hb : Bounded s) (key : Key) {sl : Nat} (h : s.Mapped sl) :
    (slotFor s key).1.Mapped sl ∧ (slotFor s key).1.slot sl = s.slot sl := by
  unfold slotFor
  split
  · exact ⟨h, rfl⟩
  next hk =>
    have hlt := (hb.slots _ sl h).1
    have hsl : sl ≠ s.nextSlot := Nat.ne_of_lt hlt
    have hkey : (s.slot sl).key ≠ key := by
      intro heq
      rw [← heq, h] at hk
      cases hk
    refine ⟨?_, by simp [hsl]⟩
    have hm : s.slots (s.slot sl).key = some sl := h
    simp [State.Mapped, hsl, hkey, hm]

end Slots

section Call

variable {cfg : Config} {s s' : State} {r : Nat}

theorem call_alive (hc : CallCase cfg s r s') {p : Nat} (hp : p < s.nextHost) :
    (s'.host p).alive = (s.host p).alive := by
  have hne : p ≠ s.nextHost := Nat.ne_of_lt hp
  cases hc <;> simp [update_apply, hne] <;> split <;> simp_all

theorem filling_call (hd : Desk s) (hc : CallCase cfg s r s') (r' : Nat)
    (h : (s'.request r').filling ≠ none) : (s'.request r').stage = .fill := by
  by_cases hr : r' = r
  · subst hr
    have old := hd.filling r'
    cases hc with
    | spawnBase sl at_ guard dead => simp
    | spawnRecipe sl p at_ guard reply => simp
    | clone | filled | giveUp | adopted => simp at h
    | slot at_ => exact absurd (old (by simpa using h)) (by simp [at_])
    | lock sl at_ => exact absurd (old (by simpa using h)) (by simp [at_])
    | sendBase sl b at_ => exact absurd (old (by simpa using h)) (by simp [at_])
    | send t at_ => exact absurd (old (by simpa using h)) (by simp [at_])
    | adopting p at_ => exact absurd (old (by simpa using h)) (by simp [at_])
    | forget at_ => exact absurd (old (by simpa using h)) (by simp [at_])
    | forkFailed gone =>
      have hstage : (s.request r').stage ≠ .fill := by rcases gone with g | g <;> simp [g.1]
      simp only [forkFailed, State.setRequest_request, update_self] at h
      split at h
      · simp at h
      · exact absurd (old h) hstage
  · rw [call_request_other hc hr] at h ⊢
    exact hd.filling r' h

theorem holdsSlot_call (hc : CallCase cfg s r s') {sl : Nat}
    (h : (s'.request r).HoldsSlot sl) :
    (s.request r).HoldsSlot sl ∨ ((s.request r).stage = .slot ∧
      s' = (slotFor s ((s.request r).key cfg)).1.setRequest r { s.request r with
        stage := .lock, slot := some (slotFor s ((s.request r).key cfg)).2 } ∧
      sl = (slotFor s ((s.request r).key cfg)).2) := by
  cases hc with
  | slot at_ =>
    simp only [State.setRequest_request, update_self, Request.HoldsSlot,
      Option.some.injEq] at h ⊢
    grind
  | lock sl' at_ slot free =>
    simp only [State.setRequest_request, update_self, Request.HoldsSlot,
      Option.some.injEq] at h ⊢
    grind
  | clone sl' t => exact .inl (Request.holdsSlot_got _ t (by simpa using h))
  | filled sl' t => exact .inl (Request.holdsSlot_got _ t (by simpa using h))
  | giveUp | adopted => simp at h
  | forkFailed gone =>
    simp only [forkFailed, State.setRequest_request, update_self] at h
    split at h
    · simp at h
    · exact .inl h
  | spawnBase | sendBase | send | spawnRecipe | adopting | forget =>
    left
    simpa [Request.HoldsSlot] using h

theorem mapped_kept (hb : Bounded s) (hc : CallCase cfg s r s') {sl : Nat} (h : s.Mapped sl) :
    s'.Mapped sl ∨ ((s.request r).stage = .forget ∧
      sl ∈ s.slots (Key.new cfg (s.request r).manifest (s.request r).recipe) ∧
      ∀ t, (s'.request r).Holds t → (s.request r).Holds t) := by
  cases hc with
  | slot at_ => exact .inl (mapped_slotFor hb ((s.request r).key cfg) h).1
  | lock sl' | clone sl' t | giveUp sl' | filled sl' t =>
    left
    by_cases hsl : sl = sl'
    · subst hsl
      simpa [State.Mapped] using h
    · simpa [State.Mapped, hsl] using h
  | forget at_ =>
    by_cases hkey : (s.slot sl).key = Key.new cfg (s.request r).manifest (s.request r).recipe
    · refine .inr ⟨at_, hkey ▸ h, ?_⟩
      intro t ht
      simpa [Request.Holds] using ht
    · left
      simpa [State.Mapped, hkey] using h
  | spawnBase | sendBase | send | forkFailed | spawnRecipe | adopting | adopted => exact .inl h

theorem mapped_call (hb : Bounded s) (hk : Book s) (hc : CallCase cfg s r s')
    (safe : (s.request r).stage = .forget → ForgetSafe cfg s r) (r' sl : Nat)
    (h : (s'.request r').HoldsSlot sl) : s'.Mapped sl := by
  have kept : ∀ r'', (s.request r'').HoldsSlot sl → s'.Mapped sl := by
    intro r'' held
    rcases mapped_kept hb hc (hk.mapped r'' sl held) with hm | ⟨at_, hmem, _⟩
    · exact hm
    · exact absurd ⟨r'', hb.arrived_of_holdsSlot held, held⟩ (safe at_ sl hmem).1
  by_cases hr : r' = r
  · subst hr
    rcases holdsSlot_call hc h with old | ⟨_, rfl, rfl⟩
    · exact kept r' old
    · exact slotFor_mapped hb _
  · rw [call_request_other hc hr] at h
    exact kept r' h

theorem guards_call (hb : Bounded s) (hk : Book s) (hc : CallCase cfg s r s') (r' sl : Nat)
    (h : (s'.request r').guard = some sl) : (s'.slot sl).lockedBy = some r' := by
  by_cases hr : r' = r
  · subst hr
    have old := hk.guards r' sl
    cases hc with
    | slot at_ =>
      have hg : (s.request r').guard = some sl := by simpa using h
      have hm := mapped_slotFor hb ((s.request r').key cfg)
        (hk.mapped r' sl (.inr (.inr hg)))
      show ((slotFor s _).1.slot sl).lockedBy = some r'
      rw [hm.2]
      exact old hg
    | lock sl' at_ slot free =>
      have hsl : sl' = sl := by simpa using h
      subst hsl
      simp
    | clone | filled | giveUp | adopted => simp at h
    | forkFailed gone =>
      simp only [forkFailed, State.setRequest_request, update_self] at h
      split at h
      · simp at h
      · exact old h
    | spawnBase | sendBase | send | spawnRecipe | adopting | forget =>
      exact old (by simpa using h)
  · rw [call_request_other hc hr] at h
    have old := hk.guards r' sl h
    -- another call's guard: the slot this call touches is not the one
    have other : ∀ sl', (s.request r).guard = some sl' → sl ≠ sl' := by
      rintro sl' hg rfl
      have := hk.guards r sl hg
      rw [old] at this
      exact hr (Option.some.inj this)
    cases hc with
    | slot at_ =>
      have hm := mapped_slotFor hb ((s.request r).key cfg)
        (hk.mapped r' sl (.inr (.inr h)))
      show ((slotFor s _).1.slot sl).lockedBy = some r'
      rw [hm.2]
      exact old
    | lock sl' at_ slot free =>
      have hne : sl ≠ sl' := by
        rintro rfl
        rw [old] at free
        cases free
      simpa [hne] using old
    | clone sl' t at_ guard alive => simpa [other sl' guard] using old
    | filled sl' t at_ guard filling ready => simpa [other sl' guard] using old
    | giveUp sl' guard failed => simpa [other sl' guard] using old
    | spawnBase | sendBase | send | forkFailed | spawnRecipe | adopting | forget | adopted =>
      exact old

theorem aliveIn_of_alive {sl : Nat} (template : (s'.slot sl).template = (s.slot sl).template)
    (alive : ∀ t, (s.slot sl).template = some t → (s.host t).alive = false →
      (s'.host t).alive = false)
    (h : s.aliveIn sl = none) : s'.aliveIn sl = none := by
  rw [State.aliveIn_eq_none] at h ⊢
  intro t ht
  rw [template] at ht
  exact alive t ht (h t ht)

theorem template_call (hb : Bounded s) (hc : CallCase cfg s r s') {sl : Nat}
    (held : s.Mapped sl) (free : ∀ t, (s.request r).stage = .fill → (s.request r).guard = some sl →
      (s.request r).filling ≠ some t) :
    (s'.slot sl).template = (s.slot sl).template := by
  cases hc with
  | slot at_ =>
    have hm := mapped_slotFor hb ((s.request r).key cfg) held
    show ((slotFor s _).1.slot sl).template = _
    rw [hm.2]
  | lock sl' | clone sl' t | giveUp sl' =>
    by_cases hsl : sl = sl'
    · subst hsl
      simp
    · simp [hsl]
  | filled sl' t at_ guard filling ready =>
    by_cases hsl : sl = sl'
    · subst hsl
      exact absurd filling (free t at_ guard)
    · simp [hsl]
  | spawnBase | sendBase | send | forkFailed | spawnRecipe | adopting | forget | adopted => rfl

theorem dead_call (hb : Bounded s) (hk : Book s) (hc : CallCase cfg s r s') (r' sl : Nat)
    (stage : (s'.request r').stage = .fill ∨ (s'.request r').stage = .forkBase)
    (h : (s'.request r').guard = some sl) : s'.aliveIn sl = none := by
  have alive : ∀ t, (s.slot sl).template = some t → (s.host t).alive = false →
      (s'.host t).alive = false := by
    intro t ht ha
    rw [call_alive hc (hb.templates sl t ht)]
    exact ha
  by_cases hr : r' = r
  · subst hr
    -- the call has just looked into the slot, or was filling it already
    cases hc with
    | spawnBase sl' at_ guard dead =>
      have hsl : sl' = sl := by simpa [guard] using h
      subst hsl
      exact aliveIn_of_alive (s := s) rfl alive dead
    | sendBase sl' b at_ guard dead =>
      have hsl : sl' = sl := by simpa [guard] using h
      subst hsl
      exact aliveIn_of_alive (s := s) rfl alive dead
    | spawnRecipe sl' p at_ guard reply =>
      have hg : (s.request r').guard = some sl := by simpa using h
      exact aliveIn_of_alive (s := s) rfl alive (hk.dead r' sl (.inr at_) hg)
    | clone | filled | giveUp | adopted => simp at h
    | forkFailed gone =>
      simp only [forkFailed, State.setRequest_request, update_self] at stage
      split at stage
      · simp at stage
      · simp at stage
    | slot | lock | send | adopting | forget => simp at stage
  · rw [call_request_other hc hr] at h stage
    have lockedBy := hk.guards r' sl h
    refine aliveIn_of_alive (template_call hb hc (hk.mapped r' sl (.inr (.inr h))) ?_) alive
      (hk.dead r' sl stage h)
    intro t _ guard _
    have := hk.guards r sl guard
    rw [lockedBy] at this
    exact hr (Option.some.inj this)

inductive HostByCall (s s' : State) (r p : Nat) : Prop
  | same (eq : s'.host p = s.host p)
  | queue (eq : s'.host p = { s.host p with commands := (s.host p).commands ++ [r] })
      (waits : (s'.request r).Waits p) (asked : (s'.request r).reply = none)
      (holds : (s.request r).Holds p)
      (idle : (s.request r).stage = .check ∨ (s.request r).stage = .fork)
  | start (eq : s'.host p = { s.host p with phase := .preparing })
      (filling : (s'.request r).filling = some p) (unowned : (s.host p).phase = .unowned)
      (source : p = s.nextHost ∨
        ((s.request r).reply = some (some p) ∧ (s'.request r).reply = none))

theorem host_call (hb : Bounded s) (hd : Desk s) (hc : CallCase cfg s r s') (p : Nat) :
    HostByCall s s' r p := by
  cases hc with
  | slot at_ => exact .same (congrFun (slotFor_host s _) p)
  | spawnBase sl at_ guard dead =>
    by_cases hp : p = s.nextHost
    · subst hp
      have hfresh := hb.hosts s.nextHost (Nat.le_refl _)
      exact .start (by simp [hfresh]) (by simp) (by simp [hfresh]) (.inl rfl)
    · exact .same (by simp [hp])
  | sendBase sl b at_ guard dead base receiver =>
    by_cases hp : p = b
    · subst hp
      exact .queue (by simp) (.inl (by simpa using base)) (by simp) (.inr (.inl base)) (.inl at_)
    · exact .same (by simp [hp])
  | send t at_ handle receiver =>
    by_cases hp : p = t
    · subst hp
      exact .queue (by simp) (.inr (by simpa using handle)) (by simp)
        (.inr (.inr (.inr handle))) (.inr at_)
    · exact .same (by simp [hp])
  | spawnRecipe sl q at_ guard reply =>
    by_cases hp : p = q
    · subst hp
      exact .start (by simp) (by simp) (hd.clones r p reply) (.inr ⟨reply, by simp⟩)
    · exact .same (by simp [hp])
  | lock | clone | filled | giveUp | forkFailed | adopting | forget | adopted => exact .same rfl

theorem reply_call (hc : CallCase cfg s r s') :
    (s'.request r).reply = (s.request r).reply ∨ (s'.request r).reply = none := by
  cases hc with
  | forkFailed gone =>
    simp only [forkFailed, State.setRequest_request, update_self]
    split <;> simp
  | slot | lock | clone | spawnBase | sendBase | filled | giveUp | send | spawnRecipe | adopting
  | forget | adopted => simp

theorem reply_of_call (hc : CallCase cfg s r s') {r' p : Nat}
    (h : (s'.request r').reply = some (some p)) : (s.request r').reply = some (some p) := by
  by_cases hr : r' = r
  · subst hr
    rcases reply_call hc with eq | eq <;> rw [eq] at h
    · exact h
    · cases h
  · rwa [call_request_other hc hr] at h

theorem owners_call (hb : Bounded s) (hd : Desk s) (hc : CallCase cfg s r s') (t : Nat) :
    OwnerOk (s'.host t) := by
  have old := hd.owners t
  cases host_call hb hd hc t with
  | same eq => rwa [eq]
  | queue eq waits asked holds idle =>
    rw [eq]
    exact ⟨old.quiet, old.failed, old.alive⟩
  | start eq filling unowned source =>
    have hready := old.quiet (.inl unowned)
    rw [eq]
    refine ⟨fun _ => hready, ?_, ?_⟩
    · intro h
      simp [hready] at h
    · intro _
      exact old.alive (.inl unowned)

theorem clones_call (hb : Bounded s) (hd : Desk s) (hc : CallCase cfg s r s') (r' p : Nat)
    (h : (s'.request r').reply = some (some p)) : (s'.host p).phase = .unowned := by
  have hold := reply_of_call hc h
  have unowned := hd.clones r' p hold
  cases host_call hb hd hc p with
  | same eq => rwa [eq]
  | queue eq => rwa [eq]
  | start eq filling _ source =>
    rcases source with rfl | ⟨mine, cleared⟩
    · exact absurd (hb.replies r' s.nextHost hold) (Nat.lt_irrefl _)
    · -- the clone was this call's alone, and its answer is used up
      have : r' = r := hd.cloneOnce r' r p hold mine
      subst this
      rw [cleared] at h
      cases h

theorem not_queued_of_call (hd : Desk s) (hc : CallCase cfg s r s') (t : Nat) :
    r ∉ (s.host t).commands := by
  intro hmem
  obtain ⟨unanswered, waits⟩ := hd.queued t r hmem
  have stage : (s.request r).stage = .forkBase ∨ (s.request r).stage = .forking :=
    waits.imp And.left And.left
  cases hc <;> grind

theorem queued_call (hb : Bounded s) (hd : Desk s) (hc : CallCase cfg s r s') (t r' : Nat)
    (h : r' ∈ (s'.host t).commands) :
    (s'.request r').reply = none ∧ (s'.request r').Waits t := by
  have others : r' ∈ (s.host t).commands →
      (s'.request r').reply = none ∧ (s'.request r').Waits t := by
    intro hmem
    have hr : r' ≠ r := by
      rintro rfl
      exact not_queued_of_call hd hc t hmem
    rw [call_request_other hc hr]
    exact hd.queued t r' hmem
  cases host_call hb hd hc t with
  | same eq => exact others (eq ▸ h)
  | queue eq waits asked =>
    rw [eq] at h
    rcases List.mem_append.mp h with hold | hnew
    · exact others hold
    · rw [List.mem_singleton.mp hnew]
      exact ⟨asked, waits⟩
  | start eq => exact others (by simpa [eq] using h)

theorem queuedOnce_call (hb : Bounded s) (hd : Desk s) (hc : CallCase cfg s r s') (t : Nat) :
    (s'.host t).commands.Nodup := by
  have old := hd.queuedOnce t
  cases host_call hb hd hc t with
  | same eq => rwa [eq]
  | queue eq =>
    rw [eq]
    refine List.nodup_append.mpr ⟨old, by simp, ?_⟩
    intro a ha b hb' hab
    rw [List.mem_singleton.mp hb'] at hab
    exact not_queued_of_call hd hc t (hab ▸ ha)
  | start eq => rwa [eq]

theorem filling_kept (hd : Desk s) (hc : CallCase cfg s r s') {r' t : Nat}
    (h : (s.request r').filling = some t) :
    (s'.request r').filling = some t ∨
      (r' = r ∧ (s.host t).ready = some false) ∨
      (r' = r ∧ ∃ sl, (s.request r).guard = some sl ∧
        s' = (store s sl t).setRequest r ((s.request r).got t) ∧
        (s.host t).ready = some true) := by
  by_cases hr : r' = r
  · subst hr
    have stage := hd.filling r' (by simp [h])
    cases hc with
    | filled sl u at_ guard filling ready =>
      have : u = t := by simpa [h] using filling.symm
      subst this
      exact .inr (.inr ⟨rfl, sl, guard, rfl, ready⟩)
    | giveUp sl guard failed =>
      rcases failed with f | f | ⟨_, u, hu, hf⟩
      · simp [stage] at f
      · simp [stage] at f
      · have : u = t := by simpa [h] using hu.symm
        subst this
        exact .inr (.inl ⟨rfl, hf⟩)
    | forkFailed gone => rcases gone with g | g <;> simp [stage] at g
    | slot at_ => simp [stage] at at_
    | lock sl at_ => simp [stage] at at_
    | clone sl u at_ => simp [stage] at at_
    | spawnBase sl at_ => simp [stage] at at_
    | sendBase sl b at_ => simp [stage] at at_
    | send u at_ => simp [stage] at at_
    | spawnRecipe sl p at_ => simp [stage] at at_
    | adopting p at_ => simp [stage] at at_
    | forget at_ => simp [stage] at at_
    | adopted at_ => simp [stage] at at_
  · left
    rwa [call_request_other hc hr]

theorem makers_call (hb : Bounded s) (hd : Desk s) (hc : CallCase cfg s r s') (t : Nat)
    (h : (s'.host t).phase = .preparing) : ∃ r', (s'.request r').filling = some t := by
  have before : (s.host t).phase = .preparing → ∃ r', (s'.request r').filling = some t := by
    intro hp
    have quiet := (hd.owners t).quiet (.inr hp)
    obtain ⟨r', hf⟩ := hd.makers t hp
    rcases filling_kept hd hc hf with kept | ⟨_, ready⟩ | ⟨_, _, _, _, ready⟩
    · exact ⟨r', kept⟩
    · simp [quiet] at ready
    · simp [quiet] at ready
  cases host_call hb hd hc t with
  | same eq => exact before (eq ▸ h)
  | queue eq => exact before (by simpa [eq] using h)
  | start eq filling => exact ⟨r, filling⟩

theorem phase_of_call (hb : Bounded s) (hd : Desk s) (hc : CallCase cfg s r s') {t : Nat}
    (h : (s'.host t).phase ≠ .preparing) : (s'.host t).phase = (s.host t).phase := by
  cases host_call hb hd hc t with
  | same eq => rw [eq]
  | queue eq => rw [eq]
  | start eq => exact absurd (by rw [eq]) h

theorem holds_call (hc : CallCase cfg s r s') {t : Nat} (h : (s'.request r).Holds t) :
    (s.request r).Holds t ∨ (∃ sl, (s.request r).guard = some sl ∧ s.aliveIn sl = some t) ∨
      (s'.host t).phase = .preparing := by
  cases hc with
  | clone sl u at_ guard alive =>
    rcases Request.holds_got (by simpa using h) with old | rfl
    · exact .inl old
    · exact .inr (.inl ⟨sl, guard, alive⟩)
  | filled sl u at_ guard filling ready =>
    rcases Request.holds_got (by simpa using h) with old | rfl
    · exact .inl old
    · exact .inl (.inr (.inr (.inl filling)))
  | giveUp | adopted => simp at h
  | forkFailed gone =>
    simp only [forkFailed, State.setRequest_request, update_self] at h
    split at h
    · simp at h
    · simp only [Request.Holds] at h ⊢
      grind
  | spawnBase sl =>
    by_cases ht : t = s.nextHost
    · subst ht
      exact .inr (.inr (by simp))
    · have hne : s.nextHost ≠ t := Ne.symm ht
      simp only [spawnBase, Request.Holds, State.setRequest_request, update_self,
        Option.some.injEq, hne] at h ⊢
      grind
  | spawnRecipe sl p =>
    by_cases ht : t = p
    · subst ht
      exact .inr (.inr (by simp))
    · have hne : p ≠ t := Ne.symm ht
      simp only [spawnRecipe, Request.Holds, State.setRequest_request, update_self,
        Option.some.injEq, hne] at h ⊢
      grind
  | slot | lock | sendBase | send | adopting | forget =>
    simp only [Request.Holds, State.setRequest_request, update_self, send] at h ⊢
    grind

theorem queue_nonempty_held (hb : Bounded s) (hd : Desk s) {t : Nat}
    (h : (s.host t).commands ≠ []) : s.TemplateHeld t := by
  obtain ⟨r, hr⟩ := List.exists_mem_of_ne_nil _ h
  have holds : (s.request r).Holds t := by
    rcases (hd.queued t r hr).2 with w | w
    · exact .inr (.inl w.2)
    · exact .inr (.inr (.inr w.2))
  exact ⟨r, hb.arrived_of_holds holds, holds⟩

theorem unreached_call (hb : Bounded s) (hk : Book s) (hc : CallCase cfg s r s') {t : Nat}
    (mine : (s'.request r).Holds t → (s.request r).Holds t) (unheld : ¬ s.TemplateHeld t)
    (quiet : ¬ s.RunningDescendant t) : ¬ s'.TemplateHeld t ∧ ¬ s'.RunningDescendant t := by
  refine ⟨?_, ?_⟩
  · rintro ⟨r', hr', holds⟩
    rw [call_arrived hc] at hr'
    by_cases hr : r' = r
    · subst hr
      exact unheld ⟨r', hr', mine holds⟩
    · rw [call_request_other hc hr] at holds
      exact unheld ⟨r', hr', holds⟩
  · intro hrd
    rcases (ledger_call hc).runningDescendant hb hrd with old | ⟨_, asked⟩
    · exact quiet old
    · exact unheld (queue_nonempty_held hb hk.desk asked)

theorem anchors_call (hb : Bounded s) (hk : Book s) (hc : CallCase cfg s r s')
    (safe : (s.request r).stage = .forget → ForgetSafe cfg s r) (t : Nat)
    (h : (s'.host t).phase = .serving) : Anchored s' t := by
  have serving : (s.host t).phase = .serving := by
    rw [← phase_of_call hb hk.desk hc (by simp [h])]
    exact h
  have alive := (hk.owners t).alive (.inr (.inr serving))
  by_cases hmap : ∃ sl, s.Mapped sl ∧ (s.slot sl).template = some t
  · obtain ⟨sl, hm, htp⟩ := hmap
    have hal : s.aliveIn sl = some t := State.aliveIn_eq_some.mpr ⟨htp, alive⟩
    rcases mapped_kept hb hc hm with hm' | ⟨at_, hmem, mine⟩
    · refine .inr (.inl ⟨sl, hm', ?_⟩)
      rw [template_call hb hc hm, htp]
      -- a fill stores only over a template that is not alive
      intro u at_ guard _
      have := hk.dead r sl (.inl at_) guard
      rw [hal] at this
      cases this
    · obtain ⟨unheld, quiet⟩ := (safe at_ sl hmem).2 t hal
      exact .inr (.inr (unreached_call hb hk hc (mine t) unheld quiet))
  · rcases hk.anchors t serving with ⟨r', hf⟩ | hmap' | ⟨unheld, quiet⟩
    · rcases filling_kept hk.desk hc hf with kept | ⟨_, ready⟩ | ⟨_, sl, guard, rfl, _⟩
      · exact .inl ⟨r', kept⟩
      · have := (hk.owners t).failed ready
        rw [serving] at this
        cases this
      · refine .inr (.inl ⟨sl, ?_, by simp⟩)
        have hm := hk.mapped r sl (.inr (.inr guard))
        simpa [State.Mapped] using hm
    · exact absurd hmap' hmap
    · refine .inr (.inr (unreached_call hb hk hc ?_ unheld quiet))
      intro holds
      rcases holds_call hc holds with old | ⟨sl, guard, hal⟩ | prep
      · exact old
      · exact absurd ⟨sl, hk.mapped r sl (.inr (.inr guard)),
          (State.aliveIn_eq_some.mp hal).1⟩ hmap
      · rw [h] at prep
        cases prep

theorem stops_call (hb : Bounded s) (hk : Book s) (hc : CallCase cfg s r s') (t : Nat)
    (h : (s'.host t).phase = .stopping) : ¬ s'.RunningDescendant t := by
  have stopping : (s.host t).phase = .stopping := by
    rw [← phase_of_call hb hk.desk hc (by simp [h])]
    exact h
  intro hrd
  rcases (ledger_call hc).runningDescendant hb hrd with old | ⟨serving, _⟩
  · exact hk.stops t stopping old
  · rw [stopping] at serving
    cases serving

theorem desk_call (hb : Bounded s) (hd : Desk s) (hc : CallCase cfg s r s') : Desk s' where
  filling := filling_call hd hc
  owners := owners_call hb hd hc
  clones := clones_call hb hd hc
  cloneOnce := fun r₁ r₂ p h₁ h₂ => hd.cloneOnce r₁ r₂ p (reply_of_call hc h₁) (reply_of_call hc h₂)
  queued := queued_call hb hd hc
  queuedOnce := queuedOnce_call hb hd hc
  makers := makers_call hb hd hc

theorem book_call (hb : Bounded s) (hk : Book s) (hc : CallCase cfg s r s')
    (safe : (s.request r).stage = .forget → ForgetSafe cfg s r) : Book s' :=
  (desk_call hb hk.desk hc).book
    { mapped := mapped_call hb hk hc safe
      guards := guards_call hb hk hc
      dead := dead_call hb hk hc
      anchors := anchors_call hb hk hc safe
      stops := stops_call hb hk hc }

end Call

end ServiceCache.Templates
