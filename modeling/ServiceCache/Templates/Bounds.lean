import ServiceCache.Templates.Steps

/-!
# Numbers in use

Host, slot and request numbers are handed out in order, so what a run has not made yet is nowhere
to be found.
-/

namespace ServiceCache.Templates

structure Bounded (s : State) : Prop where
  hosts : ∀ p, s.nextHost ≤ p → s.host p = {}
  ancestors : ∀ p, ∀ a ∈ (s.host p).ancestors, a < p
  templates : ∀ sl t, (s.slot sl).template = some t → t < s.nextHost
  handles : ∀ r t, (s.request r).Holds t → t < s.nextHost
  replies : ∀ r p, (s.request r).reply = some (some p) → p < s.nextHost
  slots : ∀ key sl, s.slots key = some sl → sl < s.nextSlot ∧ (s.slot sl).key = key
  requests : ∀ r, s.arrived ≤ r →
    (s.request r).stage = .done false ∧ (∀ t, ¬ (s.request r).Holds t) ∧
      ∀ sl, ¬ (s.request r).HoldsSlot sl

namespace Bounded

variable {s : State}

theorem lt_of_owned (hb : Bounded s) {p : Nat} (hp : (s.host p).phase ≠ .unowned) :
    p < s.nextHost := by
  by_contra hge
  exact hp (by rw [hb.hosts p (Nat.le_of_not_lt hge)])

theorem lt_of_ancestor (hb : Bounded s) {p a : Nat} (ha : a ∈ (s.host p).ancestors) :
    p < s.nextHost := by
  by_contra hge
  rw [hb.hosts p (Nat.le_of_not_lt hge)] at ha
  cases ha

theorem arrived_of_holds (hb : Bounded s) {r : Nat} {t : Nat}
    (h : (s.request r).Holds t) : r < s.arrived := by
  by_contra hge
  exact (hb.requests r (Nat.le_of_not_lt hge)).2.1 t h

theorem arrived_of_holdsSlot (hb : Bounded s) {r : Nat} {sl : Nat}
    (h : (s.request r).HoldsSlot sl) : r < s.arrived := by
  by_contra hge
  exact (hb.requests r (Nat.le_of_not_lt hge)).2.2 sl h

theorem arrived_of_active (hb : Bounded s) {r : Nat}
    (h : (s.request r).stage ≠ .done false) : r < s.arrived := by
  by_contra hge
  exact h (hb.requests r (Nat.le_of_not_lt hge)).1

theorem setRequest (hb : Bounded s) {r : Nat} {q : Request} (hr : r < s.arrived)
    (handles : ∀ t, q.Holds t → t < s.nextHost)
    (reply : ∀ p, q.reply = some (some p) → p < s.nextHost) : Bounded (s.setRequest r q) := by
  refine ⟨hb.hosts, hb.ancestors, hb.templates, ?_, ?_, hb.slots, ?_⟩
  · intro r' t ht
    by_cases h : r' = r
    · subst h
      exact handles t (by simpa using ht)
    · exact hb.handles r' t (by simpa [h] using ht)
  · intro r' p hp
    by_cases h : r' = r
    · subst h
      exact reply p (by simpa using hp)
    · exact hb.replies r' p (by simpa [h] using hp)
  · intro r' hr'
    have h : r' ≠ r := by
      rintro rfl
      exact absurd hr (Nat.not_lt.mpr hr')
    simpa [h] using hb.requests r' hr'

theorem setSlot (hb : Bounded s) {sl : Nat} {c : Slot} (key : c.key = (s.slot sl).key)
    (template : ∀ t, c.template = some t → t < s.nextHost) : Bounded (s.setSlot sl c) := by
  refine ⟨hb.hosts, hb.ancestors, ?_, hb.handles, hb.replies, ?_, hb.requests⟩
  · intro sl' t ht
    by_cases h : sl' = sl
    · subst h
      exact template t (by simpa using ht)
    · exact hb.templates sl' t (by simpa [h] using ht)
  · intro k sl' hk
    have old := hb.slots k sl' hk
    by_cases h : sl' = sl
    · subst h
      exact ⟨old.1, by simpa [key] using old.2⟩
    · simpa [h] using old

theorem setHost (hb : Bounded s) {p : Nat} {c : Host} (hp : p < s.nextHost)
    (ancestors : c.ancestors = (s.host p).ancestors) : Bounded (s.setHost p c) := by
  refine ⟨?_, ?_, hb.templates, hb.handles, hb.replies, hb.slots, hb.requests⟩
  · intro p' hp'
    have h : p' ≠ p := by
      rintro rfl
      exact absurd hp (Nat.not_lt.mpr hp')
    simpa [h] using hb.hosts p' hp'
  · intro p' a ha
    by_cases h : p' = p
    · subst h
      exact hb.ancestors p' a (by simpa [ancestors] using ha)
    · exact hb.ancestors p' a (by simpa [h] using ha)

theorem addHost (hb : Bounded s) {c : Host} (ancestors : ∀ a ∈ c.ancestors, a < s.nextHost) :
    Bounded { s with host := Function.update s.host s.nextHost c, nextHost := s.nextHost + 1 } := by
  refine ⟨?_, ?_, ?_, ?_, ?_, hb.slots, hb.requests⟩
  · intro p hp
    have hp' : s.nextHost + 1 ≤ p := hp
    have h : p ≠ s.nextHost := by omega
    simpa [h] using hb.hosts p (by omega)
  · intro p a ha
    by_cases h : p = s.nextHost
    · subst h
      exact ancestors a (by simpa using ha)
    · exact hb.ancestors p a (by simpa [h] using ha)
  · exact fun sl t ht => Nat.lt_succ_of_lt (hb.templates sl t ht)
  · exact fun r t ht => Nat.lt_succ_of_lt (hb.handles r t ht)
  · exact fun r p hp => Nat.lt_succ_of_lt (hb.replies r p hp)

theorem answer (hb : Bounded s) {f : Nat → Request}
    (same : ∀ r, f r = s.request r ∨ ∃ x, f r = { s.request r with reply := x } ∧
      ∀ p, x = some (some p) → p < s.nextHost) : Bounded { s with request := f } := by
  refine ⟨hb.hosts, hb.ancestors, hb.templates, ?_, ?_, hb.slots, ?_⟩
  · intro r t ht
    rcases same r with h | ⟨x, h, _⟩
    · exact hb.handles r t (by rwa [← h])
    · refine hb.handles r t ?_
      have ht' : (f r).Holds t := ht
      rwa [h] at ht'
  · intro r p hp
    have hp' : (f r).reply = some (some p) := hp
    rcases same r with h | ⟨x, h, hx⟩
    · exact hb.replies r p (by rwa [← h])
    · rw [h] at hp'
      exact hx p hp'
  · intro r hr
    have old := hb.requests r hr
    show (f r).stage = .done false ∧ (∀ t, ¬ (f r).Holds t) ∧ ∀ sl, ¬ (f r).HoldsSlot sl
    rcases same r with h | ⟨x, h, _⟩ <;> rw [h] <;> exact old

theorem shrinkSlots (hb : Bounded s) {m : Key → Option Nat}
    (sub : ∀ key sl, m key = some sl → s.slots key = some sl) :
    Bounded { s with slots := m } :=
  ⟨hb.hosts, hb.ancestors, hb.templates, hb.handles, hb.replies,
    fun key sl h => hb.slots key sl (sub key sl h), hb.requests⟩

theorem slotFor (hb : Bounded s) (key : Key) : Bounded (slotFor s key).1 := by
  unfold Templates.slotFor
  split
  · exact hb
  next hk =>
    refine ⟨hb.hosts, hb.ancestors, ?_, hb.handles, hb.replies, ?_, hb.requests⟩
    · intro sl t ht
      by_cases h : sl = s.nextSlot
      · subst h
        simp at ht
      · exact hb.templates sl t (by simpa [h] using ht)
    · intro k sl h
      by_cases hkey : k = key
      · subst hkey
        have : s.nextSlot = sl := by simpa using h
        subst this
        exact ⟨Nat.lt_succ_self _, by simp⟩
      · have old := hb.slots k sl (by simpa [hkey] using h)
        have hne : sl ≠ s.nextSlot := Nat.ne_of_lt old.1
        exact ⟨Nat.lt_succ_of_lt old.1, by simpa [hne] using old.2⟩

end Bounded

theorem bounded_initial : Bounded {} := by
  refine ⟨fun _ _ => rfl, ?_, ?_, ?_, ?_, ?_, ?_⟩
  all_goals simp [Request.Holds, Request.HoldsSlot]

theorem State.aliveIn_eq_some {s : State} {sl : Nat} {t : Nat} :
    s.aliveIn sl = some t ↔ (s.slot sl).template = some t ∧ (s.host t).alive = true := by
  simp [State.aliveIn, Option.filter_eq_some_iff]

theorem State.aliveIn_eq_none {s : State} {sl : Nat} :
    s.aliveIn sl = none ↔ ∀ t, (s.slot sl).template = some t → (s.host t).alive = false := by
  simp [State.aliveIn, Option.filter_eq_none_iff]

theorem Request.holds_got {q : Request} {t h : Nat} (hq : (q.got t).Holds h) :
    q.Holds h ∨ h = t := by
  unfold Request.got at hq
  split at hq
  · simp only [Request.Holds, Option.some.injEq] at hq ⊢
    grind
  · simp only [Request.obtained, Request.leave, Request.Holds] at hq ⊢
    grind

@[simp] theorem Request.got_reply (q : Request) (t : Nat) : (q.got t).reply = q.reply := by
  unfold Request.got
  split <;> rfl

@[simp] theorem Request.finish_reply (q : Request) (created : Bool) :
    (q.finish created).reply = q.reply := rfl

@[simp] theorem Request.not_holds_finish (q : Request) (created : Bool) (h : Nat) :
    ¬ (q.finish created).Holds h := by
  simp [Request.finish, Request.leave, Request.Holds]

@[simp] theorem Request.not_holdsSlot_finish (q : Request) (created : Bool) (sl : Nat) :
    ¬ (q.finish created).HoldsSlot sl := by
  simp [Request.finish, Request.leave, Request.HoldsSlot]

theorem bounded_call {cfg : Config} {s s' : State} {r : Nat} (hb : Bounded s)
    (hc : CallCase cfg s r s') : Bounded s' := by
  have hr : r < s.arrived := hb.arrived_of_active (call_not_done hc)
  have handles := hb.handles r
  have replies := hb.replies r
  cases hc with
  | slot at_ =>
    refine (hb.slotFor _).setRequest (by simpa using hr) ?_ ?_
    · intro t ht
      simpa using handles t ht
    · intro p hp
      simpa using replies p hp
  | lock sl at_ slot free =>
    exact Bounded.setRequest (hb.setSlot (by rfl) (by exact hb.templates sl)) hr
      (by exact handles) (by exact replies)
  | clone sl t at_ guard alive =>
    have ht := hb.templates sl t (State.aliveIn_eq_some.mp alive).1
    refine Bounded.setRequest (hb.setSlot (by rfl) (by exact hb.templates sl)) hr ?_
      (by simpa using replies)
    intro h hh
    rcases Request.holds_got hh with hold | rfl
    · exact handles h hold
    · exact ht
  | spawnBase sl at_ guard dead =>
    refine (hb.addHost (c := { phase := .preparing }) (by simp)).setRequest hr ?_ ?_
    · intro h hh
      have old := handles h
      simp only [Request.Holds, Option.some.injEq] at hh old
      show h < s.nextHost + 1
      grind
    · intro p hp
      exact Nat.lt_succ_of_lt (replies p hp)
  | sendBase sl b at_ guard dead base receiver =>
    have hlt := handles b (.inr (.inl base))
    exact Bounded.setRequest (hb.setHost hlt (by rfl)) hr (by exact handles) (by simp)
  | filled sl t at_ guard filling ready =>
    have ht := handles t (.inr (.inr (.inl filling)))
    refine Bounded.setRequest (hb.setSlot (by rfl) ?_) hr ?_ (by simpa using replies)
    · intro t' h
      cases h
      exact ht
    · intro h hh
      rcases Request.holds_got hh with hold | rfl
      · exact handles h hold
      · exact ht
  | giveUp sl guard failed =>
    exact Bounded.setRequest (hb.setSlot (by rfl) (by exact hb.templates sl)) hr
      (fun h hh => absurd hh (Request.not_holds_finish _ _ _)) (by exact replies)
  | send t at_ handle receiver =>
    have hlt := handles t (.inr (.inr (.inr handle)))
    exact Bounded.setRequest (hb.setHost hlt (by rfl)) hr (by exact handles) (by simp)
  | forkFailed gone =>
    refine hb.setRequest hr ?_ ?_
    · intro h hh
      split at hh
      · exact absurd hh (Request.not_holds_finish _ _ _)
      · have old := handles h
        simp only [Request.Holds] at hh old
        grind
    · intro p hp
      refine replies p ?_
      split at hp <;> exact hp
  | spawnRecipe sl p at_ guard reply =>
    have hp := replies p reply
    refine Bounded.setRequest (hb.setHost hp (by rfl)) hr ?_ (by simp)
    intro h hh
    have old := handles h
    simp only [Request.Holds, Option.some.injEq] at hh old
    show h < s.nextHost
    grind
  | adopting p at_ reply =>
    refine hb.setRequest hr ?_ (by simp)
    intro h hh
    have old := handles h
    simp only [Request.Holds] at hh old
    grind
  | forget at_ =>
    refine Bounded.setRequest (hb.shrinkSlots ?_) hr (by exact handles) (by exact replies)
    intro k sl hk
    by_cases h : k = Key.new cfg (s.request r).manifest (s.request r).recipe
    · subst h
      simp at hk
    · simpa [h] using hk
  | adopted at_ =>
    exact hb.setRequest hr (fun h hh => absurd hh (Request.not_holds_finish _ _ _))
      (by exact replies)

theorem bounded_owner {cfg : Config} {s s' : State} {t : Nat} (hb : Bounded s)
    (hc : OwnerCase cfg s t s') : Bounded s' := by
  cases hc with
  | froze at_ runs => exact hb.setHost (hb.lt_of_owned (by simp [at_])) rfl
  | broke at_ => exact hb.setHost (hb.lt_of_owned (by simp [at_])) rfl
  | cloned k r rest at_ asked runs read =>
    have ht : t < s.nextHost := hb.lt_of_owned (by simp [at_])
    have hforked := hb.setHost (c := (s.host t).forked s.now k rest) ht rfl
    have hadded := hforked.addHost (c := { ancestors := t :: (s.host t).ancestors }) (by
      intro a ha
      rcases List.mem_cons.mp ha with rfl | ha
      · exact ht
      · exact Nat.lt_trans (hb.ancestors t a ha) ht)
    refine hadded.answer ?_
    intro r'
    by_cases h : r' = r
    · subst h
      refine .inr ⟨some (some s.nextHost), by simp, ?_⟩
      intro p hp
      cases hp
      exact Nat.lt_succ_self _
    · exact .inl (by simp [h])
  | forkFails r rest at_ asked =>
    have hset := hb.setHost
      (c := { s.host t with alive := false, phase := .killing, commands := rest })
      (hb.lt_of_owned (by simp [at_])) rfl
    refine hset.answer ?_
    intro r'
    by_cases h : r' = r
    · subst h
      exact .inr ⟨some none, by simp, by simp⟩
    · exact .inl (by simp [h])
  | ended at_ =>
    have ht : t < s.nextHost := hb.lt_of_owned (by rcases at_ with h | h <;> simp [h])
    have hans : Bounded { s with request := (s.dropCommands t).request } := by
      refine hb.answer ?_
      intro r
      by_cases h : r ∈ (s.host t).commands
      · exact .inr ⟨some none, by simp [State.dropCommands, h], by simp⟩
      · exact .inl (by simp [State.dropCommands, h])
    have hdrop : Bounded (s.dropCommands t) := hans.setHost ht rfl
    exact hdrop.setHost ht rfl
  | hostGone at_ idle => exact hb.setHost (hb.lt_of_owned (by simp [at_])) rfl
  | drained at_ idle => exact hb.setHost (hb.lt_of_owned (by simp [at_])) rfl
  | expired at_ idle childless due => exact hb.setHost (hb.lt_of_owned (by simp [at_])) rfl
  | disconnected at_ idle gone => exact hb.setHost (hb.lt_of_owned (by simp [at_])) rfl

theorem bounded_arrive {s : State} (hb : Bounded s) (manifest : Manifest)
    (recipe : Option (List UInt8)) : Bounded (arrive s manifest recipe) := by
  refine ⟨hb.hosts, hb.ancestors, hb.templates, ?_, ?_, hb.slots, ?_⟩
  · intro r t ht
    by_cases h : r = s.arrived
    · subst h
      simp [arrive, Request.Holds] at ht
    · exact hb.handles r t (by simpa [arrive, h] using ht)
  · intro r p hp
    by_cases h : r = s.arrived
    · subst h
      simp [arrive] at hp
    · exact hb.replies r p (by simpa [arrive, h] using hp)
  · intro r hr
    have hr' : s.arrived + 1 ≤ r := hr
    have h : r ≠ s.arrived := by omega
    simpa [arrive, h] using hb.requests r (by omega)

theorem bounded_next {cfg : Config} {s s' : State} {e : Event} (hb : Bounded s)
    (h : next cfg s e = some s') : Bounded s' := by
  cases e with
  | arrive manifest recipe =>
    cases h
    exact bounded_arrive hb manifest recipe
  | call r c => exact bounded_call hb (callStep_cases h)
  | prune =>
    cases h
    refine hb.shrinkSlots ?_
    intro key sl hk
    exact (Option.filter_eq_some_iff.mp hk).1
  | owner t turn => exact bounded_owner hb (ownerStep_cases h)
  | exit p =>
    obtain ⟨hp, rfl⟩ := exitStep_eq h
    exact hb.setHost hp rfl
  | report p =>
    obtain ⟨t, rest, parent, hp, _, _, rfl⟩ := reportStep_eq h
    have ht : t < p := hb.ancestors p t (by simp [parent])
    exact (hb.setHost (c := { s.host p with reported := true }) hp rfl).setHost
      (Nat.lt_trans ht hp) rfl
  | tick =>
    cases h
    exact ⟨hb.hosts, hb.ancestors, hb.templates, hb.handles, hb.replies, hb.slots, hb.requests⟩

theorem bounded_reachable {cfg : Config} {ok : State → Event → Prop} {s : State}
    (h : (cache cfg).ReachableBy ok s) : Bounded s := by
  refine h.invariant (P := Bounded) ?_ ?_
  · rintro s rfl
    exact bounded_initial
  · intro s e s' _ hb _ hn
    exact bounded_next hb hn

end ServiceCache.Templates
