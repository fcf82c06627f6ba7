import ServiceCache.Templates.Owners

/-!
# One fill for each key

A slot that somebody holds stays in the map, so all who ask for a key meet at one slot, and its
lock lets one of them fill it. An alive template is never stored over, and never pruned.
-/

namespace ServiceCache.Templates

open Transition (System)

def NoForget (_ : State) : Event → Prop
  | .call _ .forget => False
  | _ => True

instance (s : State) : (e : Event) → Decidable (NoForget s e)
  | .call _ .forget => instDecidableFalse
  | .call _ .slot | .call _ .lock | .call _ (.check _) | .call _ .filled | .call _ .send
  | .call _ (.answer _) | .call _ .adopt | .arrive _ _ | .prune | .owner _ _ | .exit _ | .report _
  | .tick => instDecidableTrue

theorem NoForget.orderly {cfg : Config} {s : State} {e : Event} (no : NoForget s e) :
    Orderly cfg s e := by
  unfold Orderly
  split
  · exact absurd no id
  · trivial

def Request.Fills (q : Request) : Prop := q.stage = .fill ∨ q.stage = .forkBase

def State.Stored (s : State) (key : Key) (t : Nat) : Prop :=
  ∃ sl, s.slots key = some sl ∧ (s.slot sl).template = some t

def Request.HoldsFor (cfg : Config) (q : Request) (key : Key) (t : Nat) : Prop :=
  (q.base = some t ∧ key = Key.new cfg q.manifest none) ∨
    ((q.template = some t ∨ q.handle = some t) ∧ key = Key.new cfg q.manifest q.recipe) ∨
    (q.filling = some t ∧ key = q.key cfg)

def State.InReach (cfg : Config) (s : State) (key : Key) (t : Nat) : Prop :=
  s.Stored key t ∨ ∃ r < s.arrived, (s.request r).HoldsFor cfg key t

/-- The slot in hand is the one for the key, and the alive templates that a call has are those the map
holds for their keys. -/
structure Request.Current (cfg : Config) (s : State) (q : Request) : Prop where
  key : ∀ sl, q.slot = some sl ∨ q.guard = some sl → (s.slot sl).key = q.key cfg
  guarded : q.stage = .check ∨ q.Fills → q.guard ≠ none
  base : ∀ t, q.base = some t → (s.host t).alive = true → s.Stored (Key.new cfg q.manifest none) t
  obtained : ∀ t, q.template = some t ∨ q.handle = some t → (s.host t).alive = true →
    s.Stored (Key.new cfg q.manifest q.recipe) t

section Steps

variable {cfg : Config} {s s' : State} {r : Nat}

/-! ## Alive templates stay where they are -/

theorem key_call (hb : Bounded s) (hc : CallCase cfg s r s') {sl : Nat} (mapped : s.Mapped sl) :
    (s'.slot sl).key = (s.slot sl).key := by
  cases hc with
  | slot at_ =>
    have same := (mapped_slotFor hb ((s.request r).key cfg) mapped).2
    exact congrArg Slot.key same
  | lock sl' | clone sl' t | giveUp sl' | filled sl' t =>
    by_cases at_ : sl = sl'
    · subst at_
      simp
    · simp [at_]
  | spawnBase | sendBase | send | forkFailed | spawnRecipe | adopting | forget | adopted => rfl

theorem entry_call (hb : Bounded s) (hk : Book s) (hc : CallCase cfg s r s')
    (no : (s.request r).stage ≠ .forget) {key : Key} {sl t : Nat} (is : s.slots key = some sl)
    (template : (s.slot sl).template = some t) (alive : (s.host t).alive = true) :
    s'.slots key = some sl ∧ (s'.slot sl).template = some t := by
  have named : (s.slot sl).key = key := (hb.slots key sl is).2
  have mapped : s.Mapped sl := by rw [State.Mapped, named, is]
  have stays : s'.Mapped sl := (mapped_kept hb hc mapped).resolve_right fun other => no other.1
  rw [State.Mapped, key_call hb hc mapped, named] at stays
  refine ⟨stays, ?_⟩
  rw [template_call hb hc mapped, template]
  intro u at_ guard _
  have dead := hk.dead r sl (.inl at_) guard
  rw [State.aliveIn_eq_some.mpr ⟨template, alive⟩] at dead
  cases dead

theorem slots_prune {key : Key} {sl : Nat} (is : s.slots key = some sl)
    (used : s.SlotHeld sl ∨ s.aliveIn sl ≠ none) : (prune s).slots key = some sl := by
  have keep : retained s sl = true := by
    rcases used with held | alive
    · simp [retained, held]
    · simp [retained, Option.isSome_iff_ne_none.mpr alive]
  simp [prune, is, Option.filter, keep]

theorem stage_of_call {c : Call} (no : NoForget s (.call r c)) (h : callStep cfg s r c = some s') :
    (s.request r).stage ≠ .forget := by
  intro at_
  cases c with
  | forget => exact no
  | slot | lock | check | filled | send | answer | adopt =>
    simp [callStep, slotStep, lockStep, checkStep, filledStep, sendStep, answerStep, adoptStep,
      at_] at h

theorem entry_next {e : Event} (hb : Bounded s) (hk : Book s) (no : NoForget s e)
    (h : next cfg s e = some s') {key : Key} {sl t : Nat} (is : s.slots key = some sl)
    (template : (s.slot sl).template = some t) (alive : (s'.host t).alive = true) :
    s'.slots key = some sl ∧ (s'.slot sl).template = some t := by
  have before : (s.host t).alive = true := alive_next hb h alive
  cases e with
  | arrive =>
    cases h
    exact ⟨is, template⟩
  | prune =>
    cases h
    have held : s.aliveIn sl = some t := State.aliveIn_eq_some.mpr ⟨template, before⟩
    exact ⟨slots_prune is (.inr (by simp [held])), template⟩
  | call r c => exact entry_call hb hk (callStep_cases h) (stage_of_call no h) is template before
  | owner | exit | report | tick =>
    have frame := frame_next hb h trivial
    exact ⟨by rw [frame.slots, is], by rw [frame.slot, template]⟩

/-! ## What the calls have -/

theorem slotFor_key (hb : Bounded s) (key : Key) :
    ((slotFor s key).1.slot (slotFor s key).2).key = key := by
  unfold slotFor
  split
  next sl is => exact (hb.slots key sl is).2
  · simp

theorem Request.Current.frame {q : Request} (cur : q.Current cfg s)
    (keys : ∀ sl, q.HoldsSlot sl → (s'.slot sl).key = (s.slot sl).key)
    (stored : ∀ key t, q.Holds t → (s'.host t).alive = true →
      (s.host t).alive = true ∧ (s.Stored key t → s'.Stored key t)) : q.Current cfg s' where
  key sl is := by
    have holds : q.HoldsSlot sl := .inr is
    rw [keys sl holds]
    exact cur.key sl is
  guarded := cur.guarded
  base t is alive := by
    have holds : q.Holds t := .inr (.inl is)
    obtain ⟨before, kept⟩ := stored _ t holds alive
    exact kept (cur.base t is before)
  obtained t is alive := by
    have holds : q.Holds t := is.imp id fun handle => .inr (.inr handle)
    obtain ⟨before, kept⟩ := stored _ t holds alive
    exact kept (cur.obtained t is before)

theorem Request.current_finish (q : Request) (created : Bool) : (q.finish created).Current cfg s where
  key := nofun
  guarded := nofun
  base := nofun
  obtained := nofun

theorem Request.current_new (manifest : Manifest) (recipe : Option (List UInt8)) :
    ({ manifest, recipe, stage := .slot } : Request).Current cfg s where
  key := nofun
  guarded := nofun
  base := nofun
  obtained := nofun

theorem Request.Current.got {q : Request} (cur : q.Current cfg s) {t : Nat}
    (stored : s.Stored (q.key cfg) t) : (q.got t).Current cfg s := by
  unfold Request.got
  split
  next first =>
    have key : q.key cfg = Key.new cfg q.manifest none := by
      rw [Request.key, if_pos first.1]
    refine { key := nofun, guarded := nofun, base := ?_, obtained := cur.obtained }
    intro u is _
    obtain rfl : t = u := Option.some.inj is
    exact key ▸ stored
  next last =>
    have key : q.key cfg = Key.new cfg q.manifest q.recipe := by
      rw [Request.key]
      split
      next baseless =>
        have plain : q.recipe = none := by
          by_contra some
          exact last ⟨baseless, some⟩
        rw [plain]
      next => rfl
    refine { key := nofun, guarded := nofun, base := nofun, obtained := ?_ }
    intro u is alive
    by_cases at_ : u = t
    · subst at_
      exact key ▸ stored
    · -- not the template just obtained, so the one kept from the first `obtain`
      have kept : q.template = some u := by
        simp only [Request.obtained, Request.leave, Option.some.injEq, Ne.symm at_, or_false] at is
        split at is
        · exact is
        · exact absurd (Option.some.inj is).symm at_
      exact cur.obtained u (.inl kept) alive

theorem current_self {x : State} {q : Request} (cur : q.Current cfg (x.setRequest r q)) :
    ((x.setRequest r q).request r).Current cfg (x.setRequest r q) := by
  rw [State.setRequest_request, Function.update_self]
  exact cur

theorem current_call (hb : Bounded s) (hk : Book s) (cur : ∀ r, (s.request r).Current cfg s)
    (hc : CallCase cfg s r s') (no : (s.request r).stage ≠ .forget) :
    ∀ r', (s'.request r').Current cfg s' := by
  have framed : ∀ r', (s.request r').Current cfg s' := by
    intro r'
    refine (cur r').frame ?_ ?_
    · exact fun sl holds => key_call hb hc (hk.mapped r' sl holds)
    · intro key t holds alive
      rw [call_alive hc (hb.handles r' t holds)] at alive
      refine ⟨alive, ?_⟩
      rintro ⟨sl, is, template⟩
      exact ⟨sl, entry_call hb hk hc no is template alive⟩
  intro r'
  by_cases mine : r' = r
  · subst mine
    have old := framed r'
    have guarded := (cur r').guarded
    -- the guard's slot is the one the map has for the key
    have entry : ∀ sl, (s.request r').guard = some sl →
        s.slots ((s.request r').key cfg) = some sl := by
      intro sl guard
      have mapped : s.Mapped sl := hk.mapped r' sl (.inr (.inr guard))
      rwa [State.Mapped, (cur r').key sl (.inr guard)] at mapped
    cases hc with
    | slot at_ =>
      refine current_self { old with key := ?_, guarded := by simp [Request.Fills] }
      rintro sl (is | is)
      · obtain rfl := Option.some.inj is
        exact slotFor_key hb _
      · exact old.key sl (.inr is)
    | lock sl at_ slot free =>
      refine current_self { old with key := ?_, guarded := by simp [Request.Fills] }
      rintro sl' (is | is)
      · exact old.key sl' (.inl is)
      · obtain rfl := Option.some.inj is
        exact old.key sl (.inl slot)
    | clone sl t at_ guard alive =>
      have template := (State.aliveIn_eq_some.mp alive).1
      exact current_self (old.got ⟨sl, entry sl guard, by simpa using template⟩)
    | filled sl t at_ guard filling ready =>
      exact current_self (old.got ⟨sl, entry sl guard, by simp⟩)
    | spawnBase sl at_ guard dead | sendBase sl b at_ guard dead base receiver =>
      exact current_self { old with guarded := fun _ => guarded (.inl at_) }
    | spawnRecipe sl p at_ guard reply =>
      exact current_self { old with guarded := fun _ => guarded (.inr (.inr at_)) }
    | send t at_ handle receiver => exact current_self { old with guarded := by simp [Request.Fills] }
    | giveUp sl guard failed => exact current_self (Request.current_finish _ _)
    | adopted at_ => exact current_self (Request.current_finish _ _)
    | forkFailed gone =>
      refine current_self ?_
      split
      · exact Request.current_finish _ _
      · exact { old with
          guarded := by simp [Request.Fills]
          obtained := fun t is => old.obtained t (.inl (by simpa using is)) }
    | adopting p at_ reply =>
      exact current_self { old with
        guarded := by simp [Request.Fills]
        obtained := fun t is => old.obtained t (.inl (by simpa using is)) }
    | forget at_ => exact absurd at_ no
  · rw [call_request_other hc mine]
    exact framed r'

theorem current_next {e : Event} (hb : Bounded s) (hk : Book s)
    (cur : ∀ r, (s.request r).Current cfg s) (no : NoForget s e) (h : next cfg s e = some s') :
    ∀ r, (s'.request r).Current cfg s' := by
  have stored : ∀ r key t, (s.request r).Holds t → (s'.host t).alive = true →
      (s.host t).alive = true ∧ (s.Stored key t → s'.Stored key t) := by
    intro r key t holds alive
    refine ⟨alive_next hb h alive, ?_⟩
    rintro ⟨sl, is, template⟩
    exact ⟨sl, entry_next hb hk no h is template alive⟩
  intro r
  cases e with
  | call r' c => exact current_call hb hk cur (callStep_cases h) (stage_of_call no h) r
  | arrive manifest recipe =>
    cases h
    by_cases new : r = s.arrived
    · subst new
      simp only [arrive, Function.update_self]
      exact Request.current_new manifest recipe
    · have same : (arrive s manifest recipe).request r = s.request r := by simp [arrive, new]
      rw [same]
      exact (cur r).frame (fun _ _ => rfl) (stored r)
  | prune =>
    cases h
    exact (cur r).frame (fun _ _ => rfl) (stored r)
  | owner | exit | report | tick =>
    have frame := frame_next hb h trivial
    have framed : (s.request r).Current cfg s' :=
      (cur r).frame (fun sl _ => by rw [frame.slot]) (stored r)
    obtain ⟨x, is⟩ := frame.request r
    rw [is]
    exact { framed with }

end Steps

theorem current_reachable {cfg : Config} {s : State} (h : (cache cfg).ReachableBy NoForget s) :
    Book s ∧ ∀ r, (s.request r).Current cfg s := by
  have orderly : (cache cfg).ReachableBy (Orderly cfg) s := h.weaken fun _ _ no => no.orderly
  refine ⟨book_reachable orderly, ?_⟩
  refine h.invariant (P := fun s => ∀ r, (s.request r).Current cfg s) ?_ ?_
  · rintro s rfl r
    exact { key := nofun, guarded := nofun, base := nofun, obtained := nofun }
  · intro s e s' reached cur no next
    have orderly : (cache cfg).ReachableBy (Orderly cfg) s := reached.weaken fun _ _ no => no.orderly
    exact current_next (bounded_reachable reached) (book_reachable orderly) cur no next

section Reached

variable {cfg : Config} {s : State}

theorem fills_unique (hk : Book s) (cur : ∀ r, (s.request r).Current cfg s) {r r' : Nat}
    (fills : (s.request r).Fills) (fills' : (s.request r').Fills)
    (same : (s.request r).key cfg = (s.request r').key cfg) : r = r' := by
  obtain ⟨sl, guard⟩ := Option.ne_none_iff_exists'.mp ((cur r).guarded (.inr fills))
  obtain ⟨sl', guard'⟩ := Option.ne_none_iff_exists'.mp ((cur r').guarded (.inr fills'))
  have mapped : s.Mapped sl := hk.mapped r sl (.inr (.inr guard))
  have mapped' : s.Mapped sl' := hk.mapped r' sl' (.inr (.inr guard'))
  rw [State.Mapped, (cur r).key sl (.inr guard)] at mapped
  rw [State.Mapped, (cur r').key sl' (.inr guard'), ← same, mapped] at mapped'
  obtain rfl := Option.some.inj mapped'
  have locked := hk.guards r sl guard
  rw [hk.guards r' sl guard'] at locked
  exact (Option.some.inj locked).symm

theorem inReach_cases (cur : ∀ r, (s.request r).Current cfg s) {key : Key} {t : Nat}
    (reach : s.InReach cfg key t) (alive : (s.host t).alive = true) :
    s.Stored key t ∨ ∃ r, (s.request r).filling = some t ∧ key = (s.request r).key cfg := by
  rcases reach with stored | ⟨r, -, ⟨base, rfl⟩ | ⟨has, rfl⟩ | ⟨fills, rfl⟩⟩
  · exact .inl stored
  · exact .inl ((cur r).base t base alive)
  · exact .inl ((cur r).obtained t has alive)
  · exact .inr ⟨r, fills, rfl⟩

theorem not_stored_of_filling (hk : Book s) (cur : ∀ r, (s.request r).Current cfg s) {r t u : Nat}
    (fills : (s.request r).filling = some t) (alive : (s.host u).alive = true) :
    ¬ s.Stored ((s.request r).key cfg) u := by
  rintro ⟨sl, is, template⟩
  have stage : (s.request r).stage = .fill := hk.filling r (by simp [fills])
  obtain ⟨sl', guard⟩ := Option.ne_none_iff_exists'.mp ((cur r).guarded (.inr (.inl stage)))
  have mapped : s.Mapped sl' := hk.mapped r sl' (.inr (.inr guard))
  rw [State.Mapped, (cur r).key sl' (.inr guard), is] at mapped
  obtain rfl := Option.some.inj mapped
  have dead := hk.dead r sl (.inl stage) guard
  rw [State.aliveIn_eq_some.mpr ⟨template, alive⟩] at dead
  cases dead

theorem inReach_unique (hk : Book s) (cur : ∀ r, (s.request r).Current cfg s) {key : Key} {t u : Nat}
    (reach : s.InReach cfg key t) (reach' : s.InReach cfg key u) (alive : (s.host t).alive = true)
    (alive' : (s.host u).alive = true) : t = u := by
  rcases inReach_cases cur reach alive with ⟨sl, is, template⟩ | ⟨r, fills, rfl⟩
  · rcases inReach_cases cur reach' alive' with ⟨sl', is', template'⟩ | ⟨r', fills', rfl⟩
    · rw [is] at is'
      obtain rfl := Option.some.inj is'
      rw [template] at template'
      exact Option.some.inj template'
    · exact absurd ⟨sl, is, template⟩ (not_stored_of_filling hk cur fills' alive)
  · rcases inReach_cases cur reach' alive' with stored | ⟨r', fills', same⟩
    · exact absurd stored (not_stored_of_filling hk cur fills alive')
    · have filling : ∀ {x y : Nat}, (s.request x).filling = some y → (s.request x).Fills :=
        fun is => .inl (hk.filling _ (by simp [is]))
      obtain rfl := fills_unique hk cur (filling fills) (filling fills') same
      rw [fills] at fills'
      exact Option.some.inj fills'

theorem entry_leads {a v : State} (reached : (cache cfg).ReachableBy NoForget a)
    (leads : (cache cfg).Leads NoForget a v) {key : Key} {sl t : Nat} (is : a.slots key = some sl)
    (template : (a.slot sl).template = some t) (alive : (v.host t).alive = true) :
    v.slots key = some sl ∧ (v.slot sl).template = some t := by
  induction leads with
  | refl => exact ⟨is, template⟩
  | step before no step ih =>
    have here := reached.leads before
    have hb := bounded_reachable here
    obtain ⟨is, template⟩ := ih (alive_next hb step alive)
    exact entry_next hb (current_reachable here).1 no step is template alive

theorem check_takes {v : State} {w sl t : Nat} (at_ : (v.request w).stage = .check)
    (guard : (v.request w).guard = some sl) (alive : v.aliveIn sl = some t) (spawned : Bool) :
    next cfg v (.call w (.check spawned)) =
      some ((unlock v sl).setRequest w ((v.request w).got t)) := by
  simp [next, callStep, checkStep, at_, guard, alive]

/-- Without `forget`, for any calls of `obtain`, sweeps and ends of templates: at most one fill for a
key is in progress; at most one alive template is in reach for it; a call `w` that waits at the slot
when `f` fills it with `t` takes `t`, unless `t` was given up by then; and `prune` takes no slot that a
call holds or that has an alive template. -/
theorem filled_once (h : (cache cfg).ReachableBy NoForget s) :
    (∀ r r', (s.request r).Fills → (s.request r').Fills →
      (s.request r).key cfg = (s.request r').key cfg → r = r') ∧
    (∀ key t u, s.InReach cfg key t → s.InReach cfg key u → (s.host t).alive = true →
      (s.host u).alive = true → t = u) ∧
    (∀ f w sl t a, (s.request f).guard = some sl → (s.request f).filling = some t →
      (s.host t).ready = some true → next cfg s (.call f .filled) = some a →
      (s.request w).stage = .lock → (s.request w).slot = some sl →
      ∀ v, (cache cfg).Leads NoForget a v → (v.request w).stage = .check →
        (v.request w).guard = some sl → (v.host t).alive = true → ∀ spawned,
          next cfg v (.call w (.check spawned)) =
            some ((unlock v sl).setRequest w ((v.request w).got t))) ∧
    ∀ key sl, s.slots key = some sl → s.SlotHeld sl ∨ s.aliveIn sl ≠ none →
      (prune s).slots key = some sl := by
  obtain ⟨hk, cur⟩ := current_reachable h
  refine ⟨fun r r' => fills_unique hk cur, fun key t u => inReach_unique hk cur, ?_,
    fun key sl => slots_prune⟩
  intro f w sl t a guard filling ready filled _ _ v leads at_ guard' alive spawned
  have reached : (cache cfg).ReachableBy NoForget a := h.step (e := .call f .filled) trivial filled
  have stage : (s.request f).stage = .fill := hk.filling f (by simp [filling])
  have mapped : s.Mapped sl := hk.mapped f sl (.inr (.inr guard))
  obtain rfl : (store s sl t).setRequest f ((s.request f).got t) = a := by
    simpa [next, callStep, filledStep, stage, guard, filling, ready] using filled
  have template := (entry_leads reached leads mapped (by simp) alive).2
  exact check_takes at_ guard' (State.aliveIn_eq_some.mpr ⟨template, alive⟩) spawned

/-- The second request waits while the first fills the slot. -/
theorem filled_once_waiting : ∃ s, (cache ⟨id, 600⟩).ReachableBy NoForget s ∧
    ((s.request 0).stage = .fill ∧ (s.request 1).stage = .lock ∧ (s.request 1).slot = some 0) ∧
    ∀ a, next ⟨id, 600⟩ s (.call 0 .filled) = some a →
      ∀ v, (cache ⟨id, 600⟩).Leads NoForget a v → (v.request 1).stage = .check →
        (v.request 1).guard = some 0 → (v.host 0).alive = true →
          next ⟨id, 600⟩ v (.call 1 (.check true)) =
            some ((unlock v 0).setRequest 1 ((v.request 1).got 0)) := by
  have reached : ∃ s, (cache ⟨id, 600⟩).ReachableBy NoForget s ∧
      (((s.request 0).stage = .fill ∧ (s.request 1).stage = .lock ∧ (s.request 1).slot = some 0) ∧
        (s.request 0).guard = some 0 ∧ (s.request 0).filling = some 0 ∧
        (s.host 0).ready = some true) := by
    refine System.exists_reachableBy_of_runBy (s := {})
      (l := [.arrive ⟨"redis", "7"⟩ none, .arrive ⟨"redis", "7"⟩ none, .call 0 .slot, .call 0 .lock,
        .call 0 (.check true), .call 1 .slot, .prune, .owner 0 (.prepared true)])
      (.init rfl) (by decide +kernel)
  obtain ⟨s, reachable, at_, guard, filling, ready⟩ := reached
  refine ⟨s, reachable, at_, fun a filled v leads stage locked alive => ?_⟩
  exact (filled_once reachable).2.2.1 0 1 0 0 a guard filling ready filled at_.2.1 at_.2.2 v leads
    stage locked alive true

end Reached

end ServiceCache.Templates
