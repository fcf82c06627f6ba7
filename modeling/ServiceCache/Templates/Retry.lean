import ServiceCache.Templates.Answered

/-!
# One vanished template

The first failed fork is answered by `forget` and a second `obtain`. The fork that `fill_recipe`
makes of the base is not covered by this: a base that vanishes there is the call's error.
-/

namespace ServiceCache.Templates

open Transition (System guarded)

def State.Living (s : State) (t : Nat) : Prop := s.Running t ∧ (s.host t).alive = true

instance (s : State) (t : Nat) : Decidable (s.Living t) := inferInstanceAs (Decidable (_ ∧ _))

/-- What the event brings to the call `r` succeeds: its owner threads start, its
bring-ups end well, and no owner fails to fork a host that runs. -/
def Succeeds (r : Nat) (s : State) : Event → Prop
  | .call r' (.check spawned) | .call r' (.answer spawned) => r' = r → spawned = true
  | .owner t (.prepared ok) => (s.request r).filling = some t → ok = true
  | .owner t .forkFails => ¬ s.Running t
  | _ => True

instance (r : Nat) (s : State) (e : Event) : Decidable (Succeeds r s e) := by
  unfold Succeeds
  split <;> infer_instance

/-- Of the templates that the call `r` has a handle on, none but `v` vanishes, and its
bring-ups, initializers and forks succeed. -/
structure Provided (r v : Nat) (s : State) (e : Event) : Prop where
  living : ∀ t < s.nextHost, (s.request r).Holds t → t ≠ v → s.Living t
  bringUp : ∀ t ∈ (s.request r).filling, (s.host t).phase = .preparing → s.Running t
  succeeds : Succeeds r s e

def Request.NeedsBase (s : State) (q : Request) : Prop :=
  (q.stage = .check ∧ ∀ sl ∈ q.guard, s.aliveIn sl = none) ∨ (q.stage = .forkBase ∧ q.reply = none)

def BaseLives (r : Nat) (s : State) : Prop :=
  ∀ b ∈ (s.request r).base, (s.request r).NeedsBase s → s.Living b

instance (r v : Nat) (s : State) (e : Event) : Decidable (Provided r v s e) :=
  decidable_of_iff
    ((∀ t < s.nextHost, (s.request r).Holds t → t ≠ v → s.Living t) ∧
      (∀ t ∈ (s.request r).filling, (s.host t).phase = .preparing → s.Running t) ∧ Succeeds r s e)
    ⟨fun h => ⟨h.1, h.2.1, h.2.2⟩, fun h => ⟨h.living, h.bringUp, h.succeeds⟩⟩

instance (s : State) (q : Request) : Decidable (q.NeedsBase s) :=
  inferInstanceAs (Decidable ((_ ∧ ∀ sl ∈ q.guard, _) ∨ _))

instance (r : Nat) (s : State) : Decidable (BaseLives r s) :=
  inferInstanceAs (Decidable (∀ b ∈ (s.request r).base, _))

def Spared (r v : Nat) (s : State) (e : Event) : Prop := Provided r v s e ∧ BaseLives r s

instance (r v : Nat) (s : State) (e : Event) : Decidable (Spared r v s e) :=
  inferInstanceAs (Decidable (_ ∧ _))

/-- How the call `q` stands while only `v` may vanish: it has not failed, it retries only
because `v` is gone, and then it has other templates; what it waits for succeeds. -/
structure Request.Steady (v : Nat) (s : State) (q : Request) : Prop where
  unfailed : q.stage ≠ .done false
  gone : q.retry = true ∨ q.stage = .forget → (s.host v).alive = false
  other : q.retry = true → ∀ t, q.handle = some t ∨ q.filling = some t → t ≠ v
  sure : ∀ t, q.filling = some t → (s.host t).ready ≠ some false
  kept : q.stage = .forkBase → q.reply ≠ some none

section Steps

variable {cfg : Config} {s s' : State} {r v : Nat}

theorem alive_of_ended (ha : Attended s) {t : Nat} (handed : s.Handed t)
    (ended : (s.host t).phase = .ended) : (s.host t).alive = false :=
  ((ha.owners t).ended ended).resolve_right (by simp [ha.frozen t handed])

inductive Failure (s : State) (r : Nat) (c : Call) : Prop
  | unspawned (is : c = .check false ∨ c = .answer false)
  | baseGone (b : Nat) (base : (s.request r).base = some b) (needs : (s.request r).NeedsBase s)
      (ended : (s.host b).phase = .ended)
  | baseRefused (at_ : (s.request r).stage = .forkBase) (refused : (s.request r).reply = some none)
  | bringUp (t : Nat) (filling : (s.request r).filling = some t)
      (failed : (s.host t).ready = some false)
  | forkGone (t : Nat) (again : (s.request r).retry = true)
      (handle : (s.request r).handle = some t) (ended : (s.host t).phase = .ended)
  | forkRefused (again : (s.request r).retry = true) (at_ : (s.request r).stage = .forking)
      (refused : (s.request r).reply = some none)

theorem Request.got_not_failed (q : Request) (t : Nat) : (q.got t).stage ≠ .done false := by
  rcases q.got_stage t with at_ | at_ <;> simp [at_]

theorem failed_check {spawned : Bool} (h : checkStep s r spawned = some s')
    (failed : (s'.request r).stage = .done false) : Failure s r (.check spawned) := by
  unfold checkStep at h
  split at h
  next sl at_ guard =>
    split at h
    next _ t alive =>
      cases h
      exact absurd failed (by simpa using Request.got_not_failed _ t)
    · cases h
      split at failed
      · simp at failed
      next off => exact .unspawned (.inl (by simpa using off))
    next b dead base =>
      cases h
      split at failed
      next ended => exact .baseGone b base (.inl ⟨at_, by simp [guard, dead]⟩) ended
      · simp at failed
  · cases h

theorem failed_filled (h : filledStep s r = some s')
    (failed : (s'.request r).stage = .done false) : Failure s r .filled := by
  unfold filledStep at h
  split at h
  next sl t at_ guard filling =>
    split at h
    · cases h
      exact absurd failed (by simpa using Request.got_not_failed _ t)
    next no => exact .bringUp t filling no
    · cases h
  · cases h

theorem retry_of_forkFailed (failed : ((forkFailed s r).request r).stage = .done false) :
    (s.request r).retry = true := by
  by_contra first
  simp [first] at failed

theorem failed_send (h : sendStep s r = some s') (failed : (s'.request r).stage = .done false) :
    Failure s r .send := by
  unfold sendStep at h
  split at h
  next t at_ handle =>
    cases h
    split at failed
    next ended => exact .forkGone t (retry_of_forkFailed failed) handle ended
    · simp at failed
  · cases h

theorem failed_answer {spawned : Bool} (h : answerStep s r spawned = some s')
    (failed : (s'.request r).stage = .done false) : Failure s r (.answer spawned) := by
  unfold answerStep at h
  split at h
  · cases h
    split at failed
    · simp at failed
    next off => exact .unspawned (.inr (by simpa using off))
  next at_ refused _ => exact .baseRefused at_ refused
  · cases h
    simp at failed
  next at_ refused =>
    cases h
    exact .forkRefused (retry_of_forkFailed failed) at_ refused
  · cases h

theorem failed_call {c : Call} (h : callStep cfg s r c = some s')
    (failed : (s'.request r).stage = .done false) : Failure s r c := by
  cases c with
  | check spawned => exact failed_check h failed
  | filled => exact failed_filled h failed
  | send => exact failed_send h failed
  | answer spawned => exact failed_answer h failed
  | slot =>
    simp only [callStep, slotStep] at h
    split at h <;> cases h
    simp at failed
  | lock =>
    simp only [callStep, lockStep] at h
    split at h
    · split at h <;> cases h
      simp at failed
    · cases h
  | forget =>
    simp only [callStep, forgetStep] at h
    split at h <;> cases h
    simp at failed
  | adopt =>
    simp only [callStep, adoptStep] at h
    split at h <;> cases h
    simp at failed

/-! ## Under the run condition -/

theorem Provided.alive {e : Event} (given : Provided r v s e) (hb : Bounded s) {t : Nat}
    (holds : (s.request r).Holds t) (ne : t ≠ v) : (s.host t).alive = true :=
  (given.living t (hb.handles r t holds) holds ne).2

theorem no_failure {c : Call} (hb : Bounded s) (ha : Attended s) (steady : (s.request r).Steady v s)
    (spared : Spared r v s (.call r c)) : ¬ Failure s r c := by
  intro failure
  have other : ∀ t, (s.request r).retry = true → (s.request r).handle = some t →
      (s.host t).alive = true := fun t again handle =>
    spared.1.alive hb (.inr (.inr (.inr handle))) (steady.other again t (.inl handle))
  cases failure with
  | unspawned is =>
    rcases is with rfl | rfl
    · exact absurd (spared.1.succeeds rfl) (by simp)
    · exact absurd (spared.1.succeeds rfl) (by simp)
  | baseGone b base needs ended =>
    have alive := (spared.2 b base needs).2
    simp [alive_of_ended ha (.inr ⟨r, .inl base⟩) ended] at alive
  | baseRefused at_ refused => exact steady.kept at_ refused
  | bringUp t filling failed => exact steady.sure t filling failed
  | forkGone t again handle ended =>
    have alive := other t again handle
    simp [alive_of_ended ha (.inr ⟨r, .inr handle⟩) ended] at alive
  | forkRefused again at_ refused =>
    obtain ⟨t, handle⟩ := Option.ne_none_iff_exists'.mp ((ha.formed r).fork (.inr at_))
    have alive := other t again handle
    simp [ha.refused r t (.inr ⟨at_, handle⟩) refused] at alive

theorem gone_of_forkFailed {e : Event} (hb : Bounded s) (ha : Attended s) (given : Provided r v s e)
    (gone : ((s.request r).stage = .fork ∧
        ∃ t, (s.request r).handle = some t ∧ (s.host t).phase = .ended) ∨
      ((s.request r).stage = .forking ∧ (s.request r).reply = some none)) :
    (s.host v).alive = false := by
  have dead : ∃ t, (s.request r).handle = some t ∧ (s.host t).alive = false := by
    rcases gone with ⟨-, t, handle, ended⟩ | ⟨at_, refused⟩
    · exact ⟨t, handle, alive_of_ended ha (.inr ⟨r, .inr handle⟩) ended⟩
    · obtain ⟨t, handle⟩ := Option.ne_none_iff_exists'.mp ((ha.formed r).fork (.inr at_))
      exact ⟨t, handle, ha.refused r t (.inr ⟨at_, handle⟩) refused⟩
  obtain ⟨t, handle, dead⟩ := dead
  by_cases is : t = v
  · exact is ▸ dead
  · rw [given.alive hb (.inr (.inr (.inr handle))) is] at dead
    cases dead

theorem dead_next {e : Event} (hb : Bounded s) (h : next cfg s e = some s')
    (dead : (s.host v).alive = false) : (s'.host v).alive = false := by
  by_contra alive
  rw [alive_next hb h (by simpa using alive)] at dead
  cases dead

@[simp] theorem Request.got_retry (q : Request) (t : Nat) : (q.got t).retry = q.retry := by
  unfold Request.got
  split <;> rfl

theorem gone_call {e : Event} (hb : Bounded s) (ha : Attended s) (given : Provided r v s e)
    (steady : (s.request r).Steady v s) (hc : CallCase cfg s r s')
    (again : (s'.request r).retry = true ∨ (s'.request r).stage = .forget) :
    (s.host v).alive = false := by
  cases hc with
  | forget at_ => exact steady.gone (.inr at_)
  | forkFailed gone => exact gone_of_forkFailed hb ha given gone
  | clone sl t | filled sl t =>
    rcases again with again | again
    · exact steady.gone (.inl (by simpa using again))
    · rcases Request.got_stage (s.request r) t with at_ | at_ <;> simp [at_] at again
  | giveUp | adopted => exact steady.gone (.inl (by simpa [Request.finish, Request.leave] using again))
  | slot | lock | spawnBase | sendBase | send | spawnRecipe | adopting =>
    exact steady.gone (.inl (by simpa using again))

theorem other_call (hb : Bounded s) (hd : Desk s) (ha : Attended s)
    (steady : (s.request r).Steady v s) (hc : CallCase cfg s r s')
    (again : (s'.request r).retry = true) {t : Nat}
    (has : (s'.request r).handle = some t ∨ (s'.request r).filling = some t) : t ≠ v := by
  have fresh : (s.request r).retry = true → ∀ u, (s.host u).alive = true → u ≠ v := by
    rintro again u alive rfl
    simp [steady.gone (.inl again)] at alive
  cases hc with
  | clone sl u at_ guard alive =>
    have before : (s.request r).retry = true := by simpa using again
    have has := has.resolve_right (by simp)
    rcases Request.handed_got (.inr (by simpa using has)) with rfl | handle
    · exact fresh before t (State.aliveIn_eq_some.mp alive).2
    · exact steady.other before t (.inl handle)
  | filled sl u at_ guard filling ready =>
    have before : (s.request r).retry = true := by simpa using again
    have has := has.resolve_right (by simp)
    rcases Request.handed_got (.inr (by simpa using has)) with rfl | handle
    · exact steady.other before t (.inr filling)
    · exact steady.other before t (.inl handle)
  | spawnBase sl at_ guard dead =>
    have before : (s.request r).retry = true := by simpa using again
    rcases has with handle | filling
    · exact steady.other before t (.inl (by simpa using handle))
    · obtain rfl : s.nextHost = t := by simpa using filling
      exact fresh before _ (by simp [hb.hosts _ (Nat.le_refl _)])
  | spawnRecipe sl p at_ guard reply =>
    have before : (s.request r).retry = true := by simpa using again
    rcases has with handle | filling
    · exact steady.other before t (.inl (by simpa using handle))
    · obtain rfl : p = t := by simpa using filling
      exact fresh before p ((hd.owners p).alive (.inl (hd.clones r p reply)))
  | forget at_ =>
    have handle := ((ha.formed r).forget at_).2
    have filling : (s.request r).filling = none := by
      by_contra some
      simp [hd.filling r some] at at_
    simp [handle, filling] at has
  | giveUp | adopted => simp [Request.finish, Request.leave] at has
  | forkFailed gone =>
    simp only [forkFailed, State.setRequest_request, Function.update_self] at has again
    split at has
    · simp [Request.finish, Request.leave] at has
    next first => simp [first] at again
  | adopting p at_ reply =>
    exact steady.other (by simpa using again) t (.inr (by simpa using has))
  | slot | lock | sendBase | send =>
    exact steady.other (by simpa using again) t (by simpa using has)

theorem steady_call {c : Call} (hb : Bounded s) (hd : Desk s) (ha : Attended s)
    (steady : (s.request r).Steady v s) (spared : Spared r v s (.call r c))
    (h : callStep cfg s r c = some s') : (s'.request r).Steady v s' := by
  have hc : CallCase cfg s r s' := callStep_cases h
  refine
    { unfailed := fun failed => no_failure hb ha steady spared (failed_call h failed)
      gone := fun again => ?_, other := fun again t => other_call hb hd ha steady hc again
      sure := fun t filling => ?_, kept := fun at_ => ?_ }
  · exact dead_next (e := .call r c) hb h (gone_call hb ha spared.1 steady hc again)
  · rcases filling_of_call hc filling with old | preparing
    · rw [ready_call hb hd hc]
      exact steady.sure t old
    · simp [((desk_call hb hd hc).owners t).quiet (.inr preparing)]
  · obtain ⟨b, base⟩ := Option.ne_none_iff_exists'.mp ((formed_call ha.formed hc r).forkBase at_)
    simp [(waits_call hc (.inl ⟨at_, base⟩)).1]

/-! ## The steps of others -/

theorem failed_turn {t u : Nat} {turn : Turn} (hb : Bounded s) (hd : Desk s)
    (h : ownerStep cfg s t turn = some s') (failed : (s'.host u).ready = some false) :
    (s.host u).ready = some false ∨ (t = u ∧ turn = .prepared false) := by
  cases before : (s.host u).ready with
  | some b =>
    left
    rw [ready_owner hb hd (ownerStep_cases h) before] at failed
    exact failed
  | none =>
    right
    rcases owner_host_cases hb (ownerStep_cases h) u with ⟨rfl, turned⟩ | eq | ⟨-, ancestors, eq⟩
    · refine ⟨rfl, ?_⟩
      cases turned with
      | announced _ _ ready => simp [ready] at failed
      | serves _ _ same | leaves _ _ same => simp [same, before] at failed
      | broken preparing =>
        cases turn with
        | prepared ok =>
          cases ok with
          | false => rfl
          | true =>
            simp only [ownerStep, preparedStep, preparing, if_true] at h
            obtain ⟨-, ⟨⟩⟩ := guarded h
            simp at failed
        | serveFork | forkFails | kill | hostGone | timeout | disconnected | stop =>
          simp [ownerStep, serveForkStep, forkFailsStep, killStep, hostGoneStep, timeoutStep,
            disconnectedStep, stopStep, preparing] at h
    · simp [eq, before] at failed
    · simp [eq] at failed

theorem failed_next {e : Event} (hb : Bounded s) (hd : Desk s) (h : next cfg s e = some s') {t : Nat}
    (failed : (s'.host t).ready = some false) :
    (s.host t).ready = some false ∨ e = .owner t (.prepared false) := by
  cases e with
  | call r c =>
    rw [ready_call hb hd (callStep_cases h)] at failed
    exact .inl failed
  | owner u turn =>
    refine (failed_turn hb hd h failed).imp_right ?_
    rintro ⟨rfl, rfl⟩
    rfl
  | arrive | prune | tick =>
    cases h
    exact .inl failed
  | exit p => exact .inl (by rwa [(processStep_exit h).ready] at failed)
  | report p => exact .inl (by rwa [(processStep_report hb h).ready] at failed)

theorem refused_turn {t : Nat} {turn : Turn} (ha : Attended s)
    (h : ownerStep cfg s t turn = some s') (unanswered : (s.request r).reply = none)
    (refused : (s'.request r).reply = some none) : turn = .forkFails ∨ (s.host t).alive = false := by
  cases turn with
  | forkFails => exact .inl rfl
  | kill =>
    obtain ⟨at_, -⟩ := guarded h
    exact .inr ((ha.owners t).retired (.inl at_))
  | stop =>
    obtain ⟨at_, -⟩ := guarded h
    exact .inr ((ha.owners t).retired (.inr at_))
  | prepared ok =>
    simp only [ownerStep, preparedStep] at h
    split at h
    · split at h
      · obtain ⟨-, ⟨⟩⟩ := guarded h
        simp [unanswered] at refused
      · cases h
        simp [unanswered] at refused
    · cases h
  | serveFork k =>
    simp only [ownerStep, serveForkStep] at h
    split at h
    next r' rest at_ asked =>
      obtain ⟨-, ⟨⟩⟩ := guarded h
      by_cases head : r = r'
      · simp [cloned, head] at refused
      · simp [cloned, head, unanswered] at refused
    · cases h
  | hostGone | timeout | disconnected =>
    obtain ⟨-, ⟨⟩⟩ := guarded h
    simp [unanswered] at refused

theorem refused_next {e : Event} (hb : Bounded s) (hd : Desk s) (ha : Attended s)
    (h : next cfg s e = some s') (here : r < s.arrived) (other : ¬ Event.ofCall r e) {t : Nat}
    (waits : (s.request r).Waits t) (fine : (s.request r).reply ≠ some none)
    (refused : (s'.request r).reply = some none) :
    (s.request r).reply = none ∧ (e = .owner t .forkFails ∨ (s.host t).alive = false) := by
  cases e with
  | owner u turn =>
    rcases reply_owner hb hd (ownerStep_cases h) r with eq | ⟨mem, -⟩
    · exact absurd (eq ▸ refused) fine
    · obtain ⟨unanswered, asked⟩ := hd.queued u r mem
      obtain rfl := waits.unique asked
      refine ⟨unanswered, (refused_turn ha h unanswered refused).imp_left ?_⟩
      rintro rfl
      rfl
  | call r' c =>
    rw [call_request_other (callStep_cases h) fun is => other is.symm] at refused
    exact absurd refused fine
  | arrive manifest recipe =>
    cases h
    exact absurd (by simpa [arrive, Nat.ne_of_lt here] using refused) fine
  | prune | tick =>
    cases h
    exact absurd refused fine
  | exit p =>
    rw [(processStep_exit h).request] at refused
    exact absurd refused fine
  | report p =>
    rw [(processStep_report hb h).request] at refused
    exact absurd refused fine

theorem steady_other {e : Event} (hb : Bounded s) (hd : Desk s) (ha : Attended s)
    (here : r < s.arrived) (steady : (s.request r).Steady v s) (spared : Spared r v s e)
    (h : next cfg s e = some s') (other : ¬ Event.ofCall r e) : (s'.request r).Steady v s' := by
  have kept : (s.request r).stage = .forkBase → (s'.request r).reply ≠ some none := by
    intro at_ refused
    obtain ⟨b, base⟩ := Option.ne_none_iff_exists'.mp ((ha.formed r).forkBase at_)
    obtain ⟨unanswered, why⟩ :=
      refused_next hb hd ha h here other (.inl ⟨at_, base⟩) (steady.kept at_) refused
    -- the base lives while the command is unanswered, so its owner does not refuse it
    have living := spared.2 b base (.inr ⟨at_, unanswered⟩)
    rcases why with rfl | dead
    · exact spared.1.succeeds living.1
    · simp [living.2] at dead
  obtain ⟨x, same⟩ := request_next hb h here other
  rw [same] at kept ⊢
  refine { unfailed := steady.unfailed, gone := fun again => ?_, other := steady.other,
           sure := fun t filling failed => ?_, kept := kept }
  · exact dead_next hb h (steady.gone again)
  · rcases failed_next hb hd h failed with old | rfl
    · exact steady.sure t filling old
    · exact absurd (spared.1.succeeds filling) (by simp)

theorem Request.steady_new (manifest : Manifest) (recipe : Option (List UInt8)) :
    ({ manifest, recipe, stage := .slot } : Request).Steady v s where
  unfailed := nofun
  gone := nofun
  other := nofun
  sure := nofun
  kept := nofun

theorem steady_next {e : Event} (hb : Bounded s) (hd : Desk s) (ha : Attended s)
    (steady : r < s.arrived → (s.request r).Steady v s) (spared : Spared r v s e)
    (h : next cfg s e = some s') (here : r < s'.arrived) : (s'.request r).Steady v s' := by
  by_cases new : r < s.arrived
  case neg =>
    cases e with
    | arrive manifest recipe =>
      cases h
      obtain rfl : r = s.arrived := Nat.le_antisymm (Nat.le_of_lt_succ here) (Nat.le_of_not_lt new)
      simp only [arrive, Function.update_self]
      exact Request.steady_new manifest recipe
    | call r' c => exact absurd (call_arrived (callStep_cases h) ▸ here) new
    | prune =>
      cases h
      exact absurd here new
    | owner | exit | report | tick => exact absurd ((frame_next hb h trivial).arrived ▸ here) new
  by_cases mine : Event.ofCall r e
  · cases e with
    | call r' c =>
      obtain rfl : r' = r := mine
      exact steady_call hb hd ha (steady new) spared h
    | arrive | prune | owner | exit | report | tick => exact absurd mine id
  · exact steady_other hb hd ha new (steady new) spared h mine

end Steps

theorem steady_reachable {cfg : Config} {s : State} {r v : Nat}
    (h : (cache cfg).ReachableBy (Spared r v) s) (here : r < s.arrived) :
    (s.request r).Steady v s := by
  refine h.invariant (P := fun s => r < s.arrived → (s.request r).Steady v s) ?_ ?_ here
  · rintro s rfl
    exact nofun
  · intro s e s' reached steady spared next
    exact steady_next (bounded_reachable reached) (desk_reachable reached)
      (attended_reachable reached) steady spared next

/-- A call of which one template vanishes is answered with an instance, if the base lives whenever
the call asks it for the fork of a recipe template. -/
theorem vanished_template_retried (cfg : Config) (r v : Nat) :
    (∀ s, (cache cfg).ReachableBy (Spared r v) s → r < s.arrived →
      (s.request r).stage ≠ .done false) ∧
    ∀ p : (cache cfg).Path, Fair p → (∀ n, Spared r v (p.state n) (p.event n)) →
      ∀ n, r < (p.state n).arrived → ∃ m ≥ n, ((p.state m).request r).stage = .done true := by
  have unfailed : ∀ s, (cache cfg).ReachableBy (Spared r v) s → r < s.arrived →
      (s.request r).stage ≠ .done false := fun s reached here =>
    (steady_reachable reached here).unfailed
  refine ⟨unfailed, fun p fair spared n here => ?_⟩
  obtain ⟨m, le, created, done⟩ := fair.answered here
  cases created with
  | true => exact ⟨m, le, done⟩
  | false =>
    exact absurd done (unfailed _ (p.reachableBy spared m) (here.trans_le (arrived_mono le)))

/-! ## Runs -/

theorem Host.drained_of_exits {h : Host} (exits : h.exits = 0) (now : Nat) : h.drained now = h := by
  cases h
  subst exits
  simp [Host.drained]

theorem timeout_still {cfg : Config} {s : State} {t : Nat} (at_ : (s.host t).phase = .serving)
    (idle : (s.host t).commands = []) (exits : (s.host t).exits = 0)
    (children : (s.host t).children ≠ 0) : next cfg s (.owner t .timeout) = some s := by
  simp [next, ownerStep, timeoutStep, at_, idle, Host.drained_of_exits exits, children,
    State.setHost]

/-- The host of the template goes while the call has it in hand; the call forgets it and gets an
instance of the second. From then on that template's owner looks at its events for ever. -/
theorem vanished_template_retried_rebuilt : ∃ p : (cache ⟨id, 600⟩).Path, Fair p ∧
    (∀ n, Spared 0 0 (p.state n) (p.event n)) ∧ (∃ n, ((p.state n).request 0).retry = true) ∧
    ∃ m, ((p.state m).request 0).stage = .done true := by
  have reached : ∃ s, (cache ⟨id, 600⟩).ReachableBy (Spared 0 0) s ∧
      (s.request 0).stage = .done true ∧ (s.request 0).retry = true ∧ s.arrived = 1 ∧
      s.nextHost = 3 ∧ (s.host 0).phase = .ended ∧ (s.host 2).phase = .unowned ∧
      ((s.host 1).phase = .serving ∧ (s.host 1).commands = [] ∧ (s.host 1).exits = 0 ∧
        (s.host 1).children ≠ 0) ∧ Spared 0 0 s (.owner 1 .timeout) :=
    System.exists_reachableBy_of_runBy (s := {})
      (l := [.arrive ⟨"redis", "7"⟩ none, .call 0 .slot, .call 0 .lock, .call 0 (.check true),
        .owner 0 (.prepared true), .call 0 .filled, .exit 0, .call 0 .send, .owner 0 .forkFails,
        .owner 0 .kill, .call 0 (.answer true), .call 0 .forget, .call 0 .slot, .call 0 .lock,
        .call 0 (.check true), .owner 1 (.prepared true), .call 0 .filled, .call 0 .send,
        .owner 1 (.serveFork 0), .call 0 (.answer true), .call 0 .adopt])
      (.init rfl) (by decide +kernel)
  obtain ⟨s, reachable, done, again, arrived, hosts, gone, clone, ⟨at_, idle, exits, children⟩,
    spared⟩ := reached
  have loop : next ⟨id, 600⟩ s (.owner 1 .timeout) = some s := timeout_still at_ idle exits children
  obtain ⟨p, k, all, tail⟩ := reachable.exists_path (fun _ => s) (fun _ => .owner 1 .timeout) rfl
    fun _ => ⟨spared, loop⟩
  have after : ∀ m ≥ k, p.state m = s ∧ p.event m = .owner 1 .timeout := by
    intro m le
    obtain ⟨d, rfl⟩ := Nat.exists_eq_add_of_le le
    exact tail d
  have hb : Bounded s := bounded_reachable reachable
  have fair : Fair p := by
    refine ⟨fun r => ?_, fun t => ?_⟩
    · refine System.Path.fair_of_stuck (n := k) fun m le => ?_
      rw [(after m le).1]
      rcases Nat.eq_zero_or_pos r with rfl | later
      · exact not_enabled_of_done done
      · exact not_enabled_of_done (hb.requests r (by omega)).1
    · by_cases is : t = 1
      · subst is
        intro _ n
        refine ⟨max n k, le_max_left n k, ?_⟩
        rw [(after _ (le_max_right n k)).2]
        rfl
      · refine System.Path.fair_of_stuck (n := k) fun m le => ?_
        rw [(after m le).1]
        apply not_enabled_of_idle
        rcases Nat.lt_or_ge t 3 with known | fresh
        · obtain rfl | rfl : t = 0 ∨ t = 2 := by omega
          · exact .inr gone
          · exact .inl clone
        · exact .inl (by rw [hb.hosts t (by omega)])
  refine ⟨p, fair, all, ⟨k, by rw [(after k le_rfl).1, again]⟩, ?_⟩
  obtain ⟨m, -, created⟩ := (vanished_template_retried ⟨id, 600⟩ 0 0).2 p fair all k
    (by rw [(after k le_rfl).1]; omega)
  exact ⟨m, created⟩

/-- The second request has the base in hand for its recipe when the base, which nothing runs under
any more, expires. Its fork of the base fails, and so does the request. -/
theorem expired_base_fails_request : ∃ s, (cache ⟨id, 1⟩).ReachableBy (Provided 1 0) s ∧
    1 < s.arrived ∧ (s.request 1).stage = .done false :=
  System.exists_reachableBy_of_runBy (s := {})
    (l := [.arrive ⟨"redis", "7"⟩ none, .call 0 .slot, .call 0 .lock, .call 0 (.check true),
      .owner 0 (.prepared true), .call 0 .filled, .call 0 .send, .owner 0 (.serveFork 0),
      .call 0 (.answer true), .call 0 .adopt, .exit 1, .report 1, .owner 0 .timeout,
      .arrive ⟨"redis", "7"⟩ (some [1]), .call 1 .slot, .call 1 .lock, .call 1 (.check true), .tick,
      .owner 0 .timeout, .owner 0 .stop, .call 1 .slot, .call 1 .lock, .call 1 (.check true)])
    (.init rfl) (by decide +kernel)

end ServiceCache.Templates
