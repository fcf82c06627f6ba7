import Mathlib.Data.List.Basic
import Mathlib.Logic.Function.Basic
import ServiceCache.Transition

/-!
# `memory.atomic.wait` and `memory.atomic.notify`

A poll looks at its entry under the lock and afterwards, without it, at its timer and deadline.
`do_notify` marks entries under the lock and wakes their wakers after it. A parked wait may be
polled again at any time.

Left out: `closed`, which no wait or notify sets, and the value in memory: a wait that does not
find it as expected, or finds too many waiters, is refused.
-/

namespace ServiceCache.AtomicWait

open Function
open Transition (System guarded)

inductive Answer
  | woken
  | mismatch
  | timedOut
  | tooManyWaiters
  deriving DecidableEq, Repr

inductive Stage
  | unborn
  | called
  | looking
  /-- The poll has stored its waker and is about to look at timer and deadline. -/
  | timing
  | parked
  | leaving (timedOut : Bool)
  | returned (r : Answer)
  deriving DecidableEq, Repr

structure Wait where
  address : Nat := 0
  timed : Bool := false
  stage : Stage := .unborn
  notified : Bool := false
  waker : Bool := false
  /-- It was woken and has not been polled since. -/
  token : Bool := false

structure Note where
  address : Nat := 0
  count : Nat := 0
  /-- What `waiting` was before it. -/
  found : List Nat := []
  marked : List Nat := []
  left : List Nat := []

structure State where
  wait : Nat → Wait := fun _ => {}
  nextWaiter : Nat := 0
  list : Nat → List Nat := fun _ => []
  /-- The ids that ever entered the list of an address, as they came. -/
  arrivals : Nat → List Nat := fun _ => []
  note : Nat → Note := fun _ => {}
  notes : Nat := 0

inductive Event
  | call (address : Nat) (timed : Bool)
  | refuse (id : Nat) (tooMany : Bool)
  | register (id : Nat)
  | look (id : Nat)
  | check (id : Nat) (due : Bool)
  | unpark (id : Nat)
  | remove (id : Nat)
  | notify (address count : Nat)
  | wake (note : Nat)

def State.setWait (s : State) (id : Nat) (w : Wait) : State :=
  { s with wait := update s.wait id w }

def State.go (s : State) (id : Nat) (stage : Stage) : State :=
  s.setWait id { s.wait id with stage }

def State.look (s : State) (id : Nat) : State :=
  if id ∈ s.list (s.wait id).address then
    if (s.wait id).notified then s.go id (.leaving false)
    else s.setWait id { s.wait id with waker := true, stage := .timing }
  else s.go id (.leaving false)

def notifyLoop (notified : Nat → Bool) (count : Nat) : List Nat → List Nat → List Nat
  | [], woken => woken
  | id :: list, woken =>
      if notified id then notifyLoop notified count list woken
      else if count ≤ woken.length then woken
      else notifyLoop notified count list (woken ++ [id])

def State.toMark (s : State) (address count : Nat) : List Nat :=
  notifyLoop (fun id => (s.wait id).notified) count (s.list address) []

/-- The waiters of an address that were not notified, in the order of the list. -/
def State.waiting (s : State) (address : Nat) : List Nat :=
  (s.list address).filter fun id => !(s.wait id).notified

def State.notify (s : State) (address count : Nat) : State :=
  let marked := s.toMark address count
  { s with
    wait := fun id =>
      if id ∈ marked then { s.wait id with notified := true, waker := false } else s.wait id
    note := update s.note s.notes
      { address, count, marked
        found := s.waiting address
        left := marked.filter fun id => (s.wait id).waker }
    notes := s.notes + 1 }

def State.call (s : State) (address : Nat) (timed : Bool) : State :=
  { s.setWait s.nextWaiter { address, timed, stage := .called } with
    nextWaiter := s.nextWaiter + 1 }

def State.register (s : State) (id : Nat) : State :=
  let a := (s.wait id).address
  { s.go id .looking with
    list := update s.list a (s.list a ++ [id])
    arrivals := update s.arrivals a (s.arrivals a ++ [id]) }

def State.remove (s : State) (id : Nat) (r : Answer) : State :=
  let a := (s.wait id).address
  { s.go id (.returned r) with list := update s.list a ((s.list a).filter (· ≠ id)) }

def State.wake (s : State) (k id : Nat) (left : List Nat) : State :=
  { s.setWait id { s.wait id with token := true } with
    note := update s.note k { s.note k with left } }

def State.step (s : State) : Event → Option State
  | .call address timed => some (s.call address timed)
  | .refuse id tooMany =>
      if (s.wait id).stage = .called then
        some (s.go id (.returned (if tooMany then .tooManyWaiters else .mismatch)))
      else none
  | .register id => if (s.wait id).stage = .called then some (s.register id) else none
  | .look id => if (s.wait id).stage = .looking then some (s.look id) else none
  | .check id due =>
      if (s.wait id).stage = .timing ∧ (due = true → (s.wait id).timed = true) then
        some (s.go id (if due then .leaving true else .parked))
      else none
  | .unpark id =>
      if (s.wait id).stage = .parked then
        some (s.setWait id { s.wait id with stage := .looking, token := false })
      else none
  | .remove id =>
      match (s.wait id).stage with
      | .leaving timedOut => some (s.remove id (if timedOut then .timedOut else .woken))
      | _ => none
  | .notify address count => some (s.notify address count)
  | .wake k =>
      match (s.note k).left with
      | id :: left => some (s.wake k id left)
      | [] => none

def threadConditions : System State Event where
  Initial s := s = {}
  next := State.step

variable {s t : State} {id : Nat}

theorem notifyLoop_eq (notified : Nat → Bool) (count : Nat) (l woken : List Nat) :
    notifyLoop notified count l woken =
      woken ++ (l.filter fun id => !notified id).take (count - woken.length) := by
  induction l generalizing woken with
  | nil => simp [notifyLoop]
  | cons id l ih =>
    unfold notifyLoop
    cases known : notified id with
    | true => simp [ih, known]
    | false =>
      by_cases enough : count ≤ woken.length
      · simp [enough, Nat.sub_eq_zero_of_le enough]
      · have more : count - woken.length = count - (woken.length + 1) + 1 := by omega
        simp [ih, known, enough, more]

/-! ## The lists -/

def Stage.listed : Stage → Bool
  | .looking | .timing | .parked | .leaving _ => true
  | _ => false

def Stage.armed : Stage → Bool
  | .timing | .parked => true
  | _ => false

def Listed (wait : Nat → Wait) (a : Nat) (l : List Nat) : Prop :=
  ∀ id ∈ l, (wait id).address = a ∧ (wait id).stage.listed = true

structure Sound (s : State) : Prop where
  unborn : ∀ id, s.nextWaiter ≤ id → (s.wait id).stage = .unborn
  unused : ∀ k, s.notes ≤ k → s.note k = {}
  listed : ∀ a, Listed s.wait a (s.list a)
  nodup : ∀ a, (s.list a).Nodup
  arrived : ∀ a, (s.list a).Sublist (s.arrivals a)
  armed : ∀ id, (s.wait id).stage.armed = true → (s.wait id).notified = false →
    (s.wait id).waker = true
  found : ∀ k, (s.note k).found.Nodup ∧ (s.note k).found.Sublist (s.arrivals (s.note k).address)
  marked : ∀ k, (s.note k).marked = (s.note k).found.take (s.note k).count

theorem Sound.setWait (h : Sound s) {w : Wait}
    (unborn : (s.wait id).stage = .unborn → w.stage = .unborn)
    (address : w.address = (s.wait id).address)
    (listed : (s.wait id).stage.listed = true → w.stage.listed = true)
    (armed : w.stage.armed = true → w.notified = false → w.waker = true) :
    Sound (s.setWait id w) := by
  have other : ∀ j, (s.setWait id w).wait j = if j = id then w else s.wait j :=
    fun j => update_apply ..
  refine { h with unborn := fun j le => ?_, listed := fun a j mem => ?_, armed := fun j => ?_ }
  · rw [other]
    split
    next same => exact unborn (h.unborn id (same ▸ le))
    · exact h.unborn j le
  · obtain ⟨at_, in_⟩ := h.listed a j mem
    rw [other]
    split
    next same =>
      subst same
      exact ⟨address.trans at_, listed in_⟩
    · exact ⟨at_, in_⟩
  · rw [other]
    split
    · exact armed
    · exact h.armed j

theorem Sound.call (h : Sound s) (address : Nat) (timed : Bool) : Sound (s.call address timed) := by
  have new := h.unborn s.nextWaiter (Nat.le_refl _)
  refine { h with unborn := fun j le => ?_, listed := fun a j mem => ?_, armed := fun j => ?_ }
  · change s.nextWaiter + 1 ≤ j at le
    exact (congrArg Wait.stage (update_of_ne (by omega) ..)).trans (h.unborn j (by omega))
  · obtain ⟨at_, in_⟩ := h.listed a j mem
    have old : j ≠ s.nextWaiter := by
      rintro rfl
      rw [new] at in_
      cases in_
    simpa only [State.call, State.setWait, update_of_ne old] using h.listed a j mem
  · simp only [State.call, State.setWait, update_apply]
    split
    · nofun
    · exact h.armed j

theorem Sound.register (h : Sound s) (at_ : (s.wait id).stage = .called) :
    Sound (s.register id) := by
  unfold State.register
  generalize address : (s.wait id).address = a
  have moved : Sound (s.go id .looking) := h.setWait (by simp [at_]) rfl (fun _ => rfl) nofun
  have out : id ∉ s.list a := by
    intro mem
    have listed := (h.listed a id mem).2
    rw [at_] at listed
    cases listed
  have grown : ∀ b, (s.arrivals b).Sublist
      (update s.arrivals a (s.arrivals a ++ [id]) b) := by
    intro b
    by_cases same : b = a
    · subst same
      simp
    · rw [update_of_ne same]
  refine { moved with
    listed := ?_
    nodup := ?_
    arrived := fun b => ?_
    found := fun k => ⟨(h.found k).1, (h.found k).2.trans (grown _)⟩ }
  · refine (forall_update_iff s.list (Listed (s.go id .looking).wait)).mpr
      ⟨fun j mem => ?_, fun b _ => moved.listed b⟩
    obtain old | new := List.mem_append.mp mem
    · exact moved.listed a j old
    · obtain rfl := List.mem_singleton.mp new
      simpa [State.go, State.setWait, Stage.listed] using address
  · refine (forall_update_iff s.list _).mpr ⟨?_, fun b _ => h.nodup b⟩
    refine List.nodup_append.mpr ⟨h.nodup a, by simp, fun j old k new same => out ?_⟩
    rwa [← List.mem_singleton.mp new, ← same]
  · by_cases same : b = a
    · subst same
      simpa using (h.arrived b).append (List.Sublist.refl [id])
    · simpa only [update_of_ne same] using h.arrived b

theorem Sound.remove (h : Sound s) {timedOut : Bool} (at_ : (s.wait id).stage = .leaving timedOut)
    (r : Answer) : Sound (s.remove id r) := by
  unfold State.remove
  generalize address : (s.wait id).address = a
  have other : ∀ {j}, j ≠ id → (s.go id (.returned r)).wait j = s.wait j :=
    fun ne => update_of_ne ne ..
  refine { h with
    unborn := fun j le => ?_
    listed := (forall_update_iff s.list (Listed (s.go id (.returned r)).wait)).mpr
      ⟨fun j mem => ?_, fun b ne j mem => ?_⟩
    nodup := (forall_update_iff s.list _).mpr ⟨(h.nodup a).filter _, fun b _ => h.nodup b⟩
    arrived := (forall_update_iff s.list fun b l => l.Sublist (s.arrivals b)).mpr
      ⟨List.filter_sublist.trans (h.arrived a), fun b _ => h.arrived b⟩
    armed := fun j => ?_ }
  · have old : j ≠ id := by
      rintro rfl
      have unborn := h.unborn j le
      rw [at_] at unborn
      cases unborn
    exact (congrArg Wait.stage (other old)).trans (h.unborn j le)
  · obtain ⟨old, ne⟩ := List.mem_filter.mp mem
    rw [show (s.go id (.returned r)).wait j = s.wait j from other (by simpa using ne)]
    exact h.listed a j old
  · have ne : j ≠ id := by
      rintro rfl
      exact ne ((h.listed b j mem).1.symm.trans address)
    rw [show (s.go id (.returned r)).wait j = s.wait j from other ne]
    exact h.listed b j mem
  · by_cases same : j = id
    · subst same
      simp [State.go, State.setWait, Stage.armed]
    · rw [show (s.go id (.returned r)).wait j = s.wait j from other same]
      exact h.armed j

theorem Sound.toMark_eq (s : State) (a count : Nat) :
    s.toMark a count = (s.waiting a).take count := by
  simp [State.toMark, State.waiting, notifyLoop_eq]

theorem Sound.mem_toMark {a count : Nat} (mem : id ∈ s.toMark a count) :
    id ∈ s.list a ∧ (s.wait id).notified = false := by
  rw [toMark_eq] at mem
  simpa [State.waiting] using List.mem_of_mem_take mem

theorem Sound.notify (h : Sound s) (a count : Nat) : Sound (s.notify a count) := by
  have wait : ∀ id, (s.notify a count).wait id = if id ∈ s.toMark a count then
      { s.wait id with notified := true, waker := false } else s.wait id := fun _ => rfl
  refine { h with
    unborn := fun id le => ?_
    unused := fun k le => ?_
    listed := fun b id mem => ?_
    armed := fun id => ?_
    found := (forall_update_iff s.note fun _ x => x.found.Nodup ∧
      x.found.Sublist (s.arrivals x.address)).mpr ⟨⟨(h.nodup a).filter _,
        List.filter_sublist.trans (h.arrived a)⟩, fun k _ => h.found k⟩
    marked := (forall_update_iff s.note fun _ x => x.marked = x.found.take x.count).mpr
      ⟨toMark_eq s a count, fun k _ => h.marked k⟩ }
  · rw [wait]
    split <;> exact h.unborn id le
  · exact (update_of_ne (by simp only [State.notify] at le; omega) ..).trans
      (h.unused k (by simp only [State.notify] at le; omega))
  · rw [wait]
    split <;> exact h.listed b id mem
  · rw [wait]
    split
    · nofun
    · exact h.armed id

theorem Sound.wake (h : Sound s) {k : Nat} {left : List Nat}
    (at_ : (s.note k).left = id :: left) : Sound (s.wake k id left) := by
  have woken : Sound (s.setWait id { s.wait id with token := true }) :=
    h.setWait (fun is => is) rfl (fun is => is) (h.armed id)
  refine { woken with
    unused := fun k' le => ?_
    found := (forall_update_iff s.note fun _ x => x.found.Nodup ∧
      x.found.Sublist (s.arrivals x.address)).mpr ⟨h.found k, fun k' _ => h.found k'⟩
    marked := (forall_update_iff s.note fun _ x => x.marked = x.found.take x.count).mpr
      ⟨h.marked k, fun k' _ => h.marked k'⟩ }
  have other : k' ≠ k := by
    rintro rfl
    rw [h.unused k' le] at at_
    cases at_
  exact (update_of_ne other ..).trans (h.unused k' le)

/-! ## Marked waits -/

def Wait.Owed (w : Wait) : Prop :=
  w.notified = true ∧
    match w.stage with
    | .unborn | .called | .leaving true => False
    | .returned r => r = .woken
    | _ => True

structure Promised (s : State) (k id : Nat) : Prop where
  address : (s.wait id).address = (s.note k).address
  owed : (s.wait id).Owed
  awake : (s.wait id).stage.armed = true → (s.wait id).token = true ∨ ∃ k', id ∈ (s.note k').left

def Delivered (s : State) : Prop := ∀ k, ∀ id ∈ (s.note k).marked, Promised s k id

theorem Delivered.setWait (h : Delivered s) {w : Wait}
    (owed : (s.wait id).Owed → w.address = (s.wait id).address ∧ w.Owed ∧
      (w.stage.armed = true → (s.wait id).stage.armed = true ∧ w.token = (s.wait id).token)) :
    Delivered (s.setWait id w) := by
  intro k j mem
  have promised := h k j mem
  by_cases same : j = id
  · subst same
    obtain ⟨address, owed, armed⟩ := owed promised.owed
    have new : (s.setWait j w).wait j = w := update_self ..
    refine ⟨?_, by rwa [new], fun is => ?_⟩
    · rw [new, address]
      exact promised.address
    · rw [new] at is ⊢
      obtain ⟨old, token⟩ := armed is
      exact token ▸ promised.awake old
  · have old : (s.setWait id w).wait j = s.wait j := update_of_ne same ..
    exact ⟨old ▸ promised.address, old ▸ promised.owed, old ▸ promised.awake⟩

theorem Delivered.congr (h : Delivered s) (wait : t.wait = s.wait) (note : t.note = s.note) :
    Delivered t := by
  intro k id mem
  rw [note] at mem
  obtain ⟨address, owed, awake⟩ := h k id mem
  exact ⟨by rw [wait, note, address], by rwa [wait], by rwa [wait, note]⟩

theorem Delivered.wake (h : Delivered s) {k : Nat} {left : List Nat}
    (at_ : (s.note k).left = id :: left) : Delivered (s.wake k id left) := by
  have wait : ∀ j, (s.wake k id left).wait j =
      if j = id then { s.wait id with token := true } else s.wait j :=
    fun j => update_apply ..
  have note : ∀ k', (s.wake k id left).note k' =
      if k' = k then { s.note k with left } else s.note k' := fun k' => update_apply ..
  intro k' j mem
  have marked : j ∈ (s.note k').marked := by
    simp only [note] at mem
    split at mem
    next same => rwa [same]
    · exact mem
  obtain ⟨address, owed, awake⟩ := h k' j marked
  refine ⟨?_, ?_, fun armed => ?_⟩
  all_goals simp only [wait, note] at *
  · split <;> split <;> simp_all
  · split
    next same => exact same ▸ owed
    · exact owed
  · by_cases same : j = id
    · exact .inl (by rw [if_pos same])
    · rw [if_neg same] at armed ⊢
      refine (awake armed).imp_right fun ⟨k'', waits⟩ => ⟨k'', ?_⟩
      split
      next here =>
        rw [here, at_] at waits
        exact (List.mem_cons.mp waits).resolve_left same
      · exact waits

/-- The two looks of a poll fall together with respect to the notifies: no poll finds its time up
after its entry was marked, and no notify comes to a waiter whose poll has timed out. -/
def InTime (s : State) : Event → Prop
  | .check id due => due = true → (s.wait id).notified = false
  | .notify a count => ∀ id ∈ (s.waiting a).take count, (s.wait id).stage ≠ .leaving true
  | _ => True

instance (s : State) : ∀ e, Decidable (InTime s e)
  | .check id due => inferInstanceAs (Decidable (due = true → (s.wait id).notified = false))
  | .notify a count =>
      inferInstanceAs
        (Decidable (∀ id ∈ (s.waiting a).take count, (s.wait id).stage ≠ .leaving true))
  | .call .. | .refuse .. | .register _ | .look _ | .unpark _ | .remove _ | .wake _ =>
      inferInstanceAs (Decidable True)

theorem Delivered.notify (h : Delivered s) (sound : Sound s) {a count : Nat}
    (ok : InTime s (.notify a count)) : Delivered (s.notify a count) := by
  intro k id mem
  by_cases new : k = s.notes
  · subst new
    have note : (s.notify a count).note s.notes = _ := update_self ..
    rw [note] at mem
    change id ∈ s.toMark a count at mem
    obtain ⟨in_, unmarked⟩ := Sound.mem_toMark mem
    obtain ⟨address, listed⟩ := sound.listed a id in_
    have wait : (s.notify a count).wait id =
        { s.wait id with notified := true, waker := false } := if_pos mem
    refine ⟨?_, ?_, fun armed => .inr ⟨s.notes, ?_⟩⟩
    · rw [wait, note]
      exact address
    · rw [wait]
      have inTime := ok id (Sound.toMark_eq s a count ▸ mem)
      refine ⟨rfl, ?_⟩
      cases at_ : (s.wait id).stage <;> simp_all [Stage.listed]
    · rw [wait] at armed
      rw [note]
      exact List.mem_filter.mpr ⟨mem, sound.armed id armed unmarked⟩
  · have note : (s.notify a count).note k = s.note k := update_of_ne new ..
    rw [note] at mem
    obtain ⟨address, owed, awake⟩ := h k id mem
    -- it was marked before, so this call passes it by
    have wait : (s.notify a count).wait id = s.wait id :=
      if_neg fun again => absurd (owed.1.symm.trans (Sound.mem_toMark again).2) (by decide)
    refine ⟨by rw [wait, note, address], by rwa [wait], fun armed => ?_⟩
    rw [wait] at armed ⊢
    refine (awake armed).imp_right fun ⟨k', left⟩ => ⟨k', ?_⟩
    have old : k' ≠ s.notes := by
      rintro rfl
      rw [sound.unused _ (Nat.le_refl _)] at left
      cases left
    rwa [show (s.notify a count).note k' = s.note k' from update_of_ne old ..]

theorem sound_step (h : Sound s) (d : Delivered s) {e : Event} (ok : InTime s e)
    (step : s.step e = some t) : Sound t ∧ Delivered t := by
  cases e with
  | call address timed =>
    cases step
    -- the id is new, so nothing is owed to it
    have called : Delivered (s.setWait s.nextWaiter { address, timed, stage := .called }) :=
      d.setWait fun owed => by simp [Wait.Owed, h.unborn s.nextWaiter] at owed
    exact ⟨h.call address timed, called.congr rfl rfl⟩
  | refuse id tooMany =>
    obtain ⟨at_, ⟨⟩⟩ := guarded step
    exact ⟨h.setWait (by simp [at_]) rfl (by simp [at_, Stage.listed]) nofun,
      d.setWait fun owed => by simp [Wait.Owed, at_] at owed⟩
  | register id =>
    obtain ⟨at_, ⟨⟩⟩ := guarded step
    have entered : Delivered (s.go id .looking) :=
      d.setWait fun owed => by simp [Wait.Owed, at_] at owed
    exact ⟨h.register at_, entered.congr rfl rfl⟩
  | look id =>
    obtain ⟨at_, ⟨⟩⟩ := guarded step
    have ready : Sound (s.go id (.leaving false)) ∧ Delivered (s.go id (.leaving false)) :=
      ⟨h.setWait (by simp [at_]) rfl (fun _ => rfl) nofun,
        d.setWait fun owed => ⟨rfl, ⟨owed.1, trivial⟩, nofun⟩⟩
    unfold State.look
    split
    · split
      · exact ready
      next unmarked =>
        exact ⟨h.setWait (by simp [at_]) rfl (fun _ => rfl) fun _ _ => rfl,
          d.setWait fun owed => absurd owed.1 unmarked⟩
    · exact ready
  | check id due =>
    obtain ⟨⟨at_, -⟩, ⟨⟩⟩ := guarded step
    cases due with
    | true =>
      exact ⟨h.setWait (by simp [at_]) rfl (fun _ => rfl) nofun,
        d.setWait fun owed => absurd (owed.1.symm.trans (ok rfl)) (by decide)⟩
    | false =>
      exact ⟨h.setWait (by simp [at_]) rfl (fun _ => rfl) fun _ => h.armed id (by rw [at_]; rfl),
        d.setWait fun owed => ⟨rfl, ⟨owed.1, trivial⟩, fun _ => ⟨by rw [at_]; rfl, rfl⟩⟩⟩
  | unpark id =>
    obtain ⟨at_, ⟨⟩⟩ := guarded step
    exact ⟨h.setWait (by simp [at_]) rfl (fun _ => rfl) nofun,
      d.setWait fun owed => ⟨rfl, ⟨owed.1, trivial⟩, nofun⟩⟩
  | remove id =>
    simp only [State.step] at step
    split at step <;> cases step
    next timedOut at_ =>
      have left : Delivered
          (s.go id (.returned (if timedOut then .timedOut else .woken))) := by
        refine d.setWait fun owed => ?_
        cases timedOut with
        | true => simp [Wait.Owed, at_] at owed
        | false => exact ⟨rfl, ⟨owed.1, rfl⟩, nofun⟩
      exact ⟨h.remove at_ _, left.congr rfl rfl⟩
  | notify a count =>
    cases step
    exact ⟨h.notify a count, d.notify h ok⟩
  | wake k =>
    simp only [State.step] at step
    split at step <;> cases step
    next id left at_ => exact ⟨h.wake at_, d.wake at_⟩

def Stage.distance : Stage → Nat
  | .timing => 4
  | .parked => 3
  | .looking => 2
  | .leaving _ => 1
  | _ => 0

theorem Wait.Owed.advance (owed : (s.wait id).Owed) :
    (s.wait id).stage = .returned .woken ∨ ∃ e t, InTime s e ∧ s.step e = some t ∧
      (t.wait id).stage.distance < (s.wait id).stage.distance := by
  obtain ⟨notified, stage⟩ := owed
  cases at_ : (s.wait id).stage with
  | unborn | called =>
    rw [at_] at stage
    cases stage
  | returned r =>
    rw [at_] at stage
    exact .inl (congrArg _ stage)
  | looking =>
    refine .inr ⟨.look id, s.go id (.leaving false), trivial, ?_, ?_⟩
    · simp [State.step, at_, State.look, notified]
    · simp [State.go, State.setWait, Stage.distance]
  | timing =>
    refine .inr ⟨.check id false, s.go id .parked, nofun, ?_, ?_⟩
    · simp [State.step, at_]
    · simp [State.go, State.setWait, Stage.distance]
  | parked =>
    refine .inr ⟨.unpark id, _, trivial, if_pos at_, ?_⟩
    simp [State.setWait, Stage.distance]
  | leaving timedOut =>
    refine .inr ⟨.remove id, _, trivial, by simp only [State.step, at_]; rfl, ?_⟩
    simp [State.remove, State.go, State.setWait, Stage.distance]

end ServiceCache.AtomicWait
