import Mathlib.Algebra.Group.Nat.Defs
import Mathlib.Logic.Function.Basic
import ServiceCache.Transition

/-!
# Mappings and the size of their object

Between its check and its change, which are under different locks, `register_mapping` or `set_len`
may be overtaken by the other. The list that `fork_clone` copies a mapping from is locked
meanwhile, so the mapping stays. A truncating `open` is a `set_len` to zero, and a write may make
the object larger. A slot is a call behind its check, or the mapping that a registration became.
-/

namespace ServiceCache.SharedMemory.Bounds

open Function
open Transition (System guarded)

structure Range where
  object : Nat
  offset : Nat
  len : Nat
  deriving DecidableEq, Repr

def Range.stop (r : Range) : Nat := r.offset + r.len

def Range.Valid (r : Range) : Prop := r.len ≠ 0 ∧ r.stop < 2 ^ 64

instance (r : Range) : Decidable r.Valid :=
  inferInstanceAs (Decidable (r.len ≠ 0 ∧ r.stop < 2 ^ 64))

inductive Slot
  | empty
  /-- A registration that has found the object large enough; `fork_clone` has a mapping that
  it copies. -/
  | registering (r : Range) (source : Option Nat)
  | mapped (r : Range)
  /-- A `set_len` that has found no mapping in the way. -/
  | resizing (object size : Nat)
  deriving DecidableEq, Repr

def Slot.range : Slot → Option Range
  | .registering r _ | .mapped r => some r
  | .empty | .resizing .. => none

def Slot.hinders (object size : Nat) : Slot → Bool
  | .mapped r => r.object = object ∧ size < r.stop
  | .empty | .registering .. | .resizing .. => false

def Slot.copies (i : Nat) : Slot → Bool
  | .registering _ source => source = some i
  | .empty | .mapped _ | .resizing .. => false

structure State where
  objects : Nat := 0
  size : Nat → Nat := fun _ => 0
  slots : Nat := 0
  slot : Nat → Slot := fun _ => .empty
  panicked : Bool := false

inductive Event
  | create
  | checkSize (r : Range)
  | checkClone (i : Nat)
  | insert (i : Nat)
  /-- A mapping is dropped: by `fd_unmap`, by an `fd_map` that fails behind the registration,
  or with its process. -/
  | remove (i : Nat)
  | checkLen (object size : Nat)
  | truncate (i : Nat)
  | giveUp (i : Nat)
  | write (object size : Nat)
  deriving DecidableEq, Repr

def State.set (s : State) (i : Nat) (slot : Slot) : State :=
  { s with slot := update s.slot i slot }

def State.push (s : State) (slot : Slot) : State :=
  { s with slots := s.slots + 1, slot := update s.slot s.slots slot }

def State.resize (s : State) (object size : Nat) : State :=
  { s with size := update s.size object size }

def State.step (s : State) : Event → Option State
  | .create => some { s with objects := s.objects + 1 }
  | .checkSize r =>
    if r.object < s.objects then
      if r.Valid ∧ r.stop ≤ s.size r.object then some (s.push (.registering r none))
      else some s
    else none
  | .checkClone i =>
    match s.slot i with
    | .mapped r =>
      if r.Valid ∧ r.stop ≤ s.size r.object then some (s.push (.registering r (some i)))
      else some { s with panicked := true }
    | _ => none
  | .insert i =>
    match s.slot i with
    | .registering r _ => some (s.set i (.mapped r))
    | _ => none
  | .remove i =>
    match s.slot i with
    | .mapped _ =>
      if ∀ j < s.slots, (s.slot j).copies i = false then some (s.set i .empty) else none
    | _ => none
  | .checkLen object size =>
    if object < s.objects then
      if ∀ i < s.slots, (s.slot i).hinders object size = false then
        some (s.push (.resizing object size))
      else some s
    else none
  | .truncate i =>
    match s.slot i with
    | .resizing object size => some ((s.set i .empty).resize object size)
    | _ => none
  | .giveUp i =>
    match s.slot i with
    | .resizing _ _ => some (s.set i .empty)
    | _ => none
  | .write object size =>
    if object < s.objects then some (s.resize object (max (s.size object) size)) else none

def boundsSystem : System State Event where
  Initial s := s = {}
  next := State.step

def Slot.cuts (r : Range) : Slot → Bool
  | .resizing object size => object = r.object ∧ size < r.stop
  | .empty | .registering .. | .mapped _ => false

def Slot.exceeds (object size : Nat) : Slot → Bool
  | .registering r none => r.object = object ∧ size < r.stop
  | .empty | .registering _ (some _) | .mapped _ | .resizing .. => false

/-- The condition on a step: `fd_map` does not check the size while a `set_len` to less than
its range is behind its own check, and `set_len` does not check the mappings while an `fd_map`
of a range past the new size is behind its check. -/
def Apart (s : State) : Event → Prop
  | .checkSize r => ∀ i < s.slots, (s.slot i).cuts r = false
  | .checkLen object size => ∀ i < s.slots, (s.slot i).exceeds object size = false
  | _ => True

instance (s : State) : DecidablePred (Apart s)
  | .checkSize r => inferInstanceAs (Decidable (∀ i < s.slots, (s.slot i).cuts r = false))
  | .checkLen object size =>
    inferInstanceAs (Decidable (∀ i < s.slots, (s.slot i).exceeds object size = false))
  | .create | .checkClone _ | .insert _ | .remove _ | .truncate _ | .giveUp _ | .write .. =>
    .isTrue trivial

structure Inside (s : State) : Prop where
  fresh : ∀ i, s.slots ≤ i → s.slot i = .empty
  within : ∀ i r, (s.slot i).range = some r → r.Valid ∧ r.stop ≤ s.size r.object
  resizes : ∀ i object size, s.slot i = .resizing object size → ∀ j r, (s.slot j).range = some r →
    r.object = object → r.stop ≤ size
  sources : ∀ i r j, s.slot i = .registering r (some j) → s.slot j = .mapped r
  calm : s.panicked = false

section Steps

variable {s t : State} {i : Nat} {slot : Slot}

theorem inside_initial : Inside {} where
  fresh _ _ := rfl
  within _ _ is := by cases is
  resizes _ _ _ is := by cases is
  sources _ _ _ is := by cases is
  calm := rfl

theorem Inside.known (h : Inside s) (used : s.slot i ≠ .empty) : i < s.slots := by
  by_contra beyond
  exact used (h.fresh i (Nat.le_of_not_lt beyond))

theorem Inside.put (h : Inside s) {slots : Nat} (more : s.slots ≤ slots) (known : i < slots)
    (within : ∀ r, slot.range = some r → r.Valid ∧ r.stop ≤ s.size r.object)
    (uncut : ∀ r, slot.range = some r → ∀ j object size, s.slot j = .resizing object size →
      r.object = object → r.stop ≤ size)
    (unhindered : ∀ object size, slot = .resizing object size → ∀ j r, j ≠ i →
      (s.slot j).range = some r → r.object = object → r.stop ≤ size)
    (source : ∀ r j, slot = .registering r (some j) → j ≠ i ∧ s.slot j = .mapped r)
    (copies : ∀ j r, j ≠ i → s.slot j = .registering r (some i) → slot = .mapped r) :
    Inside { s with slots, slot := update s.slot i slot } := by
  constructor
  · intro j beyond
    show update s.slot i slot j = .empty
    rw [update_of_ne (Nat.ne_of_gt (Nat.lt_of_lt_of_le known beyond))]
    exact h.fresh j (Nat.le_trans more beyond)
  · intro j r is
    change (update s.slot i slot j).range = some r at is
    rw [update_apply] at is
    split at is
    · exact within r is
    · exact h.within j r is
  · intro j object size resizing k r is same
    change update s.slot i slot j = _ at resizing
    change (update s.slot i slot k).range = some r at is
    rw [update_apply] at resizing is
    split at resizing <;> split at is
    · rw [resizing] at is
      cases is
    next other => exact unhindered object size resizing k r other is same
    · exact uncut r is j object size resizing same
    · exact h.resizes j object size resizing k r is same
  · intro j r k is
    change update s.slot i slot j = _ at is
    show update s.slot i slot k = _
    rw [update_apply] at is ⊢
    split at is
    · obtain ⟨other, mapped⟩ := source r k is
      rw [if_neg other]
      exact mapped
    next other =>
      split
      next same =>
        rw [same] at is
        exact copies j r other is
      · exact h.sources j r k is
  · exact h.calm

theorem Inside.register (h : Inside s) {r : Range} {source : Option Nat} (valid : r.Valid)
    (fits : r.stop ≤ s.size r.object)
    (uncut : ∀ j object size, s.slot j = .resizing object size → r.object = object → r.stop ≤ size)
    (copied : ∀ j, source = some j → s.slot j = .mapped r) :
    Inside (s.push (.registering r source)) := by
  apply h.put (Nat.le_succ _) (Nat.lt_succ_self _)
  · rintro r' ⟨⟩
    exact ⟨valid, fits⟩
  · rintro r' ⟨⟩
    exact uncut
  · simp
  · rintro r' j ⟨⟩
    have mapped := copied j rfl
    have before := h.known (i := j) (by simp [mapped])
    exact ⟨Nat.ne_of_lt before, mapped⟩
  · intro j r' _ is
    have absent := h.sources j r' s.slots is
    rw [h.fresh s.slots (Nat.le_refl _)] at absent
    cases absent

theorem Inside.resizing (h : Inside s) {object size : Nat}
    (unhindered : ∀ j r, (s.slot j).range = some r → r.object = object → r.stop ≤ size) :
    Inside (s.push (.resizing object size)) := by
  apply h.put (Nat.le_succ _) (Nat.lt_succ_self _)
  · simp [Slot.range]
  · simp [Slot.range]
  · rintro _ _ ⟨⟩ j r _
    exact unhindered j r
  · simp
  · intro j r' _ is
    have absent := h.sources j r' s.slots is
    rw [h.fresh s.slots (Nat.le_refl _)] at absent
    cases absent

theorem Inside.insert (h : Inside s) {r : Range} {source : Option Nat}
    (registering : s.slot i = .registering r source) : Inside (s.set i (.mapped r)) := by
  have range : (s.slot i).range = some r := by rw [registering]; rfl
  apply h.put (Nat.le_refl _) (h.known (by simp [registering]))
  · rintro r' ⟨⟩
    exact h.within i r range
  · rintro r' ⟨⟩ j object size is same
    exact h.resizes j object size is i r range same
  · simp
  · simp
  · intro j r' _ is
    have mapped := h.sources j r' i is
    rw [registering] at mapped
    cases mapped

theorem Inside.clear (h : Inside s) (used : s.slot i ≠ .empty)
    (uncopied : ∀ j < s.slots, (s.slot j).copies i = false) : Inside (s.set i .empty) := by
  apply h.put (Nat.le_refl _) (h.known used)
  · simp [Slot.range]
  · simp [Slot.range]
  · simp
  · simp
  · intro j r _ is
    have before := h.known (i := j) (by simp [is])
    have other := uncopied j before
    simp [is, Slot.copies] at other

theorem Inside.resize (h : Inside s) {object size : Nat}
    (enough : ∀ j r, (s.slot j).range = some r → r.object = object → r.stop ≤ size) :
    Inside (s.resize object size) := by
  constructor
  · exact h.fresh
  · intro j r is
    obtain ⟨valid, fits⟩ := h.within j r is
    refine ⟨valid, ?_⟩
    show r.stop ≤ update s.size object size r.object
    rw [update_apply]
    split
    next same => exact enough j r is same
    · exact fits
  · exact h.resizes
  · exact h.sources
  · exact h.calm

theorem Inside.checkSize (h : Inside s) {r : Range} (valid : r.Valid)
    (fits : r.stop ≤ s.size r.object) (apart : ∀ i < s.slots, (s.slot i).cuts r = false) :
    Inside (s.push (.registering r none)) := by
  apply h.register valid fits
  · intro j object size is same
    have uncut := apart j (h.known (by simp [is]))
    simpa [is, Slot.cuts, same] using uncut
  · simp

theorem Inside.checkClone (h : Inside s) {r : Range} (mapped : s.slot i = .mapped r) :
    (r.Valid ∧ r.stop ≤ s.size r.object) ∧ Inside (s.push (.registering r (some i))) := by
  have range : (s.slot i).range = some r := by rw [mapped]; rfl
  have within := h.within i r range
  refine ⟨within, h.register within.1 within.2 ?_ ?_⟩
  · intro j object size is same
    exact h.resizes j object size is i r range same
  · rintro j ⟨⟩
    exact mapped

/-- No range of the object is past the new size: mappings hinder, registrations of `fd_map`
are kept apart, and what `fork_clone` registers is mapped already. -/
theorem Inside.checkLen (h : Inside s) {object size : Nat}
    (unhindered : ∀ i < s.slots, (s.slot i).hinders object size = false)
    (apart : ∀ i < s.slots, (s.slot i).exceeds object size = false) :
    Inside (s.push (.resizing object size)) := by
  have mapped : ∀ j r, s.slot j = .mapped r → r.object = object → r.stop ≤ size := by
    intro j r is same
    have clear := unhindered j (h.known (by simp [is]))
    simpa [is, Slot.hinders, same] using clear
  apply h.resizing
  intro j r is same
  cases slot : s.slot j with
  | mapped r' =>
    rw [slot] at is
    cases is
    exact mapped j r slot same
  | registering r' source =>
    rw [slot] at is
    cases is
    cases source with
    | none =>
      have clear := apart j (h.known (by simp [slot]))
      simpa [slot, Slot.exceeds, same] using clear
    | some k => exact mapped k r (h.sources j r k slot) same
  | empty | resizing =>
    rw [slot] at is
    cases is

theorem Inside.giveUp (h : Inside s) {object size : Nat}
    (resizing : s.slot i = .resizing object size) : Inside (s.set i .empty) := by
  apply h.clear (by simp [resizing])
  intro j _
  cases slot : s.slot j with
  | registering r source =>
    cases source with
    | none => rfl
    | some k =>
      have mapped := h.sources j r k slot
      have other : k ≠ i := by
        rintro rfl
        rw [resizing] at mapped
        cases mapped
      simp [Slot.copies, other]
  | empty | mapped | resizing => rfl

theorem Inside.truncate (h : Inside s) {object size : Nat}
    (resizing : s.slot i = .resizing object size) :
    Inside ((s.set i .empty).resize object size) := by
  apply (h.giveUp resizing).resize
  intro j r is same
  change (update s.slot i .empty j).range = some r at is
  rw [update_apply] at is
  split at is
  · cases is
  · exact h.resizes i object size resizing j r is same

theorem Inside.step (h : Inside s) {e : Event} (apart : Apart s e) (step : s.step e = some t) :
    Inside t := by
  cases e with
  | create =>
    cases step
    exact ⟨h.fresh, h.within, h.resizes, h.sources, h.calm⟩
  | checkSize r =>
    obtain ⟨_, step⟩ := guarded step
    split at step
    next fits =>
      cases step
      exact h.checkSize fits.1 fits.2 apart
    · cases step
      exact h
  | checkClone i =>
    simp only [State.step] at step
    split at step
    next r mapped =>
      obtain ⟨fits, kept⟩ := h.checkClone mapped
      rw [if_pos fits] at step
      cases step
      exact kept
    · cases step
  | insert i =>
    simp only [State.step] at step
    split at step
    next registering =>
      cases step
      exact h.insert registering
    · cases step
  | remove i =>
    simp only [State.step] at step
    split at step
    next mapped =>
      obtain ⟨uncopied, ⟨⟩⟩ := guarded step
      exact h.clear (by simp [mapped]) uncopied
    · cases step
  | checkLen object size =>
    obtain ⟨_, step⟩ := guarded step
    split at step
    next unhindered =>
      cases step
      exact h.checkLen unhindered apart
    · cases step
      exact h
  | truncate i =>
    simp only [State.step] at step
    split at step
    next object size resizing =>
      cases step
      exact h.truncate resizing
    · cases step
  | giveUp i =>
    simp only [State.step] at step
    split at step
    next resizing =>
      cases step
      exact h.giveUp resizing
    · cases step
  | write object size =>
    obtain ⟨_, ⟨⟩⟩ := guarded step
    apply h.resize
    intro j r is same
    have fits := (h.within j r is).2
    rw [same] at fits
    omega

end Steps

/-- In every run in which no `fd_map` and no `set_len` of one object are between their check and
their change together, mappings lie within their objects and `fork_clone` does not panic. -/
theorem mappings_inside {s : State} (h : boundsSystem.ReachableBy Apart s) :
    (∀ i r, s.slot i = .mapped r → r.stop ≤ s.size r.object) ∧ s.panicked = false := by
  have inside : Inside s := by
    apply h.invariant
    · rintro _ rfl
      exact inside_initial
    · intro s e t _ inv apart step
      exact inv.step apart step
  refine ⟨?_, inside.calm⟩
  intro i r mapped
  exact (inside.within i r (by rw [mapped]; rfl)).2

/-- An object is made large, mapped and forked, and then made as small as the mappings allow. -/
theorem mappings_inside_forked : ∃ s, boundsSystem.ReachableBy Apart s ∧ s.size 0 = 65536 ∧
    s.slot 1 = .mapped ⟨0, 0, 65536⟩ ∧ s.slot 2 = .mapped ⟨0, 0, 65536⟩ ∧
    (∀ i r, s.slot i = .mapped r → r.stop ≤ s.size r.object) ∧ s.panicked = false := by
  have reached : ∃ s, boundsSystem.ReachableBy Apart s ∧ (s.size 0 = 65536 ∧
      s.slot 1 = .mapped ⟨0, 0, 65536⟩ ∧ s.slot 2 = .mapped ⟨0, 0, 65536⟩) :=
    System.exists_reachableBy_of_runBy (s := {})
      (l := [.create, .checkLen 0 131072, .truncate 0, .checkSize ⟨0, 0, 65536⟩, .insert 1,
        .checkClone 1, .checkLen 0 65536, .insert 2, .truncate 3, .checkLen 0 0])
      (.init rfl) (by decide +kernel)
  obtain ⟨s, run, size, first, second⟩ := reached
  exact ⟨s, run, size, first, second, mappings_inside run⟩

/-- `set_len` finds no mapping, the mapping is added, and the file is truncated under it; the
next fork of the process panics. -/
theorem truncated_under_mapping : ∃ s, boundsSystem.Reachable s ∧ (s.size 0 = 0 ∧
    s.slot 1 = .mapped ⟨0, 0, 65536⟩ ∧ s.panicked = true) :=
  System.exists_reachable_of_run (s := {})
    (l := [.create, .checkLen 0 65536, .truncate 0, .checkSize ⟨0, 0, 65536⟩, .checkLen 0 0,
      .insert 1, .truncate 2, .checkClone 1]) (.init rfl) (by decide +kernel)

end ServiceCache.SharedMemory.Bounds
