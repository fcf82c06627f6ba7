import Mathlib.Data.List.Induction
import Mathlib.Logic.Function.Basic
import ServiceCache.Transition

/-!
# The sweep of the inode table

`WasiInodes` keeps a weak reference to each inode under its number. `add_inode_val` drops the
dead ones, in a pass over the whole table, once the table has doubled since the last pass. A
value is a number that is never used again, and is alive while somebody holds it.
-/

namespace ServiceCache.Inodes

open Function
open Transition (System guarded)

/-- `WasiInodesProtected`, with the values that are alive. -/
structure State where
  lookup : Std.TreeMap Nat Nat := ∅
  sweptLen : Nat := 0
  next : Nat := 0
  alive : Nat → Bool := fun _ => false
  /-- History: the value last added for a number, the calls, and the entries that passes saw. -/
  last : Nat → Option Nat := fun _ => none
  added : Nat := 0
  visited : Nat := 0

def State.insert (s : State) (ino : Nat) : State :=
  { s with
    lookup := s.lookup.insert ino s.next
    next := s.next + 1
    alive := update s.alive s.next true
    last := update s.last ino (some s.next)
    added := s.added + 1 }

def State.sweep (s : State) : State :=
  let kept := s.lookup.filter fun _ val => s.alive val
  { s with lookup := kept, sweptLen := kept.size, visited := s.visited + s.lookup.size }

def State.addInodeVal (s : State) (ino : Nat) : State :=
  if 2 * max s.sweptLen 64 ≤ (s.insert ino).lookup.size then (s.insert ino).sweep
  else s.insert ino

inductive Event
  | add (ino : Nat)
  /-- The last strong reference to a value goes. -/
  | release (val : Nat)
  deriving DecidableEq, Repr

def State.step (s : State) : Event → Option State
  | .add ino => some (s.addInodeVal ino)
  | .release val => if s.alive val then some { s with alive := update s.alive val false } else none

def system : System State Event where
  Initial s := s = {}
  next := State.step

/-- A number finds the value last added for it, if it finds one, and finds it while it is
alive. -/
structure State.Faithful (s : State) : Prop where
  found {ino val : Nat} : s.lookup[ino]? = some val → s.last ino = some val
  kept {ino val : Nat} : s.last ino = some val → s.alive val → s.lookup[ino]? = some val

/-- Every entry behind the last pass was paid for by a call of its own, with two visits. -/
structure State.Paid (s : State) : Prop where
  grown : s.sweptLen ≤ s.lookup.size
  paid : s.visited + 2 * (s.lookup.size - s.sweptLen) ≤ 2 * s.added

structure Sound (s : State) : Prop extends s.Faithful, s.Paid where
  used {ino val : Nat} : s.last ino = some val → val < s.next
  below : s.lookup.size < 2 * max s.sweptLen 64

section Steps

variable {s : State}

theorem State.insert_lookup (ino i : Nat) :
    (s.insert ino).lookup[i]? = if ino = i then some s.next else s.lookup[i]? := by
  simp only [State.insert, Std.TreeMap.getElem?_insert, Std.LawfulEqCmp.compare_eq_iff_eq]

theorem Sound.faithful_insert (h : Sound s) (ino : Nat) : (s.insert ino).Faithful where
  found {i val} at_ := by
    rw [State.insert_lookup] at at_
    change update s.last ino (some s.next) i = _
    split at at_
    next same => rw [← same, update_self, at_]
    next other => rw [update_of_ne (Ne.symm other), h.found at_]
  kept {i val} last alive := by
    rw [State.insert_lookup]
    change update s.last ino (some s.next) i = _ at last
    split
    next same => rwa [← same, update_self] at last
    next other =>
      rw [update_of_ne (Ne.symm other)] at last
      exact h.kept last ((update_of_ne (Nat.ne_of_lt (h.used last)) ..).symm.trans alive)

theorem Sound.paid_insert (h : Sound s) (ino : Nat) : (s.insert ino).Paid := by
  have size : (s.insert ino).lookup.size = _ := Std.TreeMap.size_insert
  have grown := h.grown
  have paid := h.paid
  constructor
  · change s.sweptLen ≤ (s.insert ino).lookup.size
    split at size <;> omega
  · change s.visited + 2 * ((s.insert ino).lookup.size - s.sweptLen) ≤ 2 * (s.added + 1)
    split at size <;> omega

theorem State.Faithful.sweep (h : s.Faithful) : s.sweep.Faithful where
  found at_ := by
    rw [State.sweep, Std.TreeMap.getElem?_filter', Option.filter_eq_some_iff] at at_
    exact h.found at_.1
  kept last alive := by
    rw [State.sweep, Std.TreeMap.getElem?_filter', Option.filter_eq_some_iff]
    exact ⟨h.kept last alive, alive⟩

/-- The table has doubled, so that what was paid covers the pass. -/
theorem State.Paid.sweep (h : s.Paid) (doubled : 2 * max s.sweptLen 64 ≤ s.lookup.size) :
    s.sweep.Paid where
  grown := Nat.le_refl _
  paid := by
    have paid := h.paid
    change s.visited + s.lookup.size + 2 * (s.sweep.lookup.size - s.sweep.lookup.size) ≤ 2 * s.added
    omega

theorem Sound.addInodeVal (h : Sound s) (ino : Nat) : Sound (s.addInodeVal ino) := by
  have used {i val : Nat} (last : update s.last ino (some s.next) i = some val) :
      val < s.next + 1 := by
    rcases eq_or_ne i ino with rfl | other
    · rw [update_self] at last
      exact Nat.lt_succ_of_le (Nat.le_of_eq (Option.some.inj last).symm)
    · rw [update_of_ne other] at last
      exact Nat.lt_succ_of_lt (h.used last)
  rw [State.addInodeVal]
  split
  next doubled =>
    refine { (h.faithful_insert ino).sweep, (h.paid_insert ino).sweep doubled with used, below := ?_ }
    change (s.insert ino).sweep.lookup.size < 2 * max (s.insert ino).sweep.lookup.size 64
    omega
  next less =>
    exact { h.faithful_insert ino, h.paid_insert ino with used, below := Nat.lt_of_not_le less }

theorem Sound.step (h : Sound s) {e : Event} {t : State} (step : s.step e = some t) :
    Sound t := by
  cases e with
  | add ino =>
    cases step
    exact h.addInodeVal ino
  | release val =>
    obtain ⟨-, ⟨⟩⟩ := guarded step
    refine { h with kept := fun {_ v} last alive => h.kept last ?_ }
    change update s.alive val false v = true at alive
    rcases eq_or_ne v val with rfl | other
    · rw [update_self] at alive
      cases alive
    · rwa [update_of_ne other] at alive

end Steps

/-- However inodes come and go, a number whose last value is alive finds it; the table stays
within twice of what the last pass left, or of 64; and all passes together see at most two
entries for each call of `add_inode_val`. -/
theorem sweeps_faithful_and_paid {s : State} (h : system.Reachable s) :
    s.Faithful ∧ s.lookup.size < 2 * max s.sweptLen 64 ∧ s.visited ≤ 2 * s.added := by
  have sound : Sound s := by
    apply h.invariant
    · rintro _ rfl
      exact {
        found := fun at_ => by cases at_
        kept := fun last => by cases last
        grown := Nat.le_refl _
        paid := Nat.le_refl _
        used := fun last => by cases last
        below := by decide }
    · intro s e t _ sound _ step
      exact sound.step step
  exact ⟨sound.toFaithful, sound.below, Nat.le_trans (Nat.le_add_right ..) sound.paid⟩

/-- The 128th inode brings a pass, which leaves the one that is alive. -/
theorem sweeps_faithful_and_paid_doubled :
    ∃ s, system.Reachable s ∧ s.lookup.size = 1 ∧ s.visited = 128 ∧ s.visited ≤ 2 * s.added := by
  have reached : ∃ s, system.Reachable s ∧ (s.lookup.size = 1 ∧ s.visited = 128) :=
    System.exists_reachable_of_run (s := {})
      (l := ((List.range 127).flatMap fun i => [.add i, .release i]) ++ [.add 127])
      (.init rfl) (by decide +kernel)
  obtain ⟨s, run, one, all⟩ := reached
  exact ⟨s, run, one, all, (sweeps_faithful_and_paid run).2.2⟩

end ServiceCache.Inodes
