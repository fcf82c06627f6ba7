import Mathlib.Logic.Function.Basic
import ServiceCache.Transition

/-!
# Opens that race to create a file

`path_open_internal` looks a name up, creates the file on the host if there is none, and
records an inode for the name in its directory. Any number of calls open one name, which
nobody removes meanwhile. A step is what a call does under one lock or in one operation of
the host. A file that is there is opened outside of the lock, and the handle is dropped if it
is not needed, so that only its installation is a step.
-/

namespace ServiceCache.CreateRace

open Function
open Transition (System guarded)

inductive Errno
  | exist
  | noent
  deriving DecidableEq, Repr

inductive Stage
  | idle
  /-- `get_inode_at_path`: the entries, the host, and the entries again. -/
  | look
  | stat
  | cache
  | found (ino : Nat)
  /-- Whether `requires_stronger_handle` is set. -/
  | opening (ino : Nat) (stronger : Bool)
  | create
  | created
  | opened (ino : Nat)
  | failed (error : Errno)
  deriving DecidableEq, Repr

/-- A call, with the flags it was made with and whether this attempt may create. -/
structure Call where
  creates : Bool := false
  excl : Bool := false
  create : Bool := false
  stage : Stage := .idle
  deriving DecidableEq, Repr

/-- The entry of the name, the file on the host, and the inodes' handles, each by the call
that opened it. `creator` is history. -/
structure Dir where
  entry : Option Nat := none
  onHost : Bool := false
  next : Nat := 0
  handle : Nat → Option Nat := fun _ => none
  creator : Option Nat := none

def Dir.record (d : Dir) : Dir := { d with entry := d.entry.or (some d.next), next := d.next + 1 }

def Dir.inode (d : Dir) : Nat := d.entry.getD d.next

def Dir.install (d : Dir) (i ino : Nat) : Dir :=
  { d with handle := update d.handle ino (some i) }

def Dir.turn (d : Dir) (i : Nat) (c : Call) (stronger : Bool) : Option (Dir × Call) :=
  match c.stage with
  | .idle | .opened _ | .failed _ => none
  | .look =>
    match d.entry with
    | some ino => some (d, { c with stage := .found ino })
    | none => some (d, { c with stage := .stat })
  | .stat =>
    if d.onHost then some (d, { c with stage := .cache })
    else if c.create then some (d, { c with stage := .create })
    else some (d, { c with stage := .failed .noent })
  | .cache => some (d.record, { c with stage := .found d.inode })
  | .found ino =>
    if c.excl then some (d, { c with stage := .failed .exist })
    else some (d, { c with stage := .opening ino stronger })
  | .opening ino stronger =>
    if (d.handle ino).isNone || stronger then some (d.install i ino, { c with stage := .opened ino })
    else some (d, { c with stage := .opened ino })
  | .create =>
    if d.onHost then
      if c.excl then some (d, { c with stage := .failed .exist })
      else some (d, { c with create := false, stage := .look })
    else some ({ d with onHost := true, creator := some i }, { c with stage := .created })
  | .created => some (d.record.install i d.inode, { c with stage := .opened d.inode })

structure State where
  dir : Dir := {}
  call : Nat → Call := fun _ => {}

inductive Event
  | begin (i : Nat) (create excl : Bool)
  | turn (i : Nat) (stronger : Bool)
  deriving DecidableEq, Repr

def State.step (s : State) : Event → Option State
  | .begin i create excl =>
    if (s.call i).stage = .idle then
      some { s with call := update s.call i ⟨create, excl, create, .look⟩ }
    else none
  | .turn i stronger =>
    (s.dir.turn i (s.call i) stronger).map fun (dir, c) => ⟨dir, update s.call i c⟩

/-- An entry, or a creation, is of a file that is there. -/
def Dir.There (d : Dir) : Prop := d.entry.isSome ∨ d.creator.isSome → d.onHost

/-- The file may be there before the calls, with or without an entry. -/
def system : System State Event where
  Initial s := s.dir.There ∧ s.dir.creator = none ∧ ∀ i, s.call i = {}
  next := State.step

/-- The turns that are left to a call at most. -/
def Call.ahead (c : Call) : Nat :=
  match c.stage with
  | .idle | .opened _ | .failed _ => 0
  | .opening .. | .created => 1
  | .found _ => 2
  | .cache => 3
  | .create => 6
  | .stat => 4 + 3 * c.create.toNat
  | .look => 5 + 3 * c.create.toNat

def Dir.Fits (d : Dir) (i : Nat) (c : Call) : Prop :=
  match c.stage with
  | .idle | .create => d.creator ≠ some i
  | .look | .stat => d.creator ≠ some i ∧ (c.creates → c.create ∨ d.onHost)
  | .cache => d.creator ≠ some i ∧ d.onHost
  | .found ino => d.creator ≠ some i ∧ d.entry = some ino
  | .opening ino _ => d.entry = some ino ∧ c.excl = false
  | .created => d.creator = some i
  | .opened ino => d.entry = some ino ∧ (d.handle ino).isSome ∧ (c.excl → d.creator = some i)
  | .failed .exist => c.excl ∧ d.onHost ∧ d.creator ≠ some i
  | .failed .noent => c.creates = false

/-- What a step of call `i` leaves to the others. -/
structure Dir.Grows (d d' : Dir) (i : Nat) : Prop where
  host : d.onHost → d'.onHost
  entry {ino : Nat} : d.entry = some ino → d'.entry = some ino
  handle {ino : Nat} : (d.handle ino).isSome → (d'.handle ino).isSome
  creator {j : Nat} : j ≠ i → (d'.creator = some j ↔ d.creator = some j)

section Steps

variable {d d' : Dir} {c c' : Call} {i j : Nat}

theorem Dir.Grows.fits (g : d.Grows d' i) (other : j ≠ i) (h : d.Fits j c) : d'.Fits j c := by
  have creator := g.creator other
  obtain ⟨creates, excl, create, stage⟩ := c
  cases stage with
  | idle | create => exact creator.not.mpr h
  | created => exact creator.mpr h
  | look | stat => exact ⟨creator.not.mpr h.1, fun asked => (h.2 asked).imp_right g.host⟩
  | cache => exact ⟨creator.not.mpr h.1, g.host h.2⟩
  | found ino => exact ⟨creator.not.mpr h.1, g.entry h.2⟩
  | opening ino stronger => exact ⟨g.entry h.1, h.2⟩
  | opened ino => exact ⟨g.entry h.1, g.handle h.2.1, fun alone => creator.mpr (h.2.2 alone)⟩
  | failed error =>
    cases error with
    | exist => exact ⟨h.1, g.host h.2.1, creator.not.mpr h.2.2⟩
    | noent => exact h

theorem Dir.record_entry : d.record.entry = some d.inode := by
  simp only [Dir.record, Dir.inode]
  cases d.entry <;> rfl

theorem Dir.install_handle (ino : Nat) : ((d.install i ino).handle ino).isSome := by
  simp [Dir.install]

theorem Dir.Grows.refl : d.Grows d i := ⟨id, id, id, fun _ => .rfl⟩

theorem Dir.Grows.record : d.Grows d.record i where
  host := id
  entry at_ := by rw [Dir.record, at_]; rfl
  handle := id
  creator _ := .rfl

theorem Dir.Grows.install (g : d.Grows d' i) (ino : Nat) : d.Grows (d'.install i ino) i :=
  { g with
    handle := fun {other} isSome => by
      rcases eq_or_ne other ino with rfl | ne
      · exact Dir.install_handle _
      · exact (congrArg Option.isSome (update_of_ne ne ..)).trans (g.handle isSome) }

theorem Dir.Fits.turn (h : d.Fits i c) (there : d.There) {stronger : Bool}
    (step : d.turn i c stronger = some (d', c')) : d'.Fits i c' ∧ d'.There ∧ d.Grows d' i := by
  obtain ⟨creates, excl, create, stage⟩ := c
  cases stage with
  | idle | opened | failed => cases step
  | look =>
    simp only [Dir.turn] at step
    split at step <;> cases step
    next at_ => exact ⟨⟨h.1, at_⟩, there, .refl⟩
    next => exact ⟨h, there, .refl⟩
  | stat =>
    simp only [Dir.turn] at step
    split at step
    next present => cases step; exact ⟨⟨h.1, present⟩, there, .refl⟩
    next absent =>
      split at step <;> cases step
      next => exact ⟨h.1, there, .refl⟩
      next never =>
        refine ⟨Bool.eq_false_iff.mpr fun asked => ?_, there, .refl⟩
        exact (h.2 asked).elim never absent
  | cache =>
    cases step
    exact ⟨⟨h.1, d.record_entry⟩, fun _ => h.2, .record⟩
  | found ino =>
    simp only [Dir.turn] at step
    split at step <;> cases step
    next alone => exact ⟨⟨alone, there (.inl (by rw [h.2]; rfl)), h.1⟩, there, .refl⟩
    next shared => exact ⟨⟨h.2, Bool.eq_false_iff.mpr shared⟩, there, .refl⟩
  | opening ino stronger =>
    have unasked : excl ≠ true := Bool.eq_false_iff.mp h.2
    simp only [Dir.turn] at step
    split at step <;> cases step
    next =>
      exact ⟨⟨h.1, Dir.install_handle _, fun alone => absurd alone unasked⟩, there,
        Dir.Grows.refl.install _⟩
    next kept =>
      simp only [Bool.or_eq_true, not_or, Option.isNone_iff_eq_none] at kept
      exact ⟨⟨h.1, Option.isSome_iff_ne_none.mpr kept.1, fun alone => absurd alone unasked⟩, there,
        .refl⟩
  | create =>
    simp only [Dir.turn] at step
    split at step
    next present =>
      split at step <;> cases step
      next alone => exact ⟨⟨alone, present, h⟩, there, .refl⟩
      next => exact ⟨⟨h, fun _ => .inr present⟩, there, .refl⟩
    next absent =>
      cases step
      -- nobody has created the file before, or it would be there
      have none : d.creator = none :=
        Option.not_isSome_iff_eq_none.mp fun some => absent (there (.inr some))
      refine ⟨rfl, fun _ => rfl, fun _ => rfl, id, id, fun {j} other => ?_⟩
      simp [none, other.symm]
  | created =>
    cases step
    exact ⟨⟨d.record_entry, Dir.install_handle _, fun _ => h⟩,
      fun _ => there (.inr (by rw [show d.creator = some i from h]; rfl)), Dir.Grows.record.install _⟩

theorem Dir.exists_turn (d : Dir) (i : Nat) {c : Call} (left : c.ahead ≠ 0) (stronger : Bool) :
    ∃ d' c', d.turn i c stronger = some (d', c') ∧ c'.ahead < c.ahead := by
  obtain ⟨creates, excl, create, stage⟩ := c
  cases stage with
  | idle | opened | failed => exact absurd rfl left
  | cache => exact ⟨_, _, rfl, Nat.lt_succ_self 2⟩
  | created => exact ⟨_, _, rfl, Nat.one_pos⟩
  | look | stat | found ino | opening ino stronger | create =>
    simp only [Dir.turn]
    repeat' split
    all_goals
      refine ⟨_, _, rfl, ?_⟩
      simp_all [Call.ahead] <;> omega

structure Sound (s : State) : Prop where
  there : s.dir.There
  fits (i : Nat) : s.dir.Fits i (s.call i)

theorem Sound.setCall {s : State} (h : Sound s) (g : s.dir.Grows d' i) (there : d'.There)
    (fits : d'.Fits i c) : Sound ⟨d', update s.call i c⟩ where
  there := there
  fits j := by
    rcases eq_or_ne j i with rfl | other
    · simpa only [update_self] using fits
    · simpa only [update_of_ne other] using g.fits other (h.fits j)

theorem Sound.step {s t : State} (h : Sound s) {e : Event} (step : s.step e = some t) :
    Sound t := by
  cases e with
  | «begin» i create excl =>
    obtain ⟨idle, ⟨⟩⟩ := guarded step
    have fits := h.fits i
    rw [Dir.Fits, idle] at fits
    exact h.setCall .refl h.there ⟨fits, .inl⟩
  | turn i stronger =>
    obtain ⟨⟨d, c⟩, turned, ⟨⟩⟩ := Option.map_eq_some_iff.mp step
    obtain ⟨fits, there, grows⟩ := (h.fits i).turn h.there turned
    exact h.setCall grows there fits

end Steps

end ServiceCache.CreateRace
