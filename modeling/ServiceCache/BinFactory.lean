import Mathlib.Logic.Function.Basic
import Mathlib.Order.Lattice
import ServiceCache.Transition

/-!
# Registered packages and kept modules

`BinFactory::spawn` runs the module that is kept for a name, if its file is unchanged;
otherwise it asks `get_executable`, loads the module of a plain WebAssembly file and keeps it.
`BinFactory::set_binary` registers a package and drops the module kept for the name.

The body of `get_executable` is not part of the patches. It is taken to answer with the
package that `local` holds for the name, and with anything, which it may keep in `local`,
when it holds none; it does not look while another thread has the write lock.
-/

namespace ServiceCache.BinFactory

open Function
open Transition (System guarded)

abbrev FileIdentity := Nat × Nat

/-- A package in `local`, with the number of its registration: zero if `get_executable` put
it there. -/
structure Entry where
  package : Nat
  number : Nat
  deriving DecidableEq, Repr

inductive Ran
  | wasm (module_ : Nat)
  | package (e : Entry)
  | failed
  deriving DecidableEq, Repr

inductive Found
  | wasm (bytes : Nat)
  | package (package : Nat)
  | missing
  deriving DecidableEq, Repr

inductive Stage
  | idle
  | called
  | identified
  | looked
  | read (bytes : Nat)
  | loaded (module_ : Nat)
  | ran (r : Ran)
  deriving DecidableEq, Repr

/-- `since` is history: the number of the last registration of the name that had returned when
the call began. -/
structure Spawn where
  stage : Stage := .idle
  name : Nat := 0
  identity : Option FileIdentity := none
  since : Nat := 0
  deriving DecidableEq, Repr

inductive CallStage
  | idle
  | locked
  | inserted
  | removed
  deriving DecidableEq, Repr

structure Call where
  stage : CallStage := .idle
  name : Nat := 0
  package : Nat := 0
  deriving DecidableEq, Repr

/-- `numbers` counts the registrations and `returned` holds, for each name, the last one whose
call has returned. Both are history. -/
structure State where
  entries : Nat → Option (Option Entry) := fun _ => none
  wasmModules : Nat → Option (FileIdentity × Nat) := fun _ => none
  holder : Option Nat := none
  call : Nat → Call := fun _ => {}
  spawn : Nat → Spawn := fun _ => {}
  numbers : Nat := 0
  returned : Nat → Nat := fun _ => 0

def State.get (s : State) (name : Nat) (identity : FileIdentity) : Option Nat :=
  match s.wasmModules name with
  | some (cached, m) => if cached = identity then some m else none
  | none => none

def State.setSpawn (s : State) (i : Nat) (p : Spawn) : State :=
  { s with spawn := update s.spawn i p }

def State.setCall (s : State) (j : Nat) (c : Call) : State :=
  { s with call := update s.call j c }

def State.setEntry (s : State) (name : Nat) (e : Option Entry) : State :=
  { s with entries := update s.entries name (some e) }

def State.setModule (s : State) (name : Nat) (m : Option (FileIdentity × Nat)) : State :=
  { s with wasmModules := update s.wasmModules name m }

/-- `get_executable` has looked outside `local`, and keeps what it found unless that is a plain
file. -/
def State.keep (s : State) (name : Nat) : Found → State
  | .wasm _ => s
  | .package p => s.setEntry name (some ⟨p, 0⟩)
  | .missing => s.setEntry name none

def Found.stage : Found → Stage
  | .wasm bytes => .read bytes
  | .package p => .ran (.package ⟨p, 0⟩)
  | .missing => .ran .failed

inductive Event
  | spawn (i name : Nat)
  | identify (i : Nat) (identity : Option FileIdentity)
  | look (i : Nat)
  | getExecutable (i : Nat) (found : Found) (keeps : Bool)
  | load (i : Nat) (module_ : Option Nat)
  | record (i : Nat)
  | setBinary (j name package : Nat)
  | insert (j : Nat)
  | remove (j : Nat)
  | return_ (j : Nat)
  deriving DecidableEq, Repr

def State.look (s : State) (i : Nat) : State :=
  let p := s.spawn i
  match p.identity.bind (s.get p.name) with
  | some m => s.setSpawn i { p with stage := .ran (.wasm m) }
  | none => s.setSpawn i { p with stage := .looked }

def State.getExecutable (s : State) (i : Nat) (found : Found) (keeps : Bool) : State :=
  let p := s.spawn i
  match s.entries p.name with
  | some (some e) => s.setSpawn i { p with stage := .ran (.package e) }
  | _ => (if keeps then s.keep p.name found else s).setSpawn i { p with stage := found.stage }

def State.record (s : State) (i m : Nat) : State :=
  let p := s.spawn i
  (match p.identity with
    | some identity => s.setModule p.name (some (identity, m))
    | none => s).setSpawn i { p with stage := .ran (.wasm m) }

def State.insert (s : State) (j : Nat) : State :=
  let c := s.call j
  { (s.setEntry c.name (some ⟨c.package, s.numbers + 1⟩)).setCall j { c with stage := .inserted } with
    numbers := s.numbers + 1 }

def State.return_ (s : State) (j : Nat) : State :=
  { s.setCall j { s.call j with stage := .idle } with
    holder := none
    returned := update s.returned (s.call j).name
      (((s.entries (s.call j).name).bind id).elim 0 Entry.number) }

def State.step (s : State) : Event → Option State
  | .spawn i name =>
    if (s.spawn i).stage = .idle then
      some (s.setSpawn i { stage := .called, name, since := s.returned name })
    else none
  | .identify i identity =>
    if (s.spawn i).stage = .called then
      some (s.setSpawn i { s.spawn i with stage := .identified, identity })
    else none
  | .look i => if (s.spawn i).stage = .identified then some (s.look i) else none
  | .getExecutable i found keeps =>
    if (s.spawn i).stage = .looked ∧ s.holder = none then some (s.getExecutable i found keeps)
    else none
  | .load i module_ =>
    match (s.spawn i).stage with
    | .read _ =>
      some (s.setSpawn i { s.spawn i with
        stage := module_.elim (.ran .failed) .loaded })
    | _ => none
  | .record i =>
    match (s.spawn i).stage with
    | .loaded m => some (s.record i m)
    | _ => none
  | .setBinary j name package =>
    if (s.call j).stage = .idle ∧ s.holder = none then
      some { s.setCall j { stage := .locked, name, package } with holder := some j }
    else none
  | .insert j => if (s.call j).stage = .locked then some (s.insert j) else none
  | .remove j =>
    if (s.call j).stage = .inserted then
      some ((s.setModule (s.call j).name none).setCall j { s.call j with stage := .removed })
    else none
  | .return_ j => if (s.call j).stage = .removed then some (s.return_ j) else none

def binFactory : System State Event where
  Initial s := s = {}
  next := State.step

def State.registered (s : State) (name : Nat) : Bool :=
  match s.entries name with
  | some (some e) => 0 < e.number
  | _ => false

def Timely (s : State) : Event → Prop
  | .record i => s.registered (s.spawn i).name = false
  | _ => True

instance (s : State) : DecidablePred (Timely s)
  | .record i => inferInstanceAs (Decidable (s.registered (s.spawn i).name = false))
  | .spawn .. | .identify .. | .look .. | .getExecutable .. | .load .. | .setBinary .. | .insert ..
  | .remove .. | .return_ .. => inferInstanceAs (Decidable True)

def State.Holds (s : State) (name n : Nat) : Prop :=
  ∃ e, s.entries name = some (some e) ∧ n ≤ e.number

structure Sound (s : State) : Prop where
  holder : ∀ j, (s.call j).stage ≠ .idle → s.holder = some j
  numbers : ∀ name e, s.entries name = some (some e) → e.number ≤ s.numbers
  inserted : ∀ j, (s.call j).stage = .inserted ∨ (s.call j).stage = .removed →
    ∃ e, s.entries (s.call j).name = some (some e) ∧ 0 < e.number ∧
      s.returned (s.call j).name ≤ e.number
  removed : ∀ j, (s.call j).stage = .removed → s.wasmModules (s.call j).name = none
  returned : ∀ name, 0 < s.returned name →
    s.Holds name (s.returned name) ∧ s.wasmModules name = none
  since : ∀ i, (s.spawn i).since ≤ s.returned (s.spawn i).name
  reading : ∀ i, (∃ b, (s.spawn i).stage = .read b) ∨ (∃ m, (s.spawn i).stage = .loaded m) →
    (s.spawn i).since = 0
  ran : ∀ i r, (s.spawn i).stage = .ran r → 0 < (s.spawn i).since →
    ∃ e, r = .package e ∧ (s.spawn i).since ≤ e.number

theorem sound_initial : Sound {} := by
  constructor <;> simp

variable {s t : State} {i j : Nat}

theorem Sound.setSpawn (h : Sound s) {p : Spawn} (since : p.since ≤ s.returned p.name)
    (reading : (∃ b, p.stage = .read b) ∨ (∃ m, p.stage = .loaded m) → p.since = 0)
    (ran : ∀ r, p.stage = .ran r → 0 < p.since → ∃ e, r = .package e ∧ p.since ≤ e.number) :
    Sound (s.setSpawn i p) := by
  have at_ (k : Nat) : (s.setSpawn i p).spawn k = p ∨ (s.setSpawn i p).spawn k = s.spawn k := by
    by_cases same : k = i
    · exact .inl (same ▸ update_self ..)
    · exact .inr (update_of_ne same ..)
  refine ⟨h.holder, h.numbers, h.inserted, h.removed, h.returned, ?_, ?_, ?_⟩
  · intro k
    rcases at_ k with now | now
    · rw [now]; exact since
    · rw [now]; exact h.since k
  · intro k
    rcases at_ k with now | now
    · rw [now]; exact reading
    · rw [now]; exact h.reading k
  · intro k
    rcases at_ k with now | now
    · rw [now]; exact ran
    · rw [now]; exact h.ran k

theorem Sound.setStage (h : Sound s) {stage : Stage} (identity : Option FileIdentity)
    (plain : ∀ b m r, stage ≠ .read b ∧ stage ≠ .loaded m ∧ stage ≠ .ran r) :
    Sound (s.setSpawn i { s.spawn i with stage, identity }) := by
  refine h.setSpawn (h.since i) ?_ ?_
  · rintro (⟨b, now⟩ | ⟨m, now⟩)
    · exact absurd now (plain b 0 .failed).1
    · exact absurd now (plain 0 m .failed).2.1
  · intro r now
    exact absurd now (plain 0 0 r).2.2

theorem Sound.get (h : Sound s) {name : Nat} (pos : 0 < s.returned name)
    (identity : FileIdentity) : s.get name identity = none := by
  rw [State.get, (h.returned name pos).2]

theorem Sound.look (h : Sound s) : Sound (s.look i) := by
  unfold State.look
  dsimp only
  split
  next m found =>
    refine h.setSpawn (h.since i) (by simp) ?_
    intro r now pos
    obtain ⟨identity, -, got⟩ := Option.bind_eq_some_iff.mp found
    rw [h.get (pos.trans_le (h.since i))] at got
    cases got
  · exact h.setStage _ (by simp)

theorem Sound.keep (h : Sound s) {name : Nat} (free : s.holder = none)
    (none_ : ∀ e, s.entries name ≠ some (some e)) (found : Found) : Sound (s.keep name found) := by
  have idle (j : Nat) : (s.call j).stage = .idle := by
    by_contra busy
    rw [h.holder j busy] at free
    cases free
  have entry (e : Option Entry) (number : ∀ e', e = some e' → e'.number = 0) :
      Sound (s.setEntry name e) := by
    refine ⟨h.holder, ?_, ?_, h.removed, ?_, h.since, h.reading, h.ran⟩
    · intro k e' holds
      by_cases same : k = name
      · subst same
        simp only [State.setEntry, update_self, Option.some.injEq] at holds
        exact (number e' holds).trans_le (Nat.zero_le _)
      · simp only [State.setEntry, update_of_ne same] at holds
        exact h.numbers k e' holds
    · intro j stage
      change (s.call j).stage = _ ∨ (s.call j).stage = _ at stage
      simp [idle j] at stage
    · intro k pos
      obtain ⟨⟨e', holds, le⟩, gone⟩ := h.returned k pos
      have other : k ≠ name := fun same => none_ e' (same ▸ holds)
      exact ⟨⟨e', (update_of_ne other ..).trans holds, le⟩, gone⟩
  cases found with
  | wasm => exact h
  | package p => exact entry (some ⟨p, 0⟩) (by rintro e' ⟨⟩; rfl)
  | missing => exact entry none (by simp)

theorem Sound.getExecutable (h : Sound s) (free : s.holder = none) (found : Found) (keeps : Bool) :
    Sound (s.getExecutable i found keeps) := by
  unfold State.getExecutable
  dsimp only
  split
  next e holds =>
    refine h.setSpawn (h.since i) (by simp) ?_
    rintro r ⟨⟩ pos
    obtain ⟨⟨e', holds', le⟩, -⟩ := h.returned _ (pos.trans_le (h.since i))
    rw [holds] at holds'
    cases holds'
    exact ⟨e, rfl, (h.since i).trans le⟩
  next none_ =>
    have early : (s.spawn i).since = 0 := by
      by_contra pos
      have late := (Nat.pos_of_ne_zero pos).trans_le (h.since i)
      obtain ⟨⟨e, holds, -⟩, -⟩ := h.returned _ late
      exact none_ e holds
    have kept : Sound (if keeps then s.keep (s.spawn i).name found else s) := by
      split
      · exact h.keep free none_ found
      · exact h
    have same : (if keeps then s.keep (s.spawn i).name found else s).returned = s.returned := by
      split
      · cases found <;> rfl
      · rfl
    refine kept.setSpawn ?_ (fun _ => early) (fun r _ pos => absurd pos (by simp [early]))
    rw [same]
    exact h.since i

theorem Sound.setModule (h : Sound s) {name : Nat} (early : s.registered name = false)
    (m : FileIdentity × Nat) : Sound (s.setModule name (some m)) := by
  have none_ {e : Entry} (holds : s.entries name = some (some e)) : e.number = 0 := by
    simpa [State.registered, holds] using early
  refine ⟨h.holder, h.numbers, h.inserted, ?_, ?_, h.since, h.reading, h.ran⟩
  · intro j stage
    obtain ⟨e, holds, pos, -⟩ := h.inserted j (.inr stage)
    have other : (s.call j).name ≠ name := by
      rintro same
      rw [none_ (same ▸ holds)] at pos
      omega
    exact (update_of_ne other ..).trans (h.removed j stage)
  · intro k (pos : 0 < s.returned k)
    obtain ⟨⟨e, holds, le⟩, gone⟩ := h.returned k pos
    have other : k ≠ name := by
      rintro rfl
      rw [none_ holds] at le
      omega
    exact ⟨⟨e, holds, le⟩, (update_of_ne other ..).trans gone⟩

theorem Sound.record (h : Sound s) {m : Nat} (at_ : (s.spawn i).stage = .loaded m)
    (early : s.registered (s.spawn i).name = false) : Sound (s.record i m) := by
  have start : (s.spawn i).since = 0 := h.reading i (.inr ⟨m, at_⟩)
  unfold State.record
  dsimp only
  split
  · exact (h.setModule early _).setSpawn (h.since i) (by simp)
      (fun r _ pos => absurd pos (by simp [start]))
  · exact h.setSpawn (h.since i) (by simp) (fun r _ pos => absurd pos (by simp [start]))

theorem Sound.others_idle (h : Sound s) (busy : (s.call j).stage ≠ .idle) {k : Nat} (ne : k ≠ j) :
    (s.call k).stage = .idle := by
  by_contra other
  have both := (h.holder k other).symm.trans (h.holder j busy)
  exact ne (Option.some.inj both)

theorem Sound.setBinary (h : Sound s) (free : s.holder = none) (name package : Nat) :
    Sound { s.setCall j { stage := .locked, name, package } with holder := some j } := by
  have idle (k : Nat) : (s.call k).stage = .idle := by
    by_contra busy
    rw [h.holder k busy] at free
    cases free
  have stages (k : Nat) : (update s.call j { stage := .locked, name, package } k).stage =
      if k = j then .locked else .idle := by
    by_cases same : k = j
    · simp [same]
    · simp [same, idle k]
  refine ⟨?_, h.numbers, ?_, ?_, h.returned, h.since, h.reading, h.ran⟩
  · intro k busy
    change (update s.call j _ k).stage ≠ .idle at busy
    rw [stages] at busy
    have same : k = j := by
      by_contra ne
      simp [ne] at busy
    rw [same]
  · intro k stage
    change (update s.call j _ k).stage = _ ∨ (update s.call j _ k).stage = _ at stage
    rw [stages] at stage
    split at stage <;> simp at stage
  · intro k stage
    change (update s.call j _ k).stage = _ at stage
    rw [stages] at stage
    split at stage <;> cases stage

theorem Sound.insert (h : Sound s) (at_ : (s.call j).stage = .locked) : Sound (s.insert j) := by
  have busy : (s.call j).stage ≠ .idle := by simp [at_]
  have entry (name : Nat) : (s.insert j).entries name =
      if name = (s.call j).name then some (some ⟨(s.call j).package, s.numbers + 1⟩)
      else s.entries name := by
    by_cases same : name = (s.call j).name
    · simp [State.insert, State.setEntry, State.setCall, same]
    · simp [State.insert, State.setEntry, State.setCall, same]
  have mine : (s.insert j).call j = { s.call j with stage := .inserted } := update_self ..
  have others {k : Nat} (ne : k ≠ j) : (s.insert j).call k = s.call k := update_of_ne ne ..
  have before (name : Nat) : s.returned name ≤ s.numbers := by
    by_cases pos : 0 < s.returned name
    · obtain ⟨⟨e, holds, le⟩, -⟩ := h.returned name pos
      exact le.trans (h.numbers name e holds)
    · omega
  refine ⟨?_, ?_, ?_, ?_, ?_, h.since, h.reading, h.ran⟩
  · intro k stage
    by_cases same : k = j
    · exact same ▸ h.holder j busy
    · rw [others same] at stage
      exact h.holder k stage
  · intro name e holds
    rw [entry] at holds
    change e.number ≤ s.numbers + 1
    split at holds
    · cases holds
      exact Nat.le_refl _
    · exact (h.numbers name e holds).trans (Nat.le_succ _)
  · intro k stage
    by_cases same : k = j
    · subst same
      rw [mine]
      exact ⟨_, (entry _).trans (if_pos rfl), Nat.succ_pos _, (before _).trans (Nat.le_succ _)⟩
    · rw [others same, h.others_idle busy same] at stage
      simp at stage
  · intro k stage
    by_cases same : k = j
    · subst same
      rw [mine] at stage
      cases stage
    · rw [others same, h.others_idle busy same] at stage
      cases stage
  · intro name pos
    obtain ⟨⟨e, holds, le⟩, gone⟩ := h.returned name pos
    refine ⟨?_, gone⟩
    by_cases same : name = (s.call j).name
    · exact ⟨_, (entry _).trans (if_pos same), (before name).trans (Nat.le_succ _)⟩
    · exact ⟨e, (entry _).trans ((if_neg same).trans holds), le⟩

theorem Sound.remove (h : Sound s) (at_ : (s.call j).stage = .inserted) :
    Sound ((s.setModule (s.call j).name none).setCall j { s.call j with stage := .removed }) := by
  have busy : (s.call j).stage ≠ .idle := by simp [at_]
  have cleared {name : Nat} (gone : s.wasmModules name = none) :
      update s.wasmModules (s.call j).name none name = none := by
    by_cases same : name = (s.call j).name
    · simp [same]
    · simp [same, gone]
  refine ⟨?_, h.numbers, ?_, ?_, ?_, h.since, h.reading, h.ran⟩
  · intro k stage
    by_cases same : k = j
    · exact same ▸ h.holder j busy
    · exact h.holder k (by simpa [State.setCall, State.setModule, same] using stage)
  · intro k stage
    by_cases same : k = j
    · subst same
      simpa [State.setCall, State.setModule] using h.inserted k (.inl at_)
    · have idle := h.others_idle busy same
      simp [State.setCall, State.setModule, same, idle] at stage
  · intro k stage
    by_cases same : k = j
    · subst same
      simp [State.setCall, State.setModule]
    · have idle := h.others_idle busy same
      simp [State.setCall, State.setModule, same, idle] at stage
  · intro name pos
    obtain ⟨holds, gone⟩ := h.returned name pos
    exact ⟨holds, cleared gone⟩

theorem Sound.return_ (h : Sound s) (at_ : (s.call j).stage = .removed) : Sound (s.return_ j) := by
  have busy : (s.call j).stage ≠ .idle := by simp [at_]
  obtain ⟨e, holds, pos, le⟩ := h.inserted j (.inr at_)
  have idle (k : Nat) : ((s.return_ j).call k).stage = .idle := by
    by_cases same : k = j
    · subst same
      simp [State.return_, State.setCall]
    · simpa [State.return_, State.setCall, same] using h.others_idle busy same
  have returned (name : Nat) : (s.return_ j).returned name =
      if name = (s.call j).name then e.number else s.returned name := by
    by_cases same : name = (s.call j).name
    · simp [State.return_, same, holds]
    · simp [State.return_, same]
  have grows (name : Nat) : s.returned name ≤ (s.return_ j).returned name := by
    rw [returned]
    split
    next same => exact same ▸ le
    · exact Nat.le_refl _
  refine ⟨?_, h.numbers, ?_, ?_, ?_, fun i => (h.since i).trans (grows _), h.reading, h.ran⟩
  · intro k stage
    exact absurd (idle k) stage
  · intro k stage
    simp [idle k] at stage
  · intro k stage
    simp [idle k] at stage
  · intro name pos'
    rw [returned] at pos' ⊢
    split at pos'
    next same =>
      rw [if_pos same]
      exact ⟨⟨e, same ▸ holds, Nat.le_refl _⟩, same ▸ h.removed j at_⟩
    next other =>
      rw [if_neg other]
      exact h.returned name pos'

theorem Sound.step {e : Event} (h : Sound s) (timely : Timely s e) (step : s.step e = some t) :
    Sound t := by
  cases e with
  | spawn i name =>
    obtain ⟨-, ⟨⟩⟩ := guarded step
    exact h.setSpawn (Nat.le_refl _) (by simp) (by simp)
  | identify i identity =>
    obtain ⟨-, ⟨⟩⟩ := guarded step
    exact h.setStage identity (by simp)
  | look i =>
    obtain ⟨-, ⟨⟩⟩ := guarded step
    exact h.look
  | getExecutable i found keeps =>
    obtain ⟨⟨-, free⟩, ⟨⟩⟩ := guarded step
    exact h.getExecutable free found keeps
  | load i m =>
    simp only [State.step] at step
    split at step
    next bytes at_ =>
      cases step
      have early := h.reading i (.inl ⟨bytes, at_⟩)
      exact h.setSpawn (h.since i) (fun _ => early) (fun r _ pos => absurd pos (by simp [early]))
    · cases step
  | record i =>
    simp only [State.step] at step
    split at step
    next m at_ =>
      cases step
      exact h.record at_ timely
    · cases step
  | setBinary j name package =>
    obtain ⟨⟨-, free⟩, ⟨⟩⟩ := guarded step
    exact h.setBinary free name package
  | insert j =>
    obtain ⟨at_, ⟨⟩⟩ := guarded step
    exact h.insert at_
  | remove j =>
    obtain ⟨at_, ⟨⟩⟩ := guarded step
    exact h.remove at_
  | return_ j =>
    obtain ⟨at_, ⟨⟩⟩ := guarded step
    exact h.return_ at_

/-- A spawn that starts behind the return of `set_binary` runs the package or a later one. -/
theorem registered_package_wins (h : binFactory.ReachableBy Timely s) (r : Ran)
    (ran : (s.spawn i).stage = .ran r) (late : 0 < (s.spawn i).since) :
    ∃ e, r = .package e ∧ (s.spawn i).since ≤ e.number := by
  have sound : Sound s := by
    apply h.invariant
    · rintro _ rfl
      exact sound_initial
    · intro s e t _ sound timely step
      exact sound.step timely step
  exact sound.ran i r ran late

/-- A module is kept and run, then dropped; the spawn behind the registration runs the package. -/
theorem registered_package_wins_dropped : ∃ s, binFactory.ReachableBy Timely s ∧
    (s.spawn 1).since = 1 ∧ (s.spawn 1).stage = .ran (.package ⟨9, 1⟩) ∧
    ∃ e, Ran.package ⟨9, 1⟩ = .package e ∧ 1 ≤ e.number := by
  have reached : ∃ s, binFactory.ReachableBy Timely s ∧
      ((s.spawn 1).since = 1 ∧ (s.spawn 1).stage = .ran (.package ⟨9, 1⟩)) :=
    System.exists_reachableBy_of_runBy (s := {})
      (l := [.spawn 0 4, .identify 0 (some (10, 20)), .look 0, .getExecutable 0 (.wasm 5) false,
        .load 0 (some 6), .record 0, .setBinary 0 4 9, .insert 0, .remove 0, .return_ 0,
        .spawn 1 4, .identify 1 (some (10, 20)), .look 1, .getExecutable 1 (.wasm 5) false])
      (.init rfl) (by decide +kernel)
  obtain ⟨s, reach, since, ran⟩ := reached
  have wins := registered_package_wins reach _ ran (by rw [since]; decide)
  rw [since] at wins
  exact ⟨s, reach, since, ran, wins⟩

/-- The first spawn has read the file when the package is registered, and keeps its module
behind the return of `set_binary`: the next spawn of the unchanged file runs it. -/
theorem late_module_wins : ∃ s, binFactory.Reachable s ∧
    (s.spawn 1).since = 1 ∧ (s.spawn 1).stage = .ran (.wasm 6) :=
  System.exists_reachable_of_run (s := {})
    (l := [.spawn 0 4, .identify 0 (some (10, 20)), .look 0, .getExecutable 0 (.wasm 5) false,
      .load 0 (some 6), .setBinary 0 4 9, .insert 0, .remove 0, .return_ 0, .record 0,
      .spawn 1 4, .identify 1 (some (10, 20)), .look 1])
    (.init rfl) (by decide +kernel)

end ServiceCache.BinFactory
