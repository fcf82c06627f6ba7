import Mathlib.Data.List.Nodup
import Mathlib.Logic.Function.Basic
import ServiceCache.Transition

/-!
# One parker for all waits of a thread

`park_until_done` polls a wait and parks its OS thread in between. It borrows the thread's own
parker, unless a wait further up the stack has it or the thread's locals are gone; then it makes
one for itself. A poll may start a wait of its own. This is one thread, with the waits on its
stack; anybody may wake any parker at any time, also for a wait that is over.
-/

namespace ServiceCache.ThreadPark

open Function
open Transition (System guarded)

inductive Parker
  | thread
  | own (n : Nat)
  deriving DecidableEq, Repr

structure Wait where
  parker : Parker
  parked : Bool := false
  /-- History: it was woken since its last poll began. -/
  woken : Bool := false
  deriving DecidableEq, Repr

/-- `THREAD_PARK`, the tokens of the parkers, and the waits, innermost first. -/
structure State where
  lent : Bool := false
  gone : Bool := false
  token : Parker → Bool := fun _ => false
  made : Nat := 0
  waits : List Wait := []

inductive Event
  | enter
  /-- The innermost poll has nothing yet, and the thread parks. -/
  | pend
  /-- `park` returns, and the wait is polled again. -/
  | unpark
  | finish
  | wake (p : Parker)
  | tearDown
  deriving DecidableEq, Repr

def Wait.wake (p : Parker) (w : Wait) : Wait := { w with woken := w.woken || w.parker == p }

def State.enter (s : State) : State :=
  if s.gone || s.lent then
    { s with made := s.made + 1, waits := { parker := .own s.made } :: s.waits }
  else { s with lent := true, waits := { parker := .thread } :: s.waits }

/-- The end of the innermost wait, with the drop of `Returned` if it had borrowed. -/
def State.finish (s : State) (w : Wait) (rest : List Wait) : State :=
  { s with waits := rest, lent := s.lent && w.parker != .thread }

def State.step (s : State) : Event → Option State
  | .enter => if s.waits.head?.all (!·.parked) then some s.enter else none
  | .wake p => some { s with token := update s.token p true, waits := s.waits.map (·.wake p) }
  | .tearDown => if s.waits = [] then some { s with gone := true } else none
  | .pend =>
    match s.waits with
    | [] => none
    | w :: rest => if w.parked then none else some { s with waits := { w with parked := true } :: rest }
  | .unpark =>
    match s.waits with
    | [] => none
    | w :: rest =>
      if w.parked ∧ s.token w.parker then
        some { s with token := update s.token w.parker false, waits := ⟨w.parker, false, false⟩ :: rest }
      else none
  | .finish =>
    match s.waits with
    | [] => none
    | w :: rest => if w.parked then none else some (s.finish w rest)

def system : System State Event where
  Initial s := s = {}
  next := State.step

structure Sound (s : State) : Prop where
  apart : (s.waits.map Wait.parker).Nodup
  lent : s.lent ↔ .thread ∈ s.waits.map Wait.parker
  made {n : Nat} : .own n ∈ s.waits.map Wait.parker → n < s.made
  heard {w : Wait} : w ∈ s.waits → w.woken → s.token w.parker
  outermost {w : Wait} : s.waits.getLast? = some w → s.gone ∨ w.parker = .thread
  inner {w : Wait} : w ∈ s.waits.tail → w.parked = false

section Steps

variable {s : State} {w : Wait} {rest : List Wait}

theorem Sound.replace (h : Sound s) (at_ : s.waits = w :: rest) (w' : Wait)
    (same : w'.parker = w.parker) {token : Parker → Bool}
    (kept : ∀ p ≠ w.parker, token p = s.token p) (heard : w'.woken → token w.parker) :
    Sound { s with token, waits := w' :: rest } := by
  have parkers : (w' :: rest).map Wait.parker = s.waits.map Wait.parker := by simp [at_, same]
  have apart := h.apart
  rw [at_, List.map_cons, List.nodup_cons] at apart
  refine ⟨parkers ▸ h.apart, parkers ▸ h.lent, fun mem => h.made (parkers ▸ mem), ?_, ?_, ?_⟩
  · intro x mem woken
    rcases List.mem_cons.mp mem with rfl | mem
    · exact same ▸ heard woken
    · have other : x.parker ≠ w.parker := fun eq => apart.1 (eq ▸ List.mem_map_of_mem mem)
      exact (kept _ other).trans (h.heard (at_ ▸ .tail _ mem) woken)
  · intro x last
    have outermost := fun y => h.outermost (w := y)
    rw [at_] at outermost
    cases rest with
    | nil => cases last; exact same ▸ outermost w rfl
    | cons y rest => exact outermost x last
  · exact fun mem => h.inner (by rwa [at_])

theorem Sound.push (h : Sound s) (polling : s.waits.head?.all (!·.parked)) {p : Parker}
    (new : p ∉ s.waits.map Wait.parker) {lent : Bool} {made : Nat}
    (borrowed : lent ↔ .thread = p ∨ s.lent) (more : s.made ≤ made) (own : ∀ n, .own n = p → n < made)
    (first : s.waits = [] → s.gone ∨ p = .thread) :
    Sound { s with lent, made, waits := ⟨p, false, false⟩ :: s.waits } := by
  refine ⟨List.nodup_cons.mpr ⟨new, h.apart⟩, ?_, fun {n} mem => ?_, fun {x} mem woken => ?_, ?_, ?_⟩
  · rw [borrowed, h.lent]
    exact List.mem_cons.symm
  · exact (List.mem_cons.mp mem).elim (own n) fun mem => Nat.lt_of_lt_of_le (h.made mem) more
  · rcases List.mem_cons.mp mem with rfl | mem
    · cases woken
    · exact h.heard mem woken
  · intro x last
    cases at_ : s.waits with
    | nil =>
      simp only [at_, List.getLast?_singleton] at last
      cases last
      exact first at_
    | cons y rest => exact h.outermost (by simpa [at_] using last)
  · intro x mem
    cases at_ : s.waits with
    | nil => simp [at_] at mem
    | cons y rest =>
      simp only [at_, List.tail_cons, List.head?_cons, Option.all_some, Bool.not_eq_true'] at mem polling
      rcases List.mem_cons.mp mem with rfl | mem
      · exact polling
      · exact h.inner (by rwa [at_])

theorem Sound.enter (h : Sound s) (polling : s.waits.head?.all (!·.parked)) : Sound s.enter := by
  rw [State.enter]
  split
  next private_ =>
    refine h.push polling (fun mem => Nat.lt_irrefl _ (h.made mem)) ?_ (Nat.le_succ _) ?_ ?_
    · exact ⟨.inr, fun or => or.resolve_left Parker.noConfusion⟩
    · rintro n ⟨⟩
      exact Nat.lt_succ_self _
    · intro empty
      have idle : s.lent = false := by simpa [empty] using h.lent
      exact .inl (by simpa [idle] using private_)
  next free =>
    rw [Bool.or_eq_true, not_or] at free
    exact h.push polling (fun mem => free.2 (h.lent.mpr mem)) ⟨fun _ => .inl rfl, fun _ => rfl⟩
      (Nat.le_refl _) (fun _ eq => by cases eq) fun _ => .inr rfl

theorem Sound.finish (h : Sound s) (at_ : s.waits = w :: rest) : Sound (s.finish w rest) := by
  have apart := h.apart
  have lent := h.lent
  rw [at_, List.map_cons] at apart lent
  rw [List.nodup_cons] at apart
  refine ⟨apart.2, ?_, fun mem => h.made (at_ ▸ .tail _ mem), fun mem => h.heard (at_ ▸ .tail _ mem),
    fun {x} last => ?_, fun mem => h.inner (at_ ▸ List.mem_of_mem_tail mem)⟩
  · rw [State.finish, Bool.and_eq_true, bne_iff_ne, lent, List.mem_cons]
    exact ⟨fun ⟨or, ne⟩ => or.resolve_left ne.symm,
      fun mem => ⟨.inr mem, fun eq => apart.1 (eq ▸ mem)⟩⟩
  · cases rest with
    | nil => cases last
    | cons y rest => exact h.outermost (at_ ▸ last)

theorem Sound.wake (h : Sound s) (p : Parker) :
    Sound { s with token := update s.token p true, waits := s.waits.map (·.wake p) } := by
  have parkers : (s.waits.map (·.wake p)).map Wait.parker = s.waits.map Wait.parker :=
    List.map_map
  refine ⟨parkers ▸ h.apart, parkers ▸ h.lent, fun mem => h.made (parkers ▸ mem), ?_, ?_, ?_⟩
  · intro x mem woken
    obtain ⟨w, old, rfl⟩ := List.mem_map.mp mem
    change update s.token p true w.parker
    rcases eq_or_ne w.parker p with same | other
    · rw [same, update_self]
    · rw [update_of_ne other]
      exact h.heard old (by simpa [Wait.wake, other] using woken)
  · intro x last
    obtain ⟨w, old, rfl⟩ := Option.map_eq_some_iff.mp (List.getLast?_map.symm.trans last)
    exact (h.outermost old : s.gone ∨ w.parker = .thread)
  · intro x mem
    obtain ⟨w, old, rfl⟩ := List.mem_map.mp (List.map_tail ▸ mem)
    exact (h.inner old : w.parked = false)

theorem Sound.step {t : State} (h : Sound s) {e : Event} (step : s.step e = some t) : Sound t := by
  cases e with
  | enter =>
    obtain ⟨polling, ⟨⟩⟩ := guarded step
    exact h.enter polling
  | wake p =>
    cases step
    exact h.wake p
  | tearDown =>
    obtain ⟨-, ⟨⟩⟩ := guarded step
    exact { h with outermost := fun _ => .inl rfl }
  | pend =>
    simp only [State.step] at step
    split at step
    · cases step
    next w rest at_ =>
      have mem : w ∈ s.waits := by rw [at_]; exact .head _
      split at step <;> cases step
      exact h.replace at_ { w with parked := true } rfl (fun _ _ => rfl) fun woken => h.heard mem woken
  | unpark =>
    simp only [State.step] at step
    split at step
    · cases step
    next w rest at_ =>
      obtain ⟨-, ⟨⟩⟩ := guarded step
      exact h.replace at_ ⟨w.parker, false, false⟩ rfl (fun p ne => update_of_ne ne ..)
        (fun woken => by cases woken)
  | finish =>
    simp only [State.step] at step
    split at step
    · cases step
    next w rest at_ =>
      split at step <;> cases step
      exact h.finish at_

end Steps

/-- A wait that was woken since its last poll began finds the token when it parks, whatever waits
its poll has started and ended in between: no two waits share a parker. Only the innermost wait
parks, and the outermost one has the parker that the thread keeps, unless that is gone. -/
theorem wake_not_stolen {s : State} (h : system.Reachable s) :
    (∀ w ∈ s.waits, w.woken → s.token w.parker) ∧ (s.waits.map Wait.parker).Nodup ∧
      (∀ w ∈ s.waits.tail, w.parked = false) ∧
      ∀ w, s.waits.getLast? = some w → s.gone ∨ w.parker = .thread := by
  have sound : Sound s := by
    apply h.invariant
    · rintro _ rfl
      exact ⟨.nil, by simp, by simp, by simp, by simp, by simp⟩
    · intro s e t _ sound _ step
      exact sound.step step
  exact ⟨fun _ => sound.heard, sound.apart, fun _ => sound.inner, fun _ => sound.outermost⟩

/-- The outer wait is woken while its poll runs a wait of its own, which parks. -/
theorem wake_not_stolen_nested :
    ∃ s, system.Reachable s ∧ s.waits = [⟨.thread, true, true⟩] ∧ s.made = 1 ∧ s.token .thread := by
  have reached : ∃ s, system.Reachable s ∧ (s.waits = [⟨.thread, true, true⟩] ∧ s.made = 1) :=
    System.exists_reachable_of_run (s := {})
      (l := [.enter, .wake .thread, .enter, .pend, .wake (.own 0), .unpark, .finish, .pend])
      (.init rfl) (by decide +kernel)
  obtain ⟨s, run, parked, one⟩ := reached
  exact ⟨s, run, parked, one, (wake_not_stolen run).1 _ (by rw [parked]; exact .head _) rfl⟩

end ServiceCache.ThreadPark
