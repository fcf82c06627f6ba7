import Mathlib.Logic.Function.Basic
import ServiceCache.Transition

/-!
# The listening socket of a guest

`HostNetworking`, while guest threads bind, listen and connect at any time. The manager passes the
process a listening socket, and another to a child forked from it, in which a run goes on. A socket
is named by its address. A call that fails and changes nothing is no step.
-/

namespace ServiceCache.Networking

open Function
open Transition (System guarded)

/-- A listener is a `SharedListener`. -/
inductive GuestSocket
  | closed
  | unserved (port : Nat)
  | bound (listener : Nat)
  | listening (listener : Nat)
  deriving DecidableEq, Repr

def GuestSocket.listener? : GuestSocket → Option Nat
  | .bound l | .listening l => some l
  | .closed | .unserved _ => none

/-- `binding` is what calls of `bind_tcp` have taken out of `passed` and not adopted yet. -/
structure State where
  passed : Option Nat := none
  binding : List Nat := []
  adopted : Option Nat := none
  socket : Nat → Nat := fun _ => 0
  listeners : Nat := 0
  guest : Nat → GuestSocket := fun _ => .closed
  /-- History: the socket that was passed last, and the peers of the guest's connections, each
  with the socket that was then passed last. -/
  given : Option Nat := none
  peers : List (Nat × Option Nat) := []

def State.endpoint (s : State) : Option Nat :=
  match s.adopted with
  | some l => some (s.socket l)
  | none => s.passed

inductive Event
  | setListener (k : Nat)
  | bindTcp (i port : Nat)
  /-- The rest of `bind_tcp`, which loses the socket if it cannot be registered. -/
  | adopt (i k : Nat) (registered : Bool)
  | listen (i : Nat)
  | close (i : Nat)
  | connectTcp (peer : Nat)
  | replaceListener (k : Nat)
  deriving DecidableEq, Repr

def State.step (listenPort : Nat) (s : State) : Event → Option State
  | .setListener k =>
    if s.adopted = none then some { s with passed := some k, given := some k } else none
  | .bindTcp i port =>
    if port = listenPort then
      s.passed.map fun k => { s with passed := none, binding := k :: s.binding }
    else if s.guest i = .closed then some { s with guest := update s.guest i (.unserved port) }
    else none
  | .adopt i k registered =>
    if k ∈ s.binding ∧ s.guest i = .closed then
      let taken := { s with binding := s.binding.erase k }
      if registered then
        some { taken with
          socket := update s.socket s.listeners k
          adopted := some s.listeners
          listeners := s.listeners + 1
          guest := update s.guest i (.bound s.listeners) }
      else some taken
    else none
  | .listen i =>
    match s.guest i with
    | .bound l => some { s with guest := update s.guest i (.listening l) }
    | _ => none
  | .close i => some { s with guest := update s.guest i .closed }
  | .connectTcp peer =>
    if s.endpoint = some peer then some { s with peers := (peer, s.given) :: s.peers } else none
  | .replaceListener k => s.adopted.map fun l =>
    { s with socket := update s.socket l k, given := some k }

def system (listenPort : Nat) : System State Event where
  Initial s := s = {}
  next := State.step listenPort

/-- The condition on a step: `set_listener` does not come between the two halves of a
`bind_tcp`. -/
def Unbound (s : State) : Event → Prop
  | .setListener _ => s.binding = []
  | _ => True

instance (s : State) : DecidablePred (Unbound s)
  | .setListener _ => inferInstanceAs (Decidable (s.binding = []))
  | .bindTcp .. | .adopt .. | .listen _ | .close _ | .connectTcp _ | .replaceListener _ =>
    .isTrue trivial

/-- Where the socket that was passed last may be. -/
def State.places (s : State) : List Nat :=
  s.passed.toList ++ s.binding ++ (s.adopted.map s.socket).toList

structure Sound (s : State) : Prop where
  /-- It is in one place at most, and nothing else is in any. -/
  held : s.places.Sublist s.given.toList
  shares {i l : Nat} : (s.guest i).listener? = some l → s.adopted = some l
  peers : ∀ c ∈ s.peers, c.2 = some c.1

section Steps

variable {s t : State} {i k l : Nat}

theorem Sound.given_of_mem (h : Sound s) (mem : k ∈ s.places) : s.given = some k :=
  Option.mem_toList.mp (h.held.subset mem)

theorem Sound.length_le (h : Sound s) : s.places.length ≤ 1 := by
  refine Nat.le_trans h.held.length_le ?_
  cases s.given <;> simp

theorem Sound.of_adopted (h : Sound s) (at_ : s.adopted = some l) :
    s.passed = none ∧ s.binding = [] := by
  have le := h.length_le
  cases passed : s.passed <;> simp_all [State.places]

theorem Sound.of_binding (h : Sound s) (mem : k ∈ s.binding) :
    s.passed = none ∧ s.binding = [k] ∧ s.adopted = none := by
  obtain ⟨ks, ks', binding⟩ := List.append_of_mem mem
  have le := h.length_le
  simp only [State.places, binding, List.length_append, List.length_cons] at le
  obtain rfl : ks = [] := List.eq_nil_of_length_eq_zero (by omega)
  obtain rfl : ks' = [] := List.eq_nil_of_length_eq_zero (by omega)
  have passed : s.passed.toList = [] := List.eq_nil_of_length_eq_zero (by omega)
  have adopted : (s.adopted.map s.socket).toList = [] := List.eq_nil_of_length_eq_zero (by omega)
  exact ⟨Option.toList_eq_nil_iff.mp passed, binding,
    Option.map_eq_none_iff.mp (Option.toList_eq_nil_iff.mp adopted)⟩

theorem shares_update {g : GuestSocket} {a : Option Nat} {j : Nat}
    (others : ∀ j l, (s.guest j).listener? = some l → a = some l)
    (new : ∀ l, g.listener? = some l → a = some l)
    (at_ : (update s.guest i g j).listener? = some l) : a = some l := by
  rcases eq_or_ne j i with rfl | ne
  · rw [update_self] at at_
    exact new l at_
  · rw [update_of_ne ne] at at_
    exact others j l at_

theorem Sound.setGuest (h : Sound s) {g : GuestSocket}
    (new : ∀ l, g.listener? = some l → s.adopted = some l) :
    Sound { s with guest := update s.guest i g } :=
  { h with shares := fun at_ => shares_update (fun _ _ => h.shares) new at_ }

theorem Sound.adopt (h : Sound s) (mem : k ∈ s.binding) :
    Sound { s with
      binding := s.binding.erase k
      socket := update s.socket s.listeners k
      adopted := some s.listeners
      listeners := s.listeners + 1
      guest := update s.guest i (.bound s.listeners) } := by
  obtain ⟨passed, binding, adopted⟩ := h.of_binding mem
  have given : s.given = some k := h.given_of_mem (by simp [State.places, mem])
  refine ⟨?_, fun at_ => shares_update (g := .bound _) (fun j l shares => ?_) (fun _ is => is) at_,
    h.peers⟩
  · simp [State.places, passed, binding, given]
  -- nothing was adopted, so the guest had no listener
  · have := h.shares shares
    rw [adopted] at this
    cases this

theorem Sound.step (h : Sound s) {listenPort : Nat} {e : Event} (unbound : Unbound s e)
    (step : s.step listenPort e = some t) : Sound t := by
  cases e with
  | setListener k =>
    obtain ⟨adopted, ⟨⟩⟩ := guarded step
    refine { h with held := ?_ }
    have binding : s.binding = [] := unbound
    simp [State.places, adopted, binding]
  | bindTcp i port =>
    rw [State.step] at step
    split at step
    · obtain ⟨k, passed, rfl⟩ := Option.map_eq_some_iff.mp step
      have held := h.held
      rw [State.places, passed] at held
      exact { h with held }
    · obtain ⟨-, ⟨⟩⟩ := guarded step
      exact h.setGuest fun l is => by cases is
  | adopt i k registered =>
    obtain ⟨⟨mem, -⟩, step⟩ := guarded step
    cases registered with
    | true =>
      cases step
      exact h.adopt mem
    | false =>
      cases step
      obtain ⟨passed, binding, adopted⟩ := h.of_binding mem
      refine { h with held := ?_ }
      simp [State.places, passed, binding, adopted]
  | listen i =>
    rw [State.step] at step
    split at step
    next l at_ =>
      cases step
      have shares : s.adopted = some l := h.shares (by rw [at_]; rfl)
      exact h.setGuest fun _ same => same ▸ shares
    · cases step
  | close i =>
    cases step
    exact h.setGuest fun l is => by cases is
  | connectTcp peer =>
    obtain ⟨endpoint, ⟨⟩⟩ := guarded step
    refine { h with peers := List.forall_mem_cons.mpr ⟨h.given_of_mem ?_, h.peers⟩ }
    rw [State.endpoint] at endpoint
    split at endpoint <;> simp_all [State.places]
  | replaceListener k =>
    obtain ⟨l, adopted, rfl⟩ := Option.map_eq_some_iff.mp step
    obtain ⟨passed, binding⟩ := h.of_adopted adopted
    refine { h with held := ?_ }
    simp [State.places, passed, binding, adopted]

end Steps

/-- Through any chain of forks, all sockets that the guest may listen on are the one that its
process was passed last, through one shared listener, and each connection that it made went to the
one that was then passed last. -/
theorem guest_keeps_to_its_socket {listenPort : Nat} {s : State}
    (h : (system listenPort).ReachableBy Unbound s) :
    (∀ i l, (s.guest i).listener? = some l → s.adopted = some l ∧ s.given = some (s.socket l)) ∧
      ∀ c ∈ s.peers, c.2 = some c.1 := by
  have sound : Sound s := by
    apply h.invariant
    · rintro _ rfl
      exact ⟨.slnil, fun at_ => (by cases at_), fun _ mem => by cases mem⟩
    · intro s e t _ sound unbound step
      exact sound.step unbound step
  refine ⟨fun i l at_ => ?_, sound.peers⟩
  have adopted := sound.shares at_
  exact ⟨adopted, sound.given_of_mem (by simp [State.places, adopted])⟩

/-- A clone listens on its own socket, and connects to it. -/
theorem guest_keeps_to_its_socket_forked : ∃ s : State, (s.guest 0).listener? = some 0 ∧
    s.given = some 8 ∧ s.socket 0 = 8 ∧ s.peers = [(8, some 8), (7, some 7)] := by
  obtain ⟨s, reach, at_, given, peers⟩ : ∃ s, (system 80).ReachableBy Unbound s ∧
      (s.guest 0).listener? = some 0 ∧ s.given = some 8 ∧ s.peers = [(8, some 8), (7, some 7)] :=
    System.exists_reachableBy_of_runBy (s := {})
      (l := [.setListener 7, .bindTcp 0 80, .adopt 0 7 true, .listen 0, .connectTcp 7,
        .replaceListener 8, .connectTcp 8])
      (.init rfl) (by decide +kernel)
  have own := ((guest_keeps_to_its_socket reach).1 0 0 at_).2
  exact ⟨s, at_, given, Option.some.inj (own.symm.trans given), peers⟩

end ServiceCache.Networking
