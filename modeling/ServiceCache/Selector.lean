import Mathlib.Data.List.AList
import Mathlib.Logic.Function.Basic
import ServiceCache.Transition

/-!
# The selector's registrations

`Selector` keeps in `sources` what it has registered with its poll instance, so that
`rebuild_after_fork` can register it again with a new one. The kernel may refuse a registration
for reasons of its own, and gives the error.

Left out: the handlers, their queued changes and the poll thread, none of which a
registration reads. The body of `new_token` is not part of the patches: each `add` gets
some token that no earlier one got.
-/

namespace ServiceCache.Selector

open Function
open Transition (System guarded)

structure Interest where
  readable : Bool
  writable : Bool
  deriving DecidableEq, Repr

inductive IoError
  | alreadyExists
  | notFound
  | other
  deriving DecidableEq, Repr

abbrev Registry := Nat → Option (Nat × Interest)

namespace Registry

def register (p : Registry) (refusal : Option IoError) (fd token : Nat) (interests : Interest) :
    Except IoError Registry :=
  match refusal, p fd with
  | some e, _ => .error e
  | none, some _ => .error .alreadyExists
  | none, none => .ok (update p fd (some (token, interests)))

def deregister (p : Registry) (fd : Nat) : Except IoError Registry :=
  match p fd with
  | none => .error .notFound
  | some _ => .ok (update p fd none)

def forget (p : Registry) (fd : Nat) : Registry :=
  match p.deregister fd with
  | .ok q => q
  | .error _ => p

variable {p q : Registry} {refusal : Option IoError} {fd token : Nat} {interests : Interest}

theorem register_ok (h : p.register refusal fd token interests = .ok q) :
    p fd = none ∧ q = update p fd (some (token, interests)) := by
  unfold register at h
  split at h
  · cases h
  · cases h
  next free => exact ⟨free, (Except.ok.inj h).symm⟩

theorem register_free (free : p fd = none) :
    p.register none fd token interests =
      .ok (update p fd (some (token, interests))) := by
  simp only [register, free]

theorem register_ne_alreadyExists (own : refusal ≠ some .alreadyExists) (free : p fd = none) :
    p.register refusal fd token interests ≠ .error .alreadyExists := by
  intro h
  unfold register at h
  split at h
  · cases h
    exact own rfl
  next found => rw [found] at free; cases free
  · cases h

theorem forget_eq (p : Registry) (fd : Nat) : p.forget fd = update p fd none := by
  funext d
  unfold forget deregister
  cases held : p fd with
  | some v => rfl
  | none =>
    by_cases same : d = fd
    · subst same
      rw [update_self]
      exact held
    · rw [update_of_ne same]

end Registry

abbrev Sources := AList fun _ : Nat => Nat × Interest

structure State where
  registry : Registry := fun _ => none
  sources : Sources := ∅
  seen : List Nat := []
  /-- The tokens added and not removed; a `reregister` of a token that is not among them
  counts as adding it. -/
  live : List Nat := []

def State.see (s : State) (token : Nat) : State := { s with seen := token :: s.seen }

def State.added (s : State) (p : Registry) (token fd : Nat) (interests : Interest) : State :=
  { s with
    registry := p
    sources := s.sources.insert token (fd, interests)
    live := token :: s.live }

def State.add (s : State) (token fd : Nat) (interests : Interest)
    (first second : Option IoError) : State × Except IoError Nat :=
  match s.registry.register first fd token interests with
  | .ok p => (s.added p token fd interests, .ok token)
  | .error .alreadyExists =>
    match (s.registry.forget fd).register second fd token interests with
    | .ok p => (s.added p token fd interests, .ok token)
    | .error e => ({ s with registry := s.registry.forget fd }, .error e)
  | .error e => (s, .error e)

def State.erased (s : State) (token : Nat) : State :=
  { s with sources := s.sources.erase token, live := s.live.filter (· ≠ token) }

def State.remove (s : State) (token : Nat) (source : Option Nat) : State × Except IoError Unit :=
  match source with
  | none => (s.erased token, .ok ())
  | some fd =>
    match s.registry.deregister fd with
    | .ok p => ({ s.erased token with registry := p }, .ok ())
    | .error e => (s.erased token, .error e)

def State.unhooked (s : State) (token : Nat) : State :=
  match s.sources.lookup token with
  | none => s
  | some (old, _) =>
    { s with registry := s.registry.forget old, sources := s.sources.erase token }

def State.moved (s : State) (p : Registry) (token fd : Nat) (interests : Interest) : State :=
  { s with
    registry := p
    sources := s.sources.insert token (fd, interests)
    live := if token ∈ s.live then s.live else token :: s.live }

def State.reregister (s : State) (token fd : Nat) (interests : Interest)
    (refusal : Option IoError) : State × Except IoError Unit :=
  match (s.unhooked token).registry.register refusal fd token interests with
  | .ok p => ((s.unhooked token).moved p token fd interests, .ok ())
  | .error e => (s.unhooked token, .error e)

def registerAll (refusal : Nat → Option IoError) :
    Registry → List (Σ _ : Nat, Nat × Interest) → Except IoError Registry
  | p, [] => .ok p
  | p, ⟨token, fd, interests⟩ :: rest =>
    match p.register (refusal fd) fd token interests with
    | .ok q => registerAll refusal q rest
    | .error e => .error e

def tokenWakeup : Nat := 0

def instanceFor (wakeup : Nat) : Registry :=
  update (fun _ => none) wakeup (some (tokenWakeup, ⟨true, false⟩))

/-- `Selector::rebuild_after_fork`: `wakeup` is the descriptor of the new waker, and `order`
is the order in which the map is walked. -/
def State.rebuildAfterFork (s : State) (wakeup : Nat) (order : List (Σ _ : Nat, Nat × Interest))
    (refusal : Nat → Option IoError) : State × Except IoError Unit :=
  match registerAll refusal (instanceFor wakeup) order with
  | .ok p => ({ s with registry := p }, .ok ())
  | .error e => (s, .error e)

inductive Call
  | add (token fd : Nat) (interests : Interest) (first second : Option IoError)
  | remove (token : Nat) (source : Option Nat)
  | reregister (token fd : Nat) (interests : Interest) (refusal : Option IoError)

def State.call (s : State) : Call → State
  | .add token fd interests first second =>
    ((s.see token).add token fd interests first second).1
  | .remove token source => (s.remove token source).1
  | .reregister token fd interests refusal =>
    ((s.see token).reregister token fd interests refusal).1

def Call.Enabled (s : State) : Call → Prop
  | .add token .. => token ∉ s.seen
  | _ => True

instance (s : State) : DecidablePred (Call.Enabled s)
  | .add token .. => inferInstanceAs (Decidable (token ∉ s.seen))
  | .remove .. => .isTrue trivial
  | .reregister .. => .isTrue trivial

def selectorSystem : System State Call where
  Initial s := s = {}
  next s c := if c.Enabled s then some (s.call c) else none

def State.Unnamed (s : State) (token fd : Nat) : Prop :=
  ∀ e ∈ s.sources.entries, e.1 ≠ token → e.2.1 ≠ fd

instance (s : State) (token fd : Nat) : Decidable (s.Unnamed token fd) :=
  inferInstanceAs (Decidable (∀ e ∈ s.sources.entries, _))

/-- The condition on a call. A descriptor that another token names is neither added again
nor removed under a different token, and a token is moved only to a descriptor that the
kernel takes. -/
def Apart (s : State) : Call → Prop
  | .add token fd .. => s.Unnamed token fd
  | .remove token source => ∀ fd ∈ source, s.Unnamed token fd
  | .reregister token fd _ refusal => ∀ v ∈ s.sources.lookup token,
      refusal = none ∧ (v.1 = fd ∨ s.registry fd = none)

instance (s : State) : DecidablePred (Apart s)
  | .add token fd .. => inferInstanceAs (Decidable (s.Unnamed token fd))
  | .remove token source => inferInstanceAs (Decidable (∀ fd ∈ source, s.Unnamed token fd))
  | .reregister token fd _ refusal => inferInstanceAs (Decidable (∀ v ∈ s.sources.lookup token,
      refusal = none ∧ (v.1 = fd ∨ s.registry fd = none)))

/-- What `sources` says of a token, the poll instance holds, and it speaks of the tokens
that were added and not removed. -/
structure Mirrored (s : State) : Prop where
  held : ∀ token fd interests, s.sources.lookup token = some (fd, interests) →
    s.registry fd = some (token, interests)
  live : ∀ token, token ∈ s.live ↔ token ∈ s.sources
  seen : ∀ token, token ∈ s.sources → token ∈ s.seen

section Calls

variable {s : State} {token fd : Nat} {interests : Interest}

theorem mirrored_initial : Mirrored {} where
  held _ _ _ h := by cases h
  live token := by simp
  seen token h := absurd h (AList.notMem_empty token)

theorem Mirrored.see (h : Mirrored s) (token : Nat) : Mirrored (s.see token) :=
  { h with seen := fun x found => List.mem_cons_of_mem _ (h.seen x found) }

theorem State.Unnamed.held (unnamed : s.Unnamed token fd) (h : Mirrored s) {x d : Nat}
    {i : Interest} (known : s.sources.lookup x = some (d, i)) (other : x ≠ token)
    (v : Option (Nat × Interest)) : update s.registry fd v d = some (x, i) := by
  have apart : d ≠ fd := unnamed ⟨x, d, i⟩ (AList.mem_lookup_iff.mp known) other
  rw [update_of_ne apart]
  exact h.held x d i known

theorem Mirrored.forget (h : Mirrored s) (unnamed : s.Unnamed token fd)
    (unknown : token ∉ s.sources) : Mirrored { s with registry := s.registry.forget fd } where
  held x d i known := by
    have other : x ≠ token := by
      rintro rfl
      apply unknown
      rw [← AList.lookup_isSome, known]
      rfl
    rw [Registry.forget_eq]
    exact unnamed.held h known other none
  live := h.live
  seen := h.seen

theorem Mirrored.insert (h : Mirrored s) (unnamed : s.Unnamed token fd) {live : List Nat}
    (listed : ∀ x, x ∈ live ↔ x = token ∨ x ∈ s.live) (known : token ∈ s.seen) :
    Mirrored { s with
      registry := update s.registry fd (some (token, interests))
      sources := s.sources.insert token (fd, interests)
      live := live } where
  held x d i found := by
    by_cases same : x = token
    · subst same
      rw [AList.lookup_insert] at found
      cases found
      exact update_self ..
    · rw [AList.lookup_insert_ne same] at found
      exact unnamed.held h found same _
  live x := by rw [listed, AList.mem_insert, h.live]
  seen x found := by
    rcases (AList.mem_insert s.sources).mp found with rfl | found
    · exact known
    · exact h.seen x found

theorem Mirrored.add (h : Mirrored s) (unknown : token ∉ s.sources) (known : token ∈ s.seen)
    (unnamed : s.Unnamed token fd) (first second : Option IoError) :
    Mirrored (s.add token fd interests first second).1 := by
  have listed : ∀ x, x ∈ token :: s.live ↔ x = token ∨ x ∈ s.live := fun _ => List.mem_cons
  unfold State.add
  split
  next p ok =>
    rw [(Registry.register_ok ok).2]
    exact h.insert unnamed listed known
  · have forgot := h.forget unnamed unknown
    split
    next p ok =>
      rw [(Registry.register_ok ok).2]
      exact forgot.insert unnamed listed known
    · exact forgot
  · exact h

theorem Mirrored.erased (h : Mirrored s) (token : Nat) : Mirrored (s.erased token) where
  held x d i found := by
    have other : x ≠ token := by
      rintro rfl
      rw [State.erased, AList.lookup_erase] at found
      cases found
    rw [State.erased, AList.lookup_erase_ne other] at found
    exact h.held x d i found
  live x := by
    simp only [State.erased, List.mem_filter, AList.mem_erase, h.live, decide_eq_true_iff, and_comm]
  seen x found := h.seen x (AList.mem_erase.mp found).2

theorem State.Unnamed.erased (unnamed : s.Unnamed token fd) :
    (s.erased token).Unnamed token fd := by
  intro e known
  have kept : e ∈ s.sources.entries := (List.kerase_sublist token _).subset known
  exact unnamed e kept

theorem not_mem_erased (s : State) (token : Nat) : token ∉ (s.erased token).sources := by
  intro found
  exact (AList.mem_erase.mp found).1 rfl

theorem Mirrored.remove (h : Mirrored s) (source : Option Nat)
    (unnamed : ∀ fd ∈ source, s.Unnamed token fd) : Mirrored (s.remove token source).1 := by
  have erased := h.erased token
  unfold State.remove
  cases source with
  | none => exact erased
  | some fd =>
    have forgot := erased.forget (unnamed fd rfl).erased (not_mem_erased s token)
    cases dereg : s.registry.deregister fd with
    | error e => simpa only [dereg] using erased
    | ok p =>
      have forgets : (s.erased token).registry.forget fd = p := by
        simp only [Registry.forget, State.erased, dereg]
      rw [forgets] at forgot
      simpa only [dereg] using forgot

theorem Mirrored.unnamed_of_free (h : Mirrored s) (free : s.registry fd = none) (token : Nat) :
    s.Unnamed token fd := by
  intro e known _ names
  have held := h.held e.1 e.2.1 e.2.2 (AList.mem_lookup_iff.mpr known)
  rw [names, free] at held
  cases held

theorem Mirrored.injective (h : Mirrored s) {e x : Σ _ : Nat, Nat × Interest}
    (known : e ∈ s.sources.entries) (also : x ∈ s.sources.entries) (same : e.2.1 = x.2.1) :
    e.1 = x.1 := by
  have held := h.held e.1 e.2.1 e.2.2 (AList.mem_lookup_iff.mpr known)
  rw [same, h.held x.1 x.2.1 x.2.2 (AList.mem_lookup_iff.mpr also)] at held
  exact (congrArg Prod.fst (Option.some.inj held)).symm

theorem Mirrored.unnamed_of_held (h : Mirrored s)
    (known : s.sources.lookup token = some (fd, interests)) : s.Unnamed token fd := by
  intro e also other names
  have here : ⟨token, fd, interests⟩ ∈ s.sources.entries := AList.mem_lookup_iff.mp known
  exact other (h.injective also here names)

theorem Mirrored.unhooked (h : Mirrored s) {old : Nat} {i : Interest}
    (known : s.sources.lookup token = some (old, i)) :
    Mirrored { s.erased token with registry := s.registry.forget old } :=
  (h.erased token).forget (h.unnamed_of_held known).erased (not_mem_erased s token)

theorem Mirrored.reregister_unknown (h : Mirrored s) (seen : token ∈ s.seen)
    (unknown : s.sources.lookup token = none) (refusal : Option IoError) :
    Mirrored (s.reregister token fd interests refusal).1 := by
  have unlisted : token ∉ s.live := (h.live token).not.mpr (AList.lookup_eq_none.mp unknown)
  have still : s.unhooked token = s := by simp only [State.unhooked, unknown]
  unfold State.reregister
  rw [still]
  split
  next p ok =>
    obtain ⟨free, rfl⟩ := Registry.register_ok ok
    apply h.insert (h.unnamed_of_free free token) _ seen
    intro x
    rw [if_neg unlisted, List.mem_cons]
  · exact h

theorem Mirrored.reregister_known (h : Mirrored s) (seen : token ∈ s.seen) {old : Nat}
    {i : Interest} (known : s.sources.lookup token = some (old, i))
    (takes : old = fd ∨ s.registry fd = none) :
    Mirrored (s.reregister token fd interests none).1 := by
  have listed : token ∈ s.live := by
    rw [h.live, ← AList.lookup_isSome, known]
    rfl
  have out : s.unhooked token =
      { s with registry := s.registry.forget old, sources := s.sources.erase token } := by
    simp only [State.unhooked, known]
  have free : s.registry.forget old fd = none := by
    rw [Registry.forget_eq, update_apply]
    rcases takes with rfl | free
    · exact if_pos rfl
    · rw [free, ite_self]
  unfold State.reregister
  rw [out]
  simp only [Registry.register_free free]
  have unhooked := h.unhooked known
  apply unhooked.insert (unhooked.unnamed_of_free free token) _ seen
  intro x
  simp only [State.erased, if_pos listed, List.mem_filter, decide_eq_true_iff]
  by_cases same : x = token
  · simp only [same, listed, true_or]
  · simp only [same, false_or, ne_eq, not_false_eq_true, and_true]

theorem Mirrored.call (h : Mirrored s) {c : Call} (enabled : c.Enabled s) (apart : Apart s c) :
    Mirrored (s.call c) := by
  cases c with
  | add token fd interests first second =>
    have unknown : token ∉ s.sources := fun found => enabled (h.seen token found)
    exact (h.see token).add unknown List.mem_cons_self apart first second
  | remove token source => exact h.remove source apart
  | reregister token fd interests refusal =>
    cases known : s.sources.lookup token with
    | none => exact (h.see token).reregister_unknown List.mem_cons_self known refusal
    | some v =>
      obtain ⟨rfl, takes⟩ := apart v known
      exact (h.see token).reregister_known List.mem_cons_self known takes

end Calls

theorem mirrored_reachable {s : State} (h : selectorSystem.ReachableBy Apart s) : Mirrored s := by
  apply h.invariant
  · rintro _ rfl
    exact mirrored_initial
  · intro s c t _ mirrored apart step
    obtain ⟨enabled, ⟨⟩⟩ := guarded step
    exact mirrored.call enabled apart

/-! ## The rebuild -/

section Rebuild

variable {refusal : Nat → Option IoError} {p q : Registry}

structure Registrable (p : Registry) (l : List (Σ _ : Nat, Nat × Interest)) : Prop where
  free : ∀ e ∈ l, p e.2.1 = none
  distinct : (l.map fun e => e.2.1).Nodup

theorem Registrable.tail {e : Σ _ : Nat, Nat × Interest} {l : List (Σ _ : Nat, Nat × Interest)}
    (h : Registrable p (e :: l)) :
    Registrable (update p e.2.1 (some (e.1, e.2.2))) l := by
  obtain ⟨fresh, distinct⟩ := List.nodup_cons.mp h.distinct
  refine ⟨?_, distinct⟩
  intro x mem
  have other : x.2.1 ≠ e.2.1 := fun same => fresh (List.mem_map.mpr ⟨x, mem, same⟩)
  rw [update_of_ne other]
  exact h.free x (List.mem_cons_of_mem e mem)

theorem Registrable.ne_alreadyExists (own : ∀ fd, refusal fd ≠ some .alreadyExists)
    {l : List (Σ _ : Nat, Nat × Interest)} (h : Registrable p l) :
    registerAll refusal p l ≠ .error .alreadyExists := by
  induction l generalizing p with
  | nil => simp [registerAll]
  | cons e l ih =>
    have free := h.free e List.mem_cons_self
    unfold registerAll
    split
    next q ok =>
      rw [(Registry.register_ok ok).2]
      exact ih h.tail
    next e' failed =>
      intro same
      cases same
      exact Registry.register_ne_alreadyExists (own e.2.1) free failed

theorem Registrable.succeeds {l : List (Σ _ : Nat, Nat × Interest)} (h : Registrable p l) :
    ∃ q, registerAll (fun _ => none) p l = .ok q := by
  induction l generalizing p with
  | nil => exact ⟨p, rfl⟩
  | cons e l ih =>
    have free := h.free e List.mem_cons_self
    unfold registerAll
    rw [Registry.register_free free]
    exact ih h.tail

theorem Registrable.registered {l : List (Σ _ : Nat, Nat × Interest)} (h : Registrable p l)
    (done : registerAll refusal p l = .ok q) (fd token : Nat) (interests : Interest) :
    q fd = some (token, interests) ↔
      p fd = some (token, interests) ∨ ⟨token, fd, interests⟩ ∈ l := by
  induction l generalizing p with
  | nil =>
    cases done
    simp
  | cons e l ih =>
    unfold registerAll at done
    split at done
    next p' ok =>
      obtain ⟨free, rfl⟩ := Registry.register_ok ok
      rw [ih h.tail done, List.mem_cons]
      by_cases same : fd = e.2.1
      · subst same
        rw [update_self, free]
        obtain ⟨x, d, i⟩ := e
        simp only [Option.some.injEq, Prod.mk.injEq, reduceCtorEq, false_or, Sigma.mk.injEq,
          heq_eq_eq, true_and, eq_comm]
      · have other : (⟨token, fd, interests⟩ : Σ _ : Nat, Nat × Interest) ≠ e := by
          rintro rfl
          exact same rfl
        rw [update_of_ne same]
        simp only [other, false_or]
    · cases done

theorem Mirrored.registrable {s : State} (h : Mirrored s) {wakeup : Nat}
    (unnamed : ∀ e ∈ s.sources.entries, e.2.1 ≠ wakeup)
    {order : List (Σ _ : Nat, Nat × Interest)} (walk : order.Perm s.sources.entries) :
    Registrable (instanceFor wakeup) order := by
  constructor
  · intro e mem
    exact update_of_ne (unnamed e (walk.mem_iff.mp mem)) ..
  · rw [(walk.map _).nodup_iff]
    have keys : (s.sources.entries.map Sigma.fst).Nodup := s.sources.nodupKeys
    rw [List.Nodup, List.pairwise_map] at keys ⊢
    refine keys.imp_of_mem ?_
    intro e x first second other same
    exact other (h.injective first second same)

end Rebuild

/-- In every run of calls that keeps descriptors apart, `sources` has exactly the tokens
that were added and not removed, each with the descriptor and interests that the poll
instance holds under it, no descriptor has two tokens, and a rebuild does not find one
that exists: what it registers, beside the waker, is what `sources` says. -/
theorem sources_rebuild {s : State} (h : selectorSystem.ReachableBy Apart s) :
    (∀ token, token ∈ s.live ↔ ∃ fd interests, s.sources.lookup token = some (fd, interests)) ∧
      (∀ token fd interests, s.sources.lookup token = some (fd, interests) →
        s.registry fd = some (token, interests)) ∧
      (∀ e ∈ s.sources.entries, ∀ x ∈ s.sources.entries, e.2.1 = x.2.1 → e.1 = x.1) ∧
      ∀ (wakeup : Nat) (order : List (Σ _ : Nat, Nat × Interest)) (refusal : Nat → Option IoError),
        (∀ e ∈ s.sources.entries, e.2.1 ≠ wakeup) → order.Perm s.sources.entries →
        (∀ fd, refusal fd ≠ some .alreadyExists) →
        (s.rebuildAfterFork wakeup order refusal).2 ≠ .error .alreadyExists ∧
          (s.rebuildAfterFork wakeup order fun _ => none).2 = .ok () ∧
          ((s.rebuildAfterFork wakeup order refusal).2 = .ok () → ∀ fd token interests,
            (s.rebuildAfterFork wakeup order refusal).1.registry fd = some (token, interests) ↔
              instanceFor wakeup fd = some (token, interests) ∨
                s.sources.lookup token = some (fd, interests)) := by
  have mirrored := mirrored_reachable h
  refine ⟨?_, mirrored.held, ?_, ?_⟩
  · intro token
    rw [mirrored.live, ← AList.lookup_isSome, Option.isSome_iff_exists, Prod.exists]
  · intro e known x also same
    exact mirrored.injective known also same
  · intro wakeup order refusal unnamed walk own
    have registrable := mirrored.registrable unnamed walk
    refine ⟨?_, ?_, ?_⟩
    · have new := registrable.ne_alreadyExists own
      unfold State.rebuildAfterFork
      split
      · simp
      next e failed =>
        intro same
        cases same
        exact new failed
    · obtain ⟨p, done⟩ := registrable.succeeds
      simp only [State.rebuildAfterFork, done]
    · intro ok fd token interests
      unfold State.rebuildAfterFork at ok ⊢
      cases done : registerAll refusal (instanceFor wakeup) order with
      | error e => rw [done] at ok; cases ok
      | ok p =>
        have exact_ := registrable.registered done fd token interests
        rw [walk.mem_iff, ← AList.mem_lookup_iff] at exact_
        exact exact_

/-- A descriptor stays registered when its token is removed without the source; adding it
again under a new token, and moving another token, leaves a selector that can be rebuilt. -/
theorem sources_rebuild_readded :
    ∃ s, selectorSystem.ReachableBy Apart s ∧ s.live = [12, 11] ∧
      (s.rebuildAfterFork 3 s.sources.entries fun _ => none).2 = .ok () := by
  have reached : ∃ s, selectorSystem.ReachableBy Apart s ∧
      (s.live = [12, 11] ∧ ∀ e ∈ s.sources.entries, e.2.1 ≠ 3) :=
    System.exists_reachableBy_of_runBy (s := {})
      (l := [.add 10 5 ⟨true, true⟩ none none, .remove 10 none,
        .add 11 5 ⟨true, true⟩ none none, .add 12 6 ⟨true, false⟩ none none,
        .reregister 12 7 ⟨true, true⟩ none])
      (.init rfl) (by decide +kernel)
  obtain ⟨s, run, live, unnamed⟩ := reached
  have rebuilt := (sources_rebuild run).2.2.2 3 s.sources.entries (fun _ => none) unnamed
    (List.Perm.refl _) (fun _ => by simp)
  exact ⟨s, run, live, rebuilt.2.1⟩

/-- A descriptor is added twice: both tokens stay in `sources`, and the rebuild fails. -/
theorem added_twice_fails_rebuild :
    ∃ s, selectorSystem.Reachable s ∧
      (s.live = [11, 10] ∧ s.sources.lookup 10 = some (5, ⟨true, true⟩) ∧
        s.sources.lookup 11 = some (5, ⟨true, true⟩) ∧
        s.registry 5 = some (11, ⟨true, true⟩) ∧
        (s.rebuildAfterFork 3 s.sources.entries fun _ => none).2 = .error .alreadyExists) :=
  System.exists_reachable_of_run (s := {})
    (l := [.add 10 5 ⟨true, true⟩ none none, .add 11 5 ⟨true, true⟩ none none])
    (.init rfl) (by decide +kernel)

end ServiceCache.Selector
