import ServiceCache.Epoll.Steps

/-!
# A demoted subscription stays with its socket

A demotion resolves the number again, so it first reads which socket the subscription was claimed
on and wants that one. Another demotion of the subscription may have cleared it.
-/

namespace ServiceCache.Epoll

open Transition

/-- Whose call a thread is in: `epoll_ctl` holds no guard, a demotion works on the head of its
list, and the guard is held from `enter_blocking` on. -/
def Thread.Fits (t : Thread) : Prop :=
  match t.stage with
  | .inode | .polling | .installing | .failed =>
    if t.allowDirect then t.guard = false ∧ t.expected = none else t.todo.head? = some t.sub
  | .claiming | .claimingSocket | .deciding | .naming | .flagging | .counting | .refusing
  | .refusingSocket | .subscribing =>
    t.allowDirect = true ∧ t.guard = false ∧ t.expected = none
  | .demoted => t.todo.head? = some t.sub
  | .idle | .waiting | .direct | .entering | .scanning .enter | .scanning .watch => t.guard = false
  | .checking | .general | .scanning .check => t.guard = true
  | .collecting | .picking | .demotedSocket | .scanning .collect => True

/-- Where a demotion found no socket to expect, the number is closed or still names a socket the
subscription was claimed on. -/
def StillNames (s : State) (t : Thread) (a : Action) : Prop :=
  t.stage = .polling → t.allowDirect = false → t.expected = none →
    a = .fail ∨ s.target t.sub = .closed ∨
      ∃ c ∈ s.claims, c.1 = t.sub ∧ s.target t.sub = .socket c.2

def Names (s : State) : Event → Prop
  | .thread i a => StillNames s (s.thread i) a
  | _ => True

instance (s : State) (t : Thread) (a : Action) : Decidable (StillNames s t a) :=
  inferInstanceAs (Decidable (_ → _ → _ → _ ∨ _ ∨ ∃ c ∈ s.claims, c.1 = t.sub ∧ _ = _))

instance (s : State) : (e : Event) → Decidable (Names s e)
  | .thread i a => inferInstanceAs (Decidable (StillNames s (s.thread i) a))
  | .descriptor _ _ | .handler _ _ => inferInstanceAs (Decidable True)

section Fits

variable {s : State} {t t' : Thread} {a : Action} {f : Effect}

theorem Thread.Fits.scanned {purpose : Purpose} (h : t.Fits) (at_ : t.stage = .scanning purpose)
    (found : List Nat) : (t.scanned found purpose).Fits := by
  cases purpose <;> simp only [Thread.Fits, at_] at h <;> simp only [Thread.scanned]
  · split <;> exact h
  · split
    · exact h
    · trivial
  · trivial
  · split
    · exact h
    · split
      · trivial
      · exact h

theorem Move.fits (m : Move s t a t' f) (h : t.Fits) : t'.Fits := by
  cases m with
  | scanned purpose at_ _ => exact h.scanned at_ _
  | stop p _ purpose at_ _ _ _ => exact h.scanned at_ _
  | found p rest purpose at_ _ _ | pass p rest purpose at_ _ _ =>
    cases purpose <;> simp only [Thread.Fits, at_] at h ⊢ <;> exact h
  | scan purpose at_ =>
    obtain ⟨at_, rfl⟩ | ⟨at_, rfl⟩ | ⟨at_, rfl⟩ | ⟨at_, rfl⟩ := at_ <;>
      simp only [Thread.Fits, Thread.scan, at_] at h ⊢ <;> exact h
  | last at_ none =>
    simp only [Thread.Fits]
    cases t.guard <;> simp
  | _ => simp_all [Thread.Fits, Thread.register]

theorem fits_reachable (h : epollSystem.Reachable s) : ∀ i, (s.thread i).Fits := by
  refine h.invariant (P := fun s => ∀ i, (s.thread i).Fits) ?_ (fun s e s' _ fits _ hn => ?_)
  · rintro _ ⟨threads, fds, rfl⟩ i
    rfl
  · cases step_cases hn with
    | thread j a t f lt _ m =>
      intro i
      rw [setThread_thread, apply_thread]
      split
      · exact m.fits (fits j)
      · exact fits i
    | descriptor _ _ | handler _ _ => exact fits

end Fits

structure Outcome.Stays (o : Outcome) (claims : List (Nat × Nat)) : Prop where
  installed : ∀ k, o.socket = some k → (o.sub, k) ∈ claims
  reported : o.socket = none → o.current = true → o.reported = true

structure Thread.Informed (t : Thread) (claims : List (Nat × Nat)) : Prop where
  expected : t.allowDirect = false → ∀ k, t.expected = some k → (t.sub, k) ∈ claims
  installing : t.stage = .installing → t.allowDirect = false →
    ∃ k, t.mode = .socket k ∧ (t.sub, k) ∈ claims

structure Reported (s : State) : Prop where
  named : ∀ p k, (s.sub p).directSocket = some k → (p, k) ∈ s.claims
  informed : ∀ i, (s.thread i).Informed s.claims
  stays : ∀ o ∈ s.outcomes, o.Stays s.claims

section Reported

variable {s s' : State} {t t' : Thread} {a : Action} {f : Effect}

theorem apply_claims (f : Effect) : s.claims ⊆ (s.apply f).claims := by
  cases f <;> simp [State.apply, State.setSub]

theorem Outcome.Stays.mono {o : Outcome} (h : o.Stays s.claims) : o.Stays (s.apply f).claims :=
  ⟨fun k socket => apply_claims f (h.installed k socket), h.reported⟩

theorem Thread.Informed.mono (h : t.Informed s.claims) : t.Informed (s.apply f).claims := by
  refine ⟨fun demotion k named => apply_claims f (h.expected demotion k named), ?_⟩
  intro at_ demotion
  obtain ⟨k, mode, claimed⟩ := h.installing at_ demotion
  exact ⟨k, mode, apply_claims f claimed⟩

theorem apply_named (named : ∀ p k, (s.sub p).directSocket = some k → (p, k) ∈ s.claims)
    (f : Effect) (p k : Nat) (h : ((s.apply f).sub p).directSocket = some k) :
    (p, k) ∈ (s.apply f).claims := by
  cases f with
  | name q l =>
    simp only [State.apply, setSub_sub] at h
    split at h
    next same =>
      cases h
      exact List.mem_cons.mpr (.inl (by rw [same]))
    · exact List.mem_cons_of_mem _ (named p k h)
  | insert _ _ | flag _ _ | unname _ | produce _ =>
    simp only [State.apply, setSub_sub] at h
    split at h
    next same => first | exact named p k (same ▸ h) | cases h
    · exact named p k h
  | _ => exact named p k h

theorem Thread.Informed.scanned {claims : List (Nat × Nat)} (h : t.Informed claims)
    (found : List Nat) (purpose : Purpose) : (t.scanned found purpose).Informed claims := by
  cases purpose with
  | collect => exact ⟨h.expected, by simp [Thread.scanned]⟩
  | enter | check =>
    refine ⟨h.expected, ?_⟩
    simp only [Thread.scanned]
    split <;> simp
  | watch =>
    refine ⟨h.expected, ?_⟩
    simp only [Thread.scanned]
    split
    · simp
    · split <;> simp

theorem Move.informed (m : Move s t a t' f) (fits : t.Fits) (still : StillNames s t a)
    (named : ∀ p k, (s.sub p).directSocket = some k → (p, k) ∈ s.claims)
    (h : t.Informed s.claims) : t'.Informed s.claims := by
  cases m with
  | add _ _ _ | modify _ _ _ _ => exact ⟨by simp [Thread.register], by simp [Thread.register]⟩
  | restore _ _ _ ctl => exact ⟨by simp [ctl], by simp⟩
  | pick p rest at_ _ => exact ⟨fun _ k expected => named p k expected, by simp⟩
  | matched mode at_ is opened same demotion go =>
    refine ⟨h.expected, fun _ _ => ?_⟩
    cases expected : t.expected with
    | some k => exact ⟨k, same k expected, h.expected demotion k expected⟩
    | none =>
      obtain failing | closed | ⟨⟨_, k⟩, claimed, rfl, socket⟩ := still at_ demotion expected
      · simp [go] at failing
      · exact absurd (is.symm.trans closed) opened
      · exact ⟨k, is.symm.trans socket, claimed⟩
  | noCandidate at_ | refuseSocket at_ =>
    simp only [Thread.Fits, at_] at fits
    exact ⟨h.expected, by simp [fits]⟩
  | scanned purpose at_ _ | stop _ _ purpose at_ _ _ _ => exact h.scanned _ _
  | found _ _ _ at_ _ _ | pass _ _ _ at_ _ _ => exact ⟨h.expected, by simp [at_]⟩
  | last _ _ => exact ⟨h.expected, by cases t.guard <;> simp⟩
  | _ => exact ⟨h.expected, by simp_all [Thread.scan]⟩

theorem Move.outcome (m : Move s t a t' f) (still : StillNames s t a) (h : t.Informed s.claims)
    {o : Outcome} (mem : o ∈ (s.apply f).outcomes) : o ∈ s.outcomes ∨ o.Stays s.claims := by
  cases m with
  | attach k at_ demotion mode =>
    obtain rfl | old := List.mem_cons.mp mem
    · obtain ⟨l, same, claimed⟩ := h.installing at_ demotion
      cases mode.symm.trans same
      exact .inr ⟨fun _ same => by (cases same; exact claimed), fun none_ => by (cases none_)⟩
    · exact .inl old
  | attachSource at_ demotion mode =>
    obtain ⟨l, same, -⟩ := h.installing at_ demotion
    exact absurd same (mode l)
  | unattached at_ file demotion unnamed go =>
    obtain failing | closed | ⟨_, _, _, socket⟩ := still at_ demotion unnamed
    · simp [go] at failing
    · simp [file] at closed
    · simp [file] at socket
  | produce at_ demotion =>
    obtain rfl | old := List.mem_cons.mp mem
    · exact .inr ⟨fun _ socket => by (cases socket), fun _ current => current⟩
    · exact .inl old
  | _ => exact .inl mem

theorem Reported.thread (h : Reported s) {i : Nat} (m : Move s (s.thread i) a t f)
    (fits : (s.thread i).Fits) (still : StillNames s (s.thread i) a) :
    Reported ((s.apply f).setThread i t) := by
  refine ⟨apply_named h.named f, fun j => ?_, fun o mem => ?_⟩
  · rw [setThread_thread, apply_thread]
    split
    · exact (m.informed fits still h.named (h.informed i)).mono
    · exact (h.informed j).mono
  · obtain old | stays := m.outcome still (h.informed i) mem
    · exact (h.stays o old).mono
    · exact stays.mono

theorem reported_reachable (h : epollSystem.ReachableBy Names s) : Reported s := by
  refine h.invariant ?_ (fun s e s' reach reported names hn => ?_)
  · rintro _ ⟨threads, fds, rfl⟩
    exact ⟨by simp, fun _ => ⟨by simp, by simp⟩, by simp⟩
  · cases step_cases hn with
    | thread i a t f lt _ m =>
      exact reported.thread m (fits_reachable reach.reachable i) names
    | descriptor _ _ | handler _ _ => exact ⟨reported.named, reported.informed, reported.stays⟩

end Reported

theorem demoted_stays_with_socket {s : State} (reach : epollSystem.ReachableBy Names s) :
    ∀ o ∈ s.outcomes, o.Stays s.claims :=
  (reported_reachable reach).stays

def oneSocket (threads : Nat) : State :=
  { threads, fds := Function.update (fun _ => .closed) 4 (.socket 7) }

def goes (i n : Nat) : List Event := List.replicate n (.thread i .go)

def addClaimed : List Event :=
  .thread 0 (.add 4 true) :: goes 0 4 ++ [.thread 0 (.decide true true)] ++ goes 0 4

def listForDemotion (i : Nat) : List Event :=
  .thread i .wait :: goes i 2 ++ [.thread i .demote] ++ goes i 3

/-- The number comes to name another socket between the list and the demotion, which then reports
the subscription. -/
theorem demoted_stays_with_socket_reported : ∃ s, epollSystem.ReachableBy Names s ∧
    s.outcomes = [⟨0, none, true, true⟩] ∧ s.fds 4 = .socket 8 ∧
      ∀ o ∈ s.outcomes, o.Stays s.claims := by
  obtain ⟨s, reach, outcomes, fds⟩ : ∃ s, epollSystem.ReachableBy Names s ∧
      s.outcomes = [⟨0, none, true, true⟩] ∧ s.fds 4 = .socket 8 :=
    System.exists_reachableBy_of_runBy (s := oneSocket 2) (.init ⟨2, _, rfl⟩)
      (show (epollSystem.runBy Names _ (addClaimed ++ listForDemotion 1 ++
        [.descriptor 4 (.socket 8)] ++ goes 1 4)).any _ = true by decide +kernel)
  exact ⟨s, reach, outcomes, fds, demoted_stays_with_socket reach⟩

/-- Two threads list the subscription for demotion. When the first is through, the number comes to
name socket 8; the second finds no socket to expect and installs the dispatcher there. -/
theorem second_demotion_moves : ¬ ∀ s, epollSystem.Reachable s →
    ∀ o ∈ s.outcomes, o.Stays s.claims := by
  intro claim
  obtain ⟨s, reach, outcomes, claims⟩ : ∃ s, epollSystem.Reachable s ∧
      s.outcomes = [⟨0, some 8, true, false⟩, ⟨0, some 7, true, false⟩] ∧ s.claims = [(0, 7)] :=
    System.exists_reachable_of_run (s := oneSocket 3) (.init ⟨3, _, rfl⟩)
      (show (epollSystem.run _ (addClaimed ++ listForDemotion 1 ++ listForDemotion 2 ++ goes 1 6 ++
        [.descriptor 4 (.socket 8)] ++ goes 2 4)).any _ = true by decide +kernel)
  have moved := (claim s reach ⟨0, some 8, true, false⟩ (by simp [outcomes])).installed 8 rfl
  simp [claims] at moved

end ServiceCache.Epoll
