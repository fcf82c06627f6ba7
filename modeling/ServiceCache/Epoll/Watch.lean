import ServiceCache.Counting
import ServiceCache.Epoll.Demotion

/-!
# Nobody sleeps on a socket no one watches

The claim flags the subscription and then counts the threads, the thread counts itself in and
then looks for flags. So a flagged subscription is still in front of every counted thread, or its
registration is going to take the flag back.
-/

namespace ServiceCache.Epoll

open Transition Counting

def Thread.willClear (t : Thread) (p : Nat) : Bool :=
  match t.stage with
  | .inode | .polling => t.allowDirect && t.sub == p
  | .claiming | .counting | .refusing => t.sub == p
  | _ => false

def Thread.covers (t : Thread) (p : Nat) : Bool :=
  match t.stage with
  | .checking | .collecting => true
  | .scanning .check => t.toScan.contains p
  | .scanning .collect => t.toScan.contains p || t.found.contains p
  | .general => false
  | _ => t.todo.contains p

def Reclaims (s : State) (t : Thread) (a : Action) : Prop :=
  t.allowDirect = true → (s.sub t.sub).direct = true →
    (t.stage = .inode → s.target t.sub ≠ .closed) ∧
    (t.stage = .polling → a ≠ .fail ∧ s.target t.sub ≠ .closed ∧ s.target t.sub ≠ .file)

def Resolves (s : State) : Event → Prop
  | .thread i a => Reclaims s (s.thread i) a ∧ StillNames s (s.thread i) a
  | _ => True

theorem Resolves.names {s : State} {e : Event} (h : Resolves s e) : Names s e := by
  cases e with
  | thread i a => exact h.2
  | descriptor _ _ | handler _ _ => trivial

instance (s : State) (t : Thread) (a : Action) : Decidable (Reclaims s t a) :=
  inferInstanceAs (Decidable (_ → _ → (_ → _ ≠ _) ∧ (_ → _ ≠ _ ∧ _ ≠ _ ∧ _ ≠ _)))

instance (s : State) : (e : Event) → Decidable (Resolves s e)
  | .thread _ _ => inferInstanceAs (Decidable (_ ∧ _))
  | .descriptor _ _ | .handler _ _ => inferInstanceAs (Decidable True)

def State.ids (s : State) : List Nat := s.set.map (·.2)

section Local

variable {s : State} {t t' : Thread} {a : Action} {f : Effect}

theorem apply_direct (f : Effect) (p : Nat) : ((s.apply f).sub p).direct =
    match f with
    | .flag q value => if p = q then value else (s.sub p).direct
    | .insert _ _ => if p = s.subs then false else (s.sub p).direct
    | _ => (s.sub p).direct := by
  cases f <;> simp only [State.apply, setSub_sub] <;> split <;> simp_all

theorem Move.flagged (m : Move s t a t' f) {p : Nat} (h : ((s.apply f).sub p).direct = true) :
    (s.sub p).direct = true ∨ t'.willClear p = true := by
  rw [apply_direct] at h
  cases m with
  | flag at_ =>
    dsimp only at h
    split at h
    next same => exact .inr (by simp [Thread.willClear, same])
    · exact .inl h
  | claim _ | refuse _ | demote _ | add _ _ _ | modify _ _ _ _ =>
    dsimp only at h
    split at h
    · cases h
    · exact .inl h
  | _ => exact .inl h

theorem mem_without {fd p : Nat} (h : p ∈ (s.without fd).map (·.2)) : p ∈ s.ids := by
  obtain ⟨entry, mem, rfl⟩ := List.mem_map.mp h
  exact List.mem_map_of_mem (List.mem_of_mem_filter mem)

theorem Move.joined (m : Move s t a t' f) {p : Nat} (h : p ∈ (s.apply f).ids) :
    p ∈ s.ids ∨ ((s.apply f).sub p).direct = false ∨ t'.willClear p = true := by
  cases m with
  | add fd level at_ | modify fd level _ at_ =>
    obtain rfl | old := List.mem_cons.mp h
    · exact .inr (.inl (by rw [apply_direct]; simp))
    · exact .inl (mem_without old)
  | restore fd previous at_ ctl =>
    obtain rfl | old := List.mem_cons.mp h
    · exact .inr (.inr (by simp [Thread.willClear, ctl]))
    · exact .inl (mem_without old)
  | delete fd _ | remove fd _ _ => exact .inl (mem_without h)
  | _ => exact .inl h

theorem Move.cleared (m : Move s t a t' f) (fits : t.Fits) (reclaims : Reclaims s t a) {p : Nat}
    (h : t.willClear p = true) :
    t'.willClear p = true ∨ ((s.apply f).sub p).direct = false ∨ s.blocking = 0 := by
  cases m with
  | unknown at_ closed =>
    simp only [Thread.willClear, at_, Bool.and_eq_true, beq_iff_eq] at h
    obtain ⟨ctl, rfl⟩ := h
    refine .inr (.inl ?_)
    rw [← Bool.not_eq_true]
    exact fun direct => (reclaims ctl direct).1 at_ closed
  | unguarded at_ why =>
    simp only [Thread.willClear, at_, Bool.and_eq_true, beq_iff_eq] at h
    obtain ⟨ctl, rfl⟩ := h
    refine .inr (.inl ?_)
    rw [← Bool.not_eq_true]
    intro direct
    obtain ⟨failing, closed, -⟩ := (reclaims ctl direct).2 at_
    simp only [Thread.Fits, at_, ctl, if_true] at fits
    simp [failing, closed, fits.2] at why
  | handlerless at_ file ctl =>
    simp only [Thread.willClear, at_, Bool.and_eq_true, beq_iff_eq] at h
    obtain ⟨-, rfl⟩ := h
    refine .inr (.inl ?_)
    rw [← Bool.not_eq_true]
    exact fun direct => ((reclaims ctl direct).2 at_).2.2 file
  | claim at_ | refuse at_ =>
    simp only [Thread.willClear, at_, beq_iff_eq] at h
    refine .inr (.inl ?_)
    rw [apply_direct]
    simp [h]
  | nobody at_ zero => exact .inr (.inr zero)
  | scan purpose at_ =>
    obtain ⟨at_, -⟩ | ⟨at_, -⟩ | ⟨at_, -⟩ | ⟨at_, -⟩ := at_ <;> simp [Thread.willClear, at_] at h
  | _ => simp_all [Thread.willClear]

theorem Thread.covers_scanned {purpose : Purpose} {found : List Nat} {p : Nat}
    (outside : (purpose == .enter || purpose == .watch) = true) (h : t.todo.contains p = true) :
    (t.scanned found purpose).covers p = true := by
  cases purpose with
  | enter => by_cases none : found = [] <;> simpa [Thread.scanned, Thread.covers, none] using h
  | watch =>
    by_cases none : found = []
    · simpa [Thread.scanned, Thread.covers, none] using h
    · by_cases many : directPollCap < found.length
      · simp [Thread.scanned, Thread.covers, none, many]
      · simpa [Thread.scanned, Thread.covers, none, many] using h
  | check | collect => cases outside

theorem Move.covered (m : Move s t a t' f) (fits : t.Fits) {p : Nat} (mem : p ∈ s.ids)
    (h : t.covers p = true) : t'.covers p = true ∨ ((s.apply f).sub p).direct = false := by
  cases m with
  | scan purpose at_ =>
    refine .inl ?_
    obtain ⟨at_, rfl⟩ | ⟨at_, rfl⟩ | ⟨at_, rfl⟩ | ⟨at_, rfl⟩ := at_
    · simpa [Thread.covers, Thread.scan, State.ids] using mem
    · simpa [Thread.covers, Thread.scan, at_] using h
    · simpa [Thread.covers, Thread.scan, at_] using h
    · simpa [Thread.covers, Thread.scan, State.ids] using mem
  | scanned purpose at_ none =>
    refine .inl ?_
    cases purpose with
    | enter | watch => exact Thread.covers_scanned rfl (by simpa [Thread.covers, at_] using h)
    | check => simp [Thread.covers, at_, none] at h
    | collect => simpa [Thread.covers, Thread.scanned, at_, none] using h
  | stop q rest purpose at_ next direct stops =>
    refine .inl ?_
    cases purpose with
    | enter => exact Thread.covers_scanned rfl (by simpa [Thread.covers, at_] using h)
    | check => simp [Thread.covers, Thread.scanned]
    | collect | watch => cases stops
  | found q rest purpose at_ next stops =>
    refine .inl ?_
    cases purpose with
    | enter | check => cases stops
    | collect =>
      simp only [Thread.covers, at_, next, List.contains_cons, List.contains_append,
        List.contains_nil, Bool.or_false, Bool.or_eq_true] at h ⊢
      tauto
    | watch => simpa [Thread.covers, at_] using h
  | pass q rest purpose at_ next indirect =>
    by_cases same : p = q
    · exact .inr (same ▸ indirect)
    · refine .inl ?_
      cases purpose <;> simpa [Thread.covers, at_, next, same] using h
  | demote at_ =>
    simp only [Thread.Fits, at_] at fits
    obtain ⟨rest, todo⟩ : ∃ rest, t.todo = t.sub :: rest := List.head?_eq_some_iff.mp fits
    by_cases same : p = t.sub
    · exact .inr (by rw [apply_direct]; simp [same])
    · exact .inl (by simpa [Thread.covers, at_, todo, same] using h)
  | last at_ none => simp [Thread.covers, at_, none] at h
  | leave at_ => simp [Thread.covers, at_] at h
  | demoteAll _ | enter _ => exact .inl rfl
  | _ => exact .inl (by simpa [Thread.covers, Thread.register, *] using h)

theorem Thread.scanned_guard (purpose : Purpose) (found : List Nat) :
    (t.scanned found purpose).guard = t.guard := by cases purpose <;> rfl

theorem Move.guard (m : Move s t a t' f) (h : t'.guard = true) :
    t.guard = true ∨ ∀ p, t'.covers p = true := by
  cases m with
  | enter _ => exact .inr fun _ => rfl
  | leave _ => cases h
  | scanned purpose _ _ | stop _ _ purpose _ _ _ _ => exact .inl (by rwa [t.scanned_guard] at h)
  | _ => exact .inl h

theorem Move.blocking (m : Move s t a t' f) (fits : t.Fits) (pos : t.guard = true → 0 < s.blocking) :
    (s.apply f).blocking + (if t.guard = true then 1 else 0) =
      s.blocking + (if t'.guard = true then 1 else 0) := by
  cases m with
  | enter at_ =>
    simp only [Thread.Fits, at_] at fits
    simp [State.apply, fits]
  | leave at_ =>
    simp only [Thread.Fits, at_] at fits
    simp only [State.apply, fits, if_true]
    exact Nat.sub_add_cancel (pos fits)
  | scanned purpose _ _ | stop _ _ purpose _ _ _ _ => rw [t.scanned_guard]; rfl
  | _ => rfl

end Local

structure Watched (s : State) : Prop where
  fits : ∀ i, (s.thread i).Fits
  inside : ∀ i, (s.thread i).guard = true → i < s.threads
  count : s.blocking = tally (·.guard) s.thread s.threads
  seen : ∀ w p, (s.thread w).guard = true → (s.sub p).direct = true → p ∈ s.ids →
    (s.thread w).covers p = true ∨ ∃ i, (s.thread i).willClear p = true

section Watched

variable {s s' : State}

theorem Watched.pos (h : Watched s) {w : Nat} (guard : (s.thread w).guard = true) :
    0 < s.blocking := by
  rw [h.count]
  exact tally_pos (h.inside w guard) guard

theorem Watched.thread (h : Watched s) {i : Nat} {a : Action} {t : Thread} {f : Effect}
    (lt : i < s.threads) (m : Move s (s.thread i) a t f) (reclaims : Reclaims s (s.thread i) a) :
    Watched ((s.apply f).setThread i t) := by
  refine ⟨fun j => ?_, fun j guard => ?_, ?_, fun w p guard direct mem => ?_⟩
  · rw [setThread_thread, apply_thread]
    split
    · exact m.fits (h.fits i)
    · exact h.fits j
  · rw [setThread_thread, apply_thread] at guard
    change j < (s.apply f).threads
    rw [apply_threads]
    split at guard
    next same => exact same ▸ lt
    · exact h.inside j guard
  · have moved := m.blocking (h.fits i) h.pos
    have tallied := tally_update (p := (·.guard)) (f := s.thread) lt t
    change (s.apply f).blocking = tally _ (Function.update (s.apply f).thread i t) (s.apply f).threads
    rw [apply_thread, apply_threads]
    rw [h.count] at moved
    omega
  · change ((s.apply f).sub p).direct = true at direct
    change p ∈ (s.apply f).ids at mem
    have own (clears : t.willClear p = true) :
        ∃ j, (((s.apply f).setThread i t).thread j).willClear p = true :=
      ⟨i, by rw [setThread_thread, if_pos rfl]; exact clears⟩
    obtain flagged | clears := m.flagged direct
    · obtain old | fresh | clears := m.joined mem
      · -- a registration that was going to clear the flag still is: somebody is counted in
        have clearing (counted : 0 < s.blocking) (other : ∃ j, (s.thread j).willClear p = true) :
            ∃ j, (((s.apply f).setThread i t).thread j).willClear p = true := by
          obtain ⟨j, clears⟩ := other
          by_cases same : j = i
          · subst same
            obtain clears | out | zero := m.cleared (h.fits j) reclaims clears
            · exact own clears
            · simp [direct] at out
            · omega
          · exact ⟨j, by rw [setThread_thread, if_neg same, apply_thread]; exact clears⟩
        rw [setThread_thread, apply_thread] at guard ⊢
        split at guard
        next same =>
          rw [if_pos same]
          obtain before | all := m.guard guard
          · obtain covers | other := h.seen i p before flagged old
            · obtain covers | out := m.covered (h.fits i) old covers
              · exact .inl covers
              · simp [direct] at out
            · exact .inr (clearing (h.pos before) other)
          · exact .inl (all p)
        next other =>
          rw [if_neg other]
          exact (h.seen w p guard flagged old).imp_right (clearing (h.pos guard))
      · simp [direct] at fresh
      · exact .inr (own clears)
    · exact .inr (own clears)

theorem watched_reachable (h : epollSystem.ReachableBy Resolves s) : Watched s := by
  refine h.invariant ?_ (fun s e s' _ watched resolves hn => ?_)
  · rintro _ ⟨threads, fds, rfl⟩
    exact ⟨fun _ => rfl, fun _ guard => (by cases guard), (tally_eq_zero fun _ => rfl).symm,
      fun _ _ guard => (by cases guard)⟩
  · cases step_cases hn with
    | thread i a t f lt _ m => exact watched.thread lt m resolves.1
    | descriptor _ _ | handler _ _ =>
      exact ⟨watched.fits, watched.inside, watched.count, watched.seen⟩

end Watched

/-! ## What the set is waited on for -/

/-- The demotion put the dispatcher on a socket the subscription was claimed on, or the
subscription had left the set, or it was reported broken. -/
def Outcome.Sound (o : Outcome) (claims : List (Nat × Nat)) : Prop :=
  (∃ k, o.socket = some k ∧ (o.sub, k) ∈ claims) ∨ o.current = false ∨ o.reported = true

theorem Outcome.Stays.sound {o : Outcome} {claims : List (Nat × Nat)} (h : o.Stays claims) :
    o.Sound claims := by
  cases socket : o.socket with
  | some k => exact .inl ⟨k, socket, h.installed k socket⟩
  | none =>
    cases current : o.current with
    | false => exact .inr (.inl current)
    | true => exact .inr (.inr (h.reported socket current))

def Thread.registers (t : Thread) (p : Nat) : Bool :=
  t.allowDirect && t.sub == p &&
    match t.stage with
    | .inode | .polling | .claiming | .claimingSocket | .deciding | .naming | .flagging | .counting
    | .refusing | .refusingSocket | .installing | .subscribing | .failed => true
    | _ => false

structure State.Unwatched (s : State) (p : Nat) : Prop where
  listed : p ∈ s.ids
  returned : ∀ i, (s.thread i).registers p = false
  direct : (s.sub p).direct = true
  silent : ∀ k, (s.sub p).directSocket = some k → s.dispatcher k = false

structure State.Served (s : State) : Prop where
  asleep : ∀ w, (s.thread w).stage = .general → ∀ p, ¬ s.Unwatched p
  demoted : ∀ o ∈ s.outcomes, o.Sound s.claims

theorem willClear_registers {t : Thread} {p : Nat} (fits : t.Fits) (h : t.willClear p = true) :
    t.registers p = true := by
  cases at_ : t.stage <;> simp_all [Thread.willClear, Thread.registers, Thread.Fits]

theorem nobody_sleeps_unwatched {s : State} (reach : epollSystem.ReachableBy Resolves s) :
    s.Served := by
  have watched := watched_reachable reach
  have names := reach.weaken fun s e resolves => resolves.names
  refine ⟨fun w at_ p unwatched => ?_, fun o mem => ((reported_reachable names).stays o mem).sound⟩
  have guard : (s.thread w).guard = true := by simpa [Thread.Fits, at_] using watched.fits w
  obtain covers | ⟨i, clears⟩ := watched.seen w p guard unwatched.direct unwatched.listed
  · simp [Thread.covers, at_] at covers
  · have registers := willClear_registers (watched.fits i) clears
    simp [unwatched.returned i] at registers

/-- A thread demotes the subscription and goes to sleep in the general wait. -/
theorem nobody_sleeps_unwatched_demoted : ∃ s, epollSystem.ReachableBy Resolves s ∧
    (s.thread 1).stage = .general ∧ s.ids = [0] ∧ s.dispatcher 7 = true ∧ s.Served := by
  obtain ⟨s, reach, at_, ids, dispatcher⟩ : ∃ s, epollSystem.ReachableBy Resolves s ∧
      (s.thread 1).stage = .general ∧ s.ids = [0] ∧ s.dispatcher 7 = true :=
    System.exists_reachableBy_of_runBy (s := oneSocket 2) (.init ⟨2, _, rfl⟩)
      (show (epollSystem.runBy Resolves _ (addClaimed ++ listForDemotion 1 ++
        goes 1 11)).any _ = true by decide +kernel)
  exact ⟨s, reach, at_, ids, dispatcher, nobody_sleeps_unwatched reach⟩

/-- Two threads list the subscription for demotion. When the first is through, the number comes to
name a file; the second finds no socket to expect and no handler to install, and reports nothing. -/
theorem second_demotion_unreported : ¬ ∀ s, epollSystem.Reachable s → s.Served := by
  intro claim
  obtain ⟨s, reach, outcomes⟩ : ∃ s, epollSystem.Reachable s ∧
      s.outcomes = [⟨0, none, true, false⟩, ⟨0, some 7, true, false⟩] :=
    System.exists_reachable_of_run (s := oneSocket 3) (.init ⟨3, _, rfl⟩)
      (show (epollSystem.run _ (addClaimed ++ listForDemotion 1 ++ listForDemotion 2 ++ goes 1 6 ++
        [.descriptor 4 .file] ++ goes 2 3)).any _ = true by decide +kernel)
  have sound := (claim s reach).demoted ⟨0, none, true, false⟩ (by simp [outcomes])
  simp [Outcome.Sound] at sound

-- A restored subscription whose number is closed keeps its flag, while thread 1 sleeps.
example : (epollSystem.run (oneSocket 2) (addClaimed ++ [.thread 0 (.modify 4 true),
    .thread 1 .wait] ++ goes 1 7 ++ [.descriptor 4 .closed] ++ goes 0 4)).any (fun s =>
      (s.thread 1).stage = .general ∧ (s.thread 0).stage = .idle ∧ s.ids = [0] ∧
        (s.sub 0).direct = true ∧ s.dispatcher 7 = false) = true := by decide +kernel

end ServiceCache.Epoll
