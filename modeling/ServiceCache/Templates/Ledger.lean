import ServiceCache.Counting
import ServiceCache.Templates.Bounds

/-!
# The process tree as the ledger

From what a step does to the processes and the owners' counts (`LedgerStep`) alone, the owner's
count of children is exact, and a template whose count is zero has no running descendant.
-/

namespace ServiceCache.Templates

open Function

structure SameLedger (h h' : Host) : Prop where
  ancestors : h'.ancestors = h.ancestors
  reported : h'.reported = h.reported
  children : h'.children = h.children
  exits : h'.exits = h.exits

/-- What a step does to processes and counts: nothing but processes ending, a
fresh root, a fork, a report, or exits read by an owner. -/
inductive LedgerStep (s : State) : State → Prop
  | keep {s' : State} (next : s'.nextHost = s.nextHost)
      (same : ∀ p, SameLedger (s.host p) (s'.host p))
      (ended : ∀ p, (s.host p).exited = true → (s'.host p).exited = true) : LedgerStep s s'
  | spawn {s' : State} (next : s'.nextHost = s.nextHost + 1)
      (host : s'.host = update s.host s.nextHost { phase := .preparing }) :
      LedgerStep s s'
  | fork {s' : State} (t k : Nat) (rest : List Nat) (serving : (s.host t).phase = .serving)
      (asked : (s.host t).commands ≠ []) (runs : s.Running t) (read : k ≤ (s.host t).exits)
      (next : s'.nextHost = s.nextHost + 1)
      (host : s'.host = update
        (update s.host t ((s.host t).forked s.now k rest))
        s.nextHost { ancestors := t :: (s.host t).ancestors }) : LedgerStep s s'
  | report {s' : State} (p t : Nat) (rest : List Nat) (known : p < s.nextHost)
      (parent : (s.host p).ancestors = t :: rest) (fresh : (s.host p).reported = false)
      (dead : ¬ s.Running p) (next : s'.nextHost = s.nextHost)
      (host : s'.host = update (update s.host p
        { s.host p with reported := true }) t { s.host t with exits := (s.host t).exits + 1 }) :
      LedgerStep s s'
  | drain {s' : State} (t : Nat) (c : Host) (next : s'.nextHost = s.nextHost)
      (host : s'.host = update s.host t c)
      (same : c.ancestors = (s.host t).ancestors ∧ c.reported = (s.host t).reported ∧
        c.exited = (s.host t).exited)
      (children : c.children = (s.host t).children - (s.host t).exits)
      (exits : c.exits = 0) : LedgerStep s s'

theorem LedgerStep.control {s s' : State} {t : Nat} {c : Host}
    (host : s'.host = update s.host t c) (next : s'.nextHost = s.nextHost)
    (same : SameLedger (s.host t) c) (ended : (s.host t).exited = true → c.exited = true) :
    LedgerStep s s' := by
  refine .keep next ?_ ?_
  · intro p
    rw [host]
    by_cases h : p = t
    · subst h
      simpa using same
    · rw [update_of_ne h]
      exact ⟨rfl, rfl, rfl, rfl⟩
  · intro p hp
    rw [host]
    by_cases h : p = t
    · subst h
      simpa using ended hp
    · simpa [h] using hp

theorem LedgerStep.of_host_eq {s s' : State} (host : s'.host = s.host)
    (next : s'.nextHost = s.nextHost) : LedgerStep s s' := by
  refine .keep next ?_ ?_
  · intro p
    rw [host]
    exact ⟨rfl, rfl, rfl, rfl⟩
  · intro p hp
    rwa [host]

theorem ledger_call {cfg : Config} {s s' : State} {r : Nat} (hc : CallCase cfg s r s') :
    LedgerStep s s' := by
  cases hc with
  | slot at_ => exact .of_host_eq (slotFor_host s _) (slotFor_nextHost s _)
  | spawnBase sl at_ guard dead => exact .spawn rfl rfl
  | sendBase sl b at_ guard dead base receiver =>
    exact .control (t := b) rfl rfl ⟨rfl, rfl, rfl, rfl⟩ (fun h => h)
  | send t at_ handle receiver =>
    exact .control (t := t) rfl rfl ⟨rfl, rfl, rfl, rfl⟩ (fun h => h)
  | spawnRecipe sl p at_ guard reply =>
    exact .control (t := p) rfl rfl ⟨rfl, rfl, rfl, rfl⟩ (fun h => h)
  | lock | clone | filled | giveUp | forkFailed | adopting | forget | adopted =>
    exact .of_host_eq rfl rfl

theorem ledger_owner {cfg : Config} {s s' : State} {t : Nat} (hc : OwnerCase cfg s t s') :
    LedgerStep s s' := by
  cases hc with
  | cloned k r rest at_ asked runs read =>
    exact .fork t k rest at_ (by simp [asked]) runs read rfl rfl
  | broke at_ => exact .control (t := t) rfl rfl ⟨rfl, rfl, rfl, rfl⟩ (fun _ => rfl)
  | ended at_ =>
    refine .control (t := t) (c := { s.host t with
      commands := [], exited := true, phase := .ended }) ?_ rfl ⟨rfl, rfl, rfl, rfl⟩
      (fun _ => rfl)
    simp [endOwner, State.dropCommands, State.setHost]
  | drained at_ idle => exact .drain t _ rfl rfl ⟨rfl, rfl, rfl⟩ rfl rfl
  | expired at_ idle childless due => exact .drain t _ rfl rfl ⟨rfl, rfl, rfl⟩ rfl rfl
  | froze | forkFails | hostGone | disconnected =>
    exact .control (t := t) rfl rfl ⟨rfl, rfl, rfl, rfl⟩ (fun h => h)

theorem ledger_next {cfg : Config} {s s' : State} {e : Event} (hb : Bounded s)
    (h : next cfg s e = some s') : LedgerStep s s' := by
  cases e with
  | call r c => exact ledger_call (callStep_cases h)
  | owner t turn => exact ledger_owner (ownerStep_cases h)
  | exit p =>
    obtain ⟨_, rfl⟩ := exitStep_eq h
    exact .control (t := p) rfl rfl ⟨rfl, rfl, rfl, rfl⟩ (fun _ => rfl)
  | report p =>
    obtain ⟨t, rest, parent, hp, fresh, dead, rfl⟩ := reportStep_eq h
    have hne : t ≠ p := Nat.ne_of_lt (hb.ancestors p t (by simp [parent]))
    refine .report p t rest hp parent fresh dead rfl ?_
    simp [reportTo, State.setHost, hne]
  | arrive | prune | tick =>
    cases h
    exact .of_host_eq rfl rfl

/-! ## Descendants -/

section Descendants

variable {s s' : State}

theorem LedgerStep.ancestors (hl : LedgerStep s s') {p : Nat}
    (hp : p < s.nextHost) : (s'.host p).ancestors = (s.host p).ancestors := by
  have hne : p ≠ s.nextHost := Nat.ne_of_lt hp
  cases hl with
  | keep next same ended => exact (same p).ancestors
  | spawn next host => rw [host, update_of_ne hne]
  | fork t k rest serving asked runs read next host =>
    rw [host, update_of_ne hne]
    by_cases h : p = t
    · subst h
      simp [Host.forked]
    · rw [update_of_ne h]
  | report q t rest known parent fresh dead next host =>
    rw [host]
    by_cases h : p = t
    · subst h
      simp
    · rw [update_of_ne h]
      by_cases hq : p = q
      · subst hq
        simp
      · rw [update_of_ne hq]
  | drain t c next host same children exits =>
    rw [host]
    by_cases h : p = t
    · subst h
      simpa using same.1
    · rw [update_of_ne h]

theorem LedgerStep.exited (hl : LedgerStep s s') {p : Nat} (hp : p < s.nextHost)
    (h : (s.host p).exited = true) : (s'.host p).exited = true := by
  have hne : p ≠ s.nextHost := Nat.ne_of_lt hp
  cases hl with
  | keep next same ended => exact ended p h
  | spawn next host => rwa [host, update_of_ne hne]
  | fork t k rest serving asked runs read next host =>
    rw [host, update_of_ne hne]
    by_cases ht : p = t
    · subst ht
      simpa [Host.forked] using h
    · rwa [update_of_ne ht]
  | report q t rest known parent fresh dead next host =>
    rw [host]
    by_cases ht : p = t
    · subst ht
      simpa using h
    · rw [update_of_ne ht]
      by_cases hq : p = q
      · subst hq
        simpa using h
      · rwa [update_of_ne hq]
  | drain t c next host same children exits =>
    rw [host]
    by_cases ht : p = t
    · subst ht
      simpa [same.2.2] using h
    · rwa [update_of_ne ht]

theorem LedgerStep.running (hb : Bounded s) (hl : LedgerStep s s') {p : Nat}
    (hp : p < s.nextHost) (h : s'.Running p) : s.Running p := by
  refine ⟨?_, ?_⟩
  · cases hx : (s.host p).exited with
    | false => rfl
    | true => exact absurd (hl.exited hp hx) (by simp [h.1])
  · intro a ha
    have halt : a < s.nextHost := Nat.lt_trans (hb.ancestors p a ha) hp
    cases hx : (s.host a).exited with
    | false => rfl
    | true =>
      have hnew := h.2 a (by rw [hl.ancestors hp]; exact ha)
      exact absurd (hl.exited halt hx) (by simp [hnew])

theorem State.Running.ancestor {p q : Nat} {rest : List Nat}
    (ha : (s.host p).ancestors = q :: rest) (hrest : rest = (s.host q).ancestors)
    (h : s.Running p) : s.Running q := by
  refine ⟨h.2 q (by simp [ha]), ?_⟩
  intro a haq
  exact h.2 a (by rw [ha, hrest]; exact List.mem_cons_of_mem q haq)

theorem LedgerStep.runningDescendant (hb : Bounded s) (hl : LedgerStep s s') {t : Nat}
    (h : s'.RunningDescendant t) :
    s.RunningDescendant t ∨ ((s.host t).phase = .serving ∧ (s.host t).commands ≠ []) := by
  obtain ⟨p, hp', ht, hrun⟩ := h
  by_cases hp : p < s.nextHost
  · left
    exact ⟨p, hp, hl.ancestors hp ▸ ht, hl.running hb hp hrun⟩
  cases hl with
  | keep next => omega
  | spawn next host =>
    have hpe : p = s.nextHost := by omega
    subst hpe
    simp [host] at ht
  | fork u k rest serving asked runs read next host =>
    have hpe : p = s.nextHost := by omega
    subst hpe
    simp only [host, update_self, List.mem_cons] at ht
    rcases ht with rfl | ht
    · exact .inr ⟨serving, asked⟩
    · -- the clone's parent is itself a running descendant
      exact .inl ⟨u, hb.lt_of_owned (by simp [serving]), ht, runs⟩
  | report q u rest known parent fresh dead next host => omega
  | drain u c next host same children exits => omega

end Descendants

/-! ## The count of children -/

def unreported (s : State) (t : Nat) : Nat :=
  Nat.count (fun p => (s.host p).ancestors.head? = some t ∧ (s.host p).reported = false) s.nextHost

/-- Each clone's line goes on with its parent's; a reported clone is dead; and the
owner's count is the forks neither reported nor read as ended. -/
structure Ledger (s : State) : Prop where
  chain : ∀ p q rest, (s.host p).ancestors = q :: rest → rest = (s.host q).ancestors
  dead : ∀ p, (s.host p).reported = true → ¬ s.Running p
  count : ∀ t, unreported s t + (s.host t).exits = (s.host t).children

section Ledger

variable {s s' : State}

theorem unreported_same (hn : s'.nextHost = s.nextHost)
    (ha : ∀ p < s.nextHost, (s'.host p).ancestors = (s.host p).ancestors)
    (hr : ∀ p < s.nextHost, (s'.host p).reported = (s.host p).reported) (t : Nat) :
    unreported s' t = unreported s t := by
  unfold unreported
  rw [hn]
  refine Counting.count_congr ?_
  intro p hp
  rw [ha p hp, hr p hp]

theorem unreported_add (hn : s'.nextHost = s.nextHost + 1)
    (ha : ∀ p < s.nextHost, (s'.host p).ancestors = (s.host p).ancestors)
    (hr : ∀ p < s.nextHost, (s'.host p).reported = (s.host p).reported)
    (fresh : (s'.host s.nextHost).reported = false) (t : Nat) :
    unreported s' t = unreported s t +
      if (s'.host s.nextHost).ancestors.head? = some t then 1 else 0 := by
  unfold unreported
  rw [hn, Nat.count_succ]
  have hold : Nat.count (fun p => (s'.host p).ancestors.head? = some t ∧
      (s'.host p).reported = false) s.nextHost =
      Nat.count (fun p => (s.host p).ancestors.head? = some t ∧
        (s.host p).reported = false) s.nextHost := by
    refine Counting.count_congr ?_
    intro p hp
    rw [ha p hp, hr p hp]
  rw [hold]
  simp [fresh]

theorem unreported_report {p u : Nat} {rest : List Nat} (hn : s'.nextHost = s.nextHost)
    (ha : ∀ q < s.nextHost, (s'.host q).ancestors = (s.host q).ancestors)
    (hr : ∀ q < s.nextHost, q ≠ p → (s'.host q).reported = (s.host q).reported)
    (known : p < s.nextHost) (parent : (s.host p).ancestors = u :: rest)
    (before : (s.host p).reported = false) (after : (s'.host p).reported = true) (t : Nat) :
    unreported s' t + (if t = u then 1 else 0) = unreported s t := by
  unfold unreported
  rw [hn]
  have hcount := Counting.count_change (n := s.nextHost) (i := p)
    (p := fun q => (s'.host q).ancestors.head? = some t ∧ (s'.host q).reported = false)
    (q := fun q => (s.host q).ancestors.head? = some t ∧ (s.host q).reported = false)
    known (by
      intro q hq hne
      rw [ha q hq, hr q hq hne])
  simp only [parent, before, after, List.head?_cons, Option.some.injEq, and_true,
    Bool.true_eq_false, and_false, if_false, Nat.add_zero] at hcount
  rw [← hcount]
  simp only [eq_comm]

theorem ledger_initial : Ledger {} := by
  refine ⟨by simp, by simp, ?_⟩
  intro t
  simp [unreported]

theorem Ledger.chain_step (hb : Bounded s) (hL : Ledger s) (hl : LedgerStep s s') (p q : Nat)
    (rest : List Nat) (h : (s'.host p).ancestors = q :: rest) :
    rest = (s'.host q).ancestors := by
  by_cases hp : p < s.nextHost
  · rw [hl.ancestors hp] at h
    have hq : q < s.nextHost := Nat.lt_trans (hb.ancestors p q (by simp [h])) hp
    rw [hl.ancestors hq]
    exact hL.chain p q rest h
  · have hfresh : (s.host p).ancestors = [] := by rw [hb.hosts p (Nat.le_of_not_lt hp)]
    cases hl with
    | keep next same ended => rw [(same p).ancestors, hfresh] at h; cases h
    | spawn next host =>
      by_cases hpe : p = s.nextHost
      · subst hpe; simp [host] at h
      · simp [host, hpe, hfresh] at h
    | fork t k req serving asked runs read next host =>
      have ht : t < s.nextHost := hb.lt_of_owned (by simp [serving])
      by_cases hpe : p = s.nextHost
      · subst hpe
        simp only [host, update_self, List.cons.injEq] at h
        obtain ⟨rfl, rfl⟩ := h
        simp [host, Nat.ne_of_lt ht, Host.forked]
      · have hpt : p ≠ t := by omega
        simp [host, hpe, hpt, hfresh] at h
    | report a t line known parent fresh dead next host =>
      have ht : t < a := hb.ancestors a t (by simp [parent])
      have h1 : p ≠ t := by omega
      have h2 : p ≠ a := by omega
      simp [host, h1, h2, hfresh] at h
    | drain t c next host same children exits =>
      by_cases hpt : p = t
      · subst hpt
        simp [host, same.1, hfresh] at h
      · simp [host, hpt, hfresh] at h

theorem LedgerStep.reported (hb : Bounded s) (hl : LedgerStep s s') {p : Nat}
    (h : (s'.host p).reported = true) :
    p < s.nextHost ∧ ((s.host p).reported = true ∨ ¬ s.Running p) := by
  have known : (s.host p).reported = true → p < s.nextHost := by
    intro hr
    by_contra hge
    rw [hb.hosts p (Nat.le_of_not_lt hge)] at hr
    cases hr
  have old : (s.host p).reported = true →
      p < s.nextHost ∧ ((s.host p).reported = true ∨ ¬ s.Running p) :=
    fun hr => ⟨known hr, .inl hr⟩
  cases hl with
  | keep next same ended => exact old ((same p).reported ▸ h)
  | spawn next host =>
    by_cases hpe : p = s.nextHost
    · subst hpe
      simp [host] at h
    · exact old (by simpa [host, hpe] using h)
  | fork t k rest serving asked runs read next host =>
    by_cases hpe : p = s.nextHost
    · subst hpe
      simp [host] at h
    · by_cases ht : p = t
      · subst ht
        exact old (by simpa [host, hpe, Host.forked] using h)
      · exact old (by simpa [host, hpe, ht] using h)
  | report q t rest known parent fresh dead next host =>
    by_cases hq : p = q
    · subst hq
      exact ⟨known, .inr dead⟩
    · by_cases ht : p = t
      · subst ht
        exact old (by simpa [host] using h)
      · exact old (by simpa [host, hq, ht] using h)
  | drain t c next host same children exits =>
    by_cases ht : p = t
    · subst ht
      exact old (by simpa [host, same.2.1] using h)
    · exact old (by simpa [host, ht] using h)

theorem Ledger.count_step (hb : Bounded s) (hL : Ledger s) (hl : LedgerStep s s') (t : Nat) :
    unreported s' t + (s'.host t).exits = (s'.host t).children := by
  have hold := hL.count t
  have anc : ∀ p < s.nextHost, (s'.host p).ancestors = (s.host p).ancestors :=
    fun p hp => hl.ancestors hp
  cases hl with
  | keep next same ended =>
    rw [unreported_same next anc (fun p _ => (same p).reported), (same t).exits,
      (same t).children]
    exact hold
  | spawn next host =>
    have rep : ∀ p < s.nextHost, (s'.host p).reported = (s.host p).reported := by
      intro p hp
      rw [host, update_of_ne (Nat.ne_of_lt hp)]
    rw [unreported_add next anc rep (by simp [host])]
    by_cases ht : t = s.nextHost
    · subst ht
      have : unreported s s.nextHost = 0 := by
        rw [hb.hosts s.nextHost (Nat.le_refl _)] at hold
        simpa using hold
      simp [host, this]
    · simpa [host, ht] using hold
  | fork u k rest serving asked runs read next host =>
    have hu : u < s.nextHost := hb.lt_of_owned (by simp [serving])
    have rep : ∀ p < s.nextHost, (s'.host p).reported = (s.host p).reported := by
      intro p hp
      rw [host, update_of_ne (Nat.ne_of_lt hp)]
      by_cases h : p = u
      · subst h
        simp [Host.forked]
      · rw [update_of_ne h]
    rw [unreported_add next anc rep (by simp [host])]
    by_cases htu : t = u
    · subst htu
      have hne : t ≠ s.nextHost := Nat.ne_of_lt hu
      simp only [host, update_self, update_of_ne hne, Host.forked,
        List.head?_cons, if_true]
      omega
    · have hclone : ¬ (u = t) := fun h => htu h.symm
      by_cases ht : t = s.nextHost
      · subst ht
        have : unreported s s.nextHost = 0 := by
          rw [hb.hosts s.nextHost (Nat.le_refl _)] at hold
          simpa using hold
        simp [host, this, hclone]
      · simpa [host, ht, htu, hclone] using hold
  | report p u rest known parent fresh dead next host =>
    have hu : u < p := hb.ancestors p u (by simp [parent])
    have hpu : p ≠ u := Nat.ne_of_gt hu
    have rep : ∀ q < s.nextHost, q ≠ p → (s'.host q).reported = (s.host q).reported := by
      intro q _ hq
      rw [host]
      by_cases h : q = u
      · subst h
        simp
      · rw [update_of_ne h, update_of_ne hq]
    have hcount := unreported_report next anc rep known parent fresh
      (by simp [host, hpu]) t
    by_cases htu : t = u
    · subst htu
      simp only [if_true] at hcount
      simp only [host, update_self]
      omega
    · simp only [htu, if_false, Nat.add_zero] at hcount
      rw [hcount]
      by_cases htp : t = p
      · subst htp
        simpa [host, htu] using hold
      · simpa [host, htu, htp] using hold
  | drain u c next host same children exits =>
    have rep : ∀ p < s.nextHost, (s'.host p).reported = (s.host p).reported := by
      intro p _
      rw [host]
      by_cases h : p = u
      · subst h
        simpa using same.2.1
      · rw [update_of_ne h]
    rw [unreported_same next anc rep]
    by_cases htu : t = u
    · subst htu
      simp only [host, update_self, children, exits]
      omega
    · simpa [host, htu] using hold

theorem Ledger.step (hb : Bounded s) (hL : Ledger s) (hl : LedgerStep s s') : Ledger s' := by
  refine ⟨hL.chain_step hb hl, ?_, hL.count_step hb hl⟩
  intro p hr hrun
  obtain ⟨hp, h⟩ := hl.reported hb hr
  have hbefore := hl.running hb hp hrun
  rcases h with h | h
  · exact hL.dead p h hbefore
  · exact h hbefore

theorem Ledger.direct_child (hb : Bounded s) (hL : Ledger s) {t : Nat} :
    ∀ p, t ∈ (s.host p).ancestors → s.Running p →
      ∃ c, (s.host c).ancestors.head? = some t ∧ s.Running c := by
  intro p
  induction p using Nat.strong_induction_on with
  | _ p ih =>
    intro ht hrun
    cases ha : (s.host p).ancestors with
    | nil =>
      rw [ha] at ht
      cases ht
    | cons q rest =>
      have hq : q < p := hb.ancestors p q (by simp [ha])
      have hrest := hL.chain p q rest ha
      rw [ha] at ht
      rcases List.mem_cons.mp ht with rfl | hmem
      · exact ⟨p, by simp [ha], hrun⟩
      · exact ih q hq (hrest ▸ hmem) (hrun.ancestor ha hrest)

theorem Ledger.not_runningDescendant (hb : Bounded s) (hL : Ledger s) {t : Nat}
    (h : unreported s t = 0) : ¬ s.RunningDescendant t := by
  rintro ⟨p, hp, ht, hrun⟩
  obtain ⟨c, hc, hcrun⟩ := hL.direct_child hb p ht hrun
  have hlt : c < s.nextHost := by
    obtain ⟨rest, ha⟩ := List.head?_eq_some_iff.mp hc
    exact hb.lt_of_ancestor (a := t) (by simp [ha])
  have hnone := Nat.count_iff_forall_not.mp h c hlt
  cases hr : (s.host c).reported with
  | false => exact hnone ⟨hc, hr⟩
  | true => exact hL.dead c hr hcrun

end Ledger

theorem ledger_reachable {cfg : Config} {ok : State → Event → Prop} {s : State}
    (h : (cache cfg).ReachableBy ok s) : Ledger s := by
  refine h.invariant (P := Ledger) ?_ ?_
  · rintro s rfl
    exact ledger_initial
  · intro s e s' hr hL _ hn
    have hb := bounded_reachable hr
    exact hL.step hb (ledger_next hb hn)

end ServiceCache.Templates
