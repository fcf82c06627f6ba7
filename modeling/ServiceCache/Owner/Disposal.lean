import ServiceCache.Owner.Handles

/-!
# Every host is accounted for

Whoever has a handle that is not accounted for has a next step. The exception is a freeze that
fails: `freeze_and_serve` returns without `kill` or `stop`, and of a host that `spawn` started a
zombie is left.
-/

namespace ServiceCache.Owner.Disposal

open Transition (System guarded)

namespace State

variable {s : State}

@[simp] theorem set_host_self (s : State) (h : Nat) (p : HostProcess) : (s.set h p).host h = p :=
  Function.update_self ..

theorem set_host_of_ne (s : State) {h k : Nat} (p : HostProcess) (ne : k ≠ h) :
    (s.set h p).host k = s.host k :=
  Function.update_of_ne ne ..

structure Sound (s : State) : Prop where
  fresh : ∀ h, s.hosts ≤ h → (s.host h).place = .dropped
  child : ∀ h, (s.host h).child = true → (s.host h).place.ofClone = false
  linked : ∀ c h, (s.host c).place.template? = some h → (s.host h).place = .forking c
  waited : ∀ h, (s.host h).place = .waited → (s.host h).running = false

structure Kept (s t : State) : Prop where
  sound : t.Sound
  hosts : s.hosts ≤ t.hosts
  rank : ∀ x < s.hosts, (t.host x).rank ≤ (s.host x).rank

theorem Kept.trans {t u : State} (first : s.Kept t) (second : t.Kept u) : s.Kept u where
  sound := second.sound
  hosts := Nat.le_trans first.hosts second.hosts
  rank x known :=
    Nat.le_trans (second.rank x (Nat.lt_of_lt_of_le known first.hosts)) (first.rank x known)

theorem Sound.known (sound : s.Sound) {h : Nat} (placed : (s.host h).place ≠ .dropped) :
    h < s.hosts := by
  by_contra beyond
  exact placed (sound.fresh h (Nat.le_of_not_lt beyond))

theorem Sound.set (sound : s.Sound) {h : Nat} {p : HostProcess} (known : h < s.hosts)
    (child : p.child = true → p.place.ofClone = false)
    (waited : p.place = .waited → p.running = false)
    (link : ∀ k, p.place.template? = some k → k ≠ h ∧ (s.host k).place = .forking h)
    (free : ∀ c, c ≠ h → (s.host c).place.template? = some h → p.place = .forking c) :
    (s.set h p).Sound where
  fresh k beyond := by
    have ne : k ≠ h := by
      rintro rfl
      exact absurd known (Nat.not_lt.mpr beyond)
    rw [set_host_of_ne s p ne]
    exact sound.fresh k beyond
  child k := by
    by_cases at_ : k = h
    · subst at_
      rw [set_host_self]
      exact child
    · rw [set_host_of_ne s p at_]
      exact sound.child k
  linked c k is := by
    by_cases at_ : c = h
    · subst at_
      rw [set_host_self] at is
      obtain ⟨ne, forks⟩ := link k is
      rw [set_host_of_ne s p ne]
      exact forks
    · rw [set_host_of_ne s p at_] at is
      by_cases own : k = h
      · subst own
        rw [set_host_self]
        exact free c at_ is
      · rw [set_host_of_ne s p own]
        exact sound.linked c k is
  waited k := by
    by_cases at_ : k = h
    · subst at_
      rw [set_host_self]
      exact waited
    · rw [set_host_of_ne s p at_]
      exact sound.waited k

theorem Sound.kept_set {h : Nat} {p : HostProcess} (sound : (s.set h p).Sound)
    (rank : p.rank ≤ (s.host h).rank) : s.Kept (s.set h p) where
  sound
  hosts := Nat.le_refl _
  rank x _ := by
    by_cases at_ : x = h
    · subst at_
      rw [set_host_self]
      exact rank
    · exact Nat.le_of_eq (congrArg HostProcess.rank (set_host_of_ne s p at_))

theorem Sound.kept_move (sound : s.Sound) {h : Nat} (place : Place)
    (placed : (s.host h).place ≠ .dropped)
    (free : ∀ c, (s.host c).place.template? ≠ some h)
    (plain : place.template? = none ∧ place ≠ .waited)
    (child : (s.host h).child = true → place.ofClone = false)
    (lower : place.level ≤ (s.host h).place.level) : s.Kept (s.move h place) := by
  have moved : (s.move h place).Sound := by
    apply sound.set (sound.known placed)
    · exact child
    · exact fun is => absurd is plain.2
    · intro k is
      rw [plain.1] at is
      cases is
    · exact fun c _ is => absurd is (free c)
  exact moved.kept_set (Nat.add_le_add_right (Nat.mul_le_mul_left 2 lower) _)

theorem Sound.free (sound : s.Sound) {h : Nat} (resting : ∀ c, (s.host h).place ≠ .forking c) (c : Nat) :
    (s.host c).place.template? ≠ some h :=
  fun is => resting c (sound.linked c h is)

theorem Sound.outcome (sound : s.Sound) {h : Nat} {before ok_ failed : Place} {ok : Bool} {t : State}
    (next : s.outcome h before ok_ failed ok = some t)
    (placed : before ≠ .dropped ∧ ∀ c, before ≠ .forking c)
    (plain : ∀ place ∈ [ok_, failed], (place.template? = none ∧ place ≠ .waited) ∧
      place.level ≤ before.level)
    (child : (s.host h).child = true → ok_.ofClone = false ∧ (failed.ofClone = false ∨ ok = true)) :
    s.Kept t := by
  obtain ⟨is, ⟨⟩⟩ := guarded next
  have member : (if ok then ok_ else failed) ∈ [ok_, failed] := by cases ok <;> simp
  obtain ⟨plain, lower⟩ := plain _ member
  apply sound.kept_move
  · rw [is]
    exact placed.1
  · exact sound.free fun c => is ▸ placed.2 c
  · exact plain
  · intro spawned
    obtain ⟨good, bad⟩ := child spawned
    cases ok with
    | true => exact good
    | false => exact bad.resolve_right Bool.false_ne_true
  · rw [is]
    exact lower

theorem Sound.forkEnds (sound : s.Sound) {h c : Nat} (link : (s.host c).place.template? = some h)
    {x y : Place} (plain : x.template? = none ∧ x ≠ .waited)
    (lower : x.level ≤ (s.host c).place.level)
    (after : y = .leaving ∨ y = .serving) : s.Kept ((s.move c x).move h y) := by
  have forks : (s.host h).place = .forking c := sound.linked c h link
  have ne : h ≠ c := by
    rintro rfl
    rw [forks] at link
    cases link
  have clone : (s.host c).child = false := by
    cases is : (s.host c).child with
    | false => rfl
    | true =>
      have := sound.child c is
      cases at_ : (s.host c).place <;> simp_all [Place.ofClone, Place.template?]
  have first : s.Kept (s.move c x) := by
    apply sound.kept_move
    · intro is
      rw [is] at link
      cases link
    · apply sound.free
      intro d is
      rw [is] at link
      cases link
    · exact plain
    · exact fun spawned => absurd spawned (by simp [clone])
    · exact lower
  have here : ((s.move c x).host h).place = .forking c := by
    rw [move, set_host_of_ne s _ ne, forks]
  refine first.trans (first.sound.kept_move _ ?_ ?_ ?_ ?_ ?_)
  · rw [here]
    exact nofun
  · intro d is
    by_cases at_ : d = c
    · subst at_
      rw [move, set_host_self, plain.1] at is
      cases is
    · rw [move, set_host_of_ne s _ at_] at is
      have other := sound.linked d h is
      rw [forks] at other
      exact at_ (Place.forking.inj other).symm
  · rcases after with rfl | rfl <;> exact ⟨rfl, nofun⟩
  · rcases after with rfl | rfl <;> exact fun _ => rfl
  · rw [here]
    rcases after with rfl | rfl
    · exact Nat.le_succ 1
    · exact Nat.le_refl 2

theorem Sound.add (sound : s.Sound) {p : HostProcess} (child : p.child = true → p.place.ofClone = false)
    (new : p.place ≠ .waited)
    (link : ∀ k, p.place.template? = some k → (s.host k).place = .forking s.hosts) :
    s.Kept { s.set s.hosts p with hosts := s.hosts + 1 } where
  sound := by
    have old : ∀ {k : Nat} {x : Place}, (s.host k).place = x → x ≠ .dropped → k ≠ s.hosts := by
      rintro k x is placed rfl
      exact placed (is ▸ sound.fresh _ (Nat.le_refl _))
    refine { fresh := ?_, child := ?_, linked := ?_, waited := ?_ }
    · intro k beyond
      have ne : k ≠ s.hosts := Nat.ne_of_gt beyond
      simp only [set_host_of_ne s p ne]
      exact sound.fresh k (Nat.le_of_succ_le beyond)
    · intro k
      by_cases at_ : k = s.hosts
      · subst at_
        simpa only [set_host_self] using child
      · simpa only [set_host_of_ne s p at_] using sound.child k
    · intro c k is
      by_cases at_ : c = s.hosts
      · subst at_
        simp only [set_host_self] at is
        have forks := link k is
        simpa only [set_host_of_ne s p (old forks nofun)] using forks
      · simp only [set_host_of_ne s p at_] at is
        have forks := sound.linked c k is
        simpa only [set_host_of_ne s p (old forks nofun)] using forks
    · intro k
      by_cases at_ : k = s.hosts
      · subst at_
        simpa only [set_host_self] using fun is => absurd is new
      · simpa only [set_host_of_ne s p at_] using sound.waited k
  hosts := Nat.le_succ _
  rank x known :=
    Nat.le_of_eq (congrArg HostProcess.rank (set_host_of_ne s p (Nat.ne_of_lt known)))

theorem Sound.kept_of_place (sound : s.Sound) {t : State} (hosts : t.hosts = s.hosts)
    (place : ∀ k, (t.host k).place = (s.host k).place)
    (child : ∀ k, (t.host k).child = (s.host k).child)
    (running : ∀ k, (t.host k).running = true → (s.host k).running = true) : s.Kept t where
  sound :=
    { fresh := by
        intro h beyond
        rw [hosts] at beyond
        rw [place]
        exact sound.fresh h beyond
      child := by
        intro h spawned
        rw [child] at spawned
        rw [place]
        exact sound.child h spawned
      linked := by
        intro c h link
        rw [place] at link ⊢
        exact sound.linked c h link
      waited := by
        intro h is
        rw [place] at is
        cases now : (t.host h).running with
        | false => rfl
        | true => exact (running h now).symm.trans (sound.waited h is) }
  hosts := Nat.le_of_eq hosts.symm
  rank x _ := by
    have le : (t.host x).running.toNat ≤ (s.host x).running.toNat := by
      cases now : (t.host x).running with
      | false => exact Nat.zero_le _
      | true => exact Nat.le_of_eq (congrArg Bool.toNat (running x now).symm)
    unfold HostProcess.rank
    rw [place]
    exact Nat.add_le_add_left le _

theorem Sound.kept_flag (sound : s.Sound) {h : Nat} {p : HostProcess} (place : p.place = (s.host h).place)
    (child : p.child = (s.host h).child) (running : p.running = true → (s.host h).running = true) :
    s.Kept (s.set h p) := by
  have same : ∀ k, (s.set h p).host k = s.host k ∨ (k = h ∧ (s.set h p).host k = p) := by
    intro k
    by_cases at_ : k = h
    · subst at_
      exact .inr ⟨rfl, set_host_self ..⟩
    · exact .inl (set_host_of_ne s p at_)
  refine sound.kept_of_place (t := s.set h p) rfl ?_ ?_ ?_
  · intro k
    rcases same k with is | ⟨rfl, is⟩
    · rw [is]
    · rw [is, place]
  · intro k
    rcases same k with is | ⟨rfl, is⟩
    · rw [is]
    · rw [is, child]
  · intro k
    rcases same k with is | ⟨rfl, is⟩
    · rw [is]
      exact id
    · rw [is]
      exact running

theorem Sound.setAsk (sound : s.Sound) (a : Nat) (ask : Ask) : s.Kept (s.setAsk a ask) :=
  sound.kept_of_place rfl (fun _ => rfl) (fun _ => rfl) (fun _ => id)

theorem Sound.fork (sound : s.Sound) {h a : Nat} (serving : (s.host h).place = .serving) (made : Bool) :
    s.Kept (s.fork h a made) := by
  have asked := sound.setAsk a { s.ask a with queued := false }
  have placed : (s.host h).place ≠ .dropped := by simp [serving]
  have free := sound.free (h := h) (by simp [serving])
  have level : (s.host h).place.level = 2 := congrArg Place.level serving
  cases made with
  | false =>
    refine asked.trans (asked.sound.kept_move _ placed free ⟨rfl, nofun⟩ (fun _ => rfl) ?_)
    exact Nat.le_trans (Nat.le_succ 1) (Nat.le_of_eq level.symm)
  | true =>
    have forks := asked.sound.kept_move (.forking s.hosts) placed free ⟨rfl, nofun⟩
      (fun _ => rfl) (Nat.le_of_eq level.symm)
    refine asked.trans (forks.trans (forks.sound.add nofun nofun ?_))
    intro k is
    obtain rfl : h = k := Option.some.inj is
    exact congrArg HostProcess.place (set_host_self ..)

theorem Sound.answered (sound : s.Sound) {c : Nat} {ok : Bool} {t : State}
    (next : s.answered c ok = some t) : s.Kept t := by
  unfold State.answered at next
  split at next
  next h a is =>
    obtain ⟨forks, ⟨⟩⟩ := guarded next
    cases ok with
    | false => exact sound.forkEnds (by rw [is]; rfl) ⟨rfl, nofun⟩ (Nat.zero_le _) (.inl rfl)
    | true =>
      have spawned : (s.host c).child = true → Place.ofClone (.asked h a) = false :=
        is ▸ sound.child c
      have moved : (s.set c { s.host c with running := true, place := .announcing h a }).Sound := by
        apply sound.set (sound.known (by simp [is]))
        · exact fun child => absurd (spawned child) nofun
        · exact nofun
        · intro k link
          obtain rfl : h = k := Option.some.inj link
          refine ⟨?_, forks⟩
          rintro rfl
          rw [is] at forks
          cases forks
        · exact fun d _ link => absurd link (sound.free (by simp [is]) d)
      refine moved.kept_set ?_
      simp only [HostProcess.rank, is, Place.level, Bool.toNat_true]
      omega
  next => cases next

theorem Sound.announced (sound : s.Sound) {c : Nat} {ok : Bool} {t : State}
    (next : s.announced c ok = some t) : s.Kept t := by
  unfold State.announced at next
  split at next
  next h a is =>
    obtain ⟨forks, ⟨⟩⟩ := guarded next
    have link : (s.host c).place.template? = some h := by rw [is]; rfl
    cases ok with
    | false => exact sound.forkEnds link ⟨rfl, nofun⟩ (Nat.zero_le _) (.inl rfl)
    | true =>
      apply sound.forkEnds link
      · split <;> exact ⟨rfl, nofun⟩
      · rw [is]
        split <;> simp [Place.level]
      · exact .inr rfl
  next => cases next

theorem Sound.of_clone (sound : s.Sound) {h : Nat} {place : Place} (is : (s.host h).place = place)
    (clone : place.ofClone = true) : (s.host h).child = false := by
  cases spawned : (s.host h).child with
  | false => rfl
  | true =>
    have := sound.child h spawned
    rw [is, clone] at this
    cases this

theorem Sound.take (sound : s.Sound) {c : Nat} {t : State} (next : s.take c = some t) : s.Kept t := by
  unfold State.take at next
  split at next
  next a is =>
    obtain rfl := Option.some.inj next
    have clone := sound.of_clone is rfl
    exact sound.kept_move _ (by simp [is]) (sound.free (by simp [is])) ⟨rfl, nofun⟩ (by simp [clone])
      (by simp [Place.level, is])
  next => cases next

theorem Sound.thread (sound : s.Sound) {c : Nat} {made : Bool} {t : State}
    (next : s.thread c made = some t) : s.Kept t := by
  unfold State.thread at next
  split at next
  next a is =>
    obtain rfl := Option.some.inj next
    have clone := sound.of_clone is rfl
    have placed : (s.host c).place ≠ .dropped := by simp [is]
    have free := sound.free (h := c) (by simp [is])
    split
    · have moved : (s.set c { s.host c with ready := true, place := .initializing }).Sound := by
        apply sound.set (sound.known placed)
        · exact fun _ => rfl
        · exact nofun
        · exact nofun
        · exact fun d _ link => absurd link (free d)
      exact moved.kept_set (by simp [HostProcess.rank, Place.level, is])
    · exact sound.kept_move _ placed free ⟨rfl, nofun⟩ (by simp [clone]) (by simp [Place.level, is])
    · exact sound.kept_move _ placed free ⟨rfl, nofun⟩ (by simp [clone]) (Nat.zero_le _)
  next => cases next

theorem Sound.cancel (sound : s.Sound) (a : Nat) : s.Kept (s.cancel a) := by
  have cases_ : ∀ h, ((s.host h).place = .sent a ∧
      (s.cancel a).host h = { s.host h with place := .dropped }) ∨
      (s.cancel a).host h = s.host h := by
    intro h
    by_cases is : (s.host h).place = .sent a
    · exact .inl ⟨is, if_pos is⟩
    · exact .inr (if_neg is)
  refine ⟨?_, Nat.le_refl _, ?_⟩
  · refine { fresh := ?_, child := ?_, linked := ?_, waited := ?_ }
    · intro h beyond
      rcases cases_ h with ⟨-, now⟩ | same
      · rw [now]
      · exact same ▸ sound.fresh h beyond
    · intro h spawned
      rcases cases_ h with ⟨is, now⟩ | same
      · rw [now, sound.of_clone is rfl] at spawned
        cases spawned
      · rw [same] at spawned ⊢
        exact sound.child h spawned
    · intro c h link
      rcases cases_ c with ⟨-, now⟩ | same
      · rw [now] at link
        cases link
      · rw [same] at link
        have forks := sound.linked c h link
        rcases cases_ h with ⟨is, -⟩ | other
        · rw [forks] at is
          cases is
        · rw [other]
          exact forks
    · intro h is
      rcases cases_ h with ⟨-, now⟩ | same
      · rw [now] at is
        cases is
      · rw [same] at is ⊢
        exact sound.waited h is
  · intro h _
    rcases cases_ h with ⟨-, now⟩ | same
    · rw [now]
      exact Nat.add_le_add_right (Nat.mul_le_mul_left 2 (Nat.zero_le _)) _
    · exact Nat.le_of_eq (congrArg HostProcess.rank same)

theorem Sound.step (sound : s.Sound) {e : Event} {t : State} (freezes : Freezes s e)
    (next : s.step e = some t) : s.Kept t := by
  cases e with
  | spawn =>
    obtain rfl := Option.some.inj next
    exact sound.add (fun _ => rfl) nofun nofun
  | prepared | started | initialized | readied =>
    exact sound.outcome next ⟨nofun, nofun⟩ (by simp [Place.template?, Place.level])
      fun _ => ⟨rfl, .inl rfl⟩
  | frozen h ok =>
    refine sound.outcome next ⟨nofun, nofun⟩ (by simp [Place.template?, Place.level]) ?_
    intro spawned
    exact ⟨rfl, .inr (freezes.resolve_right (by simp [spawned]))⟩
  | request template purpose =>
    obtain rfl := Option.some.inj next
    exact sound.kept_of_place rfl (fun _ => rfl) (fun _ => rfl) (fun _ => id)
  | fork h a made =>
    obtain ⟨⟨serving, -⟩, ⟨⟩⟩ := guarded next
    exact sound.fork serving made
  | answered c ok => exact sound.answered next
  | announced c ok => exact sound.announced next
  | take c => exact sound.take next
  | thread c made => exact sound.thread next
  | cancel a =>
    obtain rfl := Option.some.inj next
    exact sound.cancel a
  | cancelFill h =>
    obtain rfl := Option.some.inj next
    exact sound.kept_flag rfl rfl id
  | leave h =>
    obtain ⟨is, ⟨⟩⟩ := guarded next
    refine sound.kept_move _ ?_ (sound.free ?_) ⟨rfl, nofun⟩ (fun _ => rfl) ?_
    · rcases is with is | is <;> simp [is]
    · rcases is with is | is <;> simp [is]
    · rcases is with is | is <;> simp [Place.level, is]
  | ends h =>
    obtain rfl := Option.some.inj next
    exact sound.kept_flag rfl rfl nofun
  | waited h =>
    obtain ⟨⟨is, ended⟩, ⟨⟩⟩ := guarded next
    have moved : (s.move h .waited).Sound := by
      apply sound.set (sound.known (by simp [is]))
      · exact fun _ => rfl
      · exact fun _ => ended
      · exact nofun
      · exact fun d _ link => absurd link (sound.free (by simp [is]) d)
    exact moved.kept_set (Nat.add_le_add_right (Nat.zero_le _) _)

theorem rank_move_lt {h : Nat} {place : Place} (lower : place.level < (s.host h).place.level) :
    ((s.move h place).host h).rank < (s.host h).rank := by
  rw [move, set_host_self]
  exact Nat.add_lt_add_right (Nat.mul_lt_mul_of_pos_left lower Nat.two_pos) _

theorem outcome_lower {h : Nat} {before ok_ failed : Place} (is : (s.host h).place = before)
    (lower : ok_.level < before.level ∧ failed.level < before.level) (ok : Bool) :
    ∃ t, s.outcome h before ok_ failed ok = some t ∧ (t.host h).rank < (s.host h).rank := by
  refine ⟨_, if_pos is, rank_move_lt ?_⟩
  rw [is]
  cases ok with
  | true => exact lower.1
  | false => exact lower.2

theorem rank_forkEnds_lt {h c : Nat} {x y : Place} (ne : c ≠ h)
    (lower : x.level < (s.host c).place.level) :
    (((s.move c x).move h y).host c).rank < (s.host c).rank := by
  rw [move, set_host_of_ne _ _ ne]
  exact rank_move_lt lower

theorem Sound.forking (sound : s.Sound) {h c : Nat} (link : (s.host c).place.template? = some h) :
    (s.host h).place = .forking c ∧ c ≠ h := by
  have forks := sound.linked c h link
  refine ⟨forks, ?_⟩
  rintro rfl
  rw [forks] at link
  cases link

theorem forall_one {P : Event → Prop} {e : Event} (he : P e) : ∀ x ∈ [e], P x := by
  simpa using he

theorem forall_two {P : Event → Prop} {e f : Event} (he : P e) (hf : P f) : ∀ x ∈ [e, f], P x := by
  simpa using ⟨he, hf⟩

theorem Sound.progress (sound : s.Sound) {h : Nat} (open_ : (s.host h).accounted = false) :
    (∃ e ∈ s.outcomes h, Freezes s e) ∧
    ∀ e ∈ s.outcomes h, ∃ t, s.step e = some t ∧ (t.host h).rank < (s.host h).rank := by
  unfold HostProcess.accounted at open_
  unfold State.outcomes
  cases is : (s.host h).place with
  | preparing =>
    refine ⟨⟨.prepared h true, by simp, trivial⟩, forall_two ?_ ?_⟩
    · exact outcome_lower is (by decide) true
    · exact outcome_lower is (by decide) false
  | starting =>
    refine ⟨⟨.started h true, by simp, trivial⟩, forall_two ?_ ?_⟩
    · exact outcome_lower is (by decide) true
    · exact outcome_lower is (by decide) false
  | initializing =>
    refine ⟨⟨.initialized h true, by simp, trivial⟩, forall_two ?_ ?_⟩
    · exact outcome_lower is (by decide) true
    · exact outcome_lower is (by decide) false
  | freezing =>
    refine ⟨⟨.frozen h true, by simp, .inl rfl⟩, forall_two ?_ ?_⟩
    · exact outcome_lower is (by decide) true
    · exact outcome_lower is (by decide) false
  | readying =>
    refine ⟨⟨.readied h, by simp, trivial⟩, forall_one ?_⟩
    exact outcome_lower is (by decide) _
  | asked k a =>
    obtain ⟨forks, ne⟩ := sound.forking (by rw [is]; rfl)
    refine ⟨⟨.answered h true, by simp, trivial⟩, forall_two ?_ ?_⟩
    all_goals simp only [State.step, State.answered, is, forks, if_true, Option.some.injEq]
    · refine ⟨_, rfl, ?_⟩
      simp only [set_host_self, HostProcess.rank, is, Place.level, Bool.toNat_true]
      omega
    · exact ⟨_, rfl, rank_forkEnds_lt ne (by simp [is, Place.level])⟩
  | announcing k a =>
    obtain ⟨forks, ne⟩ := sound.forking (by rw [is]; rfl)
    refine ⟨⟨.announced h true, by simp, trivial⟩, forall_two ?_ ?_⟩
    all_goals simp only [State.step, State.announced, is, forks, if_true, Option.some.injEq]
    · refine ⟨_, rfl, rank_forkEnds_lt ne ?_⟩
      rw [is]
      split <;> simp [Place.level]
    · exact ⟨_, rfl, rank_forkEnds_lt ne (by simp [is, Place.level])⟩
  | sent a =>
    refine ⟨⟨.take h, by simp, trivial⟩, forall_one ?_⟩
    simp only [State.step, State.take, is, Option.some.injEq]
    exact ⟨_, rfl, rank_move_lt (by simp [is, Place.level])⟩
  | received a =>
    refine ⟨⟨.thread h true, by simp, trivial⟩, forall_two ?_ ?_⟩
    all_goals simp only [State.step, State.thread, is, Option.some.injEq]
    · refine ⟨_, rfl, ?_⟩
      cases (s.ask a).purpose with
      | recipe => simp [HostProcess.rank, is, Place.level]
      | adoption => exact rank_move_lt (by simp [is, Place.level])
    · exact ⟨_, rfl, rank_move_lt (by simp [is, Place.level])⟩
  | leaving =>
    cases runs : (s.host h).running with
    | true =>
      refine ⟨⟨.ends h, by simp, trivial⟩, forall_one ?_⟩
      exact ⟨_, rfl, by simp [HostProcess.rank, is, runs]⟩
    | false =>
      refine ⟨⟨.waited h, by simp, trivial⟩, forall_one ?_⟩
      exact ⟨_, if_pos ⟨is, runs⟩, rank_move_lt (by simp [is, Place.level])⟩
  | serving | forking =>
    rw [is] at open_
    cases open_
  | watched | dropped =>
    rw [is] at open_
    have := sound.child h (by simpa using open_)
    rw [is] at this
    cases this
  | waited =>
    rw [is] at open_
    have := sound.waited h is
    simp [this] at open_

end State

theorem sound_reachable {s : State} (h : disposal.ReachableBy Freezes s) : s.Sound := by
  refine System.ReachableBy.invariant (P := State.Sound) ?_ ?_ h
  · rintro s rfl
    exact { fresh := fun _ _ => rfl, child := nofun, linked := nofun, waited := nofun }
  · intro s e t _ sound freezes next
    exact (sound.step freezes next).sound

/-- As long as no freeze of a spawned host fails: a handle that is not accounted for is with somebody
who can go on, every outcome of whose next step brings it nearer to its end, and no step of anybody
takes it away from there. So every host `spawn` started is in the end served by its owner or waited
for, and every clone's channel is owned, watched or closed. -/
theorem hosts_accounted {s : State} (h : disposal.ReachableBy Freezes s) (x : Nat) (known : x < s.hosts) :
    ((s.host x).accounted = false →
      (∃ e ∈ s.outcomes x, Freezes s e) ∧
      ∀ e ∈ s.outcomes x, ∃ t, s.step e = some t ∧ (t.host x).rank < (s.host x).rank) ∧
    ∀ e t, Freezes s e → s.step e = some t → (t.host x).rank ≤ (s.host x).rank := by
  have sound := sound_reachable h
  refine ⟨sound.progress, ?_⟩
  intro e t freezes next
  exact (sound.step freezes next).rank x known

/-- A clone whose client went away while it was forked, and a template that expires. -/
theorem hosts_accounted_cancelled : ∃ s, disposal.ReachableBy Freezes s ∧
    (s.hosts = 2 ∧ (s.host 1).accounted = true ∧ (s.host 0).place = .leaving) ∧
    ∀ e ∈ s.outcomes 0, ∃ t, s.step e = some t ∧ (t.host 0).rank < (s.host 0).rank := by
  have reached : ∃ s, disposal.ReachableBy Freezes s ∧
      (s.hosts = 2 ∧ (s.host 1).accounted = true ∧ (s.host 0).place = .leaving) := by
    refine System.exists_reachableBy_of_runBy (s := {})
      (l := [.spawn, .prepared 0 true, .started 0 true, .frozen 0 true, .readied 0,
        .request 0 .adoption, .fork 0 0 true, .cancel 0, .answered 1 true, .announced 1 true,
        .ends 1, .leave 0])
      (.init rfl) (by decide +kernel)
  obtain ⟨s, reachable, two, clone, place⟩ := reached
  have open_ : (s.host 0).accounted = false := by simp [HostProcess.accounted, place]
  exact ⟨s, reachable, ⟨two, clone, place⟩, ((hosts_accounted reachable 0 (by omega)).1 open_).2⟩

/-! ## A freeze that fails -/

def SameHost (p q : HostProcess) : Prop := p.place = q.place ∧ p.child = q.child

theorem same_set {s : State} {x h : Nat} {p : HostProcess} (same : SameHost p (s.host h)) :
    SameHost ((s.set h p).host x) (s.host x) := by
  by_cases at_ : x = h
  · subst at_
    rw [State.set_host_self]
    exact same
  · rw [State.set_host_of_ne s p at_]
    exact ⟨rfl, rfl⟩

theorem same_of_ne {s : State} {x h : Nat} (p : HostProcess) (ne : x ≠ h) :
    SameHost ((s.set h p).host x) (s.host x) := by
  rw [State.set_host_of_ne s p ne]
  exact ⟨rfl, rfl⟩

theorem SameHost.trans {p q r : HostProcess} (first : SameHost p q) (second : SameHost q r) :
    SameHost p r :=
  ⟨first.1.trans second.1, first.2.trans second.2⟩

theorem dropped_stays {s t : State} {e : Event} (next : s.step e = some t) {x : Nat}
    (known : x < s.hosts) (is : (s.host x).place = .dropped) :
    s.hosts ≤ t.hosts ∧ SameHost (t.host x) (s.host x) := by
  -- a step moves handles that are somewhere
  have apart : ∀ {h : Nat} {place : Place}, (s.host h).place = place → place ≠ .dropped → x ≠ h := by
    rintro h place at_ ne rfl
    exact ne (at_.symm.trans is)
  have outcome : ∀ {h : Nat} {before ok_ failed : Place} {ok : Bool},
      s.outcome h before ok_ failed ok = some t → before ≠ .dropped →
        s.hosts ≤ t.hosts ∧ SameHost (t.host x) (s.host x) := by
    intro h before ok_ failed ok next placed
    obtain ⟨at_, ⟨⟩⟩ := guarded next
    exact ⟨Nat.le_refl _, same_of_ne _ (apart at_ placed)⟩
  cases e with
  | spawn =>
    obtain rfl := Option.some.inj next
    exact ⟨Nat.le_succ _, same_of_ne _ (Nat.ne_of_lt known)⟩
  | prepared | started | initialized | frozen | readied => exact outcome next nofun
  | request =>
    obtain rfl := Option.some.inj next
    exact ⟨Nat.le_refl _, rfl, rfl⟩
  | fork h a made =>
    obtain ⟨⟨at_, -⟩, ⟨⟩⟩ := guarded next
    have ne : x ≠ h := apart at_ nofun
    cases made with
    | false => exact ⟨Nat.le_refl _, same_of_ne _ ne⟩
    | true =>
      exact ⟨Nat.le_succ _, (same_of_ne _ (Nat.ne_of_lt known)).trans (same_of_ne _ ne)⟩
  | answered c ok =>
    simp only [State.step, State.answered] at next
    split at next
    next h a at_ =>
      obtain ⟨forks, ⟨⟩⟩ := guarded next
      cases ok with
      | true => exact ⟨Nat.le_refl _, same_of_ne _ (apart at_ nofun)⟩
      | false =>
        exact ⟨Nat.le_refl _,
          (same_of_ne _ (apart forks nofun)).trans (same_of_ne _ (apart at_ nofun))⟩
    next => cases next
  | announced c ok =>
    simp only [State.step, State.announced] at next
    split at next
    next h a at_ =>
      obtain ⟨forks, ⟨⟩⟩ := guarded next
      cases ok with
      | true | false =>
        exact ⟨Nat.le_refl _,
          (same_of_ne _ (apart forks nofun)).trans (same_of_ne _ (apart at_ nofun))⟩
    next => cases next
  | take c =>
    simp only [State.step, State.take] at next
    split at next
    next a at_ =>
      obtain rfl := Option.some.inj next
      exact ⟨Nat.le_refl _, same_of_ne _ (apart at_ nofun)⟩
    next => cases next
  | thread c made =>
    simp only [State.step, State.thread] at next
    split at next
    next a at_ =>
      obtain rfl := Option.some.inj next
      have ne : x ≠ c := apart at_ nofun
      split
      · exact ⟨Nat.le_refl _, same_of_ne _ ne⟩
      · exact ⟨Nat.le_refl _, same_of_ne _ ne⟩
      · exact ⟨Nat.le_refl _, same_of_ne _ ne⟩
    next => cases next
  | cancel a =>
    obtain rfl := Option.some.inj next
    refine ⟨Nat.le_refl _, ?_⟩
    have same : (s.cancel a).host x = s.host x := if_neg (by simp [is])
    rw [same]
    exact ⟨rfl, rfl⟩
  | cancelFill | ends =>
    obtain rfl := Option.some.inj next
    exact ⟨Nat.le_refl _, same_set ⟨rfl, rfl⟩⟩
  | leave h =>
    obtain ⟨at_, ⟨⟩⟩ := guarded next
    refine ⟨Nat.le_refl _, same_of_ne _ ?_⟩
    rcases at_ with at_ | at_
    · exact apart at_ nofun
    · exact apart at_ nofun
  | waited h =>
    obtain ⟨⟨at_, -⟩, ⟨⟩⟩ := guarded next
    exact ⟨Nat.le_refl _, same_of_ne _ (apart at_ nofun)⟩

/-- The base's host fails to freeze and ends; whatever happens then, nobody waits for it. -/
theorem failed_freeze_unreaped : ∃ s, disposal.Reachable s ∧
    ((s.host 0).child = true ∧ (s.host 0).running = false) ∧
    ∀ l t, disposal.run s l = some t → (t.host 0).accounted = false := by
  have reached : ∃ s, disposal.Reachable s ∧
      (((s.host 0).child = true ∧ (s.host 0).running = false) ∧ s.hosts = 1 ∧
        (s.host 0).place = .dropped) := by
    refine System.exists_reachable_of_run (s := {})
      (l := [.spawn, .prepared 0 true, .started 0 true, .frozen 0 false, .ends 0])
      (.init rfl) (by decide +kernel)
  obtain ⟨s, reachable, ended, one, place⟩ := reached
  refine ⟨s, reachable, ended, ?_⟩
  intro l t runs
  have lost : 0 < t.hosts ∧ (t.host 0).place = .dropped ∧ (t.host 0).child = true := by
    refine System.run_invariant (S := disposal)
      (P := fun s => 0 < s.hosts ∧ (s.host 0).place = .dropped ∧ (s.host 0).child = true)
      ?_ ⟨by omega, place, ended.1⟩ runs
    intro s e t ⟨known, dropped, child⟩ next
    obtain ⟨more, same⟩ := dropped_stays next known dropped
    exact ⟨Nat.lt_of_lt_of_le known more, same.1.trans dropped, same.2.trans child⟩
  simp [HostProcess.accounted, lost.2.1, lost.2.2]

end ServiceCache.Owner.Disposal
