import ServiceCache.ModuleCache.Model

/-!
# What is stored, and how often

A thread that stores has the entry's lock and has seen under it that there is no entry to be
had. Nobody else touches the entry or the thread's file meanwhile.
-/

namespace ServiceCache.ModuleCache

open Function
open Transition (System)

variable {E B H M A : Type}

structure Fits (T : Toolchain E B H M A) (s : State E B H M A) (t : Nat) (th : Thread E B H M) :
    Prop where
  held : th.stage.locked = true → s.lock (th.job.key T) = some t
  missed : th.job.isLoad = true → th.stage.missed = true → s.loadEntry T (th.job.key T) = none
  absent : th.job.isLoad = false → th.stage.stores.isSome = true → s.entry (th.job.key T) = none
  compiled : ∀ e b m, th.job = .load e b → th.stage.stores = some m → T.compiled e b m = true
  saved : ∀ e h m m', th.job = .save e h m → th.stage.stores = some m' → m' = m
  written : ∀ m, th.stage = .written m →
    s.scratch (th.job.key T, th.pid) = some ⟨th.job.key T, some (T.serialize m)⟩

structure Sound (T : Toolchain E B H M A) (s : State E B H M A) : Prop where
  fresh : ∀ t, s.threads ≤ t → s.thread t = none
  entries : ∀ key file, s.entry key = some file → file.StoredFor key
  once : ∀ key, s.stored key ≤ 1
  kept : ∀ key, 0 < s.stored key → (s.loadEntry T key).isSome = true
  fits : ∀ t th, s.thread t = some th → Fits T s t th

structure Local (s s' : State E B H M A) (t : Nat) (key : E × H) : Prop where
  threads : s'.threads = s.threads
  others : ∀ u, u ≠ t → s'.thread u = s.thread u
  outside : ∀ k, k ≠ key → s'.entry k = s.entry k ∧ s'.lock k = s.lock k ∧
    s'.stored k = s.stored k ∧ ∀ pid, s'.scratch (k, pid) = s.scratch (k, pid)
  inside : (∀ u, u ≠ t → s.lock key ≠ some u) ∨ (s'.entry key = s.entry key ∧
    s'.lock key = s.lock key ∧ ∀ pid, s'.scratch (key, pid) = s.scratch (key, pid))

section Steps

variable {T : Toolchain E B H M A} {s s' : State E B H M A} {t u : Nat} {th : Thread E B H M}
  {key : E × H}

theorem Stage.locked_of_stores {stage : Stage M} (h : stage.stores.isSome = true) :
    stage.locked = true := by
  cases stage with
  | storing | writing | written => rfl
  | checking | reading | locking | deciding | compiling | returned | failed | killed => cases h

theorem Stage.locked_of_missed {stage : Stage M} (h : stage.missed = true) :
    stage.locked = true := by
  cases stage with
  | compiling | storing | writing | written => rfl
  | checking | reading | locking | deciding | returned | failed | killed => cases h

theorem Stage.missed_of_stores {stage : Stage M} (h : stage.stores.isSome = true) :
    stage.missed = true := by
  cases stage with
  | storing | writing | written => rfl
  | checking | reading | locking | deciding | compiling | returned | failed | killed => cases h

theorem Fits.of_unlocked (h : th.stage.locked = false) : Fits T s t th := by
  have stores : th.stage.stores = none := by
    cases is : th.stage.stores with
    | none => rfl
    | some m =>
      rw [Stage.locked_of_stores (by rw [is]; rfl)] at h
      cases h
  constructor
  · simp [h]
  · intro _ missed
    rw [Stage.locked_of_missed missed] at h
    cases h
  · simp [stores]
  · simp [stores]
  · simp [stores]
  · intro m written
    rw [written] at h
    cases h

theorem Fits.frame (h : Fits T s t th)
    (same : th.stage.locked = true → s'.entry (th.job.key T) = s.entry (th.job.key T) ∧
      s'.lock (th.job.key T) = s.lock (th.job.key T) ∧
      ∀ pid, s'.scratch (th.job.key T, pid) = s.scratch (th.job.key T, pid)) :
    Fits T s' t th := by
  by_cases locked : th.stage.locked = true
  · obtain ⟨entry, lock, scratch⟩ := same locked
    constructor
    · intro _
      rw [lock]
      exact h.held locked
    · intro load missed
      unfold State.loadEntry
      rw [entry]
      exact h.missed load missed
    · intro save stores
      rw [entry]
      exact h.absent save stores
    · exact h.compiled
    · exact h.saved
    · intro m written
      rw [scratch]
      exact h.written m written
  · exact .of_unlocked (by simpa using locked)

theorem Sound.of_local (h : Sound T s) (key : E × H) (here : s.thread t = some th)
    (l : Local s s' t key)
    (entries : ∀ file, s'.entry key = some file → file.StoredFor key)
    (once : s'.stored key ≤ 1)
    (kept : 0 < s'.stored key → (s'.loadEntry T key).isSome = true)
    (fits : ∀ th', s'.thread t = some th' → Fits T s' t th') : Sound T s' := by
  constructor
  · intro u beyond
    rw [l.threads] at beyond
    by_cases same : u = t
    · have gone := h.fresh u beyond
      rw [same, here] at gone
      cases gone
    · rw [l.others u same]
      exact h.fresh u beyond
  · intro k file is
    by_cases same : k = key
    · rw [same] at is ⊢
      exact entries file is
    · rw [(l.outside k same).1] at is
      exact h.entries k file is
  · intro k
    by_cases same : k = key
    · rw [same]
      exact once
    · rw [(l.outside k same).2.2.1]
      exact h.once k
  · intro k stored
    by_cases same : k = key
    · rw [same] at stored ⊢
      exact kept stored
    · obtain ⟨entry, _, count, _⟩ := l.outside k same
      rw [count] at stored
      unfold State.loadEntry
      rw [entry]
      exact h.kept k stored
  · intro u th' is
    by_cases same : u = t
    · rw [same] at is ⊢
      exact fits th' is
    · rw [l.others u same] at is
      have before := h.fits u th' is
      apply before.frame
      intro locked
      by_cases mine : th'.job.key T = key
      · rcases l.inside with free | unchanged
        · exact absurd (before.held locked) (mine ▸ free u same)
        · rw [mine]
          exact unchanged
      · obtain ⟨entry, lock, _, scratch⟩ := l.outside _ mine
        exact ⟨entry, lock, scratch⟩

theorem State.put_self (s : State E B H M A) (t : Nat) (th : Thread E B H M) (stage : Stage M) :
    (s.put t th stage).thread t = some { th with stage } :=
  update_self ..

theorem State.put_other (s : State E B H M A) (th : Thread E B H M) (stage : Stage M)
    (ne : u ≠ t) : (s.put t th stage).thread u = s.thread u :=
  update_of_ne ne ..

theorem State.put_cases {th' : Thread E B H M} {stage : Stage M}
    (is : (s.put t th stage).thread u = some th') :
    th' = { th with stage } ∨ s.thread u = some th' := by
  change update s.thread t _ u = some th' at is
  rw [update_apply] at is
  split at is
  · exact .inl (Option.some.inj is).symm
  · exact .inr is

theorem Sound.put_of {r : State E B H M A} (h : Sound T s) (here : s.thread t = some th)
    {stage : Stage M} (threads : r.threads = s.threads) (thread : r.thread = s.thread)
    (entry : r.entry = s.entry) (stored : r.stored = s.stored)
    (outside : ∀ k, k ≠ th.job.key T →
      r.lock k = s.lock k ∧ ∀ pid, r.scratch (k, pid) = s.scratch (k, pid))
    (inside : (∀ u, u ≠ t → s.lock (th.job.key T) ≠ some u) ∨
      r.lock (th.job.key T) = s.lock (th.job.key T) ∧
        ∀ pid, r.scratch (th.job.key T, pid) = s.scratch (th.job.key T, pid))
    (fits : Fits T (r.put t th stage) t { th with stage }) : Sound T (r.put t th stage) := by
  apply h.of_local (th.job.key T) here
  · constructor
    · exact threads
    · intro u ne
      rw [r.put_other th stage ne, thread]
    · intro k ne
      obtain ⟨lock, scratch⟩ := outside k ne
      exact ⟨congrFun entry k, lock, congrFun stored k, scratch⟩
    · apply inside.imp_right
      rintro ⟨lock, scratch⟩
      exact ⟨congrFun entry _, lock, scratch⟩
  · show ∀ file, r.entry _ = some file → _
    rw [entry]
    exact h.entries _
  · show r.stored _ ≤ 1
    rw [stored]
    exact h.once _
  · show 0 < r.stored _ → ((r.entry _).bind _).isSome = true
    rw [stored, entry]
    exact h.kept _
  · intro th' is
    rw [State.put_self] at is
    cases is
    exact fits

theorem Sound.put (h : Sound T s) (here : s.thread t = some th) {stage : Stage M}
    (fits : Fits T s t { th with stage }) : Sound T (s.put t th stage) := by
  apply h.put_of here rfl rfl rfl rfl
  · intro k _
    exact ⟨rfl, fun _ => rfl⟩
  · exact .inr ⟨rfl, fun _ => rfl⟩
  · exact fits.frame fun _ => ⟨rfl, rfl, fun _ => rfl⟩

theorem State.lock_alone (mine : s.lock key = some t) : ∀ u, u ≠ t → s.lock key ≠ some u := by
  intro u ne other
  rw [mine] at other
  exact ne (Option.some.inj other).symm

theorem Sound.none_stored (h : Sound T s) (missing : s.loadEntry T key = none) :
    s.stored key = 0 := by
  by_contra some
  have loaded := h.kept key (Nat.pos_of_ne_zero some)
  rw [missing] at loaded
  cases loaded

theorem State.add_cases {pid : Nat} {job : Job E B H M}
    (is : (s.add pid job).thread t = some th) :
    th = ⟨pid, job, job.begin⟩ ∨ s.thread t = some th := by
  change update s.thread s.threads _ t = some th at is
  rw [update_apply] at is
  split at is
  · exact .inl (Option.some.inj is).symm
  · exact .inr is

theorem Sound.add (h : Sound T s) (pid : Nat) (job : Job E B H M) : Sound T (s.add pid job) := by
  constructor
  · intro t beyond
    show update s.thread s.threads _ t = none
    rw [update_of_ne (Nat.ne_of_gt beyond)]
    exact h.fresh t (Nat.le_of_lt beyond)
  · exact h.entries
  · exact h.once
  · exact h.kept
  · intro t th is
    obtain rfl | is := State.add_cases is
    · apply Fits.of_unlocked
      cases job <;> rfl
    · exact (h.fits t th is).frame fun _ => ⟨rfl, rfl, fun _ => rfl⟩

theorem sound_start (start : s.Start T) : Sound T s where
  fresh t _ := start.nobody t
  entries key file is := (start.entries key file is).1
  once key := by simp [start.none_stored key]
  kept key stored := by simp [start.none_stored key] at stored
  fits t th is := by simp [start.nobody t] at is

theorem Fits.look (h : Fits T s t th) {stage : Stage M}
    (locked : stage.locked = true → th.stage.locked = true) (stores : stage.stores = none)
    (missed : stage.missed = true → s.loadEntry T (th.job.key T) = none) :
    Fits T s t { th with stage } := by
  constructor
  · intro now
    exact h.held (locked now)
  · intro _ now
    exact missed now
  · simp [stores]
  · simp [stores]
  · simp [stores]
  · intro m written
    rw [show stage = .written m from written] at stores
    cases stores

theorem Stage.miss_locked (waited : Bool) : (Stage.miss waited : Stage M).locked = waited := by
  cases waited <;> rfl

theorem Stage.miss_stores (waited : Bool) : (Stage.miss waited : Stage M).stores = none := by
  cases waited <;> rfl

theorem Sound.miss (h : Sound T s) (here : s.thread t = some th) {waited : Bool}
    (locked : th.stage.locked = waited) (missing : s.loadEntry T (th.job.key T) = none) :
    Sound T (s.put t th (.miss waited)) := by
  apply h.put here
  apply (h.fits t th here).look
  · rw [Stage.miss_locked, locked]
    exact id
  · exact Stage.miss_stores waited
  · intro _
    exact missing

variable [DecidableEq E] [DecidableEq H]

theorem State.release_other (s : State E B H M A) (t : Nat) {k : E × H} (ne : k ≠ key) :
    (s.release t key).lock k = s.lock k :=
  update_of_ne ne ..

theorem State.release_lock (s : State E B H M A) (t : Nat) (key : E × H) :
    s.lock key = some t ∨ (s.release t key).lock key = s.lock key := by
  by_cases mine : s.lock key = some t
  · exact .inl mine
  · right
    show update s.lock key _ key = s.lock key
    rw [update_self, if_neg mine]

theorem Sound.finish (h : Sound T s) (here : s.thread t = some th) {stage : Stage M}
    (unlocked : stage.locked = false) : Sound T (s.finish T t th stage) := by
  apply h.put_of (r := s.release t (th.job.key T)) here rfl rfl rfl rfl
  · intro k ne
    exact ⟨s.release_other t ne, fun _ => rfl⟩
  · rcases s.release_lock t (th.job.key T) with mine | same
    · exact .inl (State.lock_alone mine)
    · exact .inr ⟨same, fun _ => rfl⟩
  · exact .of_unlocked unlocked

theorem Sound.acquire (h : Sound T s) (here : s.thread t = some th)
    (free : s.lock (th.job.key T) = none) {stage : Stage M} (early : stage.missed = false)
    (empty : stage.stores = none) :
    Sound T ((s.take t (th.job.key T)).put t th stage) := by
  apply h.put_of (r := s.take t (th.job.key T)) here rfl rfl rfl rfl
  · intro k ne
    exact ⟨update_of_ne ne .., fun _ => rfl⟩
  · left
    intro u _ taken
    rw [free] at taken
    cases taken
  · constructor
    · intro _
      exact update_self ..
    · simp [early]
    · simp [empty]
    · simp [empty]
    · simp [empty]
    · intro m written
      rw [show stage = .written m from written] at empty
      cases empty

theorem update_other {f : (E × H) × Nat → Option (File E H A)} {file : Option (File E H A)}
    {k : E × H} {pid p : Nat} (ne : k ≠ key) : update f (key, pid) file (k, p) = f (k, p) :=
  update_of_ne (fun same => ne (Prod.mk.inj same).1) ..

theorem Sound.scribble (h : Sound T s) (here : s.thread t = some th) {content : Option A}
    {stage : Stage M} {m : M} (stores : th.stage.stores = some m) (again : stage.stores = some m)
    (filled : ∀ m', stage = .written m' → content = some (T.serialize m')) :
    Sound T ((s.scribble (th.job.key T) th.pid content).put t th stage) := by
  have before := h.fits t th here
  have locked : th.stage.locked = true := Stage.locked_of_stores (by rw [stores]; rfl)
  have mine := before.held locked
  apply h.put_of (r := s.scribble (th.job.key T) th.pid content) here rfl rfl rfl rfl
  · intro k ne
    exact ⟨rfl, fun _ => update_other ne⟩
  · exact .inl (State.lock_alone mine)
  · constructor
    · intro _
      exact mine
    · intro load _
      exact before.missed load (Stage.missed_of_stores (by rw [stores]; rfl))
    · intro save _
      exact before.absent save (by rw [stores]; rfl)
    · intro e b m' job is
      rw [again] at is
      exact before.compiled e b m' job (stores.trans is)
    · intro e hash m' m'' job is
      rw [again] at is
      exact before.saved e hash m' m'' job (stores.trans is)
    · intro m' written
      rw [← filled m' written]
      exact update_self ..

theorem Sound.rename (h : Sound T s) (here : s.thread t = some th) {m : M} {file : File E H A}
    (written : th.stage = .written m) (is : s.scratch (th.job.key T, th.pid) = some file) :
    Sound T ((s.rename (th.job.key T) th.pid file th.job.isLoad).finish T t th
      (.returned (th.job.result m))) := by
  have before := h.fits t th here
  have stores : th.stage.stores = some m := by rw [written]; rfl
  have mine := before.held (by rw [written]; rfl)
  rw [before.written m written] at is
  obtain rfl := Option.some.inj is
  have none : s.stored (th.job.key T) = 0 := by
    apply h.none_stored
    cases load : th.job.isLoad with
    | true => exact before.missed load (by rw [written]; rfl)
    | false =>
      unfold State.loadEntry
      rw [before.absent load (by rw [stores]; rfl)]
      rfl
  apply h.of_local (th.job.key T) here
  · constructor
    · rfl
    · intro u ne
      exact State.put_other _ th _ ne
    · intro k ne
      exact ⟨update_of_ne ne .., State.release_other _ t ne, update_of_ne ne ..,
        fun _ => update_other ne⟩
    · exact .inl (State.lock_alone mine)
  · intro file is
    change update s.entry (th.job.key T) _ _ = some file at is
    rw [update_self] at is
    cases is
    exact ⟨rfl, rfl⟩
  · show update s.stored (th.job.key T) _ _ ≤ 1
    rw [update_self, none]
    split <;> decide
  · intro stored
    change 0 < update s.stored (th.job.key T) _ _ at stored
    rw [update_self, none] at stored
    show (Option.bind (update s.entry (th.job.key T) _ _) _).isSome = true
    rw [update_self]
    cases job : th.job with
    | load e b =>
      obtain ⟨m', loads, _⟩ := T.loads e b m (before.compiled e b m job stores)
      show (T.deserialize e (T.serialize m)).isSome = true
      rw [loads]
      rfl
    | save e hash m' => simp [job, Job.isLoad] at stored
  · intro th' is
    rw [State.finish, State.put_self] at is
    cases is
    exact .of_unlocked rfl

theorem Sound.move (h : Sound T s) (here : s.thread t = some th) (move : Move T s t th s') :
    Sound T s' := by
  have before := h.fits t th here
  cases move with
  | found locked =>
    apply h.put here
    apply before.look
    · intro now
      exact locked.trans now
    · rfl
    · simp [Stage.missed]
  | missed locked missing => exact h.miss here locked missing
  | loaded | present => exact h.finish here rfl
  | unlockable => exact h.put here (.of_unlocked rfl)
  | acquired free next =>
    rcases next with rfl | rfl
    · exact h.acquire here free rfl rfl
    · exact h.acquire here free rfl rfl
  | saves locked job absent =>
    apply h.put here
    constructor
    · intro _
      exact before.held locked
    · simp [job, Job.isLoad]
    · intro _ _
      exact absent
    · simp [job]
    · rintro e hash m m' is stores
      cases job.symm.trans is
      cases stores
      rfl
    · simp
  | compiles missed job compiled =>
    apply h.put here
    constructor
    · intro _
      exact before.held (Stage.locked_of_missed missed)
    · intro load _
      exact before.missed load missed
    · simp [job, Job.isLoad]
    · simp [job, Stage.stores, compiled]
    · simp [job]
    · simp
  | writes stores again filled => exact h.scribble here stores again filled
  | renames written is => exact h.rename here written is
  | gives how =>
    rcases how with rfl | rfl
    · exact h.finish here rfl
    · exact h.finish here rfl

theorem Sound.step (h : Sound T s) {e : Event E B H M} (step : s.step T e = some s') :
    Sound T s' := by
  cases e with
  | start pid job =>
    cases step
    exact h.add pid job
  | act t action =>
    obtain ⟨th, here, act⟩ := Option.bind_eq_some_iff.mp step
    exact h.move here (act_move act)

theorem sound_reachable (h : (cacheSystem T).Reachable s) : Sound T s := by
  apply h.invariant
  · intro s start
    exact sound_start start
  · intro s e s' _ inv _ step
    exact inv.step step

end Steps

end ServiceCache.ModuleCache
