import ServiceCache.ModuleCache.Stored

/-!
# What a load returns

An entry is an artifact of the bytes of its key, and the digest tells bytes apart.
-/

namespace ServiceCache.ModuleCache

open Transition (System)

variable {E B H M A : Type}

/-- What `save_hashed` relies on: its module is the compiled form of bytes with that hash. -/
def Job.Honest (T : Toolchain E B H M A) : Job E B H M → Prop
  | .load .. => True
  | .save e hash m => ∃ b, T.sha256 b = hash ∧ T.compiled e b m = true

def Honest (T : Toolchain E B H M A) (_ : State E B H M A) : Event E B H M → Prop
  | .start _ job => job.Honest T
  | .act .. => True

structure Genuine (T : Toolchain E B H M A) (s : State E B H M A) : Prop where
  entries : ∀ key file artifact, s.entry key = some file → file.content = some artifact →
    Faithful T key artifact
  jobs : ∀ t th, s.thread t = some th → th.job.Honest T
  results : ∀ t th e b m, s.thread t = some th → th.job = .load e b →
    th.stage = .returned (some m) → T.compiled e b m = true

section Genuine

variable {T : Toolchain E B H M A} {s s' : State E B H M A} {t : Nat} {th : Thread E B H M}

theorem faithful_serialize {e : E} {b : B} {m : M} (compiled : T.compiled e b m = true) :
    Faithful T (e, T.sha256 b) (T.serialize m) := by
  intro b' m' same loaded
  obtain rfl := T.injective same
  obtain ⟨m'', loads, again⟩ := T.loads e b' m compiled
  rw [show T.deserialize e (T.serialize m) = some m' from loaded] at loads
  cases loads
  exact again

theorem Genuine.put (h : Genuine T s) (here : s.thread t = some th) {stage : Stage M}
    (result : ∀ e b m, th.job = .load e b → stage = .returned (some m) →
      T.compiled e b m = true) : Genuine T (s.put t th stage) := by
  constructor
  · exact h.entries
  · intro u th' is
    obtain rfl | is := State.put_cases is
    · exact h.jobs t th here
    · exact h.jobs u th' is
  · intro u th' e b m is job returned
    obtain rfl | is := State.put_cases is
    · exact result e b m job returned
    · exact h.results u th' e b m is job returned

theorem Genuine.of_same (h : Genuine T s) (s' : State E B H M A) (entry : s'.entry = s.entry)
    (thread : s'.thread = s.thread) : Genuine T s' := by
  constructor
  · rw [entry]
    exact h.entries
  · rw [thread]
    exact h.jobs
  · rw [thread]
    exact h.results

theorem Genuine.loadEntry (h : Genuine T s) {e : E} {b : B} {m : M}
    (loaded : s.loadEntry T (e, T.sha256 b) = some m) : T.compiled e b m = true := by
  obtain ⟨file, is, content⟩ := Option.bind_eq_some_iff.mp loaded
  obtain ⟨artifact, full, loads⟩ := Option.bind_eq_some_iff.mp content
  exact h.entries _ file artifact is full b m rfl loads

theorem Genuine.stores (h : Genuine T s) (sound : Sound T s) (here : s.thread t = some th) {m : M}
    (stores : th.stage.stores = some m) : Faithful T (th.job.key T) (T.serialize m) := by
  have fits := sound.fits t th here
  cases job : th.job with
  | load e b => exact faithful_serialize (fits.compiled e b m job stores)
  | save e hash m' =>
    have honest := h.jobs t th here
    rw [job] at honest
    obtain ⟨b, rfl, compiled⟩ := honest
    rw [fits.saved e _ m' m job stores]
    exact faithful_serialize compiled

theorem Genuine.add (h : Genuine T s) {pid : Nat} {job : Job E B H M} (honest : job.Honest T) :
    Genuine T (s.add pid job) := by
  constructor
  · exact h.entries
  · intro t th is
    obtain rfl | is := State.add_cases is
    · exact honest
    · exact h.jobs t th is
  · intro t th e b m is load returned
    obtain rfl | is := State.add_cases is
    · cases job <;> cases returned
    · exact h.results t th e b m is load returned

theorem Stage.miss_ne_returned (waited : Bool) (m : Option M) :
    (Stage.miss waited : Stage M) ≠ .returned m := by
  cases waited <;> simp [Stage.miss]

variable [DecidableEq E] [DecidableEq H]

theorem Genuine.finish (h : Genuine T s) (here : s.thread t = some th) {stage : Stage M}
    (result : ∀ e b m, th.job = .load e b → stage = .returned (some m) →
      T.compiled e b m = true) : Genuine T (s.finish T t th stage) :=
  (h.of_same (s.release t (th.job.key T)) rfl rfl).put here result

theorem Genuine.rename (h : Genuine T s) (sound : Sound T s) (here : s.thread t = some th) {m : M}
    {file : File E H A} (written : th.stage = .written m)
    (is : s.scratch (th.job.key T, th.pid) = some file) :
    Genuine T ((s.rename (th.job.key T) th.pid file th.job.isLoad).finish T t th
      (.returned (th.job.result m))) := by
  have fits := sound.fits t th here
  have stores : th.stage.stores = some m := by rw [written]; rfl
  rw [fits.written m written] at is
  obtain rfl := Option.some.inj is
  have renamed : Genuine T (s.rename (th.job.key T) th.pid
      ⟨th.job.key T, some (T.serialize m)⟩ th.job.isLoad) := by
    constructor
    · intro key file artifact is full
      change Function.update s.entry (th.job.key T) _ key = some file at is
      rw [Function.update_apply] at is
      split at is
      next same =>
        cases is
        cases full
        rw [same]
        exact h.stores sound here stores
      · exact h.entries key file artifact is full
    · exact h.jobs
    · exact h.results
  apply renamed.finish here
  intro e b m' job returned
  rw [job] at returned
  cases returned
  exact fits.compiled e b m job stores

theorem Genuine.move (h : Genuine T s) (sound : Sound T s) (here : s.thread t = some th)
    (move : Move T s t th s') : Genuine T s' := by
  cases move with
  | found | unlockable | saves | compiles => exact h.put here (by simp)
  | missed =>
    apply h.put here
    intro _ _ m _ returned
    exact absurd returned (Stage.miss_ne_returned _ _)
  | loaded is =>
    apply h.finish here
    intro e b m job returned
    cases returned
    rw [job] at is
    exact h.loadEntry is
  | acquired _ next =>
    apply (h.of_same (s.take t (th.job.key T)) rfl rfl).put here
    rcases next with rfl | rfl <;> simp
  | present => exact h.finish here (by simp)
  | @writes m content stage _ again _ =>
    apply (h.of_same (s.scribble (th.job.key T) th.pid content) rfl rfl).put here
    intro _ _ m' _ returned
    rw [returned] at again
    cases again
  | renames written is => exact h.rename sound here written is
  | gives how =>
    apply h.finish here
    rcases how with rfl | rfl <;> simp

theorem genuine_of_reachableBy (h : (cacheSystem T).ReachableBy (Honest T) s) : Genuine T s := by
  apply h.invariant
  · intro s start
    constructor
    · intro key file artifact is full
      exact (start.entries key file is).2 artifact full
    · intro t th is
      simp [start.nobody t] at is
    · intro t th e b m is
      simp [start.nobody t] at is
  · intro s e s' reached inv honest step
    cases e with
    | start pid job =>
      cases step
      exact inv.add honest
    | act t action =>
      obtain ⟨th, here, act⟩ := Option.bind_eq_some_iff.mp step
      exact inv.move (sound_reachable reached.reachable) here (act_move act)

end Genuine

/-- In every run, with threads killed at any step, an entry is absent or a complete file that
was stored for its key, and `load_bytes` stores at most one module a key; and if `save_hashed`
is called with compiled forms of bytes of its hash, what `load_bytes` returns is compiled from
the bytes it was given. -/
theorem cache_crash_safe [DecidableEq E] [DecidableEq H] (T : Toolchain E B H M A) :
    (∀ s, (cacheSystem T).Reachable s →
      (∀ key file, s.entry key = some file → file.StoredFor key) ∧ ∀ key, s.stored key ≤ 1) ∧
    ∀ s, (cacheSystem T).ReachableBy (Honest T) s → ∀ t th e b m, s.thread t = some th →
      th.job = .load e b → th.stage = .returned (some m) → T.compiled e b m = true := by
  constructor
  · intro s reached
    have sound := sound_reachable reached
    exact ⟨sound.entries, sound.once⟩
  · intro s reached
    exact (genuine_of_reachableBy reached).results

def plain : Toolchain Nat Nat Nat Nat Nat where
  sha256 := id
  injective := Function.injective_id
  compiled _ b m := b = m
  serialize := id
  deserialize _ a := some a
  loads := by
    intro _ _ m compiled
    exact ⟨m, rfl, compiled⟩

instance (s : State Nat Nat Nat Nat Nat) : DecidablePred (Honest plain s)
  | .start _ (.load ..) => .isTrue trivial
  | .start _ (.save _ hash m) => decidable_of_iff (hash = m)
      ⟨fun same => ⟨hash, rfl, decide_eq_true same⟩,
        fun ⟨_, is, compiled⟩ => is.symm.trans (of_decide_eq_true compiled)⟩
  | .act .. => .isTrue trivial

def emptyCache : State Nat Nat Nat Nat Nat :=
  ⟨fun _ => none, fun _ => none, fun _ => none, 0, fun _ => none, fun _ => 0⟩

theorem emptyCache_start : emptyCache.Start plain := by
  constructor
  · intro key file is
    cases is
  · intro _
    rfl
  · intro _
    rfl
  · intro _
    rfl

/-- A thread is killed within its write. The next compiles again and stores, a save finds the
entry, and another process loads it. -/
theorem cache_crash_safe_killed : ∃ s, (cacheSystem plain).ReachableBy (Honest plain) s ∧
    s.stored (0, 7) = 1 ∧ s.thread 3 = some ⟨101, .load 0 7, .returned (some 7)⟩ ∧
    (∀ key file, s.entry key = some file → file.StoredFor key) ∧
    plain.compiled 0 7 7 = true := by
  have reached : ∃ s, (cacheSystem plain).ReachableBy (Honest plain) s ∧
      (s.stored (0, 7) = 1 ∧ s.thread 3 = some ⟨101, .load 0 7, .returned (some 7)⟩) :=
    System.exists_reachableBy_of_runBy (s := emptyCache)
      (l := [.start 100 (.load 0 7), .act 0 .stat, .act 0 .acquire, .act 0 .stat,
        .act 0 (.compile (some 7)), .act 0 .create, .act 0 .kill, .start 100 (.load 0 7),
        .act 1 .stat, .act 1 .acquire, .act 1 .stat, .act 1 (.compile (some 7)), .act 1 .create,
        .act 1 .write, .act 1 .rename, .start 101 (.save 0 7 7), .act 2 .acquire, .act 2 .isFile,
        .start 101 (.load 0 7), .act 3 .stat, .act 3 .read])
      (.init emptyCache_start) (by decide +kernel)
  obtain ⟨s, run, once, loaded⟩ := reached
  obtain ⟨kept, genuine⟩ := cache_crash_safe plain
  exact ⟨s, run, once, loaded, (kept s run.reachable).1, genuine s run 3 _ 0 7 7 loaded rfl rfl⟩

end ServiceCache.ModuleCache
