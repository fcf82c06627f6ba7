import Mathlib.Logic.Function.Basic
import ServiceCache.Transition

/-!
# The cache of compiled modules

`ModuleCache::load_bytes`, `save_hashed` and `store_entry`, by any number of threads of any number
of processes on one directory. Each may be killed at any step; the kernel then drops its lock, and
what it wrote stays.

The compiler and Wasmer's serialisation are not part of this repository: `Toolchain` says
what the cache relies on. Each file carries the key it was written for, of which the code
has no record. Opening or locking the lock file, compiling, writing and renaming may fail;
reading an entry fails only if it does not deserialise.
-/

namespace ServiceCache.ModuleCache

open Function
open Transition (System guarded)

/-- What the cache relies on: the digest, what it means that a module is the compiled form of
bytes for an engine key, and that a stored module can be loaded back. -/
structure Toolchain (E B H M A : Type) where
  sha256 : B → H
  injective : Function.Injective sha256
  compiled : E → B → M → Bool
  serialize : M → A
  deserialize : E → A → Option M
  loads : ∀ e b m, compiled e b m = true →
    ∃ m', deserialize e (serialize m) = some m' ∧ compiled e b m' = true

variable {E B H M A : Type}

/-- A file of the cache; it has no content while it is being written. -/
structure File (E H A : Type) where
  key : E × H
  content : Option A

inductive Job (E B H M : Type)
  | load (engine : E) (bytes : B)
  | save (engine : E) (hash : H) (m : M)
  deriving DecidableEq

def Job.key (T : Toolchain E B H M A) : Job E B H M → E × H
  | .load engine bytes => (engine, T.sha256 bytes)
  | .save engine hash _ => (engine, hash)

inductive Stage (M : Type)
  /-- Before `entry.metadata()`, without or with the lock. -/
  | checking (waited : Bool)
  /-- Before `deserialize_from_file`. -/
  | reading (waited : Bool)
  | locking
  /-- Before `entry.is_file()` in `save_hashed`. -/
  | deciding
  | compiling
  /-- Before the file of the process's own is created. -/
  | storing (m : M)
  | writing (m : M)
  | written (m : M)
  | returned (m : Option M)
  | failed
  | killed
  deriving DecidableEq

def Stage.locked : Stage M → Bool
  | .checking waited | .reading waited => waited
  | .deciding | .compiling | .storing _ | .writing _ | .written _ => true
  | .locking | .returned _ | .failed | .killed => false

def Stage.stores : Stage M → Option M
  | .storing m | .writing m | .written m => some m
  | _ => none

def Stage.missed : Stage M → Bool
  | .compiling | .storing _ | .writing _ | .written _ => true
  | _ => false

def Stage.miss (waited : Bool) : Stage M := if waited then .compiling else .locking

structure Thread (E B H M : Type) where
  pid : Nat
  job : Job E B H M
  stage : Stage M
  deriving DecidableEq

structure State (E B H M A : Type) where
  entry : E × H → Option (File E H A)
  /-- The files `….tmp-{pid}`. -/
  scratch : (E × H) × Nat → Option (File E H A)
  lock : E × H → Option Nat
  threads : Nat
  thread : Nat → Option (Thread E B H M)
  /-- How many modules that `load_bytes` compiled were stored. -/
  stored : E × H → Nat

def State.loadEntry (T : Toolchain E B H M A) (s : State E B H M A) (key : E × H) : Option M :=
  (s.entry key).bind fun file => file.content.bind (T.deserialize key.1)

inductive Action (M : Type)
  | stat
  | read
  | lockFails
  | acquire
  | isFile
  | compile (result : Option M)
  | create
  | write
  | rename
  | storeFails
  | kill

inductive Event (E B H M : Type)
  | start (pid : Nat) (job : Job E B H M)
  | act (t : Nat) (action : Action M)

section Step

variable [DecidableEq E] [DecidableEq H]

def State.put (s : State E B H M A) (t : Nat) (th : Thread E B H M) (stage : Stage M) :
    State E B H M A :=
  { s with thread := update s.thread t (some { th with stage }) }

def State.release (s : State E B H M A) (t : Nat) (key : E × H) : State E B H M A :=
  { s with lock := update s.lock key (if s.lock key = some t then none else s.lock key) }

def State.take (s : State E B H M A) (t : Nat) (key : E × H) : State E B H M A :=
  { s with lock := update s.lock key (some t) }

def State.scribble (s : State E B H M A) (key : E × H) (pid : Nat) (content : Option A) :
    State E B H M A :=
  { s with scratch := update s.scratch (key, pid) (some ⟨key, content⟩) }

/-- `fs::rename`, with the count of what `load_bytes` stored. -/
def State.rename (s : State E B H M A) (key : E × H) (pid : Nat) (file : File E H A)
    (compiled : Bool) : State E B H M A :=
  { s with
    entry := update s.entry key (some file)
    scratch := update s.scratch (key, pid) none
    stored := update s.stored key (s.stored key + if compiled then 1 else 0) }

def Job.isLoad : Job E B H M → Bool
  | .load .. => true
  | .save .. => false

def Job.result (m : M) : Job E B H M → Option M
  | .load .. => some m
  | .save .. => none

def State.finish (T : Toolchain E B H M A) (s : State E B H M A) (t : Nat) (th : Thread E B H M)
    (stage : Stage M) : State E B H M A :=
  (s.release t (th.job.key T)).put t th stage

def State.act (T : Toolchain E B H M A) (s : State E B H M A) (t : Nat) (th : Thread E B H M) :
    Action M → Option (State E B H M A)
  | .stat =>
    match th.stage with
    | .checking waited =>
      some (s.put t th
        (if (s.entry (th.job.key T)).isSome then .reading waited else .miss waited))
    | _ => none
  | .read =>
    match th.stage with
    | .reading waited =>
      match s.loadEntry T (th.job.key T) with
      | some m => some (s.finish T t th (.returned (some m)))
      | none => some (s.put t th (.miss waited))
    | _ => none
  | .lockFails =>
    match th.stage with
    | .locking => some (s.put t th .failed)
    | _ => none
  | .acquire =>
    match th.stage with
    | .locking =>
      if s.lock (th.job.key T) = none then
        some ((s.take t (th.job.key T)).put t th
          (if th.job.isLoad then .checking true else .deciding))
      else none
    | _ => none
  | .isFile =>
    match th.stage, th.job with
    | .deciding, .save _ _ m =>
      if (s.entry (th.job.key T)).isSome then some (s.finish T t th (.returned none))
      else some (s.put t th (.storing m))
    | _, _ => none
  | .compile result =>
    match th.stage, th.job, result with
    | .compiling, .load engine bytes, some m =>
      if T.compiled engine bytes m then some (s.put t th (.storing m)) else none
    | .compiling, _, none => some (s.finish T t th .failed)
    | _, _, _ => none
  | .create =>
    match th.stage with
    | .storing m => some ((s.scribble (th.job.key T) th.pid none).put t th (.writing m))
    | _ => none
  | .write =>
    match th.stage with
    | .writing m =>
      some ((s.scribble (th.job.key T) th.pid (some (T.serialize m))).put t th (.written m))
    | _ => none
  | .rename =>
    match th.stage, s.scratch (th.job.key T, th.pid) with
    | .written m, some file =>
      some ((s.rename (th.job.key T) th.pid file th.job.isLoad).finish T t th
        (.returned (th.job.result m)))
    | _, _ => none
  | .storeFails => if th.stage.stores.isSome then some (s.finish T t th .failed) else none
  | .kill => some (s.finish T t th .killed)

def Job.begin : Job E B H M → Stage M
  | .load .. => .checking false
  | .save .. => .locking

def State.add (s : State E B H M A) (pid : Nat) (job : Job E B H M) : State E B H M A :=
  { s with
    threads := s.threads + 1
    thread := update s.thread s.threads (some ⟨pid, job, job.begin⟩) }

def State.step (T : Toolchain E B H M A) (s : State E B H M A) :
    Event E B H M → Option (State E B H M A)
  | .start pid job => some (s.add pid job)
  | .act t action => (s.thread t).bind fun th => s.act T t th action

end Step

/-- An artifact that loads, if it does, as a module compiled from the bytes of its key. -/
def Faithful (T : Toolchain E B H M A) (key : E × H) (artifact : A) : Prop :=
  ∀ b m, T.sha256 b = key.2 → T.deserialize key.1 artifact = some m → T.compiled key.1 b m = true

def File.StoredFor (file : File E H A) (key : E × H) : Prop :=
  file.key = key ∧ file.content.isSome = true

/-- What the cache starts with: an entry of the directory is a complete artifact that was
stored for its key, and may or may not load. -/
structure State.Start (T : Toolchain E B H M A) (s : State E B H M A) : Prop where
  entries : ∀ key file, s.entry key = some file → file.StoredFor key ∧
    ∀ artifact, file.content = some artifact → Faithful T key artifact
  unlocked : ∀ key, s.lock key = none
  nobody : ∀ t, s.thread t = none
  none_stored : ∀ key, s.stored key = 0

def cacheSystem [DecidableEq E] [DecidableEq H] (T : Toolchain E B H M A) :
    System (State E B H M A) (Event E B H M) where
  Initial s := s.Start T
  next := State.step T

theorem State.loadEntry_none {T : Toolchain E B H M A} {s : State E B H M A} {key : E × H}
    (h : s.entry key = none) : s.loadEntry T key = none := by
  unfold State.loadEntry
  rw [h]
  rfl

section Moves

variable [DecidableEq E] [DecidableEq H] {T : Toolchain E B H M A} {s s' : State E B H M A}
  {t : Nat} {th : Thread E B H M}

inductive Move (T : Toolchain E B H M A) (s : State E B H M A) (t : Nat) (th : Thread E B H M) :
    State E B H M A → Prop
  | found {waited : Bool} (locked : th.stage.locked = waited) :
      Move T s t th (s.put t th (.reading waited))
  | missed {waited : Bool} (locked : th.stage.locked = waited)
      (missing : s.loadEntry T (th.job.key T) = none) : Move T s t th (s.put t th (.miss waited))
  | loaded {m : M} (is : s.loadEntry T (th.job.key T) = some m) :
      Move T s t th (s.finish T t th (.returned (some m)))
  | unlockable : Move T s t th (s.put t th .failed)
  | acquired {stage : Stage M} (free : s.lock (th.job.key T) = none)
      (next : stage = .checking true ∨ stage = .deciding) :
      Move T s t th ((s.take t (th.job.key T)).put t th stage)
  | present : Move T s t th (s.finish T t th (.returned none))
  | saves {e : E} {hash : H} {m : M} (locked : th.stage.locked = true)
      (job : th.job = .save e hash m) (absent : s.entry (th.job.key T) = none) :
      Move T s t th (s.put t th (.storing m))
  | compiles {e : E} {b : B} {m : M} (missed : th.stage.missed = true) (job : th.job = .load e b)
      (compiled : T.compiled e b m = true) : Move T s t th (s.put t th (.storing m))
  | writes {m : M} {content : Option A} {stage : Stage M} (stores : th.stage.stores = some m)
      (again : stage.stores = some m)
      (filled : ∀ m', stage = .written m' → content = some (T.serialize m')) :
      Move T s t th ((s.scribble (th.job.key T) th.pid content).put t th stage)
  | renames {m : M} {file : File E H A} (written : th.stage = .written m)
      (is : s.scratch (th.job.key T, th.pid) = some file) :
      Move T s t th ((s.rename (th.job.key T) th.pid file th.job.isLoad).finish T t th
        (.returned (th.job.result m)))
  | gives {stage : Stage M} (how : stage = .failed ∨ stage = .killed) :
      Move T s t th (s.finish T t th stage)

theorem act_move {action : Action M} (step : s.act T t th action = some s') : Move T s t th s' := by
  cases action with
  | stat =>
    simp only [State.act] at step
    split at step
    next waited checking =>
      have locked : th.stage.locked = waited := by rw [checking]; rfl
      cases step
      cases found : s.entry (th.job.key T) with
      | none => exact .missed locked (State.loadEntry_none found)
      | some file => exact .found locked
    · cases step
  | read =>
    simp only [State.act] at step
    split at step
    next waited reading =>
      split at step
      next m loaded =>
        cases step
        exact .loaded loaded
      next missing =>
        cases step
        exact .missed (by rw [reading]; rfl) missing
    · cases step
  | lockFails =>
    simp only [State.act] at step
    split at step <;> cases step
    exact .unlockable
  | acquire =>
    simp only [State.act] at step
    split at step
    · obtain ⟨free, ⟨⟩⟩ := guarded step
      apply Move.acquired free
      split <;> simp
    · cases step
  | isFile =>
    simp only [State.act] at step
    split at step
    next deciding job =>
      split at step
      · cases step
        exact .present
      next missing =>
        cases step
        exact .saves (by rw [deciding]; rfl) job (by simpa using missing)
    · cases step
  | compile result =>
    simp only [State.act] at step
    split at step
    next compiling job =>
      obtain ⟨compiled, ⟨⟩⟩ := guarded step
      exact .compiles (by rw [compiling]; rfl) job compiled
    · cases step
      exact .gives (.inl rfl)
    · cases step
  | create =>
    simp only [State.act] at step
    split at step
    next m storing =>
      cases step
      exact .writes (m := m) (by rw [storing]; rfl) rfl (by simp)
    · cases step
  | write =>
    simp only [State.act] at step
    split at step
    next m writing =>
      cases step
      exact .writes (m := m) (by rw [writing]; rfl) rfl (by simp)
    · cases step
  | rename =>
    simp only [State.act] at step
    split at step
    next m file written is =>
      cases step
      exact .renames written is
    · cases step
  | storeFails =>
    obtain ⟨_, ⟨⟩⟩ := guarded step
    exact .gives (.inl rfl)
  | kill =>
    cases step
    exact .gives (.inr rfl)

end Moves

end ServiceCache.ModuleCache
