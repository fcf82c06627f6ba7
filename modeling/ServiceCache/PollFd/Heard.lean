import ServiceCache.PollFd.Registered
import ServiceCache.PollFd.Turns

/-!
# No wake of a descriptor wait is slept through

A wait registers before it reads the gate and the word, and a change is made before its wake reads
the number of entries. So a change behind the reads is followed only by wakes that find the entry,
and the count they leave is drained only before the next reads.
-/

namespace ServiceCache.PollFd

open Function
open Transition

/-! ## Words that differ -/

def Watch.Right (words : Nat → BitVec 32) (x : Watch) : Prop :=
  x.since = none ↔ words x.address = x.expected

theorem State.watch_right (s : State) (address : Nat) (expected : BitVec 32) :
    (s.watch address expected).Right s.words := by
  unfold Watch.Right State.watch
  dsimp only
  split
  next same => exact ⟨fun _ => same, fun _ => rfl⟩
  next differs => exact ⟨fun is => (by cases is), fun same => absurd same differs⟩

theorem Watch.Right.note {words : Nat → BitVec 32} {x : Watch} (h : x.Right words) (address : Nat)
    (value : BitVec 32) (n : Nat) :
    (x.note address value n).Right (update words address value) := by
  unfold Watch.Right Watch.note
  by_cases here : x.address = address
  · rw [if_pos here]
    dsimp only
    rw [here, update_self]
    split
    next same => exact ⟨fun _ => same, fun _ => rfl⟩
    next differs => exact ⟨fun is => (by cases is), fun same => absurd same differs⟩
  · rw [if_neg here, update_of_ne here]
    exact h

theorem Watch.since_note {x : Watch} {address n m : Nat} {value : BitVec 32}
    (since : (x.note address value n).since = some m) : x.since = some m ∨ m = n := by
  unfold Watch.note at since
  split at since
  · dsimp only at since
    split at since
    · cases since
    · cases before : x.since with
      | none =>
        rw [before] at since
        exact .inr (Option.some.inj since).symm
      | some k =>
        rw [before] at since
        exact .inl since
  · exact .inl since

/-! ## Wakes behind a change -/

structure Told (wakers : Nat → Waker) (finished : List Wake) (e : Waiter) (readable : Bool)
    (n : Nat) : Prop where
  writing : ∀ j w todo, wakers j = .writing w todo → w.names e.word = true → n ≤ w.began →
    e ∈ todo ∨ readable = true
  finished : ∀ w ∈ finished, w.names e.word = true → n ≤ w.began → readable = true

section Told

variable {wakers : Nat → Waker} {finished : List Wake} {e : Waiter} {readable : Bool} {j n : Nat}

theorem Told.of_readable : Told wakers finished e true n :=
  ⟨fun _ _ _ _ _ _ => .inr rfl, fun _ _ _ _ => rfl⟩

theorem Told.setWaker (h : Told wakers finished e readable n) {x : Waker}
    (own : ∀ w todo, x = .writing w todo → w.names e.word = true → n ≤ w.began →
      e ∈ todo ∨ readable = true) : Told (update wakers j x) finished e readable n where
  writing k w todo is := by
    by_cases same : k = j
    · rw [same, update_self] at is
      exact own w todo is
    · rw [update_of_ne same] at is
      exact h.writing k w todo is
  finished := h.finished

theorem Told.finish (h : Told wakers finished e readable n) {w : Wake}
    (own : w.names e.word = true → n ≤ w.began → readable = true) :
    Told (update wakers j .idle) (w :: finished) e readable n where
  writing := (h.setWaker (x := .idle) fun w todo is => by cases is).writing
  finished v mem := by
    obtain rfl | mem := List.mem_cons.mp mem
    · exact own
    · exact h.finished v mem

end Told

/-! ## A thread that listens -/

@[simp] def Stage.gateLoaded : Stage → Bool
  | .loadingWord | .reading | .entering .. | .blocked .. => true
  | _ => false

@[simp] def Stage.wordLoaded : Stage → Bool
  | .reading | .entering .. | .blocked .. => true
  | _ => false

def Hears (wakers : Nat → Waker) (finished : List Wake) (e : Waiter) (readable : Bool) (x : Watch) :
    Prop :=
  ∀ n, x.since = some n → 0 < n ∧ Told wakers finished e readable n

structure Listening (words : Nat → BitVec 32) (wakers : Nat → Waker) (finished : List Wake) (i : Nat)
    (t : Thread) : Prop where
  eventfd : t.stage.isOutside = false → t.eventfd.isSome = true
  right : t.stage.isOutside = false → t.gate.Right words ∧ t.word.Right words
  gate : t.stage.gateLoaded = true →
    Hears wakers finished ⟨t.word.address, i⟩ t.readable t.gate
  word : t.stage.wordLoaded = true →
    Hears wakers finished ⟨t.word.address, i⟩ t.readable t.word

section Listening

variable {words : Nat → BitVec 32} {wakers wakers' : Nat → Waker} {finished finished' : List Wake}
  {i : Nat} {t : Thread}

theorem Stage.gateLoaded_of_wordLoaded {stage : Stage} (loaded : stage.wordLoaded = true) :
    stage.gateLoaded = true := by
  cases stage <;> first | rfl | cases loaded

theorem Stage.listed_of_gateLoaded {stage : Stage} (loaded : stage.gateLoaded = true) :
    stage.place = .listed ∧ stage.isOutside = false := by
  cases stage <;> first | exact ⟨rfl, rfl⟩ | cases loaded

theorem Listening.unloaded (eventfd : t.stage.isOutside = false → t.eventfd.isSome = true)
    (right : t.stage.isOutside = false → t.gate.Right words ∧ t.word.Right words)
    (not_ : t.stage.gateLoaded = false) : Listening words wakers finished i t where
  eventfd := eventfd
  right := right
  gate loaded := by rw [not_] at loaded; cases loaded
  word loaded := by
    rw [Stage.gateLoaded_of_wordLoaded loaded] at not_
    cases not_

theorem Listening.outside (out : t.stage.isOutside = true) : Listening words wakers finished i t := by
  obtain ⟨r, is⟩ := Stage.eq_of_isOutside out
  refine .unloaded (fun in_ => ?_) (fun in_ => ?_) (by rw [is]; rfl) <;> rw [out] at in_ <;> cases in_

theorem Listening.setStage (h : Listening words wakers finished i t) {stage : Stage}
    (in_ : t.stage.isOutside = false)
    (gate : stage.gateLoaded = true → t.gate.since = none ∨ t.stage.gateLoaded = true)
    (word : stage.wordLoaded = true → t.word.since = none ∨ t.stage.wordLoaded = true) :
    Listening words wakers finished i { t with stage } where
  eventfd _ := h.eventfd in_
  right _ := h.right in_
  gate loaded n since := by
    obtain none_ | before := gate loaded
    · rw [show t.gate.since = some n from since] at none_
      cases none_
    · exact h.gate before n since
  word loaded n since := by
    obtain none_ | before := word loaded
    · rw [show t.word.since = some n from since] at none_
      cases none_
    · exact h.word before n since

theorem Listening.map (h : Listening words wakers finished i t)
    (told : t.stage.gateLoaded = true → ∀ n, Told wakers finished ⟨t.word.address, i⟩ t.readable n →
      Told wakers' finished' ⟨t.word.address, i⟩ t.readable n) :
    Listening words wakers' finished' i t where
  eventfd := h.eventfd
  right := h.right
  gate loaded n since := by
    obtain ⟨pos, before⟩ := h.gate loaded n since
    exact ⟨pos, told loaded n before⟩
  word loaded n since := by
    obtain ⟨pos, before⟩ := h.word loaded n since
    exact ⟨pos, told (Stage.gateLoaded_of_wordLoaded loaded) n before⟩

theorem Listening.drain (h : Listening words wakers finished i t) (stage : t.stage = .draining) :
    Listening words wakers finished i t.drain := by
  have in_ : t.stage.isOutside = false := by rw [stage]; rfl
  have eventfd := h.eventfd in_
  unfold Thread.drain
  split
  · exact .unloaded (fun _ => by simpa using eventfd) (fun _ => h.right in_) rfl
  · exact .unloaded (fun _ => eventfd) (fun _ => h.right in_) rfl

theorem Listening.answer (h : Listening words wakers finished i t) (in_ : t.stage.isOutside = false)
    (conditions : List (BitVec 16 × Bool)) :
    Listening words wakers finished i (t.answer conditions) := by
  unfold Thread.answer
  dsimp only
  split <;> exact .unloaded (fun _ => h.eventfd in_) (fun _ => h.right in_) rfl

theorem Listening.write (h : Listening words wakers finished i t) :
    Listening words wakers' finished' i t.write := by
  obtain ⟨stage, word, gate⟩ := t.write_spec
  have written : t.stage.isOutside = false → t.write.readable = true := fun in_ => by
    obtain ⟨count, is⟩ := Option.isSome_iff_exists.mp (h.eventfd in_)
    simp [Thread.write, is, Thread.readable, Thread.count]
  refine ⟨fun in_ => ?_, fun in_ => ?_, fun loaded n since => ?_, fun loaded n since => ?_⟩
  · rw [stage] at in_
    obtain ⟨count, is⟩ := Option.isSome_iff_exists.mp (h.eventfd in_)
    simp [Thread.write, is]
  · rw [word, gate]
    exact h.right (stage ▸ in_)
  · rw [stage] at loaded
    rw [gate] at since
    rw [written (Stage.listed_of_gateLoaded loaded).2]
    exact ⟨(h.gate loaded n since).1, .of_readable⟩
  · rw [stage] at loaded
    rw [word] at since
    rw [written (Stage.listed_of_gateLoaded (Stage.gateLoaded_of_wordLoaded loaded)).2]
    exact ⟨(h.word loaded n since).1, .of_readable⟩

theorem Listening.note (h : Listening words wakers finished i t) (address : Nat) (value : BitVec 32)
    {n : Nat} (pos : 0 < n) (new : Told wakers finished ⟨t.word.address, i⟩ t.readable n) :
    Listening (update words address value) wakers finished i (t.note address value n) := by
  have same : (t.note address value n).word.address = t.word.address := Watch.note_address ..
  refine ⟨h.eventfd, fun in_ => ⟨(h.right in_).1.note .., (h.right in_).2.note ..⟩,
    fun loaded m since => ?_, fun loaded m since => ?_⟩ <;> rw [same]
  · obtain before | rfl := Watch.since_note since
    · exact h.gate loaded m before
    · exact ⟨pos, new⟩
  · obtain before | rfl := Watch.since_note since
    · exact h.word loaded m before
    · exact ⟨pos, new⟩

end Listening

/-! ## Runs -/

@[simp] def Waker.wake : Waker → Option Wake
  | .idle => none
  | .counting w | .locking w | .writing w _ => some w

structure Listens (s : State) : Prop where
  threads : ∀ i, Listening s.words s.wakers s.finished i (s.threads i)
  wakers : ∀ j w, (s.wakers j).wake = some w → w.began ≤ s.changes
  finished : ∀ w ∈ s.finished, w.began ≤ s.changes

section Runs

variable {s s' : State} {i j : Nat}

theorem Listens.update (h : Listens s) {t : Thread} {waiters : List Waiter} {count now : Nat}
    {lock : Option Holder} {support : Support}
    (own : Listening s.words s.wakers s.finished i (s.threads i) →
      Listening s.words s.wakers s.finished i t) :
    Listens { s with threads := update s.threads i t, waiters, count, lock, support, now } where
  threads k := by
    by_cases same : k = i
    · subst same
      change Listening _ _ _ k (Function.update s.threads k t k)
      rw [update_self]
      exact own (h.threads k)
    · change Listening _ _ _ k (Function.update s.threads i t k)
      rw [update_of_ne same]
      exact h.threads k
  wakers := h.wakers
  finished := h.finished

theorem began_update {wakers : Nat → Waker} {changes : Nat} {x : Waker}
    (h : ∀ k w, (wakers k).wake = some w → w.began ≤ changes)
    (own : ∀ w, x.wake = some w → w.began ≤ changes) (k : Nat) (w : Wake)
    (is : (update wakers j x k).wake = some w) : w.began ≤ changes := by
  by_cases same : k = j
  · rw [same, update_self] at is
    exact own w is
  · rw [update_of_ne same] at is
    exact h k w is

theorem Listens.setWaker (h : Listens s) {x : Waker} (writes : x.writes = false)
    (began : ∀ w, x.wake = some w → w.began ≤ s.changes) : Listens (s.setWaker j x) where
  threads i := (h.threads i).map fun _ n told =>
    told.setWaker fun w todo is => by rw [is] at writes; cases writes
  wakers := began_update h.wakers began
  finished := h.finished

theorem Listens.finish (h : Listens s) {w : Wake} {lock : Option Holder}
    (stage : (s.wakers j).wake = some w)
    (told : ∀ i, (s.threads i).stage.gateLoaded = true → ∀ n,
      Told s.wakers s.finished (s.entry i) (s.threads i).readable n →
        w.names (s.entry i).word = true → n ≤ w.began → (s.threads i).readable = true) :
    Listens ({ s with lock }.finish j w) where
  threads i := (h.threads i).map fun loaded n before => before.finish (told i loaded n before)
  wakers := began_update h.wakers fun w is => by cases is
  finished v mem := by
    obtain rfl | mem := List.mem_cons.mp mem
    · exact h.wakers j v stage
    · exact h.finished v mem

theorem listens_step (table : Table s) (h : Listens s) (move : Move s s') : Listens s' := by
  cases move with
  | refuses i support out => exact h.update fun _ => .outside rfl
  | enters i request out =>
    exact h.update fun _ => .unloaded (fun _ => rfl)
      (fun _ => ⟨s.watch_right .., s.watch_right ..⟩) rfl
  | registers i stage | counts i stage | signalled i read entered timeout stage
  | timesOut i read entered timeout stage | unregisters i r stage =>
    exact h.update fun own => own.setStage (by rw [stage]; rfl) nofun
      nofun
  | drains i stage => exact h.update fun own => own.drain stage
  | loadsGate i stage same =>
    refine h.update fun own => own.setStage (by rw [stage]; rfl) (fun _ => .inl ?_) nofun
    exact (own.right (by rw [stage]; rfl)).1.mpr same
  | loadsWord i stage same =>
    refine h.update fun own => own.setStage (by rw [stage]; rfl) (fun _ => .inr (by rw [stage]; rfl))
      fun _ => .inl ?_
    exact (own.right (by rw [stage]; rfl)).2.mpr same
  | reads i stage | blocks i read timeout stage =>
    exact h.update fun own => own.setStage (by rw [stage]; rfl) (fun _ => .inr (by rw [stage]; rfl))
      fun _ => .inr (by rw [stage]; rfl)
  | gives i r support stage result =>
    refine h.update fun own => own.setStage ?_ nofun nofun
    obtain stage | stage | ⟨read, entered, timeout, stage⟩ := stage <;> rw [stage] <;> rfl
  | answers i read entered timeout conditions stage =>
    exact h.update fun own => own.answer (by rw [stage]; rfl) conditions
  | returns i r stage => exact h.update fun _ => .outside rfl
  | closes i out =>
    exact h.update fun _ => .outside (by rw [(s.threads i).close_spec.1]; exact out)
  | wakes j address idle =>
    refine h.setWaker rfl fun w is => ?_
    cases is
    exact Nat.le_refl _
  | sees j w stage =>
    refine h.setWaker rfl fun v is => ?_
    cases is
    exact h.wakers j w (by rw [stage]; rfl)
  | passes j w stage none_ =>
    -- nobody is registered, so nobody is behind a reading
    refine h.finish (by rw [stage]; rfl) fun i loaded => ?_
    have pos := table.count_pos (s := s) (i := i) (Stage.listed_of_gateLoaded loaded).1
    omega
  | locks j w stage lock =>
    refine ⟨fun i => (h.threads i).map fun loaded n told => told.setWaker fun v todo is _ _ => ?_,
      began_update h.wakers fun v is => ?_, h.finished⟩
    · cases is
      refine .inl ((table.entries (s.entry i)).mpr ⟨?_, rfl⟩)
      rw [show (s.entry i).interrupt = i from rfl, State.place, (Stage.listed_of_gateLoaded loaded).1]
      rfl
    · cases is
      exact h.wakers j w (by rw [stage]; rfl)
  | writes j w e todo stage names =>
    refine ⟨fun i => ?_, began_update h.wakers fun v is => ?_, h.finished⟩
    · change Listening _ (update s.wakers j _) _ i
        (update s.threads e.interrupt _ i)
      by_cases same : i = e.interrupt
      · rw [same, update_self]
        exact (h.threads e.interrupt).write
      · rw [update_of_ne same]
        refine (h.threads i).map fun _ n told => told.setWaker fun v rest is names le => ?_
        cases is
        refine (told.writing j w (e :: todo) stage names le).imp_left fun mem => ?_
        obtain rfl | mem := List.mem_cons.mp mem
        · exact absurd rfl same
        · exact mem
    · cases is
      exact h.wakers j w (by rw [stage]; rfl)
  | skips j w e todo stage other =>
    refine ⟨fun i => ?_, began_update h.wakers fun v is => ?_, h.finished⟩
    · refine (h.threads i).map fun _ n told => told.setWaker fun v rest is names le => ?_
      cases is
      refine (told.writing j w (e :: todo) stage names le).imp_left fun mem => ?_
      obtain rfl | mem := List.mem_cons.mp mem
      · rw [other] at names
        cases names
      · exact mem
    · cases is
      exact h.wakers j w (by rw [stage]; rfl)
  | unlocks j w stage =>
    refine h.finish (by rw [stage]; rfl) fun i _ n told names le => ?_
    exact (told.writing j w [] stage names le).resolve_left List.not_mem_nil
  | changes address value =>
    refine ⟨fun i => (h.threads i).note address value (Nat.succ_pos _) ⟨?_, ?_⟩, ?_, ?_⟩
    · intro j w todo is _ late
      have began := h.wakers j w (by rw [is]; rfl)
      omega
    · intro w mem _ late
      have began := h.finished w mem
      omega
    · exact fun j w is => Nat.le_succ_of_le (h.wakers j w is)
    · exact fun w mem => Nat.le_succ_of_le (h.finished w mem)
  | passesTime now support => exact ⟨h.threads, h.wakers, h.finished⟩

end Runs

theorem listens {s : State} (reach : pollfd.Reachable s) : Listens s := by
  refine reach.invariant (P := Listens) ?_
    fun s e t before listens _ step => listens_step (table before.reachable) listens (step_move step)
  rintro _ ⟨eventfd, undrained, words, rfl⟩
  exact ⟨fun i => .outside rfl, fun j w is => (by cases is), fun w mem => (by cases mem)⟩

/-! ## The wait -/

def State.Followed (s : State) (i n : Nat) : Prop :=
  n = 0 ∨ ∃ w ∈ s.finished, w.names (s.entry i).word = true ∧ n ≤ w.began

/-- The thread is blocked with no count on its eventfd, although its gate or its word differs since
a change that was followed by a `wake`. -/
def State.SleptThrough (s : State) (i : Nat) : Prop :=
  (∃ read entered timeout, (s.threads i).stage = .blocked read entered timeout) ∧
    (s.threads i).readable = false ∧
    ∃ x, (x = (s.threads i).gate ∨ x = (s.threads i).word) ∧ s.words x.address ≠ x.expected ∧
      ∀ n, x.since = some n → s.Followed i n

/-- The timeout of every turn is what is left of the one deadline, and the wait times out behind it. -/
def State.KeepsDeadline (s : State) (i : Nat) : Prop :=
  (∀ read entered timeout, (s.threads i).stage = .blocked read entered timeout →
    read ≤ entered ∧ timeout = (s.threads i).deadline.map (· - read)) ∧
  ((s.threads i).stage.result = some .timedOut →
    ∃ deadline, (s.threads i).deadline = some deadline ∧ deadline ≤ s.now)

def State.Unregistered (s : State) (i : Nat) : Prop := ∀ e ∈ s.waiters, e.interrupt ≠ i

theorem not_sleptThrough {s : State} (h : Listens s) (i : Nat) : ¬ s.SleptThrough i := by
  rintro ⟨⟨read, entered, timeout, stage⟩, quiet, x, is, differs, followed⟩
  have own := h.threads i
  have heard : x.Right s.words ∧ Hears s.wakers s.finished (s.entry i) (s.threads i).readable x := by
    obtain ⟨gate, word⟩ := own.right (by rw [stage]; rfl)
    obtain rfl | rfl := is
    · exact ⟨gate, own.gate (by rw [stage]; rfl)⟩
    · exact ⟨word, own.word (by rw [stage]; rfl)⟩
  obtain ⟨n, since⟩ := Option.ne_none_iff_exists'.mp (mt heard.1.mp differs)
  obtain ⟨pos, told⟩ := heard.2 n since
  obtain rfl | ⟨w, mem, names, le⟩ := followed n since
  · exact absurd pos (Nat.lt_irrefl 0)
  · rw [told.finished w mem names le] at quiet
    cases quiet

/-- **The descriptor wait.** Whatever the hints were, no thread sleeps through a change that was
followed by a `wake`; a thread goes round for its eventfd alone at most once for each count that was
on it; its deadline stays; `Ready` answers for every descriptor; and nothing stays registered. -/
theorem wait_not_slept_through {s : State} (reach : pollfd.Reachable s) (i : Nat) :
    ¬ s.SleptThrough i ∧ (s.threads i).turns ≤ (s.threads i).written ∧ s.KeepsDeadline i ∧
      ((s.threads i).stage.result = some .ready → (s.threads i).Answered) ∧
      ((s.threads i).stage.isOutside = true → s.Unregistered i) := by
  have own := sound reach i
  refine ⟨not_sleptThrough (listens reach) i, own.turns_le, ⟨fun read entered timeout stage => ?_,
    own.due⟩, own.answered, fun out e mem is => ?_⟩
  · have timed := own.timed
    rw [stage] at timed
    exact ⟨timed.1, timed.2.2⟩
  · obtain ⟨r, stage⟩ := Stage.eq_of_isOutside out
    have in_ := ((table reach).entries e).mp mem |>.1
    rw [is, State.place, stage] at in_
    cases in_

def fresh : State where
  threads _ := {}
  wakers _ := .idle
  words _ := 0

def waits (gate : BitVec 32) (n : Nat) : List Event :=
  [.decide false, .call 0 ⟨[⟨5, hostPollRead, 0#16, 0⟩], 1, 0, 0, gate, none⟩ true] ++
    List.replicate n (.thread 0)

theorem fresh_reachable : pollfd.Reachable fresh :=
  .init ⟨fun _ => none, fun _ => false, fun _ => 0, rfl⟩

/-- The word changes while the thread is blocked, and a `wake` on it returns. -/
theorem wait_not_slept_through_woken : ∃ s, pollfd.Reachable s ∧
    ((s.threads 0).stage = .blocked 0 0 none ∧ (s.threads 0).word.since = some 1 ∧
      s.finished = [⟨some 1, 1⟩]) ∧
    ¬ s.SleptThrough 0 ∧ (s.threads 0).turns ≤ (s.threads 0).written ∧ s.KeepsDeadline 0 ∧
      ((s.threads 0).stage.result = some .ready → (s.threads 0).Answered) ∧
      ((s.threads 0).stage.isOutside = true → s.Unregistered 0) := by
  obtain ⟨s, reach, woken⟩ : ∃ s, pollfd.Reachable s ∧
      ((s.threads 0).stage = .blocked 0 0 none ∧ (s.threads 0).word.since = some 1 ∧
        s.finished = [⟨some 1, 1⟩]) :=
    System.exists_reachable_of_run (s := fresh)
      (l := waits 0 7 ++ [.change 1 1, .wake 0 (some 1)] ++ List.replicate 4 (.waker 0))
      fresh_reachable (by decide +kernel)
  exact ⟨s, reach, woken, wait_not_slept_through reach 0⟩

/-- The wait is over, and the thread keeps its eventfd for the next one. -/
theorem eventfd_outlives_wait : ¬ ∀ s i r, pollfd.Reachable s →
    (s.threads i).stage = .outside (some r) → s.Unregistered i ∧ (s.threads i).eventfd = none := by
  intro claim
  obtain ⟨s, reach, outside, kept⟩ : ∃ s, pollfd.Reachable s ∧
      (s.threads 0).stage = .outside (some .interrupted) ∧ (s.threads 0).eventfd = some 0 :=
    System.exists_reachable_of_run (s := fresh) (l := waits 1 6) fresh_reachable (by decide +kernel)
  rw [(claim s 0 .interrupted reach outside).2] at kept
  cases kept

end ServiceCache.PollFd
