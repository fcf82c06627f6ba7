import Mathlib.Logic.Function.Basic
import ServiceCache.Transition

/-!
# Readiness and wakers of one socket

`InterestWakerMap` keeps the wakers of each interest behind a lock, and a mask of the interests
that fired with no waker to take them, without one. Polls do not overlap each other. The pushes
follow one another and are numbered, but the mask may be popped or read between any two of their
steps. Wakers that wake the same task are equal.
-/

namespace ServiceCache.InterestWakers

open Function
open Transition (System guarded)

inductive InterestType
  | readable
  | writable
  | closed
  | error
  deriving DecidableEq, Repr

def InterestType.index : InterestType → Nat
  | .readable => 0
  | .writable => 1
  | .closed => 2
  | .error => 3

def InterestType.bit (i : InterestType) : BitVec 8 := 1#8 <<< i.index

structure InterestWakerMap where
  wakers : InterestType → List Nat := fun _ => []
  triggered : BitVec 8 := 0

namespace InterestWakerMap

def add (m : InterestWakerMap) (i : InterestType) (waker : Nat) : InterestWakerMap :=
  if waker ∈ m.wakers i then m
  else { m with wakers := update m.wakers i (m.wakers i ++ [waker]) }

def hasInterest (m : InterestWakerMap) (i : InterestType) : Bool := m.triggered &&& i.bit != 0

def pop (m : InterestWakerMap) (i : InterestType) : InterestWakerMap × Bool :=
  ({ m with triggered := m.triggered &&& ~~~i.bit }, m.hasInterest i)

/-- The `fetch_or` of a push that found no waker. -/
def record (m : InterestWakerMap) (i : InterestType) : InterestWakerMap :=
  { m with triggered := m.triggered ||| i.bit }

theorem hasInterest_eq (m : InterestWakerMap) (i : InterestType) :
    m.hasInterest i = m.triggered.getLsbD i.index := by
  have bit : i.bit = BitVec.twoPow 8 i.index := (BitVec.twoPow_eq ..).symm
  have nonzero : BitVec.twoPow 8 i.index ≠ 0#8 := by cases i <;> decide
  rw [hasInterest, bit, BitVec.and_twoPow]
  cases m.triggered.getLsbD i.index with
  | true => simpa using nonzero
  | false => rfl

theorem hasInterest_record (m : InterestWakerMap) (i j : InterestType) :
    (m.record j).hasInterest i = (m.hasInterest i || decide (i = j)) := by
  rw [hasInterest_eq, hasInterest_eq, record, BitVec.getLsbD_or]
  cases i <;> cases j <;> rfl

end InterestWakerMap

inductive PushStage
  | recording
  | waking
  | recorded
  deriving DecidableEq, Repr

structure Push where
  interest : InterestType
  stage : PushStage
  deriving DecidableEq, Repr

structure Poll where
  waker : Nat
  interest : InterestType
  born : Nat
  added : Bool := false
  deriving DecidableEq, Repr

structure Answer where
  poll : Poll
  seen : Bool
  deriving DecidableEq, Repr

structure Wake where
  waker : Nat
  interest : InterestType
  push : Nat
  deriving DecidableEq, Repr

structure State where
  map : InterestWakerMap := {}
  lock : Option Push := none
  poll : Option Poll := none
  pushes : List (InterestType × List Nat) := []
  ended : Nat := 0
  wakes : List Wake := []
  registered : List (Nat × InterestType) := []
  answers : List Answer := []

inductive Event
  | pop (waker : Nat) (i : InterestType)
  | add
  | hasInterest
  | lock (i : InterestType)
  | fetchOr
  | wake
  | unlock

def State.unlock (s : State) : State := { s with lock := none, ended := s.ended + 1 }

def State.wake (s : State) (i : InterestType) (waker : Nat) (rest : List Nat) : State :=
  { s with
    map.wakers := update s.map.wakers i rest
    wakes := ⟨waker, i, s.ended⟩ :: s.wakes }

def State.add (s : State) (p : Poll) : State :=
  { s with
    map := s.map.add p.interest p.waker
    poll := some { p with added := true }
    registered := if p.waker ∈ s.map.wakers p.interest then s.registered
      else (p.waker, p.interest) :: s.registered }

def State.begin (s : State) (i : InterestType) : State :=
  { s with
    lock := some ⟨i, if s.map.wakers i = [] then .recording else .waking⟩
    pushes := s.pushes ++ [(i, s.map.wakers i)] }

def State.step (s : State) : Event → Option State
  | .pop waker i =>
      if s.poll = none then
        some { s with map := (s.map.pop i).1, poll := some ⟨waker, i, s.pushes.length, false⟩ }
      else none
  | .add =>
      match s.poll, s.lock with
      | some p, none => if p.added then none else some (s.add p)
      | _, _ => none
  | .hasInterest =>
      match s.poll with
      | some p =>
          if p.added then
            some { s with poll := none, answers := ⟨p, s.map.hasInterest p.interest⟩ :: s.answers }
          else none
      | none => none
  | .lock i => if s.lock = none then some (s.begin i) else none
  | .fetchOr =>
      match s.lock with
      | some ⟨i, .recording⟩ =>
          some { s with map := s.map.record i, lock := some ⟨i, .recorded⟩ }
      | _ => none
  | .wake =>
      match s.lock with
      | some ⟨i, .waking⟩ =>
          match s.map.wakers i with
          | waker :: rest => some (s.wake i waker rest)
          | [] => none
      | _ => none
  | .unlock =>
      match s.lock with
      | some ⟨_, .recorded⟩ => some s.unlock
      | some ⟨i, .waking⟩ => if s.map.wakers i = [] then some s.unlock else none
      | _ => none

def wakerMap : System State Event where
  Initial s := s = {}
  next := State.step

variable {s t : State} {i j : InterestType} {w b m n : Nat}

/-! ## Registrations and wakes -/

def State.Found (s : State) (n : Nat) (i : InterestType) (w : Nat) : Prop :=
  ∃ found, s.pushes[n]? = some (i, found) ∧ w ∈ found

def State.Pushed (s : State) (n : Nat) (i : InterestType) : Prop :=
  ∃ found, s.pushes[n]? = some (i, found)

structure State.Holds (s : State) (l : Push) : Prop where
  last : s.pushes.length = s.ended + 1
  pushed : s.Pushed s.ended l.interest
  found : ∀ w ∈ s.map.wakers l.interest, s.Found s.ended l.interest w
  woken : ∀ w, s.Found s.ended l.interest w →
    w ∈ s.map.wakers l.interest ∨ ⟨w, l.interest, s.ended⟩ ∈ s.wakes
  emptied : l.stage ≠ .waking → s.map.wakers l.interest = []

structure Registered (s : State) : Prop where
  idle : s.lock = none → s.pushes.length = s.ended
  holds : ∀ l, s.lock = some l → s.Holds l
  woken : ∀ n < s.ended, ∀ i w, s.Found n i w → ⟨w, i, n⟩ ∈ s.wakes
  found : ∀ k ∈ s.wakes, s.Found k.push k.interest k.waker
  counted : ∀ w i, s.registered.count (w, i) =
    s.wakes.countP (fun k => k.waker = w ∧ k.interest = i) + (s.map.wakers i).count w

theorem found_begin (h : s.Found n i w) : (s.begin j).Found n i w := by
  obtain ⟨found, at_, mem⟩ := h
  have lt : n < s.pushes.length := (List.getElem?_eq_some_iff.mp at_).1
  exact ⟨found, (List.getElem?_append_left lt).trans at_, mem⟩

theorem pushes_begin {found : List Nat} (h : (s.begin j).pushes[n]? = some (i, found)) :
    s.pushes[n]? = some (i, found) ∨ n = s.pushes.length ∧ i = j ∧ found = s.map.wakers j := by
  by_cases old : n < s.pushes.length
  · exact .inl ((List.getElem?_append_left old).symm.trans h)
  · have last : n = s.pushes.length := by
      have := (List.getElem?_eq_some_iff.mp h).1
      simp only [State.begin, List.length_append, List.length_singleton] at this
      omega
    subst last
    obtain ⟨rfl, rfl⟩ := Prod.mk.inj (Option.some.inj (List.getElem?_concat_length.symm.trans h))
    exact .inr ⟨rfl, rfl, rfl⟩

theorem begin_last : (s.begin j).pushes[s.pushes.length]? = some (j, s.map.wakers j) :=
  List.getElem?_concat_length

theorem Registered.add (h : Registered s) (free : s.lock = none) (p : Poll) :
    Registered (s.add p) := by
  refine ⟨h.idle, fun l held => ?_, h.woken, h.found, fun w i => ?_⟩
  · rw [show s.lock = some l from held] at free
    cases free
  · have counted := h.counted w i
    by_cases known : p.waker ∈ s.map.wakers p.interest
    · simpa [State.add, InterestWakerMap.add, known] using counted
    · simp only [State.add, InterestWakerMap.add, known, if_false, List.count_cons]
      by_cases same : i = p.interest
      · subst same
        rw [update_self, List.count_append, List.count_singleton, counted]
        by_cases mine : p.waker = w
        · simp [mine, Nat.add_assoc]
        · simp [mine]
      · rw [update_of_ne same, counted]
        simp [Ne.symm same]

theorem Registered.begin (h : Registered s) (free : s.lock = none) (j : InterestType) :
    Registered (s.begin j) := by
  have ended := h.idle free
  refine ⟨nofun, fun l held => ?_, fun n lt i w found => ?_,
    fun k mem => found_begin (h.found k mem), h.counted⟩
  · obtain rfl := Option.some.inj held
    have last : (s.begin j).pushes[s.ended]? = some (j, s.map.wakers j) := ended ▸ begin_last
    refine ⟨?_, ⟨_, last⟩, fun w mem => ⟨_, last, mem⟩, ?_, ?_⟩
    · simp [State.begin, ended]
    · rintro w ⟨found, at_, mem⟩
      obtain ⟨-, rfl⟩ := Prod.mk.inj (Option.some.inj (last.symm.trans at_))
      exact .inl mem
    · intro stage
      by_contra waiting
      exact stage (if_neg waiting)
  · obtain ⟨found, at_, mem⟩ := found
    obtain old | ⟨rfl, -⟩ := pushes_begin at_
    · exact h.woken n lt i w ⟨found, old, mem⟩
    · exact absurd lt (by simp [State.begin, ended])

theorem Registered.wake (h : Registered s) {rest : List Nat} (held : s.lock = some ⟨i, .waking⟩)
    (slot : s.map.wakers i = w :: rest) : Registered (s.wake i w rest) := by
  have holds := h.holds _ held
  refine ⟨fun is => ?_, fun l held' => ?_, fun n lt i w found => ?_, fun k mem => ?_,
    fun w' j => ?_⟩
  · rw [show s.lock = none from is] at held
    cases held
  · obtain rfl := Option.some.inj (held.symm.trans held')
    have left : (s.wake i w rest).map.wakers i = rest := update_self ..
    refine ⟨holds.last, holds.pushed, fun v mem => ?_, fun v found => ?_, fun stage => absurd rfl stage⟩
    · rw [left] at mem
      exact holds.found v (by rw [slot]; exact List.mem_cons_of_mem _ mem)
    · rw [left]
      obtain waits | woken := holds.woken v found
      · rw [slot] at waits
        obtain rfl | waits := List.mem_cons.mp waits
        · exact .inr (.head _)
        · exact .inl waits
      · exact .inr (.tail _ woken)
  · exact .tail _ (h.woken n lt i w found)
  · obtain rfl | mem := List.mem_cons.mp mem
    · exact holds.found w (by rw [slot]; exact .head _)
    · exact h.found k mem
  · have counted := h.counted w' j
    simp only [State.wake, List.countP_cons]
    by_cases same : j = i
    · subst same
      rw [update_self]
      rw [slot, List.count_cons] at counted
      by_cases mine : w = w'
      · simp only [mine, beq_self_eq_true, if_true] at counted
        simp only [mine, and_self, decide_true, if_true]
        omega
      · simpa [mine] using counted
    · rw [update_of_ne same]
      simpa [Ne.symm same] using counted

theorem Registered.unlock (h : Registered s) {l : Push} (held : s.lock = some l)
    (empty : s.map.wakers l.interest = []) : Registered s.unlock := by
  have holds := h.holds l held
  refine ⟨fun _ => holds.last, nofun, fun n lt i w found => ?_, h.found,
    h.counted⟩
  by_cases before : n < s.ended
  · exact h.woken n before i w found
  · obtain rfl : n = s.ended := by
      change n < s.ended + 1 at lt
      omega
    obtain ⟨list, pushed⟩ := holds.pushed
    obtain ⟨found', at_, mem⟩ := found
    obtain ⟨rfl, rfl⟩ := Prod.mk.inj (Option.some.inj (pushed.symm.trans at_))
    obtain waits | woken := holds.woken w ⟨list, pushed, mem⟩
    · rw [empty] at waits
      cases waits
    · exact woken

/-! ## Polls -/

/-- For every push of the interest since the poll's pop, that push or one before it, since the
pop, found the poll's waker. -/
def State.Heard (s : State) (p : Poll) : Prop :=
  ∀ n, p.born ≤ n → s.Pushed n p.interest →
    ∃ m, p.born ≤ m ∧ m ≤ n ∧ s.Found m p.interest p.waker

def State.Waits (s : State) (p : Poll) : Prop :=
  (∃ m, p.born ≤ m ∧ s.Found m p.interest p.waker) ∨
    p.born ≤ s.pushes.length ∧ p.waker ∈ s.map.wakers p.interest ∧
      ∀ l, s.lock = some l → l.interest ≠ p.interest

structure Polls (s : State) : Prop where
  popped : ∀ p, s.poll = some p → p.added = false → p.born ≤ s.pushes.length ∧
    (s.Heard p ∨ s.map.hasInterest p.interest = true ∨ s.lock = some ⟨p.interest, .recording⟩)
  added : ∀ p, s.poll = some p → p.added = true →
    s.map.hasInterest p.interest = true ∨ s.Heard p ∧ s.Waits p
  answered : ∀ r ∈ s.answers, r.seen = false → s.Heard r.poll ∧ s.Waits r.poll

variable {p : Poll}

theorem State.Heard.begin (h : s.Heard p)
    (found : p.interest = j → p.waker ∈ s.map.wakers j ∨
      ∃ m, p.born ≤ m ∧ s.Found m p.interest p.waker) : (s.begin j).Heard p := by
  rintro n le ⟨list, at_⟩
  obtain old | ⟨rfl, same, rfl⟩ := pushes_begin at_
  · obtain ⟨m, born, before, found⟩ := h n le ⟨list, old⟩
    exact ⟨m, born, before, found_begin found⟩
  · obtain waits | ⟨m, born, found⟩ := found same
    · exact ⟨_, le, Nat.le_refl _, _, same ▸ begin_last, waits⟩
    · have lt : m < s.pushes.length := (List.getElem?_eq_some_iff.mp found.choose_spec.1).1
      exact ⟨m, born, Nat.le_of_lt lt, found_begin found⟩

theorem State.Waits.begin (h : s.Waits p) (j : InterestType) : (s.begin j).Waits p := by
  obtain ⟨m, born, found⟩ | ⟨born, waits, -⟩ := h
  · exact .inl ⟨m, born, found_begin found⟩
  · by_cases same : j = p.interest
    · subst same
      exact .inl ⟨s.pushes.length, born, _, begin_last, waits⟩
    · refine .inr ⟨?_, waits, fun l held => ?_⟩
      · simp only [State.begin, List.length_append]
        omega
      · obtain rfl := Option.some.inj held
        exact same

theorem State.Waits.keep (h : s.Waits p) (pushes : t.pushes = s.pushes)
    (lock : ∀ l, t.lock = some l → ∃ l', s.lock = some l' ∧ l'.interest = l.interest)
    (slot : (∀ l, s.lock = some l → l.interest ≠ p.interest) →
      p.waker ∈ s.map.wakers p.interest → p.waker ∈ t.map.wakers p.interest) : t.Waits p := by
  unfold State.Waits State.Found
  rw [pushes]
  obtain found | ⟨born, waits, unlocked⟩ := h
  · exact .inl found
  · refine .inr ⟨born, slot unlocked waits, fun l held => ?_⟩
    obtain ⟨l', held', same⟩ := lock l held
    exact same ▸ unlocked l' held'

theorem Polls.keep (h : Polls s) (pushes : t.pushes = s.pushes) (poll : t.poll = s.poll)
    (answers : t.answers = s.answers)
    (lock : ∀ l, t.lock = some l → ∃ l', s.lock = some l' ∧ l'.interest = l.interest)
    (slot : ∀ p : Poll, (∀ l, s.lock = some l → l.interest ≠ p.interest) →
      p.waker ∈ s.map.wakers p.interest → p.waker ∈ t.map.wakers p.interest)
    (mask : ∀ i, s.map.hasInterest i = true → t.map.hasInterest i = true)
    (recording : ∀ i, s.lock = some ⟨i, .recording⟩ →
      t.map.hasInterest i = true ∨ t.lock = some ⟨i, .recording⟩) : Polls t := by
  have heard : ∀ {p}, s.Heard p → t.Heard p := by
    intro p heard
    unfold State.Heard State.Pushed State.Found
    rw [pushes]
    exact heard
  have waits : ∀ {p}, s.Waits p → t.Waits p := fun waits => waits.keep pushes lock (slot _)
  refine ⟨fun p at_ young => ?_, fun p at_ old => ?_, fun r mem missed => ?_⟩
  · rw [poll] at at_
    obtain ⟨born, cases⟩ := h.popped p at_ young
    refine ⟨pushes ▸ born, ?_⟩
    obtain old | seen | held := cases
    · exact .inl (heard old)
    · exact .inr (.inl (mask _ seen))
    · exact .inr (recording _ held)
  · rw [poll] at at_
    exact (h.added p at_ old).imp (mask _) fun both => ⟨heard both.1, waits both.2⟩
  · rw [answers] at mem
    obtain ⟨old, kept⟩ := h.answered r mem missed
    exact ⟨heard old, waits kept⟩

/-- A push that finds wakers between a poll's pop and its add, finds that poll's waker among
them. -/
def Unclaimed (s : State) : Event → Prop
  | .lock i => ∀ p ∈ s.poll, p.added = false → p.interest = i →
      s.map.wakers i = [] ∨ p.waker ∈ s.map.wakers i
  | _ => True

instance (s : State) : ∀ e, Decidable (Unclaimed s e)
  | .lock i => inferInstanceAs (Decidable (∀ p ∈ s.poll, p.added = false → p.interest = i →
      s.map.wakers i = [] ∨ p.waker ∈ s.map.wakers i))
  | .pop .. | .add | .hasInterest | .fetchOr | .wake | .unlock => inferInstanceAs (Decidable True)

theorem Polls.begin (h : Polls s) (free : s.lock = none) (ok : Unclaimed s (.lock j)) :
    Polls (s.begin j) := by
  have heard : ∀ {p}, s.Heard p ∧ s.Waits p → (s.begin j).Heard p ∧ (s.begin j).Waits p := by
    rintro p ⟨heard, waits⟩
    refine ⟨heard.begin fun same => ?_, waits.begin j⟩
    obtain found | ⟨-, waits, -⟩ := waits
    · exact .inr found
    · exact .inl (same ▸ waits)
  refine ⟨fun p at_ young => ?_, fun p at_ old => ?_, fun r mem missed => ?_⟩
  · obtain ⟨born, cases⟩ := h.popped p at_ young
    refine ⟨?_, ?_⟩
    · simp only [State.begin, List.length_append]
      omega
    obtain old | seen | held := cases
    · by_cases same : p.interest = j
      · obtain empty | mine := ok p at_ young same
        · exact .inr (.inr (by simp [State.begin, empty, same]))
        · exact .inl (old.begin fun _ => .inl mine)
      · exact .inl (old.begin fun is => absurd is same)
    · exact .inr (.inl seen)
    · rw [held] at free
      cases free
  · exact (h.added p at_ old).imp id heard
  · exact heard (h.answered r mem missed)

theorem Polls.add (h : Polls s) (free : s.lock = none) (at_ : s.poll = some p)
    (young : p.added = false) : Polls (s.add p) := by
  have waits : ∀ w i, w ∈ s.map.wakers i → w ∈ (s.map.add p.interest p.waker).wakers i := by
    intro w i mem
    unfold InterestWakerMap.add
    split
    · exact mem
    · by_cases same : i = p.interest
      · subst same
        simp [mem]
      · simpa [same] using mem
  have mine : p.waker ∈ (s.map.add p.interest p.waker).wakers p.interest := by
    unfold InterestWakerMap.add
    split
    next known => exact known
    · simp
  have mask : ∀ i, (s.map.add p.interest p.waker).hasInterest i = s.map.hasInterest i := by
    intro i
    unfold InterestWakerMap.add
    split <;> rfl
  have unlocked : ∀ l, (s.add p).lock = some l → l.interest ≠ p.interest := by
    intro l held
    rw [show s.lock = some l from held] at free
    cases free
  refine ⟨fun q is young => ?_, fun q is _ => ?_, fun r mem missed => ?_⟩
  · obtain rfl := Option.some.inj is
    cases young
  · obtain rfl := Option.some.inj is
    obtain ⟨born, heard | seen | held⟩ := h.popped p at_ young
    · exact .inr ⟨heard, .inr ⟨born, mine, unlocked⟩⟩
    · exact .inl ((mask _).trans seen)
    · rw [held] at free
      cases free
  · obtain ⟨heard, kept⟩ := h.answered r mem missed
    exact ⟨heard, kept.keep rfl (fun l held => ⟨l, held, rfl⟩) fun _ => waits _ _⟩

theorem Polls.fetchOr (h : Polls s) (held : s.lock = some ⟨i, .recording⟩) :
    Polls { s with map := s.map.record i, lock := some ⟨i, .recorded⟩ } := by
  have mask : ∀ j, (s.map.record i).hasInterest j = true ↔ s.map.hasInterest j = true ∨ j = i := by
    intro j
    rw [InterestWakerMap.hasInterest_record, Bool.or_eq_true, decide_eq_true_eq]
  refine h.keep rfl rfl rfl (fun l is => ?_) (fun _ _ mem => mem)
    (fun j seen => (mask j).mpr (.inl seen)) fun j is => ?_
  · obtain rfl := Option.some.inj is
    exact ⟨_, held, rfl⟩
  · obtain ⟨⟩ := Option.some.inj (held.symm.trans is)
    exact .inl ((mask i).mpr (.inr rfl))

theorem Polls.unlock (h : Polls s) (stage : ∀ i, s.lock ≠ some ⟨i, .recording⟩) : Polls s.unlock :=
  h.keep rfl rfl rfl nofun (fun _ _ mem => mem) (fun _ seen => seen)
    fun i is => absurd is (stage i)

theorem sound_step (h : Registered s) (polls : Polls s) {e : Event} (ok : Unclaimed s e)
    (step : s.step e = some t) : Registered t ∧ Polls t := by
  cases e with
  | pop waker i =>
    obtain ⟨-, ⟨⟩⟩ := guarded step
    refine ⟨⟨h.idle, fun l held => { h.holds l held with }, h.woken, h.found, h.counted⟩,
      fun p is _ => ?_, fun p is added => ?_, polls.answered⟩
    · obtain rfl := Option.some.inj is
      -- no push has begun since the pop
      refine ⟨Nat.le_refl _, .inl fun n le ⟨found, at_⟩ => ?_⟩
      exact absurd (List.getElem?_eq_some_iff.mp at_).1 (Nat.not_lt.mpr le)
    · obtain rfl := Option.some.inj is
      cases added
  | add =>
    simp only [State.step] at step
    split at step
    next p at_ free =>
      obtain ⟨young, ⟨⟩⟩ := (Option.ite_none_left_eq_some ..).mp step
      exact ⟨h.add free p, polls.add free at_ (by simpa using young)⟩
    · cases step
  | hasInterest =>
    simp only [State.step] at step
    split at step
    next p at_ =>
      obtain ⟨added, ⟨⟩⟩ := guarded step
      refine ⟨⟨h.idle, fun l held => { h.holds l held with }, h.woken, h.found, h.counted⟩, nofun,
        nofun, fun r mem missed => ?_⟩
      obtain rfl | mem := List.mem_cons.mp mem
      · obtain seen | both := polls.added p at_ added
        · exact absurd (seen.symm.trans missed) (by decide)
        · exact both
      · exact polls.answered r mem missed
    · cases step
  | lock i =>
    obtain ⟨free, ⟨⟩⟩ := guarded step
    exact ⟨h.begin free i, polls.begin free ok⟩
  | fetchOr =>
    simp only [State.step] at step
    split at step <;> cases step
    next i held =>
      have holds := h.holds _ held
      refine ⟨⟨nofun, fun l held' => ?_, h.woken, h.found, h.counted⟩, polls.fetchOr held⟩
      obtain rfl := Option.some.inj held'
      exact { holds with emptied := fun _ => holds.emptied (by simp) }
  | wake =>
    simp only [State.step] at step
    split at step
    next i held =>
      split at step <;> cases step
      next w rest slot =>
        refine ⟨h.wake held slot, polls.keep rfl rfl rfl (fun l is => ⟨l, is, rfl⟩)
          (fun p unlocked mem => ?_) (fun _ seen => seen) fun j is => .inr is⟩
        change p.waker ∈ update s.map.wakers i rest p.interest
        rwa [update_of_ne (Ne.symm (unlocked _ held))]
    · cases step
  | unlock =>
    simp only [State.step] at step
    split at step
    next i held =>
      cases step
      exact ⟨h.unlock held ((h.holds _ held).emptied (by simp)), polls.unlock (by simp [held])⟩
    next i held =>
      obtain ⟨empty, ⟨⟩⟩ := guarded step
      exact ⟨h.unlock held empty, polls.unlock (by simp [held])⟩
    · cases step

/-- As long as no push takes the wakers of earlier polls between a poll's pop and its add: every
push of an interest that begins after a poll's pop wakes the poll's waker, or an earlier one since
the pop has, or `has_interest` answered true. A waker that is registered is woken by the next push
of its interest, only by pushes of that interest, and no more often than it was registered. -/
theorem readiness_not_missed {s : State} (h : wakerMap.ReachableBy Unclaimed s) :
    (∀ r ∈ s.answers, ∀ n < s.ended, r.poll.born ≤ n → s.Pushed n r.poll.interest →
      r.seen = true ∨ ∃ m, r.poll.born ≤ m ∧ m ≤ n ∧ ⟨r.poll.waker, r.poll.interest, m⟩ ∈ s.wakes) ∧
    (∀ n < s.ended, ∀ i found, s.pushes[n]? = some (i, found) →
      ∀ w ∈ found, ⟨w, i, n⟩ ∈ s.wakes) ∧
    (∀ k ∈ s.wakes, s.Found k.push k.interest k.waker) ∧
    ∀ w i, s.wakes.countP (fun k => k.waker = w ∧ k.interest = i) + (s.map.wakers i).count w =
      s.registered.count (w, i) := by
  have invariant : Registered s ∧ Polls s := by
    refine h.invariant (P := fun s => Registered s ∧ Polls s) ?_ ?_
    · rintro s rfl
      exact ⟨⟨fun _ => rfl, nofun, nofun, nofun, fun _ _ => rfl⟩, ⟨nofun, nofun, nofun⟩⟩
    · intro s e t _ ⟨registered, polls⟩ ok step
      exact sound_step registered polls ok step
  obtain ⟨registered, polls⟩ := invariant
  refine ⟨fun r mem n lt born pushed => ?_, fun n lt i found at_ w mem => ?_, registered.found,
    fun w i => (registered.counted w i).symm⟩
  · cases seen : r.seen with
    | true => exact .inl rfl
    | false =>
      obtain ⟨m, born, le, found⟩ := (polls.answered r mem seen).1 n born pushed
      exact .inr ⟨m, born, le, registered.woken m (by omega) _ _ found⟩
  · exact registered.woken n lt i w ⟨found, at_, mem⟩

/-- A push falls between the pop and the add of a poll. -/
theorem readiness_not_missed_between :
    ∃ s, wakerMap.ReachableBy Unclaimed s ∧ s.answers = [⟨⟨7, .readable, 0, true⟩, true⟩] ∧
      s.wakes = [⟨7, .readable, 1⟩] ∧ s.map.wakers .readable = [] ∧
        s.registered.count (7, .readable) = 1 := by
  obtain ⟨s, reach, answers, wakes, slot⟩ : ∃ s, wakerMap.ReachableBy Unclaimed s ∧
      s.answers = [⟨⟨7, .readable, 0, true⟩, true⟩] ∧ s.wakes = [⟨7, .readable, 1⟩] ∧
        s.map.wakers .readable = [] :=
    System.exists_reachableBy_of_runBy (s := {})
      (l := [.pop 7 .readable, .lock .readable, .fetchOr, .unlock, .add, .hasInterest,
        .lock .readable, .wake, .unlock]) (.init rfl) (by decide +kernel)
  obtain ⟨-, -, -, counted⟩ := readiness_not_missed reach
  refine ⟨s, reach, answers, wakes, slot, ?_⟩
  rw [← counted, wakes, slot]
  rfl

/-- A poll leaves its waker in the slot. A push between the pop and the add of the next poll wakes
that one and sets no bit, so that the second poll's waker is not woken and `has_interest` answers
false. -/
theorem stale_waker_takes_event :
    ∃ s, wakerMap.Reachable s ∧ ∃ r ∈ s.answers, ∃ n < s.ended, r.poll.born ≤ n ∧
      s.pushes[n]? = some (r.poll.interest, [7]) ∧ r.seen = false ∧
        ∀ k ∈ s.wakes, k.waker ≠ r.poll.waker := by
  obtain ⟨s, reach, answers, ended, pushes, wakes⟩ : ∃ s, wakerMap.Reachable s ∧
      s.answers.head? = some ⟨⟨8, .readable, 0, true⟩, false⟩ ∧ s.ended = 1 ∧
        s.pushes = [(.readable, [7])] ∧ s.wakes = [⟨7, .readable, 0⟩] :=
    System.exists_reachable_of_run (s := {})
      (l := [.pop 7 .readable, .add, .hasInterest, .pop 8 .readable, .lock .readable, .wake,
        .unlock, .add, .hasInterest]) (.init rfl) (by decide +kernel)
  refine ⟨s, reach, _, List.mem_of_mem_head? answers, 0, by omega, Nat.le_refl _, ?_, rfl, ?_⟩
  · rw [pushes]
    rfl
  · simp [wakes]

end ServiceCache.InterestWakers
