import ServiceCache.Deadline.Model

/-!
# A timeout is not restarted

`epoll_wait`, a relative sleep and a blocking transfer start over with the whole timeout when
they change to the existing path; the others keep the deadline of their first wait.
-/

namespace ServiceCache.Deadline

open Transition (System guarded)

def State.due (s : State) (origin : Nat) : Nat :=
  match s.call with
  | .pollClock true => s.timeout
  | _ => origin + s.timeout

def Wait.Keeps (w : Wait) (due : Nat) : Prop :=
  w.til = some due ∨ due ≤ w.began ∧ w.til = some w.began

instance (w : Wait) (due : Nat) : Decidable (w.Keeps due) := inferInstanceAs (Decidable (_ ∨ _ ∧ _))

def State.Keeps (s : State) : Prop := ∀ w ∈ s.waits, w.Keeps (s.due (s.origin.getD 0))

instance (s : State) : Decidable s.Keeps :=
  inferInstanceAs (Decidable (∀ w ∈ s.waits, w.Keeps (s.due (s.origin.getD 0))))

def Call.restarts : Call → Bool
  | .epollWait | .pollClock false | .sockTransfer _ => true
  | _ => false

def Call.passesOn : Call → Bool
  | .futexWait | .sockConnect => true
  | _ => false

/-- The condition on a run: no such call waits in the existing path after it has waited already, unless
no time has passed; and the deadline of a connection can be represented. -/
def Punctual (s : State) : Event → Prop
  | .begin direct => s.call = .sockConnect → direct = true → s.now + s.timeout ≤ s.limit
  | .go => s.stage = .existing → s.call.restarts = true → s.origin = none ∨ s.origin = some s.now
  | _ => True

instance (s : State) : (e : Event) → Decidable (Punctual s e)
  | .begin _ => inferInstanceAs (Decidable (_ → _ → _))
  | .go => inferInstanceAs (Decidable (_ → _ → _ ∨ _))
  | .tick _ | .answer | .expire | .round | .handOver | .more => inferInstanceAs (Decidable True)

structure Kept (s : State) : Prop where
  started : s.stage = .start → s.origin = none ∧ s.waits = [] ∧ s.deadline = none
  computed : ∀ d, s.deadline = some d → d = s.due s.taken
  known : s.stage = .turn ∨ s.stage = .direct → s.deadline.isSome = true
  connecting : s.call = .sockConnect → s.stage ≠ .start → s.deadline.isSome = s.direct
  same : s.stage = .turn ∨ s.stage = .direct ∨ s.call.passesOn = true → s.deadline.isSome = true →
    s.origin = none ∨ s.origin = some s.taken
  fresh : s.stage = .existing → s.call.passesOn = true → s.deadline = none → s.origin = none
  buffers : 0 < s.buffers → s.call.passesOn = false
  unwaited : s.origin = none → s.waits = []
  kept : s.Keeps
  running : s.stage = .direct ∨ s.stage = .general → ∃ w ∈ s.waits, w.til = s.til ∧ w.began ≤ s.now
  timedOut : s.stage = .ended true → ∀ o, s.origin = some o → s.due o ≤ s.now

section Calls

variable {s : State}

theorem due_of_not_abs (h : s.call ≠ .pollClock true) (o : Nat) : s.due o = o + s.timeout := by
  unfold State.due
  split
  next abs => exact absurd abs h
  · rfl

theorem checkedAdd_eq_some {d r : Nat} (h : s.checkedAdd d = some r) : r = s.now + d := by
  unfold State.checkedAdd at h
  split at h
  · exact (Option.some.inj h).symm
  · cases h

theorem keeps_rest (s : State) (due : Nat) : Wait.Keeps ⟨s.now, some (s.rest due)⟩ due := by
  unfold State.rest
  by_cases passed : due ≤ s.now
  · exact .inr ⟨passed, by simp [Nat.sub_eq_zero_of_le passed]⟩
  · exact .inl (congrArg some (by omega))

theorem Call.not_passesOn {c : Call} (h : c.restarts = true ∨ 0 < c.buffers) :
    c.passesOn = false := by
  cases c with
  | futexWait | sockConnect => simp [Call.restarts, Call.buffers] at h
  | epollWait | pollClock _ | sockTransfer _ => rfl

theorem Kept.move (h : Kept s) (begun : s.stage ≠ .start) {stage : Stage}
    (turn : stage = .turn → s.stage = .direct)
    (existing : stage = .existing → s.stage = .turn ∨ s.stage = .direct ∨ 0 < s.buffers)
    (reached : stage = .ended true → ∀ o, s.origin = some o → s.due o ≤ s.now)
    (other : stage ≠ .start ∧ stage ≠ .direct ∧ stage ≠ .general) : Kept { s with stage } :=
  { h with
    started start := absurd start other.1
    known place := place.elim (fun at_ => h.known (.inr (turn at_))) fun at_ => absurd at_ other.2.1
    connecting connect _ := h.connecting connect begun
    same place := by
      refine h.same ?_
      obtain at_ | at_ | passes := place
      · exact .inr (.inl (turn at_))
      · exact absurd at_ other.2.1
      · exact .inr (.inr passes)
    fresh at_ passes clear := by
      have unset (place : s.stage = .turn ∨ s.stage = .direct) : s.origin = none := by
        have known := h.known place
        rw [clear] at known
        cases known
      obtain place | place | more := existing at_
      · exact unset (.inl place)
      · exact unset (.inr place)
      · rw [h.buffers more] at passes
        cases passes
    running place := place.elim (absurd · other.2.1) (absurd · other.2.2)
    timedOut := reached }

theorem Kept.wait (h : Kept s) {stage : Stage} {origin : Nat} {til : Option Nat}
    (keeps : Wait.Keeps ⟨s.now, til⟩ (s.due (s.origin.getD origin)))
    (waiting : stage = .direct ∨ stage = .general) (begun : s.stage ≠ .start)
    (known : stage = .direct → s.deadline.isSome = true)
    (same : stage = .direct ∨ s.call.passesOn = true → s.deadline.isSome = true →
      s.origin.getD origin = s.taken) : Kept (s.wait stage origin til) where
  started start := by
    obtain rfl | rfl := waiting <;> cases start
  computed := h.computed
  known place := by
    obtain rfl | rfl := waiting
    · exact known rfl
    · obtain turn | direct := place
      · cases turn
      · cases direct
  connecting connect _ := h.connecting connect begun
  same place isSome := by
    refine .inr (congrArg some (same ?_ isSome))
    obtain rfl | rfl := waiting
    · exact .inl rfl
    · obtain turn | direct | restarts := place
      · cases turn
      · cases direct
      · exact .inr restarts
  fresh place := by
    obtain rfl | rfl := waiting <;> cases place
  buffers := h.buffers
  unwaited none := by cases none
  kept w mem := by
    obtain old | new := List.mem_append.mp mem
    · cases origin_ : s.origin with
      | none => rw [h.unwaited origin_] at old; cases old
      | some o =>
        have keeps := h.kept w old
        rw [origin_] at keeps
        change w.Keeps (s.due (s.origin.getD origin))
        rw [origin_]
        exact keeps
    · rw [List.mem_singleton.mp new]
      exact keeps
  running _ := ⟨⟨s.now, til⟩, List.mem_append_right _ (List.mem_singleton_self _), rfl, Nat.le_refl _⟩
  timedOut place := by
    obtain rfl | rfl := waiting <;> cases place

theorem Kept.unstarted (unset : s.origin = none) (none : s.waits = [])
    (place : s.stage = .turn ∨ s.stage = .existing ∨ s.stage = .ended true)
    (computed : ∀ d, s.deadline = some d → d = s.due s.taken)
    (known : s.stage = .turn → s.deadline.isSome = true)
    (connecting : s.call = .sockConnect → s.deadline.isSome = s.direct)
    (buffers : s.buffers = s.call.buffers) : Kept s where
  started start := by simp [start] at place
  computed := computed
  known waiting := waiting.elim known fun direct => by simp [direct] at place
  connecting connect _ := connecting connect
  same _ _ := .inl unset
  fresh _ _ _ := unset
  buffers more := Call.not_passesOn (.inr (buffers ▸ more))
  unwaited _ := none
  kept w mem := by rw [none] at mem; cases mem
  running waiting := by obtain at_ | at_ := waiting <;> simp [at_] at place
  timedOut _ o isSome := by rw [unset] at isSome; cases isSome

theorem Kept.offered (unset : s.origin = none) (none : s.waits = []) (now : s.taken = s.now)
    (other : s.call ≠ .sockConnect) (buffers : s.buffers = s.call.buffers) {d : Nat}
    (due : s.due s.now = s.now + d) :
    Kept { s with
      deadline := s.checkedAdd d
      stage := if (s.checkedAdd d).isSome then .turn else .existing } := by
  refine .unstarted unset none ?_ (fun r added => ?_) ?_ (fun connect => absurd connect other) buffers
  · dsimp only
    split
    · exact .inl rfl
    · exact .inr (.inl rfl)
  · change r = s.due s.taken
    rw [checkedAdd_eq_some added, now, due]
  · dsimp only
    split
    next representable => exact fun _ => representable
    · exact fun turn => by cases turn

theorem Kept.begin (h : Kept s) (start : s.stage = .start) (direct : Bool)
    (limit : s.call = .sockConnect → direct = true → s.now + s.timeout ≤ s.limit) :
    Kept (s.begin direct) := by
  obtain ⟨unset, none, clear⟩ := h.started start
  have existing (undirected : s.call = .sockConnect → direct = false) :
      Kept { s with
        direct, taken := s.now, buffers := s.call.buffers, stage := .existing } := by
    refine .unstarted unset none (.inr (.inl rfl)) (by simp [clear]) (by simp) (fun connect => ?_) rfl
    simp [undirected connect, clear]
  have offered (other : s.call ≠ .sockConnect) {d : Nat} (due : s.due s.now = s.now + d) :
      Kept { s with
        direct, taken := s.now, buffers := s.call.buffers, deadline := s.checkedAdd d
        stage := if (s.checkedAdd d).isSome then .turn else .existing } :=
    .offered (s := { s with direct, taken := s.now, buffers := s.call.buffers }) unset none rfl other
      rfl due
  unfold State.begin
  dsimp only
  split
  next call =>
    refine .unstarted unset none ?_ ?_ ?_ (fun connect => ?_) (by simp [call])
    · dsimp only
      split
      · exact .inl rfl
      · exact .inr (.inl rfl)
    · intro d added
      rw [checkedAdd_eq_some added, due_of_not_abs (by simp [call])]
    · dsimp only
      split
      next both => exact fun _ => (Bool.and_eq_true_iff.mp both).2
      · exact fun turn => by cases turn
    · rw [call] at connect
      cases connect
  next call =>
    split
    · exact offered (by simp [call]) (due_of_not_abs (by simp [call]) _)
    · exact existing (by simp [call])
  next n call =>
    split
    · exact offered (by simp [call]) (due_of_not_abs (by simp [call]) _)
    · exact existing (by simp [call])
  next abstime call =>
    split
    · exact .unstarted unset none (.inr (.inr rfl)) (by simp [clear]) (by simp) (by simp [call])
        rfl
    · split
      next ahead =>
        refine offered (by simp [call]) ?_
        cases abstime with
        | false => exact due_of_not_abs (by simp [call]) _
        | true =>
          simp only [State.due, call, State.sleep] at ahead ⊢
          simp at ahead
          simp
          omega
      · exact existing (by simp [call])
  next call =>
    split
    next on =>
      have added : s.checkedAdd s.timeout = some (s.now + s.timeout) := if_pos (limit call on)
      refine .unstarted unset none (.inl rfl) (fun d is => ?_) (fun _ => ?_) (fun _ => ?_)
        rfl
      · rw [checkedAdd_eq_some is, due_of_not_abs (by simp [call])]
      · exact Option.isSome_of_eq_some added
      · exact (Option.isSome_of_eq_some added).trans on.symm
    next off => exact existing (fun _ => by simpa using off)

theorem Kept.goExisting (h : Kept s) (place : s.stage = .existing)
    (first : s.call.restarts = true → s.origin = none ∨ s.origin = some s.now) :
    Kept s.goExisting := by
  have begun : s.stage ≠ .start := by simp [place]
  -- what the three calls that start over have in common
  have restart (restarts : s.call.restarts = true) :
      Kept (s.wait .general s.now (some (s.now + s.timeout))) := by
    have counted : s.origin.getD s.now = s.now := by
      obtain unset | now := first restarts
      · rw [unset]; rfl
      · rw [now]; rfl
    refine h.wait (.inl ?_) (.inr rfl) begun (by simp)
      (by simp [Call.not_passesOn (.inl restarts)])
    rw [counted, due_of_not_abs]
    intro abs
    simp [abs, Call.restarts] at restarts
  have fresh (passes : s.call.passesOn = true) (clear : s.deadline = none) :
      Kept (s.wait .general s.now (some (s.now + s.timeout))) := by
    refine h.wait (.inl ?_) (.inr rfl) begun (by simp) (by simp [clear])
    rw [h.fresh place passes clear, Option.getD_none, due_of_not_abs]
    intro abs
    simp [abs, Call.passesOn] at passes
  have counted {d : Nat} (is : s.deadline = some d) (passes : s.call.passesOn = true) :
      s.origin = none ∨ s.origin = some s.taken :=
    h.same (.inr (.inr passes)) (Option.isSome_of_eq_some is)
  have rest {d : Nat} (is : s.deadline = some d) (passes : s.call.passesOn = true) :
      Kept (s.wait .general s.taken (some (s.rest d))) := by
    have taken : s.origin.getD s.taken = s.taken := by
      obtain unset | taken := counted is passes
      · rw [unset]; rfl
      · rw [taken]; rfl
    refine h.wait ?_ (.inr rfl) begun (by simp) (fun _ _ => taken)
    rw [taken, ← h.computed d is]
    exact keeps_rest s d
  unfold State.goExisting
  split
  next call =>
    have passes : s.call.passesOn = true := by rw [call]; rfl
    split
    next d is => exact rest is passes
    next clear => exact fresh passes clear
  next call =>
    have passes : s.call.passesOn = true := by rw [call]; rfl
    have known := h.connecting call begun
    split
    next on =>
      split
      next d is =>
        split
        next passed =>
          refine h.move begun (by simp) (by simp) (fun _ o isSome => ?_) (by simp)
          obtain unset | taken := counted is passes
          · rw [unset] at isSome; cases isSome
          · rw [taken] at isSome
            rw [← Option.some.inj isSome, ← h.computed d is]
            exact passed
        · exact rest is passes
      next clear => simp [clear, on] at known
    next off =>
      refine fresh passes ?_
      rw [Bool.not_eq_true] at off
      simpa [off] using known
  next abstime call =>
    cases abstime with
    | false => exact restart (by rw [call]; rfl)
    | true =>
      refine h.wait ?_ (.inr rfl) begun (by simp) (by simp [call, Call.passesOn])
      have due (o : Nat) : s.due o = s.timeout := by rw [State.due, call]
      rw [due]
      exact keeps_rest s s.timeout
  next call => exact restart (by rw [call]; rfl)
  next n call =>
    have kept := restart (by rw [call]; rfl)
    exact ⟨kept.started, kept.computed, kept.known, kept.connecting, kept.same, kept.fresh,
      fun _ => by simp [call, State.wait, Call.passesOn], kept.unwaited, kept.kept, kept.running,
      kept.timedOut⟩

theorem Kept.goDirect (h : Kept s) (turn : s.stage = .turn) :
    Kept (s.wait .direct s.taken s.deadline) := by
  have known := h.known (.inl turn)
  obtain ⟨d, is⟩ := Option.isSome_iff_exists.mp known
  have taken : s.origin.getD s.taken = s.taken := by
    obtain unset | taken := h.same (.inl turn) known
    · rw [unset]; rfl
    · rw [taken]; rfl
  refine h.wait (.inl ?_) (.inl rfl) (by simp [turn]) (fun _ => known) (fun _ _ => taken)
  rw [taken, ← h.computed d is]
  exact is

theorem Kept.tick (h : Kept s) (d : Nat) : Kept { s with now := s.now + d } :=
  { h with
    running place := by
      obtain ⟨w, mem, til, began⟩ := h.running place
      exact ⟨w, mem, til, Nat.le_add_right_of_le began⟩
    timedOut place o isSome := Nat.le_add_right_of_le (h.timedOut place o isSome) }

theorem Kept.reached (h : Kept s) (place : s.stage = .direct ∨ s.stage = .general)
    (reached : s.reached = true) (o : Nat) (counted : s.origin = some o) : s.due o ≤ s.now := by
  obtain ⟨w, mem, til, began⟩ := h.running place
  have keeps := h.kept w mem
  rw [counted, Option.getD_some] at keeps
  unfold State.reached at reached
  rw [← til] at reached
  obtain at_ | ⟨late, -⟩ := keeps
  · rw [at_] at reached
    simpa using reached
  · exact Nat.le_trans late began

theorem Kept.expires (h : Kept s) (place : s.stage = .direct ∨ s.stage = .general)
    (late : s.due (s.origin.getD 0) ≤ s.now) : (s.step .expire).isSome = true := by
  obtain ⟨w, mem, til, began⟩ := h.running place
  have reached : s.reached = true := by
    unfold State.reached
    rw [← til]
    obtain at_ | ⟨-, at_⟩ := h.kept w mem
    · simpa [at_] using late
    · simpa [at_] using began
  obtain at_ | at_ := place <;> simp [State.step, at_, reached]

end Calls

theorem kept_reachable {s : State} (h : callSystem.ReachableBy Punctual s) : Kept s := by
  refine h.invariant ?_ (fun s e s' _ kept punctual hn => ?_)
  · rintro _ ⟨call, timeout, limit, now, rfl⟩
    exact ⟨by simp, by simp, by simp, by simp, by simp, by simp, by simp, by simp, by simp [State.Keeps],
      by simp, by simp⟩
  cases e with
  | tick d => cases hn; exact kept.tick d
  | begin direct =>
    simp only [callSystem, State.step] at hn
    split at hn
    next start => cases hn; exact kept.begin start direct punctual
    · cases hn
  | go =>
    simp only [callSystem, State.step] at hn
    split at hn
    next turn => cases hn; exact kept.goDirect turn
    next place => cases hn; exact kept.goExisting place (punctual place)
    · cases hn
  | answer =>
    simp only [callSystem, State.step] at hn
    split at hn <;> cases hn <;> next place =>
      exact kept.move (by simp [place]) (by simp) (by simp) (by simp) (by simp)
  | expire =>
    simp only [callSystem, State.step] at hn
    split at hn
    next direct =>
      obtain ⟨reached, ⟨⟩⟩ := guarded hn
      exact kept.move (by simp [direct]) (by simp) (by simp)
        (fun _ => kept.reached (.inl direct) reached) (by simp)
    next general =>
      obtain ⟨reached, ⟨⟩⟩ := guarded hn
      exact kept.move (by simp [general]) (by simp) (by simp)
        (fun _ => kept.reached (.inr general) reached) (by simp)
    · cases hn
  | round =>
    simp only [callSystem, State.step] at hn
    obtain ⟨place, ⟨⟩⟩ := guarded hn
    exact kept.move (by simp [place.1]) (fun _ => place.1) (by simp) (by simp) (by simp)
  | handOver =>
    simp only [callSystem, State.step] at hn
    split at hn
    next place =>
      cases hn
      exact kept.move (by simp [place]) (by simp) (fun _ => .inl place) (by simp) (by simp)
    next place =>
      cases hn
      exact kept.move (by simp [place]) (by simp) (fun _ => .inr (.inl place)) (by simp) (by simp)
    · cases hn
  | more =>
    simp only [callSystem, State.step] at hn
    obtain ⟨place, ⟨⟩⟩ := guarded hn
    exact kept.move (by simp [place.1]) (by simp) (fun _ => .inr (.inr place.2)) (by simp)
      (by simp)

end ServiceCache.Deadline
