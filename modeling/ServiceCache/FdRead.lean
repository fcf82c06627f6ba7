import Mathlib.Data.List.TakeWhile
import Mathlib.Order.Lattice

/-!
# The scattered read of a socket

The direct branch of `fd_read` offers the guest's buffers to `recv` one after another, waits for
the descriptor and tries again while the answer is `Again`; what it cannot answer the existing path
attempts once more. The answers of `recv` and of the waits are inputs. A buffer is given by its
contents. Faults of the guest memory, which end the call at once, are left out.
-/

namespace ServiceCache.FdRead

inductive Errno
  | again
  | timedout
  | other (code : Nat)
  deriving DecidableEq, Repr

/-- What a call of `recv` answers; of the bytes it takes what fits. -/
inductive Recv
  | bytes (l : List UInt8)
  | error (e : Errno)
  deriving DecidableEq, Repr

abbrev Buffer := List UInt8

/-- An attempt. `taken` and `filled` are history: the bytes taken off the stream, and whether
every call of `recv` filled the buffer it was offered. -/
structure Attempt where
  buffers : List Buffer
  result : Except Errno Nat
  calls : Nat
  taken : List UInt8
  filled : Bool

def readBuffers (recv : Nat → Recv) (calls totalRead : Nat) : List Buffer → Attempt
  | [] => ⟨[], .ok totalRead, calls, [], true⟩
  | buf :: rest =>
    match recv calls with
    | .error e =>
      ⟨buf :: rest, if totalRead > 0 then .ok totalRead else .error e, calls + 1, [], false⟩
    | .bytes l =>
      let localRead := l.take buf.length
      let stored := localRead ++ buf.drop localRead.length
      let full := decide (localRead.length = buf.length)
      -- the running total is compared with the length of this buffer
      if totalRead + localRead.length ≠ buf.length then
        ⟨stored :: rest, .ok (totalRead + localRead.length), calls + 1, localRead, full⟩
      else
        let a := readBuffers recv (calls + 1) (totalRead + localRead.length) rest
        ⟨stored :: a.buffers, a.result, a.calls, localRead ++ a.taken, full && a.filled⟩

def readOnce (recv : Nat → Recv) (calls : Nat) (buffers : List Buffer) : Attempt :=
  readBuffers recv calls 0 buffers

inductive DirectSocketWait
  | ready
  | timedOut
  | interrupted
  | unavailable
  deriving DecidableEq, Repr

inductive DirectSocketTarget
  | wait
  | again
  | fallthrough
  deriving DecidableEq, Repr

structure Turn where
  answer : Option (Except Errno Nat)
  attempt : Attempt

def Attempt.andThen (a : Attempt) (next : Attempt) : Attempt :=
  { next with taken := a.taken ++ next.taken }

/-- `direct_socket_turns`; the list runs out while the thread waits. -/
def directSocketTurns (recv : Nat → Recv) (a : Attempt) : List DirectSocketWait → Option Turn
  | [] => none
  | .ready :: waits =>
    let next := a.andThen (readOnce recv a.calls a.buffers)
    match next.result with
    | .error .again => directSocketTurns recv next waits
    | answer => some ⟨some answer, next⟩
  | .timedOut :: _ => some ⟨some (.error .timedout), a⟩
  | .interrupted :: _ | .unavailable :: _ => some ⟨none, a⟩

def sockDirect (recv : Nat → Recv) (target : DirectSocketTarget) (waits : List DirectSocketWait)
    (buffers : List Buffer) : Option Turn :=
  let a := readOnce recv 0 buffers
  match a.result with
  | .error .again =>
    match target with
    | .wait => directSocketTurns recv a waits
    | .again => some ⟨some (.error .again), a⟩
    | .fallthrough => some ⟨none, a⟩
  | answer => some ⟨some answer, a⟩

def answer : Except Errno Nat → Except Errno Nat
  | .error .timedout => .error .again
  | result => result

/-- The socket branch of `fd_read_internal`: the last attempt, with the answer. -/
def fdRead (recv : Nat → Recv) (eligible : Bool) (target : DirectSocketTarget)
    (waits : List DirectSocketWait) (buffers : List Buffer) : Option Attempt :=
  if eligible then
    (sockDirect recv target waits buffers).map fun t =>
      match t.answer with
      | some result => { t.attempt with result := answer result }
      | none =>
        let last := t.attempt.andThen (readOnce recv t.attempt.calls t.attempt.buffers)
        { last with result := answer last.result }
  else
    let only := readOnce recv 0 buffers
    some { only with result := answer only.result }

/-! ## What an attempt does to the buffers -/

/-- The bytes taken stand at the front of the buffers, taken together; the count is theirs, and
an error took none. -/
structure Scattered (buffers : List Buffer) (total : Nat) (a : Attempt) : Prop where
  stored : a.buffers.flatten = a.taken ++ buffers.flatten.drop a.taken.length
  lengths : a.buffers.map List.length = buffers.map List.length
  counted : ∀ n, a.result = .ok n → n = total + a.taken.length
  failed : ∀ e, a.result = .error e → total = 0 ∧ a.taken = [] ∧ a.buffers = buffers
  complete : a.filled = true → a.taken.length = buffers.flatten.length

/-- Behind the first buffer with room and the one after it, there is no room. -/
def NoThird (buffers : List Buffer) : Prop :=
  ((buffers.dropWhile List.isEmpty).drop 2).flatten = []

instance (buffers : List Buffer) : Decidable (NoThird buffers) :=
  inferInstanceAs (Decidable (_ = []))

section Attempts

variable {recv : Nat → Recv} {calls total : Nat} {buf : Buffer} {rest : List Buffer}

theorem Scattered.error (e : Errno) : Scattered (buf :: rest) total
    ⟨buf :: rest, if total > 0 then .ok total else .error e, calls + 1, [], false⟩ where
  stored := by simp
  lengths := rfl
  counted n h := by
    split at h
    · cases h
      rfl
    · cases h
  failed e' h := by
    split at h
    · cases h
    · exact ⟨by omega, rfl, rfl⟩
  complete h := by cases h

theorem Scattered.stop {got : List UInt8} (fits : got.length ≤ buf.length)
    (room : got.length = buf.length → rest.flatten = []) :
    Scattered (buf :: rest) total ⟨(got ++ buf.drop got.length) :: rest,
      .ok (total + got.length), calls + 1, got, decide (got.length = buf.length)⟩ where
  stored := by simp [List.drop_append_of_le_length fits]
  lengths := by simp [fits]
  counted n h := by cases h; rfl
  failed e h := by cases h
  complete h := by
    have full := of_decide_eq_true h
    simp [full, room full]

theorem Scattered.next {got : List UInt8} {a : Attempt} (fits : got.length ≤ buf.length)
    (room : got.length = buf.length ∨ rest.flatten = [])
    (h : Scattered rest (total + got.length) a) :
    Scattered (buf :: rest) total ⟨(got ++ buf.drop got.length) :: a.buffers, a.result, a.calls,
      got ++ a.taken, decide (got.length = buf.length) && a.filled⟩ where
  stored := by
    have rest_ := h.stored
    rcases room with full | none_
    · simp only [List.flatten_cons, List.drop_length, List.nil_append, rest_, List.append_assoc,
        List.length_append, full]
      rw [← List.drop_drop, List.drop_left]
    · have lengths : a.taken = [] := by
        have size := congrArg List.length rest_
        have same : a.buffers.flatten.length = rest.flatten.length := by
          simp only [List.length_flatten, h.lengths]
        rw [same] at size
        simp only [none_, List.length_nil, List.drop_nil, List.append_nil] at size
        exact List.eq_nil_of_length_eq_zero size.symm
      rw [lengths, none_] at rest_
      simp [lengths, none_, rest_]
  lengths := by simp [fits, h.lengths]
  counted n hn := by
    rw [h.counted n hn, List.length_append, Nat.add_assoc]
  failed e he := by
    obtain ⟨none_, taken, same⟩ := h.failed e he
    have first : got = [] := List.eq_nil_of_length_eq_zero (by omega)
    exact ⟨by omega, by rw [first, taken]; rfl, by simp [first, same]⟩
  complete hf := by
    obtain ⟨full, more⟩ := (Bool.and_eq_true ..).mp hf
    simp [of_decide_eq_true full, h.complete more]

theorem scattered_nil (recv : Nat → Recv) :
    Scattered [] total (readBuffers recv calls total []) where
  stored := rfl
  lengths := rfl
  counted n h := by cases h; rfl
  failed e h := by cases h
  complete _ := rfl

theorem scattered_cons (recv : Nat → Recv)
    (stops : total + buf.length ≠ buf.length → rest.flatten = [])
    (goes : ∀ n ≤ buf.length, total + n = buf.length → (n = buf.length ∨ rest.flatten = []) ∧
      Scattered rest (total + n) (readBuffers recv (calls + 1) (total + n) rest)) :
    Scattered (buf :: rest) total (readBuffers recv calls total (buf :: rest)) := by
  rw [readBuffers]
  split
  · exact .error _
  next l _ =>
    dsimp only
    have fits : (l.take buf.length).length ≤ buf.length := List.length_take_le ..
    split
    next ends => exact .stop fits fun full => stops (by rwa [full] at ends)
    next on =>
      obtain ⟨room, rest_⟩ := goes _ fits (by omega)
      exact .next fits room rest_

theorem scattered_last (recv : Nat → Recv) (none_ : rest.flatten = []) :
    Scattered (buf :: rest) total (readBuffers recv calls total (buf :: rest)) := by
  induction rest generalizing buf calls total with
  | nil => exact scattered_cons recv (fun _ => rfl) fun _ _ _ => ⟨.inr rfl, scattered_nil recv⟩
  | cons buf' rest ih =>
    have behind : rest.flatten = [] := (List.append_eq_nil_iff.mp none_).2
    exact scattered_cons recv (fun _ => none_) fun _ _ _ => ⟨.inr none_, ih behind⟩

theorem readOnce_scattered (recv : Nat → Recv) (calls : Nat) {buffers : List Buffer}
    (noThird : NoThird buffers) : Scattered buffers 0 (readOnce recv calls buffers) := by
  induction buffers generalizing calls with
  | nil => exact scattered_nil recv
  | cons buf rest ih =>
    refine scattered_cons recv (by omega) fun n _ full => ⟨.inl (by omega), ?_⟩
    cases buf with
    | nil =>
      -- nothing was read: the next buffer is like the first
      rw [show 0 + n = 0 from full]
      exact ih (calls + 1) noThird
    | cons byte buf =>
      cases rest with
      | nil => exact scattered_nil recv
      | cons buf' rest => exact scattered_last recv noThird

def Fills (recv : Nat → Recv) (buffers : List Buffer) : Prop :=
  ∀ k, ∃ l, recv k = .bytes l ∧ ∀ buf ∈ buffers, List.length buf ≤ l.length

theorem Fills.tail (h : Fills recv (buf :: rest)) : Fills recv rest := by
  intro k
  obtain ⟨l, at_, long⟩ := h k
  exact ⟨l, at_, fun b mem => long b (List.mem_cons_of_mem buf mem)⟩

theorem Fills.here (h : Fills recv (buf :: rest)) (calls : Nat) :
    ∃ l, recv calls = .bytes l ∧ (l.take buf.length).length = buf.length := by
  obtain ⟨l, at_, long⟩ := h calls
  exact ⟨l, at_, by simpa using long buf List.mem_cons_self⟩

theorem readBuffers_stops (calls : Nat) (h : Fills recv (buf :: rest)) (pos : 0 < total) :
    (readBuffers recv calls total (buf :: rest)).filled = true ∧
      (readBuffers recv calls total (buf :: rest)).taken.length = buf.length := by
  obtain ⟨l, at_, full⟩ := h.here calls
  rw [readBuffers, at_]
  dsimp only
  rw [if_pos (by omega)]
  exact ⟨decide_eq_true full, full⟩

theorem readOnce_fills {buffers : List Buffer} (h : Fills recv buffers) (calls : Nat) :
    (readOnce recv calls buffers).filled = true ∧
      (readOnce recv calls buffers).taken.length =
        ((buffers.dropWhile List.isEmpty).take 2).flatten.length := by
  induction buffers generalizing calls with
  | nil => exact ⟨rfl, rfl⟩
  | cons buf rest ih =>
    obtain ⟨l, at_, full⟩ := h.here calls
    rw [readOnce, readBuffers, at_]
    dsimp only
    rw [if_neg (by omega)]
    cases buf with
    | nil => simpa [readOnce] using ih h.tail (calls + 1)
    | cons byte buf =>
      cases rest with
      | nil => simpa [readBuffers, full] using full
      | cons buf' rest =>
        obtain ⟨filled, length⟩ := readBuffers_stops (calls + 1) h.tail
          (show 0 < 0 + (l.take (byte :: buf).length).length by rw [full]; simp)
        refine ⟨by rw [filled, decide_eq_true full]; rfl, ?_⟩
        rw [List.length_append, length, full]
        simp [Nat.add_right_comm]

theorem fills_flatten (buffers : List Buffer) :
    Fills (fun _ => .bytes buffers.flatten) buffers :=
  fun _ => ⟨_, rfl, fun _ mem => (List.sublist_flatten_of_mem mem).length_le⟩

theorem noThird_of_filled {buffers : List Buffer} {n : Nat}
    (two : n = ((buffers.dropWhile List.isEmpty).take 2).flatten.length)
    (all_ : n = buffers.flatten.length) : NoThird buffers := by
  have empty : (buffers.takeWhile List.isEmpty).flatten = [] :=
    List.flatten_eq_nil_iff.mpr fun buf mem => List.isEmpty_iff.mp (List.mem_takeWhile_imp mem)
  have parts : buffers.flatten.length =
      ((buffers.dropWhile List.isEmpty).take 2).flatten.length +
        ((buffers.dropWhile List.isEmpty).drop 2).flatten.length := by
    conv_lhs => rw [← List.takeWhile_append_dropWhile (p := List.isEmpty) (l := buffers)]
    rw [List.flatten_append, empty, List.nil_append, ← List.length_append, ← List.flatten_append,
      List.take_append_drop]
  exact List.eq_nil_of_length_eq_zero (by omega)

end Attempts

/-! ## Repeated attempts -/

section Turns

variable {recv : Nat → Recv} {buffers : List Buffer} {a next : Attempt} {e : Errno}

theorem Scattered.withError (h : Scattered buffers 0 a) (failed : a.result = .error e)
    (e' : Errno) : Scattered buffers 0 { a with result := .error e' } :=
  ⟨h.stored, h.lengths, fun _ hn => by (cases hn), fun _ _ => h.failed e failed, h.complete⟩

theorem Scattered.answered (h : Scattered buffers 0 a) :
    Scattered buffers 0 { a with result := answer a.result } := by
  unfold answer
  split
  next failed => exact h.withError failed .again
  · exact h

theorem Scattered.andThen (h : Scattered buffers 0 a) (failed : a.result = .error e)
    (again : Scattered a.buffers 0 next) : Scattered buffers 0 (a.andThen next) := by
  obtain ⟨-, taken, same⟩ := h.failed e failed
  have unchanged : a.andThen next = next := by
    rw [Attempt.andThen, taken, List.nil_append]
  rw [unchanged, ← same]
  exact again

theorem Scattered.noThird (h : Scattered buffers 0 a) (failed : a.result = .error e)
    (noThird : NoThird buffers) : NoThird a.buffers := by
  rw [(h.failed e failed).2.2]
  exact noThird

def Turn.Right (buffers : List Buffer) (t : Turn) : Prop :=
  match t.answer with
  | some result => Scattered buffers 0 { t.attempt with result }
  | none => Scattered buffers 0 t.attempt ∧ t.attempt.result = .error .again

theorem directSocketTurns_right (noThird : NoThird buffers) (waits : List DirectSocketWait)
    {t : Turn} (h : Scattered buffers 0 a) (failed : a.result = .error .again)
    (turns : directSocketTurns recv a waits = some t) : t.Right buffers := by
  induction waits generalizing a with
  | nil => cases turns
  | cons w waits ih =>
    cases w with
    | ready =>
      have again := h.andThen failed
        (readOnce_scattered recv a.calls (h.noThird failed noThird))
      simp only [directSocketTurns] at turns
      split at turns
      next failed' => exact ih again failed' turns
      · cases turns
        exact again
    | timedOut =>
      cases turns
      exact h.withError failed .timedout
    | interrupted | unavailable =>
      cases turns
      exact ⟨h, failed⟩

theorem sockDirect_right (noThird : NoThird buffers) {target : DirectSocketTarget}
    {waits : List DirectSocketWait} {t : Turn}
    (turns : sockDirect recv target waits buffers = some t) : t.Right buffers := by
  have first := readOnce_scattered recv 0 noThird
  simp only [sockDirect] at turns
  split at turns
  next failed =>
    split at turns
    · exact directSocketTurns_right noThird waits first failed turns
    · cases turns
      exact first.withError failed .again
    · cases turns
      exact ⟨first, failed⟩
  · cases turns
    exact first

theorem fdRead_scattered (noThird : NoThird buffers) {eligible : Bool}
    {target : DirectSocketTarget} {waits : List DirectSocketWait} {out : Attempt}
    (answers : fdRead recv eligible target waits buffers = some out) :
    Scattered buffers 0 out := by
  unfold fdRead at answers
  split at answers
  · obtain ⟨t, turns, rfl⟩ := Option.map_eq_some_iff.mp answers
    have right := sockDirect_right noThird turns
    unfold Turn.Right at right
    cases answer_ : t.answer with
    | some result =>
      rw [answer_] at right
      exact right.answered
    | none =>
      rw [answer_] at right
      obtain ⟨h, failed⟩ := right
      exact (h.andThen failed
        (readOnce_scattered recv _ (h.noThird failed noThird))).answered
  · cases answers
    exact (readOnce_scattered recv 0 noThird).answered

end Turns

/-- A read scatters the stream in order, whatever the socket and the waits answer, just if there
is no room behind the first buffer with any and the one after it: from the second on the running
total is not the number of bytes in the buffer it is compared with. -/
theorem fdRead_scatters_iff (buffers : List Buffer) :
    (∀ recv eligible target waits out,
      fdRead recv eligible target waits buffers = some out → Scattered buffers 0 out) ↔
      NoThird buffers := by
  constructor
  · intro h
    have fills := readOnce_fills (fills_flatten buffers) 0
    refine noThird_of_filled fills.2 ?_
    exact (h _ false .wait [] _ rfl).complete fills.1
  · intro noThird recv eligible target waits out
    exact fdRead_scattered noThird

/-- Three buffers: the third is not offered to a stream that fills them, and it is filled while
the second still has room. -/
theorem third_buffer_misread :
    (∃ out, fdRead (fun _ => .bytes [1, 2]) true .wait [] [[0], [0], [0]] = some out ∧
      out.filled = true ∧ out.buffers = [[1], [1], [0]] ∧ ¬ Scattered [[0], [0], [0]] 0 out) ∧
    ∃ out, fdRead (fun k => .bytes (if k = 1 then [1] else [1, 2])) true .wait []
        [[0], [0, 0], [0, 0]] = some out ∧
      out.buffers = [[1], [1, 0], [1, 2]] ∧ ¬ Scattered [[0], [0, 0], [0, 0]] 0 out := by
  constructor
  · refine ⟨_, rfl, rfl, rfl, fun h => ?_⟩
    exact absurd (h.complete rfl) (by decide)
  · refine ⟨_, rfl, rfl, fun h => ?_⟩
    exact absurd h.stored (by decide)

/-- Two buffers with room are filled behind a wait, in an attempt that follows one without
bytes. -/
theorem fdRead_scatters_iff_two :
    ∃ out, fdRead (fun k => if k = 0 then .error .again else .bytes [1, 2]) true .wait [.ready]
        [[], [0, 0], [0]] = some out ∧
      out.buffers = [[], [1, 2], [1]] ∧ Scattered [[], [0, 0], [0]] 0 out := by
  refine ⟨_, rfl, rfl, ?_⟩
  exact (fdRead_scatters_iff [[], [0, 0], [0]]).mpr (by decide)
    (fun k => if k = 0 then .error .again else .bytes [1, 2]) true .wait [.ready] _ rfl

end ServiceCache.FdRead
