import ServiceCache.Fairness
import ServiceCache.Templates.Attended

/-!
# Every call is answered

A `create_instance` call lowers a rank with its own steps: one retry, two slots in each `obtain`,
the stages in between. So it stops somewhere, and it cannot stop while it waits: a bring-up ends, a
queue is read from the front, and the holder of a lock is itself such a call.
-/

namespace ServiceCache.Templates

open Function
open Transition (System)

def Event.ofCall (r : Nat) : Event → Prop
  | .call r' _ => r' = r
  | _ => False

def Event.ofOwner (t : Nat) : Event → Prop
  | .owner t' _ => t' = t
  | _ => False

/-- The scheduler passes over no call and no owner thread. For a call at a lock this
is the queue of `tokio::sync::Mutex`: the waiting call gets a lock that comes free
again and again. -/
structure Fair {cfg : Config} (p : (cache cfg).Path) : Prop where
  calls : ∀ r, p.Fair (Event.ofCall r)
  owners : ∀ t, p.Fair (Event.ofOwner t)

def Stage.distance : Stage → Nat
  | .slot => 11
  | .lock => 10
  | .check => 9
  | .forkBase => 8
  | .fill => 7
  | .fork => 5
  | .forking => 4
  | .adopt => 2
  | .forget => 1
  | .done _ => 0

@[simp] theorem Stage.distance_slot : Stage.distance .slot = 11 := rfl
@[simp] theorem Stage.distance_lock : Stage.distance .lock = 10 := rfl
@[simp] theorem Stage.distance_check : Stage.distance .check = 9 := rfl
@[simp] theorem Stage.distance_forkBase : Stage.distance .forkBase = 8 := rfl
@[simp] theorem Stage.distance_fill : Stage.distance .fill = 7 := rfl
@[simp] theorem Stage.distance_fork : Stage.distance .fork = 5 := rfl
@[simp] theorem Stage.distance_forking : Stage.distance .forking = 4 := rfl
@[simp] theorem Stage.distance_adopt : Stage.distance .adopt = 2 := rfl
@[simp] theorem Stage.distance_forget : Stage.distance .forget = 1 := rfl
@[simp] theorem Stage.distance_done (created : Bool) : Stage.distance (.done created) = 0 := rfl

def Request.ahead (q : Request) : Nat :=
  if q.base = none ∧ q.recipe ≠ none ∧ 7 ≤ q.stage.distance then 6 else 0

def Request.rank (q : Request) : Nat :=
  (bif q.retry then 0 else 30) + q.ahead + q.stage.distance

section Steps

variable {cfg : Config} {s s' : State} {r t : Nat}

theorem Request.ahead_le (q : Request) : q.ahead ≤ 6 := by
  unfold Request.ahead
  split <;> simp

theorem Request.rank_finish (q : Request) (created : Bool) :
    (q.finish created).rank = bif q.retry then 0 else 30 := by
  simp [Request.rank, Request.ahead, Request.finish, Request.leave]

theorem Request.rank_got_lt (q : Request) (t : Nat) (inside : 7 ≤ q.stage.distance) :
    (q.got t).rank < q.rank := by
  unfold Request.got
  split
  next first =>
    have before : q.ahead = 6 := if_pos ⟨first.1, first.2, inside⟩
    unfold Request.rank
    rw [before]
    simp [Request.ahead]
    omega
  next =>
    simp only [Request.rank, Request.ahead, Request.obtained, Request.leave, Stage.distance_fork]
    simp
    omega

theorem rank_call (formed : (s.request r).Formed) (hc : CallCase cfg s r s') :
    (s'.request r).rank < (s.request r).rank := by
  cases hc with
  | clone sl t at_ => simpa using Request.rank_got_lt _ t (by simp [at_])
  | filled sl t at_ => simpa using Request.rank_got_lt _ t (by simp [at_])
  | giveUp sl guard failed =>
    have inside : 7 ≤ (s.request r).stage.distance := by
      rcases failed with at_ | ⟨at_, -⟩ | ⟨at_, -⟩ <;> simp [at_]
    simp only [giveUp, State.setRequest_request, update_self, Request.rank_finish]
    unfold Request.rank
    omega
  | forkFailed gone =>
    have before : 4 ≤ (s.request r).stage.distance := by
      rcases gone with ⟨at_, -⟩ | ⟨at_, -⟩ <;> simp [at_]
    simp only [forkFailed, State.setRequest_request, update_self]
    split
    · rw [Request.rank_finish]
      unfold Request.rank
      omega
    · simp only [Request.rank, Request.ahead, Stage.distance_forget]
      simp
      omega
  | forget at_ =>
    have again := Request.ahead_le { s.request r with retry := true, stage := .slot }
    simp only [State.setRequest_request, update_self, Request.rank, at_,
      (formed.forget at_).1, Stage.distance_forget, Stage.distance_slot, cond_true, cond_false]
    dsimp only at again ⊢
    omega
  | adopted at_ =>
    simp only [State.setRequest_request, update_self, Request.rank_finish]
    simp [Request.rank, at_]
    omega
  | slot at_ | lock sl at_ | spawnBase sl at_ | sendBase sl b at_ | send t at_ | spawnRecipe sl p at_
  | adopting p at_ =>
    simp [Request.rank, Request.ahead, at_]

theorem request_next {e : Event} (hb : Bounded s) (h : next cfg s e = some s')
    (here : r < s.arrived) (other : ¬ Event.ofCall r e) :
    ∃ x, s'.request r = { s.request r with reply := x } := by
  cases e with
  | call r' c =>
    have ne : r ≠ r' := fun is => other is.symm
    exact ⟨(s.request r).reply, by rw [call_request_other (callStep_cases h) ne]⟩
  | arrive manifest recipe =>
    cases h
    exact ⟨(s.request r).reply, by simp [arrive, Nat.ne_of_lt here]⟩
  | prune =>
    cases h
    exact ⟨(s.request r).reply, rfl⟩
  | owner | exit | report | tick => exact (frame_next hb h trivial).request r

theorem arrived_next {e : Event} (hb : Bounded s) (h : next cfg s e = some s') :
    s.arrived ≤ s'.arrived := by
  cases e with
  | call r' c => exact (call_arrived (callStep_cases h)).ge
  | arrive manifest recipe =>
    cases h
    exact Nat.le_succ _
  | prune =>
    cases h
    exact Nat.le_refl _
  | owner | exit | report | tick => exact (frame_next hb h trivial).arrived.ge

theorem rank_next {e : Event} (hb : Bounded s) (ha : Attended s) (h : next cfg s e = some s')
    (here : r < s.arrived) : (s'.request r).rank ≤ (s.request r).rank ∧
      (Event.ofCall r e → (s'.request r).rank < (s.request r).rank) := by
  by_cases mine : Event.ofCall r e
  · cases e with
    | call r' c =>
      obtain rfl : r' = r := mine
      have lower := rank_call (ha.formed r') (callStep_cases h)
      exact ⟨lower.le, fun _ => lower⟩
    | arrive | prune | owner | exit | report | tick => exact absurd mine id
  · obtain ⟨x, same⟩ := request_next hb h here mine
    exact ⟨by rw [same]; exact le_rfl, fun is => absurd is mine⟩

/-! ## What keeps a call from moving -/

inductive Blocked (s : State) (r : Nat) : Prop
  | lock (sl h : Nat) (at_ : (s.request r).stage = .lock) (slot : (s.request r).slot = some sl)
      (held : (s.slot sl).lockedBy = some h)
  | bringUp (t : Nat) (at_ : (s.request r).stage = .fill) (filling : (s.request r).filling = some t)
      (preparing : (s.host t).phase = .preparing)
  | answer (t : Nat) (waits : (s.request r).Waits t) (unanswered : (s.request r).reply = none)

theorem blocked_of_not_enabled (ha : Attended s) (still : ¬ (cache cfg).Enabled (Event.ofCall r) s)
    (open_ : ∀ created, (s.request r).stage ≠ .done created) : Blocked s r := by
  have stuck : ∀ c, callStep cfg s r c = none := by
    intro c
    by_contra moves
    exact still ⟨.call r c, rfl, moves⟩
  have formed := ha.formed r
  cases at_ : (s.request r).stage with
  | slot => simpa [callStep, slotStep, at_] using stuck .slot
  | forget => simpa [callStep, forgetStep, at_] using stuck .forget
  | adopt => simpa [callStep, adoptStep, at_] using stuck .adopt
  | done created => exact absurd at_ (open_ created)
  | lock =>
    obtain ⟨sl, slot⟩ := Option.ne_none_iff_exists'.mp (formed.lock at_)
    have held : (s.slot sl).lockedBy ≠ none := by
      simpa [callStep, lockStep, at_, slot] using stuck .lock
    obtain ⟨h, held⟩ := Option.ne_none_iff_exists'.mp held
    exact .lock sl h at_ slot held
  | check =>
    obtain ⟨sl, guard⟩ := Option.ne_none_iff_exists'.mp (formed.guard.mp (.inl at_))
    have none := stuck (.check true)
    simp only [callStep, checkStep, at_, guard] at none
    split at none <;> cases none
  | fill =>
    obtain ⟨sl, guard⟩ := Option.ne_none_iff_exists'.mp (formed.guard.mp (.inr (.inl at_)))
    obtain ⟨t, filling⟩ := Option.ne_none_iff_exists'.mp (formed.fill at_)
    have none := stuck .filled
    simp only [callStep, filledStep, at_, guard, filling] at none
    have quiet : (s.host t).ready = Option.none := by
      split at none
      · cases none
      · cases none
      · assumption
    exact .bringUp t at_ filling ((ha.bringUps r t filling).resolve_right (by simp [quiet]))
  | forkBase =>
    obtain ⟨sl, guard⟩ := Option.ne_none_iff_exists'.mp (formed.guard.mp (.inr (.inr at_)))
    obtain ⟨b, base⟩ := Option.ne_none_iff_exists'.mp (formed.forkBase at_)
    refine .answer b (.inl ⟨at_, base⟩) ?_
    have none := stuck (.answer true)
    rcases reply : (s.request r).reply with _ | _ | p
    · rfl
    · simp [callStep, answerStep, at_, guard, reply] at none
    · simp [callStep, answerStep, at_, guard, reply] at none
  | fork =>
    obtain ⟨t, handle⟩ := Option.ne_none_iff_exists'.mp (formed.fork (.inl at_))
    simpa [callStep, sendStep, at_, handle] using stuck .send
  | forking =>
    obtain ⟨t, handle⟩ := Option.ne_none_iff_exists'.mp (formed.fork (.inr at_))
    refine .answer t (.inr ⟨at_, handle⟩) ?_
    have none := stuck (.answer true)
    rcases reply : (s.request r).reply with _ | _ | p
    · rfl
    · simp [callStep, answerStep, at_, reply] at none
    · simp [callStep, answerStep, at_, reply] at none

theorem owner_enabled_of_asked (ha : Attended s) (asked : (s.host t).commands ≠ []) :
    (cache cfg).Enabled (Event.ofOwner t) s := by
  obtain ⟨r, rest, queue⟩ := List.exists_cons_of_ne_nil asked
  rcases (ha.owners t).queue asked with at_ | at_ | at_
  · exact ⟨.owner t .forkFails, rfl, by simp [cache, next, ownerStep, forkFailsStep, at_, queue]⟩
  · exact ⟨.owner t .kill, rfl, by simp [cache, next, ownerStep, killStep, at_]⟩
  · exact ⟨.owner t .stop, rfl, by simp [cache, next, ownerStep, stopStep, at_]⟩

theorem owner_enabled_of_preparing (preparing : (s.host t).phase = .preparing) :
    (cache cfg).Enabled (Event.ofOwner t) s :=
  ⟨.owner t (.prepared false), rfl, by simp [cache, next, ownerStep, preparedStep, preparing]⟩

theorem position_owner (hb : Bounded s) (hd : Desk s) (ha : Attended s) (hc : OwnerCase cfg s t s')
    (mem : r ∈ (s.host t).commands) (mem' : r ∈ (s'.host t).commands) :
    (s'.host t).commands.idxOf r < (s.host t).commands.idxOf r := by
  have waiting : (s.host t).commands ≠ [] := List.ne_nil_of_mem mem
  have popped : ∀ {a : Nat} {rest : List Nat}, (s.host t).commands = a :: rest →
      (s'.host t).commands = rest → (s'.host t).commands.idxOf r < (s.host t).commands.idxOf r := by
    intro a rest was is
    have once := hd.queuedOnce t
    rw [was, List.nodup_cons] at once
    have ne : a ≠ r := by
      rintro rfl
      exact once.1 (is ▸ mem')
    rw [was, is, List.idxOf_cons_ne _ ne]
    exact Nat.lt_succ_self _
  cases hc with
  | cloned k r' rest at_ asked runs read =>
    have hne : t ≠ s.nextHost := Nat.ne_of_lt (hb.lt_of_owned (by simp [at_]))
    exact popped asked (by simp [cloned, hne, Host.forked])
  | forkFails r' rest at_ asked => exact popped asked (by simp)
  | ended at_ => simp [endOwner, State.dropCommands] at mem'
  | hostGone at_ idle | drained at_ idle | expired at_ idle | disconnected at_ idle =>
    exact absurd idle waiting
  | froze at_ => simpa [at_] using (ha.owners t).queue waiting
  | broke at_ => simpa [at_] using (ha.owners t).queue waiting

theorem position_next {e : Event} (hb : Bounded s) (hd : Desk s) (ha : Attended s)
    (h : next cfg s e = some s') (mem : r ∈ (s.host t).commands)
    (mem' : r ∈ (s'.host t).commands) :
    (s'.host t).commands.idxOf r ≤ (s.host t).commands.idxOf r ∧
      (Event.ofOwner t e → (s'.host t).commands.idxOf r < (s.host t).commands.idxOf r) := by
  have same : (s'.host t).commands = (s.host t).commands → ¬ Event.ofOwner t e →
      (s'.host t).commands.idxOf r ≤ (s.host t).commands.idxOf r ∧
        (Event.ofOwner t e → (s'.host t).commands.idxOf r < (s.host t).commands.idxOf r) :=
    fun eq other => ⟨(congrArg (List.idxOf r) eq).le, fun mine => absurd mine other⟩
  cases e with
  | call r' c =>
    rcases commands_call hb (callStep_cases h) t with eq | ⟨eq, -⟩
    · exact same eq id
    · refine ⟨?_, nofun⟩
      rw [eq, List.idxOf_append_of_mem mem]
  | owner t' turn =>
    by_cases mine : t' = t
    · subst mine
      have lower := position_owner hb hd ha (ownerStep_cases h) mem mem'
      exact ⟨lower.le, fun _ => lower⟩
    · rcases owner_host_other (ownerStep_cases h) (Ne.symm mine) with eq | ⟨rfl, -⟩
      · exact same (by rw [eq]) mine
      · simp [hb.hosts _ (Nat.le_refl _)] at mem
  | arrive | prune | tick =>
    cases h
    exact same rfl id
  | exit p => exact same ((processStep_exit h).commands t) id
  | report p => exact same ((processStep_report hb h).commands t) id

theorem lockedBy_next {e : Event} (hb : Bounded s) (h : next cfg s e = some s') {sl a b : Nat}
    (before : (s.slot sl).lockedBy = some a) (after : (s'.slot sl).lockedBy = some b) : a = b := by
  have same : s'.slot = s.slot → a = b := by
    intro eq
    rw [eq, before] at after
    exact Option.some.inj after
  cases e with
  | call r' c =>
    rcases lockedBy_call (callStep_cases h) after with old | ⟨free, -⟩
    · rw [before] at old
      exact Option.some.inj old
    · simp [before] at free
  | arrive | prune =>
    cases h
    exact same rfl
  | owner | exit | report | tick => exact same (frame_next hb h trivial).slot

end Steps

/-! ## Fair runs -/

section Path

variable {cfg : Config} {p : (cache cfg).Path} {r t n : Nat}

theorem arrived_mono {k m : Nat} (le : k ≤ m) : (p.state k).arrived ≤ (p.state m).arrived := by
  induction m, le using Nat.le_induction with
  | base => exact le_rfl
  | succ m _ ih => exact ih.trans (arrived_next (bounded_reachable (p.reachable m)) (p.step m))

theorem Fair.bringUp_ends (fair : Fair p) :
    ¬ ∀ m ≥ n, ((p.state m).host t).phase = .preparing := by
  intro preparing
  obtain ⟨m, le, moves⟩ := (fair.owners t).moves (n := n)
    fun m le => owner_enabled_of_preparing (preparing m le)
  have step := p.step m
  cases is : p.event m with
  | owner t' turn =>
    rw [is] at moves step
    obtain rfl : t' = t := moves
    have turned := owner_turned (bounded_reachable (p.reachable m)) (ownerStep_cases step)
    exact turned.owned.2.2 (preparing (m + 1) (le.trans (Nat.le_succ m)))
  | arrive | call | prune | exit | report | tick => simp [is, Event.ofOwner] at moves

theorem Fair.queue_read (fair : Fair p) : ¬ ∀ m ≥ n, r ∈ ((p.state m).host t).commands := by
  intro queued
  have position : ∀ m ≥ n, _ := fun m le =>
    position_next (bounded_reachable (p.reachable m)) (desk_reachable (p.reachable m))
      (attended_reachable (p.reachable m)) (p.step m) (queued m le)
      (queued (m + 1) (le.trans (Nat.le_succ m)))
  obtain ⟨k, le, stuck⟩ := (fair.owners t).stuck
    (w := fun s => (s.host t).commands.idxOf r) (fun m le => (position m le).1)
    fun m le => (position m le).2
  exact stuck k le_rfl (owner_enabled_of_asked (attended_reachable (p.reachable k))
    (List.ne_nil_of_mem (queued k le)))

theorem request_still (here : r < (p.state n).arrived)
    (still : ∀ m ≥ n, ¬ Event.ofCall r (p.event m)) {m : Nat} (le : n ≤ m) :
    ∃ x, (p.state m).request r = { (p.state n).request r with reply := x } := by
  induction m, le using Nat.le_induction with
  | base => exact ⟨((p.state n).request r).reply, rfl⟩
  | succ m le ih =>
    obtain ⟨x, same⟩ := ih
    obtain ⟨y, next⟩ := request_next (bounded_reachable (p.reachable m)) (p.step m)
      (here.trans_le (arrived_mono le)) (still m le)
    exact ⟨y, by rw [next, same]⟩

theorem Fair.stuck_cases (fair : Fair p) (here : r < (p.state n).arrived)
    (stuck : ∀ m ≥ n, ¬ (cache cfg).Enabled (Event.ofCall r) (p.state m)) :
    (∃ created, ((p.state n).request r).stage = .done created) ∨
      (((p.state n).request r).stage = .lock ∧
        ∃ sl, ∀ m ≥ n, ((p.state m).slot sl).lockedBy ≠ none) := by
  have same : ∀ m ≥ n, ∃ x, (p.state m).request r = { (p.state n).request r with reply := x } :=
    fun m => request_still here fun k le moves => stuck k le (p.enabled moves)
  by_cases done : ∃ created, ((p.state n).request r).stage = .done created
  · exact .inl done
  push Not at done
  have blocked : ∀ m ≥ n, Blocked (p.state m) r := by
    intro m le
    refine blocked_of_not_enabled (attended_reachable (p.reachable m)) (stuck m le) ?_
    obtain ⟨x, eq⟩ := same m le
    rw [eq]
    exact done
  cases blocked n le_rfl with
  | lock sl h at_ slot held =>
    refine .inr ⟨at_, sl, fun m le => ?_⟩
    obtain ⟨x, eq⟩ := same m le
    cases blocked m le with
    | lock sl' h' _ slot' held' =>
      rw [eq] at slot'
      obtain rfl : sl = sl' := Option.some.inj (slot.symm.trans slot')
      simp [held']
    | bringUp t' at' => simp [eq, at_] at at'
    | answer t' waits' => simp [eq, Request.Waits, at_] at waits'
  | bringUp t at_ filling preparing =>
    refine absurd (fun m le => ?_) (fair.bringUp_ends (n := n) (t := t))
    obtain ⟨x, eq⟩ := same m le
    cases blocked m le with
    | bringUp t' _ filling' preparing' =>
      rw [eq] at filling'
      obtain rfl : t = t' := Option.some.inj (filling.symm.trans filling')
      exact preparing'
    | lock sl' h' at' => simp [eq, at_] at at'
    | answer t' waits' => simp [eq, Request.Waits, at_] at waits'
  | answer t waits unanswered =>
    refine absurd (fun m le => ?_) (fair.queue_read (n := n) (r := r) (t := t))
    obtain ⟨x, eq⟩ := same m le
    have waits' : ((p.state m).request r).Waits t := by
      rw [eq]
      exact waits
    refine (attended_reachable (p.reachable m)).asked r t waits' ?_
    cases blocked m le with
    | answer t' _ unanswered' => exact unanswered'
    | lock sl' h' at' => rcases waits' with w | w <;> simp [at'] at w
    | bringUp t' at' => rcases waits' with w | w <;> simp [at'] at w

theorem Fair.call_stuck (fair : Fair p) (here : r < (p.state n).arrived) :
    ∃ k ≥ n, ∀ m ≥ k, ¬ (cache cfg).Enabled (Event.ofCall r) (p.state m) := by
  have rank : ∀ m ≥ n, _ := fun m le =>
    rank_next (bounded_reachable (p.reachable m)) (attended_reachable (p.reachable m)) (p.step m)
      (here.trans_le (arrived_mono le))
  exact (fair.calls r).stuck (w := fun s => (s.request r).rank) (fun m le => (rank m le).1)
    fun m le => (rank m le).2

theorem Fair.lock_freed (fair : Fair p) (sl : Nat) :
    ¬ ∀ m ≥ n, ((p.state m).slot sl).lockedBy ≠ none := by
  intro locked
  obtain ⟨h, held⟩ := Option.ne_none_iff_exists'.mp (locked n le_rfl)
  have always : ∀ m ≥ n, ((p.state m).slot sl).lockedBy = some h := by
    intro m le
    induction m, le using Nat.le_induction with
    | base => exact held
    | succ m le ih =>
      obtain ⟨h', held'⟩ := Option.ne_none_iff_exists'.mp (locked (m + 1) (le.trans (Nat.le_succ m)))
      rw [lockedBy_next (bounded_reachable (p.reachable m)) (p.step m) ih held']
      exact held'
  have guard : ∀ m ≥ n, ((p.state m).request h).guard = some sl :=
    fun m le => (attended_reachable (p.reachable m)).locks sl h (always m le)
  have here : ∀ m ≥ n, h < (p.state m).arrived := fun m le =>
    (bounded_reachable (p.reachable m)).arrived_of_holdsSlot (.inr (.inr (guard m le)))
  obtain ⟨k, le, stuck⟩ := fair.call_stuck (here n le_rfl)
  have fills := ((attended_reachable (p.reachable k)).formed h).guard.mpr (by simp [guard k le])
  rcases fair.stuck_cases (here k le) stuck with ⟨created, done⟩ | ⟨at_, -⟩
  · simp [done] at fills
  · simp [at_] at fills

theorem Fair.answered (fair : Fair p) (here : r < (p.state n).arrived) :
    ∃ m ≥ n, ∃ created, ((p.state m).request r).stage = .done created := by
  obtain ⟨k, le, stuck⟩ := fair.call_stuck here
  rcases fair.stuck_cases (here.trans_le (arrived_mono le)) stuck with done | ⟨-, sl, locked⟩
  · exact ⟨k, le, done⟩
  · exact absurd locked (fair.lock_freed sl)

/-- Whatever fails and whatever goes: every call is answered, every lock comes free again, every
bring-up ends, and no request to fork stays in an owner's queue. -/
theorem every_call_answered (fair : Fair p) (n : Nat) :
    (∀ r < (p.state n).arrived, ∃ m ≥ n, ∃ created,
      ((p.state m).request r).stage = .done created) ∧
    (∀ sl, ∃ m ≥ n, ((p.state m).slot sl).lockedBy = none) ∧
    ∀ t, (∃ m ≥ n, ((p.state m).host t).phase ≠ .preparing) ∧
      ∀ r, ∃ m ≥ n, r ∉ ((p.state m).host t).commands := by
  refine ⟨fun r here => fair.answered here, fun sl => ?_, fun t => ⟨?_, fun r => ?_⟩⟩
  · have freed := fair.lock_freed (n := n) sl
    push Not at freed
    exact freed
  · have ends := fair.bringUp_ends (n := n) (t := t)
    push Not at ends
    exact ends
  · have read := fair.queue_read (n := n) (r := r) (t := t)
    push Not at read
    exact read

end Path

theorem not_enabled_of_done {cfg : Config} {s : State} {r : Nat} {created : Bool}
    (done : (s.request r).stage = .done created) : ¬ (cache cfg).Enabled (Event.ofCall r) s := by
  rintro ⟨e, mine, able⟩
  cases e with
  | call r' c =>
    obtain rfl : r' = r := mine
    obtain ⟨s', step⟩ := Option.ne_none_iff_exists'.mp able
    exact call_not_done (callStep_cases step) done
  | arrive | prune | owner | exit | report | tick => exact mine

theorem not_enabled_of_idle {cfg : Config} {s : State} {t : Nat}
    (idle : (s.host t).phase = .unowned ∨ (s.host t).phase = .ended) :
    ¬ (cache cfg).Enabled (Event.ofOwner t) s := by
  rintro ⟨e, mine, able⟩
  cases e with
  | owner t' turn =>
    obtain rfl : t' = t := mine
    obtain ⟨s', step⟩ := Option.ne_none_iff_exists'.mp able
    cases ownerStep_cases step <;> grind
  | arrive | call | prune | exit | report | tick => exact mine

/-- The owner thread of the first template cannot be created; then only time passes. -/
theorem every_call_answered_unspawned : ∃ p : (cache ⟨id, 600⟩).Path, Fair p ∧
    ∃ n, 0 < (p.state n).arrived ∧ ∃ m ≥ n, ∃ created,
      ((p.state m).request 0).stage = .done created := by
  obtain ⟨s, reachable, done, arrived, hosts⟩ :
      ∃ s, (cache ⟨id, 600⟩).Reachable s ∧ (s.request 0).stage = .done false ∧ s.arrived = 1 ∧
        s.nextHost = 0 :=
    System.exists_reachable_of_run (s := {}) (l := [.arrive ⟨"redis", "7"⟩ none, .call 0 .slot,
      .call 0 .lock, .call 0 (.check false)]) (.init rfl) (by decide +kernel)
  obtain ⟨p, k, -, tail⟩ := reachable.exists_path (fun d => { s with now := s.now + d })
    (fun _ => .tick) rfl fun _ => ⟨trivial, rfl⟩
  have after : ∀ m ≥ k, ∃ now, p.state m = { s with now := now } := by
    intro m le
    obtain ⟨d, rfl⟩ := Nat.exists_eq_add_of_le le
    exact ⟨_, (tail d).1⟩
  have hb : Bounded s := bounded_reachable reachable
  have fair : Fair p := by
    constructor
    · intro r
      refine System.Path.fair_of_stuck (n := k) fun m le => ?_
      obtain ⟨now, at_⟩ := after m le
      rw [at_]
      rcases Nat.eq_zero_or_pos r with rfl | later
      · exact not_enabled_of_done done
      · exact not_enabled_of_done (hb.requests r (by omega)).1
    · intro t
      refine System.Path.fair_of_stuck (n := k) fun m le => ?_
      obtain ⟨now, at_⟩ := after m le
      rw [at_]
      exact not_enabled_of_idle (.inl (show (s.host t).phase = _ by rw [hb.hosts t (by omega)]))
  have here : 0 < (p.state k).arrived := by
    obtain ⟨now, at_⟩ := after k le_rfl
    rw [at_]
    exact Nat.lt_of_lt_of_eq Nat.one_pos arrived.symm
  exact ⟨p, fair, k, here, (every_call_answered fair k).1 0 here⟩

end ServiceCache.Templates
