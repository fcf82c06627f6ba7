import Mathlib.Data.List.Basic
import ServiceCache.Notify
import ServiceCache.Transition

/-!
# Threads waiting on one epoll set by polling its sockets

Any number of threads are in `direct_epoll_wait` on a set. A producer queues readiness and notifies
the set; the waker a thread registers moves its interrupt word.

A step is one access to what the threads share. `drain_ready_events` is not part of the patches:
it takes entries off the queue, drops those of subscriptions that have left the set, and stops at
`maxevents` events, a positive number. The interrupt word is not taken to come round to the
captured value. Of the reasons to demote the set only the result is modelled.
-/

namespace ServiceCache.DirectEpoll

open Transition Notify

/-- A subscription: still the set's, direct-served, and whether its descriptor is ready for
something it asked for. -/
structure Sub where
  live : Bool
  direct : Bool
  level : Bool
  deriving DecidableEq, Repr

inductive Stage
  | draining
  | reading
  | scanning
  | capturing
  | checking
  | polling
  | looking
  | comparing
  | comparingWord
  | asleep
  | producing (ready : List Nat)
  | dropping
  /-- Out of the call: with events, or with an error code or for the existing path. -/
  | left (answer : Option (List Nat))
  deriving DecidableEq, Repr

@[simp] def Stage.inside : Stage → Bool
  | .left _ => false
  | _ => true

@[simp] def Stage.listed : Stage → Bool
  | .capturing | .checking | .polling | .looking | .comparing | .comparingWord | .asleep => true
  | _ => false

/-- `moved` says that the interrupt word differs from the captured value. `kept` is history: the
subscriptions that were direct-served and ready ever since the call began. -/
structure Thread where
  stage : Stage := .left none
  maxevents : Nat := 1
  maxevents_pos : 0 < maxevents := by decide
  generation : Nat := 0
  watch : List Nat := []
  moved : Bool := false
  signals : Bool := false
  kept : List Nat := []
  deriving DecidableEq, Repr

structure State where
  threads : List Thread := []
  subs : List Sub := []
  queue : List Nat := []
  generation : Nat := 0
  notify : Notifier := {}
  deriving DecidableEq, Repr

def directPollCap : Nat := 64

def drainReadyEvents (live : Nat → Bool) : Nat → List Nat → List Nat × List Nat
  | 0, queue => ([], queue)
  | _, [] => ([], [])
  | max + 1, k :: queue =>
    if live k then
      let rest := drainReadyEvents live max queue
      (k :: rest.1, rest.2)
    else drainReadyEvents live (max + 1) queue

theorem drainReadyEvents_nil {live : Nat → Bool} {max : Nat} {queue : List Nat} (pos : 0 < max)
    (none_ : (drainReadyEvents live max queue).1 = []) :
    (drainReadyEvents live max queue).2 = [] ∧ queue.any live = false := by
  obtain ⟨max, rfl⟩ := Nat.exists_eq_add_one.mpr pos
  induction queue with
  | nil => exact ⟨rfl, rfl⟩
  | cons k queue ih =>
    rw [drainReadyEvents] at none_ ⊢
    split at none_
    · cases none_
    next dead =>
      rw [if_neg dead, List.any_cons, eq_false_of_ne_true dead]
      exact ih none_

theorem drainReadyEvents_complete {live : Nat → Bool} {max : Nat} {queue : List Nat}
    (room : (drainReadyEvents live max queue).1.length < max) {k : Nat} (mem : k ∈ queue)
    (alive : live k = true) : k ∈ (drainReadyEvents live max queue).1 := by
  induction queue generalizing max with
  | nil => cases mem
  | cons j queue ih =>
    cases max with
    | zero => cases room
    | succ max =>
      rw [drainReadyEvents] at room ⊢
      split
      next first =>
        rw [if_pos first] at room
        obtain rfl | rest := List.mem_cons.mp mem
        · exact .head _
        · exact .tail _ (ih (Nat.lt_of_succ_lt_succ room) rest)
      next dead =>
        rw [if_neg dead] at room
        obtain rfl | rest := List.mem_cons.mp mem
        · exact absurd alive dead
        · exact ih room rest

theorem drainReadyEvents_sound {live : Nat → Bool} {max : Nat} {queue : List Nat} {k : Nat}
    (mem : k ∈ (drainReadyEvents live max queue).1) : k ∈ queue ∧ live k = true := by
  induction queue generalizing max with
  | nil => cases max <;> cases mem
  | cons j queue ih =>
    cases max with
    | zero => cases mem
    | succ max =>
      rw [drainReadyEvents] at mem
      split at mem
      next first =>
        obtain rfl | rest := List.mem_cons.mp mem
        · exact ⟨.head _, first⟩
        · exact ⟨.tail _ (ih rest).1, (ih rest).2⟩
      · exact ⟨.tail _ (ih mem).1, (ih mem).2⟩

namespace State

variable (s : State)

def live (k : Nat) : Bool := s.subs[k]?.any (·.live)

def level (k : Nat) : Bool := s.subs[k]?.any (·.level)

def direct (k : Nat) : Bool := s.subs[k]?.any fun sub => sub.live && sub.direct

def directSubs : List Nat := (List.range s.subs.length).filter s.direct

variable {s} in
theorem mem_directSubs {k : Nat} : k ∈ s.directSubs ↔ s.direct k = true := by
  rw [directSubs, List.mem_filter, List.mem_range]
  refine and_iff_right_of_imp fun direct => ?_
  by_contra out
  rw [State.direct, List.getElem?_eq_none (by omega)] at direct
  cases direct

variable {s} in
theorem live_of_direct {k : Nat} (direct : s.direct k = true) : s.live k = true := by
  unfold State.direct at direct
  unfold State.live
  cases sub : s.subs[k]? with
  | none => simp [sub] at direct
  | some sub' =>
    rw [sub, Option.any_some, Bool.and_eq_true] at direct
    exact direct.1

def modifyThread (i : Nat) (f : Thread → Thread) : State :=
  { s with threads := s.threads.modify i f }

def modifySub (k : Nat) (f : Sub → Sub) : State := { s with subs := s.subs.modify k f }

def setStage (i : Nat) (stage : Stage) : State := s.modifyThread i fun t => { t with stage }

def wake : Option Nat → State
  | none => s
  | some w => s.modifyThread w fun t => { t with moved := true }

@[simp] theorem wake_queue (w : Option Nat) : (s.wake w).queue = s.queue := by
  cases w <;> rfl

@[simp] theorem wake_subs (w : Option Nat) : (s.wake w).subs = s.subs := by
  cases w <;> rfl

@[simp] theorem length_wake (w : Option Nat) : (s.wake w).threads.length = s.threads.length := by
  cases w with
  | none => rfl
  | some w => exact List.length_modify ..

def notifyOne : State := { s with notify := s.notify.notifyOne.1 }.wake s.notify.notifyOne.2

def drop (i : Nat) : State := { s with notify := (s.notify.drop i).1 }.wake (s.notify.drop i).2

/-- `enqueue_ready`, unless the subscription is queued already. -/
def enqueue (k : Nat) : State :=
  if k ∈ s.queue then s else { s with queue := s.queue ++ [k] }.notifyOne

def produce (k : Nat) : State := if s.live k then s.enqueue k else s

theorem produce_live (k : Nat) : (s.produce k).live = s.live := by
  unfold produce enqueue
  split
  · split
    · rfl
    · funext j
      rw [live, notifyOne, wake_subs]
      rfl
  · rfl

variable {s} in
theorem mem_produce {k : Nat} (live : s.live k = true) : k ∈ (s.produce k).queue := by
  rw [produce, if_pos live, enqueue]
  split
  · assumption
  · rw [notifyOne, wake_queue]
    exact List.mem_append_right _ (.head _)

def thread (i : Nat) (t : Thread) : Option State :=
  match t.stage with
  | .draining =>
    let d := drainReadyEvents s.live t.maxevents s.queue
    some ({ s with queue := d.2 }.setStage i (if d.1 = [] then .reading else .left (some d.1)))
  | .reading => some (s.modifyThread i fun t => { t with stage := .scanning, generation := s.generation })
  | .scanning =>
    if s.directSubs = [] then some (s.setStage i (.left none))
    else if s.directSubs.length ≤ directPollCap then
      some (s.modifyThread i fun t => { t with stage := .capturing, watch := s.directSubs })
    else none
  | .capturing => some (s.modifyThread i fun t => { t with stage := .checking, moved := false })
  | .checking =>
    some (if t.signals then s.modifyThread i fun t => { t with stage := .draining, signals := false }
      else s.setStage i .polling)
  | .polling =>
    let p := s.notify.poll i
    some ({ s with notify := p.1 }.setStage i (if p.2 then .draining else .looking))
  | .looking => some (s.setStage i (if s.queue = [] then .comparing else .dropping))
  | .comparing =>
    some (s.setStage i (if s.generation = t.generation then .comparingWord else .dropping))
  | .comparingWord =>
    some (if t.moved then s.modifyThread i fun t => { t with stage := .dropping, signals := false }
      else s.setStage i .asleep)
  | .asleep =>
    if t.watch.filter s.level ≠ [] then some (s.setStage i (.producing (t.watch.filter s.level)))
    else if t.moved then
      some (s.modifyThread i fun t => { t with stage := .dropping, signals := false })
    else none
  | .producing (k :: rest) => some ((s.produce k).setStage i (.producing rest))
  | .producing [] =>
    let d := drainReadyEvents s.live t.maxevents s.queue
    some (if d.1 = [] then { s with queue := d.2 }.setStage i .dropping
      else ({ s with queue := d.2 }.drop i).setStage i (.left (some d.1)))
  | .dropping => some ((s.drop i).setStage i .draining)
  | .left _ => none

def lapse (k : Nat) : State :=
  { s with threads := s.threads.map fun t => { t with kept := t.kept.filter (· ≠ k) } }

end State

section Frames

variable {s : State} {t : Thread} {i : Nat}

theorem wake_thread (at_ : s.threads[i]? = some t) (w : Option Nat) :
    ∃ moved, (s.wake w).threads[i]? = some { t with moved } := by
  cases w with
  | none => exact ⟨t.moved, at_⟩
  | some w =>
    by_cases same : w = i
    · subst same
      refine ⟨true, ?_⟩
      change (s.threads.modify w _)[w]? = _
      rw [List.getElem?_modify_eq, at_]
      rfl
    · refine ⟨t.moved, ?_⟩
      change (s.threads.modify w _)[i]? = _
      simp [same, at_]

theorem drop_thread (at_ : s.threads[i]? = some t) (j : Nat) :
    ∃ moved, (s.drop j).threads[i]? = some { t with moved } :=
  wake_thread (s := { s with notify := (s.notify.drop j).1 }) at_ _

theorem produce_thread (at_ : s.threads[i]? = some t) (k : Nat) :
    ∃ moved, (s.produce k).threads[i]? = some { t with moved } := by
  unfold State.produce State.enqueue
  split
  · split
    · exact ⟨t.moved, at_⟩
    · exact wake_thread (s := { s with queue := s.queue ++ [k], notify := _ }) at_ _
  · exact ⟨t.moved, at_⟩

end Frames

def Stage.givesUp : Stage → Bool
  | .scanning | .checking | .comparingWord | .asleep => true
  | _ => false

def Thread.processes (t : Thread) : Bool :=
  match t.stage with
  | .checking => t.signals
  | .comparingWord | .asleep => t.moved
  | _ => false

inductive Event
  | thread (i : Nat)
  | errno (i : Nat)
  /-- A thread calls, reaches its deadline, or gives up and demotes the set. -/
  | call (i maxevents : Nat)
  | expire (i : Nat)
  | giveUp (i : Nat)
  /-- A producer queues readiness; subscriptions come, go, and are demoted; descriptors become
  ready or unready; a signal arrives. -/
  | enqueue (k : Nat)
  | add (direct : Bool)
  | delete (k : Nat)
  | demote (k : Nat)
  | rise (k : Nat)
  | fall (k : Nat)
  | signal (i : Nat)
  deriving DecidableEq, Repr

def State.step (s : State) : Event → Option State
  | .thread i => (s.threads[i]?).bind (s.thread i)
  | .errno i =>
    if s.threads[i]?.any (·.processes) then some ((s.drop i).setStage i (.left none)) else none
  | .call i maxevents =>
    if room : 0 < maxevents ∧ s.threads[i]?.any (fun t => t.stage matches .left _) then
      some (s.modifyThread i fun t =>
        { t with
          stage := .draining, maxevents, maxevents_pos := room.1
          kept := s.directSubs.filter s.level })
    else none
  | .expire i =>
    if s.threads[i]?.any (fun t => t.stage = .asleep) then
      some ((s.drop i).setStage i (.left (some [])))
    else none
  | .giveUp i =>
    if s.threads[i]?.any (fun t => t.stage.givesUp) then
      some { (s.drop i).setStage i (.left none) with
        subs := s.subs.map fun sub => { sub with direct := false }
        generation := s.generation + 1
        threads := ((s.drop i).setStage i (.left none)).threads.map fun t => { t with kept := [] } }
    else none
  | .enqueue k => some (s.enqueue k)
  | .add direct =>
    let s := { s with subs := s.subs ++ [⟨true, direct, false⟩], generation := s.generation + 1 }
    some (if direct then s.notifyOne else s)
  | .delete k =>
    some { (s.lapse k).modifySub k ({ · with live := false }) with generation := s.generation + 1 }
  | .demote k =>
    some { (s.lapse k).modifySub k ({ · with direct := false }) with generation := s.generation + 1 }
  | .rise k => some (s.modifySub k ({ · with level := true }))
  | .fall k => some ((s.lapse k).modifySub k ({ · with level := false }))
  | .signal i => some (s.modifyThread i ({ · with signals := true, moved := true }))

def directEpoll : System State Event where
  Initial s := ∃ n, s = { threads := List.replicate n {} }
  next := State.step

end ServiceCache.DirectEpoll
