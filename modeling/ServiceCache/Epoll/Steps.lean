import ServiceCache.Epoll.Model

/-!
# What a thread on an epoll set can do next
-/

namespace ServiceCache.Epoll

open Function

inductive Move (s : State) (t : Thread) (a : Action) : Thread → Effect → Prop
  | unchanged (at_ : t.stage = .idle) : Move s t a t .none
  | add (fd : Nat) (level : Bool) (at_ : t.stage = .idle) :
      Move s t a (t.register s .remove) (.insert fd level)
  | modify (fd : Nat) (level : Bool) (previous : Nat) (at_ : t.stage = .idle) :
      Move s t a (t.register s (.restore previous)) (.insert fd level)
  | delete (fd : Nat) (at_ : t.stage = .idle) : Move s t a t (.remove fd)
  | wait (at_ : t.stage = .idle) : Move s t a { t with stage := .waiting } .none
  | unknown (at_ : t.stage = .inode) (closed : s.target t.sub = .closed) :
      Move s t a { t with stage := .failed } .none
  | known (at_ : t.stage = .inode) : Move s t a { t with stage := .polling } .none
  | unguarded (at_ : t.stage = .polling)
      (why : a = .fail ∨ s.target t.sub = .closed ∨ t.expected.isSome = true) :
      Move s t a { t with stage := .failed } .none
  | handlerless (at_ : t.stage = .polling) (file : s.target t.sub = .file)
      (ctl : t.allowDirect = true) : Move s t a { t with stage := .idle } .none
  | unattached (at_ : t.stage = .polling) (file : s.target t.sub = .file)
      (demotion : t.allowDirect = false) (unnamed : t.expected = none) (go : a = .go) :
      Move s t a { t with stage := .demoted } (.unattached t.sub)
  | guarded (mode : Target) (at_ : t.stage = .polling) (is : s.target t.sub = mode)
      (opened : mode ≠ .closed) (same : ∀ k, t.expected = some k → mode = .socket k)
      (ctl : t.allowDirect = true) : Move s t a { t with stage := .claiming, mode } .none
  | matched (mode : Target) (at_ : t.stage = .polling) (is : s.target t.sub = mode)
      (opened : mode ≠ .closed) (same : ∀ k, t.expected = some k → mode = .socket k)
      (demotion : t.allowDirect = false) (go : a = .go) :
      Move s t a { t with stage := .installing, mode } .none
  | claim (at_ : t.stage = .claiming) :
      Move s t a { t with stage := .claimingSocket } (.flag t.sub false)
  | claimSocket (at_ : t.stage = .claimingSocket) :
      Move s t a { t with stage := .deciding } (.unname t.sub)
  | candidate (at_ : t.stage = .deciding) : Move s t a { t with stage := .naming } .none
  | noCandidate (at_ : t.stage = .deciding) : Move s t a { t with stage := .installing } .none
  | name (k : Nat) (at_ : t.stage = .naming) :
      Move s t a { t with stage := .flagging } (.name t.sub k)
  | flag (at_ : t.stage = .flagging) : Move s t a { t with stage := .counting } (.flag t.sub true)
  | nobody (at_ : t.stage = .counting) (zero : s.blocking = 0) :
      Move s t a { t with stage := .subscribing } .none
  | somebody (at_ : t.stage = .counting) : Move s t a { t with stage := .refusing } .none
  | refuse (at_ : t.stage = .refusing) :
      Move s t a { t with stage := .refusingSocket } (.flag t.sub false)
  | refuseSocket (at_ : t.stage = .refusingSocket) :
      Move s t a { t with stage := .installing } (.unname t.sub)
  | install (k : Nat) (at_ : t.stage = .installing) (ctl : t.allowDirect = true) :
      Move s t a { t with stage := .idle } (.install k)
  | installSource (at_ : t.stage = .installing) (ctl : t.allowDirect = true) :
      Move s t a { t with stage := .idle } .none
  | attach (k : Nat) (at_ : t.stage = .installing) (demotion : t.allowDirect = false)
      (mode : t.mode = .socket k) : Move s t a { t with stage := .demoted } (.attach t.sub k)
  | attachSource (at_ : t.stage = .installing) (demotion : t.allowDirect = false)
      (mode : ∀ k, t.mode ≠ .socket k) : Move s t a { t with stage := .demoted } (.unattached t.sub)
  | handlerRefused (k : Nat) (left : Bool) (at_ : t.stage = .installing) :
      Move s t a { t with stage := .failed } (.refuse k left)
  | subscribe (at_ : t.stage = .subscribing) : Move s t a { t with stage := .idle } .none
  | remove (fd : Nat) (at_ : t.stage = .failed) (ctl : t.allowDirect = true) :
      Move s t a { t with stage := .idle } (.remove fd)
  | restore (fd previous : Nat) (at_ : t.stage = .failed) (ctl : t.allowDirect = true) :
      Move s t a { t with stage := .inode, sub := previous, rollback := .keep }
        (.restore fd previous)
  | giveUp (at_ : t.stage = .failed) (ctl : t.allowDirect = true) :
      Move s t a { t with stage := .idle } .none
  | produce (at_ : t.stage = .failed) (demotion : t.allowDirect = false) :
      Move s t a { t with stage := .demoted } (.produce t.sub)
  | scan (purpose : Purpose)
      (at_ : t.stage = .collecting ∧ purpose = .collect ∨ t.stage = .waiting ∧ purpose = .enter ∨
        t.stage = .direct ∧ purpose = .watch ∨ t.stage = .checking ∧ purpose = .check) :
      Move s t a (t.scan s purpose).1 (t.scan s purpose).2
  | last (at_ : t.stage = .picking) (none : t.todo = []) :
      Move s t a { t with stage := if t.guard then .general else .entering } .none
  | pick (p : Nat) (rest : List Nat) (at_ : t.stage = .picking) (todo : t.todo = p :: rest) :
      Move s t a { t with
        stage := .inode, sub := p, allowDirect := false
        expected := (s.sub p).directSocket } .none
  | demote (at_ : t.stage = .demoted) :
      Move s t a { t with stage := .demotedSocket, todo := t.todo.tail } (.flag t.sub false)
  | demoteSocket (at_ : t.stage = .demotedSocket) :
      Move s t a { t with stage := .picking } (.unname t.sub)
  | answer (at_ : t.stage = .direct) : Move s t a { t with stage := .idle } .none
  | demoteAll (at_ : t.stage = .direct) : Move s t a { t with stage := .collecting } .none
  | enter (at_ : t.stage = .entering) :
      Move s t a { t with stage := .checking, guard := true } .enter
  | leave (at_ : t.stage = .general) :
      Move s t a { t with stage := .idle, guard := false } .leave
  | scanned (purpose : Purpose) (at_ : t.stage = .scanning purpose) (none : t.toScan = []) :
      Move s t a (t.scanned t.found purpose) .unlock
  | stop (p : Nat) (rest : List Nat) (purpose : Purpose) (at_ : t.stage = .scanning purpose)
      (next : t.toScan = p :: rest) (direct : (s.sub p).direct = true)
      (stops : purpose.stops = true) : Move s t a (t.scanned [p] purpose) .unlock
  | found (p : Nat) (rest : List Nat) (purpose : Purpose) (at_ : t.stage = .scanning purpose)
      (next : t.toScan = p :: rest) (stops : purpose.stops = false) :
      Move s t a { t with toScan := rest, found := t.found ++ [p] } .none
  | pass (p : Nat) (rest : List Nat) (purpose : Purpose) (at_ : t.stage = .scanning purpose)
      (next : t.toScan = p :: rest) (indirect : (s.sub p).direct = false) :
      Move s t a { t with toScan := rest } .none

section Local

variable {s : State} {t t' : Thread} {a : Action} {f : Effect}

theorem guarded_move (at_ : t.stage = .polling) :
    Move s t .go (t.guarded (s.target t.sub)).1 (t.guarded (s.target t.sub)).2 := by
  unfold Thread.guarded
  split
  next closed => exact .unguarded at_ (.inr (.inl closed))
  next file =>
    split
    next named => exact .unguarded at_ (.inr (.inr named))
    next unnamed =>
      have none : t.expected = none := by simpa using unnamed
      split
      next ctl => exact .handlerless at_ file ctl
      next demotion => exact .unattached at_ file (by simpa using demotion) none rfl
  next opened _ =>
    split
    next other =>
      rw [Bool.and_eq_true] at other
      exact .unguarded at_ (.inr (.inr other.1))
    next matching =>
      have same : ∀ k, t.expected = some k → s.target t.sub = .socket k := by
        intro k named
        simpa [named] using matching
      dsimp only
      split
      next ctl => exact .guarded _ at_ rfl opened same ctl
      next demotion => exact .matched _ at_ rfl opened same (by simpa using demotion) rfl

theorem installed_move (at_ : t.stage = .installing) : Move s t a t.installed.1 t.installed.2 := by
  unfold Thread.installed
  split
  next k ctl _ => exact .install k at_ ctl
  next ctl _ => exact .installSource at_ ctl
  next k demotion mode => exact .attach k at_ demotion mode
  next demotion other => exact .attachSource at_ demotion other

theorem failed_move (at_ : t.stage = .failed) (fd : Nat) :
    Move s t a (t.failed fd).1 (t.failed fd).2 := by
  unfold Thread.failed
  split
  next ctl =>
    split
    · exact .remove fd at_ ctl
    next previous _ => exact .restore fd previous at_ ctl
    · exact .giveUp at_ ctl
  next demotion => exact .produce at_ (by simpa using demotion)

theorem scanning_move {purpose : Purpose} (at_ : t.stage = .scanning purpose)
    (h : (match t.toScan with
      | [] => (t.scanned t.found purpose, Effect.unlock)
      | p :: rest =>
        if (s.sub p).direct then
          if purpose.stops then (t.scanned [p] purpose, .unlock)
          else ({ t with toScan := rest, found := t.found ++ [p] }, .none)
        else ({ t with toScan := rest }, .none)) = (t', f)) : Move s t a t' f := by
  split at h
  next none => cases h; exact .scanned purpose at_ none
  next p rest next =>
    split at h
    next direct =>
      split at h
      next stops => cases h; exact .stop p rest purpose at_ next direct stops
      next goesOn => cases h; exact .found p rest purpose at_ next (by simpa using goesOn)
    next indirect => cases h; exact .pass p rest purpose at_ next (by simpa using indirect)

theorem threadStep_move (h : threadStep s t a = some (t', f)) : Move s t a t' f := by
  unfold threadStep at h
  split at h
  next fd level at_ =>
    split at h
    · cases h; exact .unchanged at_
    · cases h; exact .add fd level at_
  next fd level at_ =>
    split at h
    next previous _ => cases h; exact .modify fd level previous at_
    · cases h; exact .unchanged at_
  next fd at_ => cases h; exact .delete fd at_
  next at_ => cases h; exact .wait at_
  next at_ =>
    cases h
    split
    next closed => exact .unknown at_ closed
    · exact .known at_
  next at_ => cases h; exact .unguarded at_ (.inl rfl)
  next at_ =>
    obtain ⟨rfl, rfl⟩ := Prod.ext_iff.mp (Option.some.inj h)
    exact guarded_move at_
  next at_ => cases h; exact .claim at_
  next at_ => cases h; exact .claimSocket at_
  next at_ =>
    cases h
    split
    · split
      · exact .candidate at_
      · exact .noCandidate at_
    · exact .noCandidate at_
  next at_ =>
    split at h
    next k _ => cases h; exact .name k at_
    · cases h
  next at_ => cases h; exact .flag at_
  next at_ =>
    cases h
    split
    next zero => exact .nobody at_ zero
    · exact .somebody at_
  next at_ => cases h; exact .refuse at_
  next at_ => cases h; exact .refuseSocket at_
  next at_ =>
    obtain ⟨rfl, rfl⟩ := Prod.ext_iff.mp (Option.some.inj h)
    exact installed_move at_
  next left at_ =>
    split at h
    next k _ => cases h; exact .handlerRefused k left at_
    · cases h
  next at_ => cases h; exact .subscribe at_
  next at_ =>
    obtain ⟨rfl, rfl⟩ := Prod.ext_iff.mp (Option.some.inj h)
    exact failed_move at_ _
  next at_ => cases h; exact .scan .collect (.inl ⟨at_, rfl⟩)
  next at_ =>
    cases h
    split
    next none => exact .last at_ none
    next p rest todo => exact .pick p rest at_ todo
  next at_ => cases h; exact .demote at_
  next at_ => cases h; exact .demoteSocket at_
  next at_ => cases h; exact .scan .enter (.inr (.inl ⟨at_, rfl⟩))
  next at_ => cases h; exact .answer at_
  next at_ => cases h; exact .demoteAll at_
  next at_ => cases h; exact .scan .watch (.inr (.inr (.inl ⟨at_, rfl⟩)))
  next at_ => cases h; exact .enter at_
  next at_ => cases h; exact .scan .check (.inr (.inr (.inr ⟨at_, rfl⟩)))
  next at_ => cases h; exact .leave at_
  next purpose at_ => exact scanning_move at_ (Option.some.inj h)
  · cases h

end Local

inductive Step (s : State) : Event → State → Prop
  | thread (i : Nat) (a : Action) (t : Thread) (f : Effect) (lt : i < s.threads)
      (free : (s.thread i).stage.takesLock a = true → s.locked = false)
      (moved : Move s (s.thread i) a t f) : Step s (.thread i a) ((s.apply f).setThread i t)
  | descriptor (fd : Nat) (target : Target) :
      Step s (.descriptor fd target) { s with fds := update s.fds fd target }
  | handler (k : Nat) (b : Bool) :
      Step s (.handler k b) { s with dispatcher := update s.dispatcher k b }

theorem step_cases {s s' : State} {e : Event} (h : epollSystem.next s e = some s') :
    Step s e s' := by
  cases e with
  | thread i a =>
    simp only [epollSystem, State.step] at h
    obtain ⟨free, h⟩ := Transition.guarded h
    obtain ⟨⟨t, f⟩, moved, rfl⟩ := Option.map_eq_some_iff.mp h
    refine .thread i a t f free.1 ?_ (threadStep_move moved)
    intro takes
    simpa [takes] using free.2
  | descriptor fd target => cases h; exact .descriptor fd target
  | handler k b => cases h; exact .handler k b

section Apply

variable (s : State)

@[simp] theorem apply_thread (f : Effect) : (s.apply f).thread = s.thread := by cases f <;> rfl

@[simp] theorem apply_threads (f : Effect) : (s.apply f).threads = s.threads := by cases f <;> rfl

theorem setThread_thread (i j : Nat) (t : Thread) :
    (s.setThread i t).thread j = if j = i then t else s.thread j := update_apply ..

theorem setSub_sub (p q : Nat) (sub : Sub) :
    (s.setSub p sub).sub q = if q = p then sub else s.sub q := update_apply ..

end Apply

end ServiceCache.Epoll
