import ServiceCache.Control.Pairing

/-!
# The channels together

Every host has a channel of its own, and the channel that a request to fork brings is nobody's
until the clone is born. So each step is a step on one channel.
-/

namespace ServiceCache.Control

open Function
open Transition (System guarded)

namespace State

def cur (s : State) (c : Nat) : Option Nat := (s.link c).owner.bind s.current

def handled (s : State) (c : Nat) : Option Nat :=
  (s.link c).owner.bind fun p => (s.hosts.host p).bind fun h => h.stage.frame?.bind Frame.control?

def forks (s : State) (c : Nat) : List Nat :=
  (s.handled c).toList ++ (s.link c).requests.filterMap fun q => q.2.control?

structure Wired (s : State) : Prop where
  pids : ∀ p, s.hosts.next ≤ p → s.hosts.host p = none
  links : ∀ c, s.nextLink ≤ c → s.link c = {}
  served : ∀ p h, s.hosts.host p = some h → (s.link (s.channel p)).owner = some p
  owner : ∀ c p, (s.link c).owner = some p → s.channel p = c ∧ (s.hosts.host p).isSome = true
  forks : ∀ c, ∀ d ∈ s.forks c, (s.link d).owner = none ∧ (s.link d).parent = some c
  nodup : ∀ c, (s.forks c).Nodup

structure Inv (s : State) : Prop where
  wired : s.Wired
  paired : ∀ c, (s.link c).Paired (s.mode c) (s.cur c)

variable {s : State} {c p : Nat}

theorem Wired.lt_of_ne (wired : s.Wired) (used : s.link c ≠ {}) : c < s.nextLink := by
  by_contra unused
  exact used (wired.links c (by omega))

theorem Wired.pid_lt (wired : s.Wired) {h : Host} (there : s.hosts.host p = some h) :
    p < s.hosts.next := by
  by_contra unborn
  rw [wired.pids p (by omega)] at there
  cases there

section Manager

/-! A step of the manager on the channel `c`. -/

variable {l : Link}

theorem setLink_self : (s.setLink c l).link c = l := update_self ..

theorem setLink_other {d : Nat} (ne : d ≠ c) : (s.setLink c l).link d = s.link d :=
  update_of_ne ne ..

section Owned

variable (owner : l.owner = (s.link c).owner)

include owner

theorem setLink_owner (d : Nat) : ((s.setLink c l).link d).owner = (s.link d).owner := by
  by_cases is : d = c
  · subst is
    rw [setLink_self, owner]
  · rw [setLink_other is]

theorem setLink_mode (d : Nat) : (s.setLink c l).mode d = s.mode d := by
  rw [mode, setLink_owner owner]
  rfl

theorem setLink_cur (d : Nat) : (s.setLink c l).cur d = s.cur d := by
  rw [cur, setLink_owner owner]
  rfl

theorem setLink_handled (d : Nat) : (s.setLink c l).handled d = s.handled d := by
  rw [handled, setLink_owner owner]
  rfl

theorem Inv.setLinkForks (inv : s.Inv) (used : s.link c ≠ {}) (parent : l.parent = (s.link c).parent)
    (more : List Nat)
    (requests : (l.requests.filterMap fun q => q.2.control?) =
      ((s.link c).requests.filterMap fun q => q.2.control?) ++ more)
    (unowned : ∀ d ∈ more, (s.link d).owner = none ∧ (s.link d).parent = some c)
    (new : ∀ d ∈ more, d ∉ s.forks c) (nodup : more.Nodup)
    (paired : l.Paired (s.mode c) (s.cur c)) : (s.setLink c l).Inv := by
  have parents (d : Nat) : ((s.setLink c l).link d).parent = (s.link d).parent := by
    by_cases is : d = c
    · subst is
      rw [setLink_self, parent]
    · rw [setLink_other is]
  have forks (d : Nat) : (s.setLink c l).forks d = s.forks d ++ if d = c then more else [] := by
    rw [State.forks, State.forks, setLink_handled owner]
    by_cases is : d = c
    · subst is
      rw [setLink_self, requests, if_pos rfl, List.append_assoc]
    · rw [setLink_other is, if_neg is, List.append_nil]
  refine ⟨⟨inv.wired.pids, fun d le => ?_, fun q h there => ?_, fun d q is => ?_, fun d e mem => ?_,
    fun d => ?_⟩, fun d => ?_⟩
  · have below := inv.wired.lt_of_ne used
    change s.nextLink ≤ d at le
    rw [setLink_other (by omega)]
    exact inv.wired.links d le
  · rw [setLink_owner owner]
    exact inv.wired.served q h there
  · rw [setLink_owner owner] at is
    exact inv.wired.owner d q is
  · rw [forks] at mem
    rw [setLink_owner owner, parents]
    obtain old | added := List.mem_append.mp mem
    · exact inv.wired.forks d e old
    · by_cases is : d = c
      · rw [if_pos is] at added
        rw [is]
        exact unowned e added
      · rw [if_neg is] at added
        cases added
  · rw [forks]
    by_cases is : d = c
    · rw [if_pos is, List.nodup_append, is]
      refine ⟨inv.wired.nodup c, nodup, fun e old f added same => ?_⟩
      rw [same] at old
      exact new f added old
    · rw [if_neg is, List.append_nil]
      exact inv.wired.nodup d
  · rw [setLink_mode owner, setLink_cur owner]
    by_cases is : d = c
    · subst is
      rw [setLink_self]
      exact paired
    · rw [setLink_other is]
      exact inv.paired d

theorem Inv.setLink (inv : s.Inv) (used : s.link c ≠ {}) (parent : l.parent = (s.link c).parent)
    (requests : (l.requests.filterMap fun q => q.2.control?) =
      (s.link c).requests.filterMap fun q => q.2.control?)
    (paired : l.Paired (s.mode c) (s.cur c)) : (s.setLink c l).Inv :=
  inv.setLinkForks owner used parent [] (requests.trans (List.append_nil _).symm)
    (fun _ mem => absurd mem List.not_mem_nil) (fun _ mem => absurd mem List.not_mem_nil)
    List.nodup_nil paired

end Owned

theorem ne_empty (here : (s.link c).handle ≠ .gone) : s.link c ≠ {} := by
  intro is
  rw [is] at here
  exact here rfl

theorem Inv.settle (inv : s.Inv) (frame : Frame) (forked : Bool) : (s.settle frame forked).Inv := by
  unfold State.settle
  split
  · exact inv
  next d _ =>
    split
    next reserved =>
      refine inv.setLink rfl (ne_empty (by simp [reserved])) rfl rfl ?_
      cases forked with
      | true => exact (inv.paired d).await reserved
      | false => exact (inv.paired d).letGo fun none => ((inv.paired d).unowned none).1
    next => exact inv

theorem Inv.reply (inv : s.Inv) {t : State} (next : s.reply c = some t) : t.Inv := by
  unfold State.reply at next
  split at next
  next id frame asked =>
    have used := ne_empty (s := s) (c := c) (by simp [asked])
    obtain ⟨⟨l, got⟩, read, rfl⟩ := Option.map_eq_some_iff.mp next
    have paired := (inv.paired c).reply_asked asked read
    obtain ⟨tag, r, rest, is, ⟨-, rfl, rfl⟩ | ⟨-, rfl, rfl⟩ | ⟨-, -, rfl, rfl⟩⟩ :=
      Link.reply_cases read
    · exact inv.setLink rfl used rfl rfl paired
    · apply Inv.settle
      exact inv.setLink rfl used rfl rfl paired
    · apply Inv.settle
      exact inv.setLink rfl used rfl rfl paired
  next waits =>
    have used := ne_empty (s := s) (c := c) (by simp [waits])
    obtain ⟨⟨l, got⟩, read, rfl⟩ := Option.map_eq_some_iff.mp next
    have paired := (inv.paired c).reply_announcing waits read
    obtain ⟨tag, r, rest, is, ⟨-, rfl, rfl⟩ | ⟨-, rfl, rfl⟩ | ⟨-, -, rfl, rfl⟩⟩ :=
      Link.reply_cases read
    · exact inv.setLink rfl used rfl rfl paired
    · exact inv.setLink rfl used rfl rfl paired
    · exact inv.setLink rfl used rfl rfl paired
  next => cases next

theorem Inv.giveUp (inv : s.Inv) {t : State} {after : Handle}
    (fine : ∀ id frame, (s.link c).handle = .asked id frame →
      ({ s.link c with handle := after } : Link).Paired (s.mode c) (s.cur c))
    (next : s.giveUp c after = some t) : t.Inv := by
  unfold State.giveUp at next
  split at next
  next id frame asked =>
    cases next
    apply Inv.settle
    exact inv.setLink rfl (ne_empty (by simp [asked])) rfl rfl (fine id frame asked)
  next waits =>
    cases next
    exact inv.setLink rfl (ne_empty (by simp [waits])) rfl rfl
      ((inv.paired c).letGo fun none => ((inv.paired c).unowned none).1)
  next => cases next

theorem forks_fresh (wired : s.Wired) : ∀ d, s.nextLink ∉ s.forks d := by
  intro d mem
  have := (wired.forks d _ mem).2
  rw [wired.links _ (Nat.le_refl _)] at this
  cases this

theorem Inv.reserve (inv : s.Inv) (c : Nat) :
    ({ s.setLink s.nextLink { handle := .reserved, parent := some c } with
      nextLink := s.nextLink + 1 } : State).Inv := by
  have empty := inv.wired.links s.nextLink (Nat.le_refl _)
  have owner : Link.owner { handle := .reserved, parent := some c } = (s.link s.nextLink).owner := by
    rw [empty]
  have forks (d : Nat) : ({ s.setLink s.nextLink { handle := .reserved, parent := some c } with
      nextLink := s.nextLink + 1 } : State).forks d = s.forks d := by
    change (s.setLink s.nextLink _).forks d = s.forks d
    rw [State.forks, State.forks, setLink_handled owner]
    by_cases is : d = s.nextLink
    · subst is
      rw [setLink_self, empty]
    · rw [setLink_other is]
  refine ⟨⟨inv.wired.pids, fun d le => ?_, fun q h there => ?_, fun d q is => ?_, fun d e mem => ?_,
    fun d => ?_⟩, fun d => ?_⟩
  · change s.nextLink + 1 ≤ d at le
    change (s.setLink s.nextLink _).link d = {}
    rw [setLink_other (by omega)]
    exact inv.wired.links d (by omega)
  · change ((s.setLink s.nextLink _).link (s.channel q)).owner = some q
    rw [setLink_owner owner]
    exact inv.wired.served q h there
  · change ((s.setLink s.nextLink _).link d).owner = some q at is
    rw [setLink_owner owner] at is
    exact inv.wired.owner d q is
  · rw [forks] at mem
    change ((s.setLink s.nextLink _).link e).owner = none ∧
      ((s.setLink s.nextLink _).link e).parent = some d
    have ne : e ≠ s.nextLink := by
      rintro rfl
      exact forks_fresh inv.wired d mem
    rw [setLink_other ne]
    exact inv.wired.forks d e mem
  · rw [forks]
    exact inv.wired.nodup d
  · change ((s.setLink s.nextLink _).link d).Paired ((s.setLink s.nextLink _).mode d)
      ((s.setLink s.nextLink _).cur d)
    rw [setLink_mode owner, setLink_cur owner]
    by_cases is : d = s.nextLink
    · subst is
      rw [setLink_self]
      have unused : s.mode s.nextLink = none ∧ s.cur s.nextLink = none := by
        rw [mode, cur, empty]
        exact ⟨rfl, rfl⟩
      rw [unused.1, unused.2]
      exact Link.paired_unused (fun _ => rfl) (fun _ => rfl) rfl (.inl rfl)
    · rw [setLink_other is]
      exact inv.paired d

theorem control?_frame (q : Request) (address : Nat) :
    (s.frame q address).control? = if q = .fork then some s.nextLink else none := by
  cases q <;> rfl

theorem Inv.ask (inv : s.Inv) (idle : (s.link c).handle = .idle) {id : Nat} {frame : Frame}
    (none : frame.control? = none) : (s.setLink c { s.link c with
      handle := .asked id frame
      requests := (s.link c).requests ++ [(id, frame)] }).Inv := by
  refine inv.setLink rfl (ne_empty (by simp [idle])) rfl ?_ ((inv.paired c).ask idle id frame)
  rw [List.filterMap_append]
  simp [none]

theorem Inv.askFork (inv : s.Inv) (idle : (s.link c).handle = .idle) (id : Nat) {frame : Frame} {d : Nat}
    (control : frame.control? = some d) (unowned : (s.link d).owner = none)
    (parent : (s.link d).parent = some c) (new : d ∉ s.forks c) :
    (s.setLink c { s.link c with
      handle := .asked id frame
      requests := (s.link c).requests ++ [(id, frame)] }).Inv := by
  refine inv.setLinkForks rfl (ne_empty (by simp [idle])) rfl [d] ?_ ?_ ?_ (by simp) ((inv.paired c).ask idle id frame)
  · rw [List.filterMap_append]
    simp [control]
  · intro e mem
    rw [List.mem_singleton.mp mem]
    exact ⟨unowned, parent⟩
  · intro e mem
    rw [List.mem_singleton.mp mem]
    exact new

theorem Inv.setId (inv : s.Inv) (id : Nat) : ({ s with nextId := id } : State).Inv :=
  ⟨⟨inv.wired.pids, inv.wired.links, inv.wired.served, inv.wired.owner, inv.wired.forks,
    inv.wired.nodup⟩, inv.paired⟩

theorem Inv.request (inv : s.Inv) (idle : (s.link c).handle = .idle) (q : Request) (address : Nat) :
    (s.request c q address).Inv := by
  unfold State.request
  dsimp only
  split
  next fork =>
    have control : (s.frame q address).control? = some s.nextLink := by
      rw [control?_frame, if_pos fork]
    have ne : c ≠ s.nextLink := by
      rintro rfl
      rw [inv.wired.links _ (Nat.le_refl _)] at idle
      cases idle
    have reserved := inv.reserve c
    have asked := (reserved.setId (s.nextId + 1)).askFork (c := c) (by
        change ((s.setLink s.nextLink _).link c).handle = .idle
        rw [setLink_other ne]
        exact idle) s.nextId control (by
        change ((s.setLink s.nextLink _).link s.nextLink).owner = none
        rw [setLink_self]) (by
        change ((s.setLink s.nextLink _).link s.nextLink).parent = some c
        rw [setLink_self]) ?_
    · have same : update (update s.link s.nextLink
          { handle := .reserved, parent := some c }) c
            { s.link c with
              handle := .asked s.nextId (s.frame q address)
              requests := (s.link c).requests ++ [(s.nextId, s.frame q address)] } =
          update (update s.link c
            { s.link c with
              handle := .asked s.nextId (s.frame q address)
              requests := (s.link c).requests ++ [(s.nextId, s.frame q address)] }) s.nextLink
            { handle := .reserved, parent := some c } := update_comm ne.symm ..
      have here : (s.setLink s.nextLink { handle := .reserved, parent := some c }).link c = s.link c :=
        setLink_other ne
      change ({ s with
        nextId := s.nextId + 1
        nextLink := s.nextLink + 1
        link := update (update s.link s.nextLink _) c
          { (s.setLink s.nextLink { handle := .reserved, parent := some c }).link c with
            handle := .asked s.nextId (s.frame q address)
            requests := ((s.setLink s.nextLink
              { handle := .reserved, parent := some c }).link c).requests ++
                [(s.nextId, s.frame q address)] } } : State).Inv at asked
      rw [here, same] at asked
      exact asked
    · change s.nextLink ∉ (s.setLink s.nextLink _).forks c
      rw [State.forks, setLink_handled (by rw [inv.wired.links _ (Nat.le_refl _)]), setLink_other ne]
      exact forks_fresh inv.wired c
  next other =>
    refine (inv.setId (s.nextId + 1)).ask (c := c) idle ?_
    rw [control?_frame, if_neg other]

end Manager

section Hosts

/-! A step of the host `p`, and the birth of a clone. -/

def moveHost (s : State) (p : Nat) (h : Host) (cur : Option Nat) (l : Link) : State :=
  { s with
    hosts := { s.hosts with host := update s.hosts.host p (some h) }
    current := update s.current p cur }.setLink (s.channel p) l

def bear (s : State) (d : Nat) (l : Link) (h : Host) : State :=
  { s.setLink d l with
    hosts := { host := update s.hosts.host s.hosts.next (some h), next := s.hosts.next + 1 }
    channel := update s.channel s.hosts.next d
    current := update s.current s.hosts.next none }

def nextCurrent (s : State) (p : Nat) (h h' : Host) (read : Option Nat) : Option Nat :=
  match h'.stage.mode with
  | .request => if h.stage.mode = .idle then read else s.current p
  | _ => none

theorem deliver_eq (h : Host) (effect : Effect) (read : Option Nat) :
    let frames := effect.sent.map (tagged (s.current p) read)
    let l := s.link (s.channel p)
    let moved := s.moveHost p effect.host (s.nextCurrent p h effect.host read)
      { l with replies := l.replies ++ frames, sent := l.sent ++ frames.map Prod.snd }
    s.deliver p h effect read = match effect.child with
      | none => moved
      | some (d, child) => moved.bear d { moved.link d with owner := some s.hosts.next } child := by
  unfold State.deliver Family.take
  cases effect.child <;> rfl

variable {h' : Host} {cur' : Option Nat} {l : Link}

theorem moveHost_owner (owner : l.owner = (s.link (s.channel p)).owner) (d : Nat) :
    ((s.moveHost p h' cur' l).link d).owner = (s.link d).owner := by
  by_cases is : d = s.channel p
  · subst is
    rw [moveHost, setLink_self, owner]
  · rw [moveHost, setLink_other is]

section Moved

variable (wired : s.Wired) {h : Host} (there : s.hosts.host p = some h)
  (owner : l.owner = (s.link (s.channel p)).owner)

include wired there owner

theorem moveHost_other {d : Nat} (ne : d ≠ s.channel p) :
    (s.moveHost p h' cur' l).mode d = s.mode d ∧ (s.moveHost p h' cur' l).cur d = s.cur d ∧
      (s.moveHost p h' cur' l).handled d = s.handled d := by
  rw [mode, mode, State.cur, State.cur, handled, handled, moveHost_owner owner]
  cases is : (s.link d).owner with
  | none => exact ⟨rfl, rfl, rfl⟩
  | some q =>
    have other : q ≠ p := by
      rintro rfl
      exact ne (wired.owner d q is).1.symm
    have host : (s.moveHost p h' cur' l).hosts.host q = s.hosts.host q :=
      update_of_ne other ..
    have current : (s.moveHost p h' cur' l).current q = s.current q :=
      update_of_ne other ..
    simp only [Option.bind_some, host, current]
    exact ⟨trivial, trivial, trivial⟩

theorem moveHost_self : (s.moveHost p h' cur' l).mode (s.channel p) = some h'.stage.mode ∧
    (s.moveHost p h' cur' l).cur (s.channel p) = cur' ∧
      (s.moveHost p h' cur' l).handled (s.channel p) = h'.stage.frame?.bind Frame.control? := by
  rw [mode, State.cur, handled, moveHost_owner owner, wired.served p h there]
  have host : (s.moveHost p h' cur' l).hosts.host p = some h' := update_self ..
  have current : (s.moveHost p h' cur' l).current p = cur' := update_self ..
  simp only [Option.bind_some, host, current, Option.map_some]
  exact ⟨trivial, trivial, trivial⟩

theorem forks_moveHost (d : Nat) : (s.moveHost p h' cur' l).forks d =
    if d = s.channel p then
      (h'.stage.frame?.bind Frame.control?).toList ++ l.requests.filterMap fun q => q.2.control?
    else s.forks d := by
  by_cases is : d = s.channel p
  · subst is
    rw [if_pos rfl, State.forks, (moveHost_self wired there owner).2.2, moveHost, setLink_self]
  · rw [if_neg is, State.forks, State.forks, (moveHost_other wired there owner is).2.2, moveHost,
      setLink_other is]

end Moved

theorem Inv.moveHost (inv : s.Inv) {h : Host} (there : s.hosts.host p = some h)
    (owner : l.owner = (s.link (s.channel p)).owner) (parent : l.parent = (s.link (s.channel p)).parent)
    (forks : ((h'.stage.frame?.bind Frame.control?).toList ++
      l.requests.filterMap fun q => q.2.control?).Sublist (s.forks (s.channel p)))
    (paired : l.Paired (some h'.stage.mode) cur') : (s.moveHost p h' cur' l).Inv := by
  have wired := inv.wired
  have owners (d : Nat) : ((s.moveHost p h' cur' l).link d).owner = (s.link d).owner :=
    moveHost_owner owner d
  have parents (d : Nat) : ((s.moveHost p h' cur' l).link d).parent = (s.link d).parent := by
    by_cases is : d = s.channel p
    · subst is
      rw [State.moveHost, setLink_self, parent]
    · rw [State.moveHost, setLink_other is]
  have sublist (d : Nat) : ((s.moveHost p h' cur' l).forks d).Sublist (s.forks d) := by
    rw [forks_moveHost wired there owner]
    split
    next is =>
      rw [is]
      exact forks
    · exact List.Sublist.refl _
  have used : s.link (s.channel p) ≠ {} := by
    intro is
    have := wired.served p h there
    rw [is] at this
    cases this
  refine ⟨⟨fun q le => ?_, fun d le => ?_, fun q g at_ => ?_, fun d q is => ?_, fun d e mem => ?_,
    fun d => ?_⟩, fun d => ?_⟩
  · change s.hosts.next ≤ q at le
    change update s.hosts.host p (some h') q = none
    have below := wired.pid_lt there
    rw [update_of_ne (by omega)]
    exact wired.pids q le
  · have below := wired.lt_of_ne used
    change s.nextLink ≤ d at le
    rw [State.moveHost, setLink_other (by omega)]
    exact wired.links d le
  · rw [owners]
    by_cases is : q = p
    · subst is
      exact wired.served q h there
    · change update s.hosts.host p (some h') q = some g at at_
      rw [update_of_ne is] at at_
      exact wired.served q g at_
  · rw [owners] at is
    obtain ⟨channel, alive⟩ := wired.owner d q is
    refine ⟨channel, ?_⟩
    change (update s.hosts.host p (some h') q).isSome = true
    by_cases same : q = p
    · subst same
      rw [update_self]
      rfl
    · rwa [update_of_ne same]
  · rw [owners, parents]
    exact wired.forks d e ((sublist d).subset mem)
  · exact (wired.nodup d).sublist (sublist d)
  · by_cases is : d = s.channel p
    · subst is
      rw [(moveHost_self wired there owner).1, (moveHost_self wired there owner).2.1, State.moveHost,
        setLink_self]
      exact paired
    · rw [(moveHost_other wired there owner is).1, (moveHost_other wired there owner is).2.1,
        State.moveHost, setLink_other is]
      exact inv.paired d

theorem Inv.bear (inv : s.Inv) {d : Nat} (below : d < s.nextLink) (unowned : (s.link d).owner = none)
    (new : ∀ e, d ∉ s.forks e) (owner : l.owner = some s.hosts.next)
    (requests : l.requests = (s.link d).requests) (unread : h'.stage.frame? = none)
    (paired : l.Paired (some h'.stage.mode) none) : (s.bear d l h').Inv := by
  have wired := inv.wired
  have self : (s.bear d l h').link d = l := setLink_self
  have other {e : Nat} (ne : e ≠ d) : (s.bear d l h').link e = s.link e := setLink_other ne
  have pid {e q : Nat} (is : (s.link e).owner = some q) : q ≠ s.hosts.next := by
    rintro rfl
    have := (wired.owner e _ is).2
    rw [wired.pids _ (Nat.le_refl _)] at this
    cases this
  have host {q : Nat} (ne : q ≠ s.hosts.next) : (s.bear d l h').hosts.host q = s.hosts.host q :=
    update_of_ne ne ..
  have born : (s.bear d l h').hosts.host s.hosts.next = some h' := update_self ..
  have views {e : Nat} (ne : e ≠ d) : (s.bear d l h').mode e = s.mode e ∧ (s.bear d l h').cur e = s.cur e ∧
      (s.bear d l h').handled e = s.handled e := by
    rw [mode, mode, State.cur, State.cur, handled, handled, other ne]
    cases is : (s.link e).owner with
    | none => exact ⟨rfl, rfl, rfl⟩
    | some q =>
      have current : (s.bear d l h').current q = s.current q := update_of_ne (pid is) ..
      simp only [Option.bind_some, host (pid is), current]
      exact ⟨trivial, trivial, trivial⟩
  have view : (s.bear d l h').mode d = some h'.stage.mode ∧ (s.bear d l h').cur d = none ∧
      (s.bear d l h').handled d = none := by
    have current : (s.bear d l h').current s.hosts.next = none := update_self ..
    rw [mode, State.cur, handled, self, owner]
    simp only [Option.bind_some, born, current, unread, Option.map_some, Option.bind_none]
    exact ⟨trivial, trivial, trivial⟩
  have forks (e : Nat) : (s.bear d l h').forks e = s.forks e := by
    rw [State.forks, State.forks]
    by_cases is : e = d
    · subst is
      rw [view.2.2, self, handled, unowned, requests]
      rfl
    · rw [(views is).2.2, other is]
  refine ⟨⟨fun q le => ?_, fun e le => ?_, fun q g at_ => ?_, fun e q is => ?_, fun e f mem => ?_,
    fun e => ?_⟩, fun e => ?_⟩
  · change s.hosts.next + 1 ≤ q at le
    rw [host (by omega)]
    exact wired.pids q (by omega)
  · change s.nextLink ≤ e at le
    rw [other (by omega)]
    exact wired.links e le
  · by_cases is : q = s.hosts.next
    · subst is
      rw [show (s.bear d l h').channel s.hosts.next = d from update_self .., self, owner]
    · rw [host is] at at_
      have served := wired.served q g at_
      have channel : (s.bear d l h').channel q = s.channel q := update_of_ne is ..
      have ne : s.channel q ≠ d := by
        intro same
        rw [same, unowned] at served
        cases served
      rw [channel, other ne]
      exact served
  · by_cases same : e = d
    · subst same
      rw [self, owner] at is
      cases is
      exact ⟨update_self .., by rw [born]; rfl⟩
    · rw [other same] at is
      obtain ⟨channel, alive⟩ := wired.owner e q is
      exact ⟨(update_of_ne (pid is) ..).trans channel, by rwa [host (pid is)]⟩
  · rw [forks] at mem
    have ne : f ≠ d := by
      rintro rfl
      exact new e mem
    rw [other ne]
    exact wired.forks e f mem
  · rw [forks]
    exact wired.nodup e
  · by_cases is : e = d
    · subst is
      rw [view.1, view.2.1, self]
      exact paired
    · rw [(views is).1, (views is).2.1, other is]
      exact inv.paired e

theorem deliver_setLink (h h' : Host) (sent : List Sent) (read : Option Nat) (l : Link) :
    (s.setLink (s.channel p) l).deliver p h { host := h', sent := sent } read =
      s.moveHost p h' (s.nextCurrent p h h' read)
        { l with
          replies := l.replies ++ sent.map (tagged (s.current p) read)
          sent := l.sent ++ (sent.map (tagged (s.current p) read)).map Prod.snd } := by
  rw [deliver_eq]
  dsimp only
  rw [show (s.setLink (s.channel p) l).link ((s.setLink (s.channel p) l).channel p) = l from setLink_self]
  unfold State.moveHost State.setLink
  dsimp only
  rw [update_idem]
  rfl

theorem act_cases {a : Act} {t : State} (next : s.act p a = some t) :
    ∃ h effect, s.hosts.host p = some h ∧ Turn h s.hosts.next a effect ∧
      ((∃ frame id rest, a = .recv (some frame) ∧ (s.link (s.channel p)).requests = (id, frame) :: rest ∧
          t = (s.setLink (s.channel p) { s.link (s.channel p) with requests := rest }).deliver p h effect
            (some id)) ∨
        ((∀ frame, a ≠ .recv (some frame)) ∧ t = s.deliver p h effect none)) := by
  unfold State.act at next
  obtain ⟨h, there, next⟩ := Option.bind_eq_some_iff.mp next
  obtain ⟨effect, step, next⟩ := Option.bind_eq_some_iff.mp next
  refine ⟨h, effect, there, Host.turn_of_step step, ?_⟩
  dsimp only at next
  split at next
  · split at next
    next id first rest is =>
      obtain ⟨same, ⟨⟩⟩ := guarded next
      cases same
      exact .inl ⟨_, id, rest, rfl, is, rfl⟩
    next => cases next
  · split at next <;> cases next
    exact .inr ⟨fun _ => nofun, rfl⟩
  next other _ =>
    cases next
    exact .inr ⟨fun frame is => other frame is, rfl⟩

section Acts

variable {h : Host} (inv : s.Inv) (there : s.hosts.host p = some h)

include inv there

theorem Inv.paired_at : (s.link (s.channel p)).Paired (some h.stage.mode) (s.current p) := by
  have paired := inv.paired (s.channel p)
  rw [mode, State.cur, inv.wired.served p h there] at paired
  simpa only [Option.bind_some, there, Option.map_some] using paired

theorem Inv.forks_at : s.forks (s.channel p) = (h.stage.frame?.bind Frame.control?).toList ++
    (s.link (s.channel p)).requests.filterMap fun q => q.2.control? := by
  rw [State.forks, handled, inv.wired.served p h there]
  simp only [Option.bind_some, there]

theorem Inv.deliver (sent : List Sent) (read : h'.stage = h.stage ∨ h'.stage.frame? = none)
    (paired : let l := s.link (s.channel p)
      ({ l with
        replies := l.replies ++ sent.map (tagged (s.current p) none)
        sent := l.sent ++ (sent.map (tagged (s.current p) none)).map Prod.snd } : Link).Paired
          (some h'.stage.mode) (s.nextCurrent p h h' none)) :
    (s.deliver p h { host := h', sent := sent } none).Inv := by
  rw [deliver_eq]
  refine inv.moveHost there rfl rfl ?_ paired
  rw [inv.forks_at there]
  obtain same | none := read
  · simp [same]
  · rw [none]
    exact List.sublist_append_right ..

theorem Inv.deliverRead {id : Nat} {frame : Frame} {rest : List (Nat × Frame)}
    (is : (s.link (s.channel p)).requests = (id, frame) :: rest) (sent : List Sent)
    (read : (h.stage.frame? = none ∧ h'.stage.frame? = some frame) ∨ h'.stage.frame? = none)
    (paired : let l := s.link (s.channel p)
      ({ l with
        requests := rest
        replies := l.replies ++ sent.map (tagged (s.current p) (some id))
        sent := l.sent ++ (sent.map (tagged (s.current p) (some id))).map Prod.snd } : Link).Paired
          (some h'.stage.mode) (s.nextCurrent p h h' (some id))) :
    ((s.setLink (s.channel p) { s.link (s.channel p) with requests := rest }).deliver p h
      { host := h', sent := sent } (some id)).Inv := by
  rw [deliver_setLink]
  refine inv.moveHost there rfl rfl ?_ paired
  rw [inv.forks_at there, is]
  obtain ⟨before, after⟩ | none := read
  · rw [before, after, List.filterMap_cons]
    cases control : frame.control? <;> simp [control]
  · rw [none]
    exact ((List.sublist_cons_self ..).filterMap _).trans (List.sublist_append_right ..)

end Acts

section Current

variable {h : Host} {read : Option Nat}

theorem nextCurrent_none (mode : h'.stage.mode ≠ .request) : s.nextCurrent p h h' read = none := by
  unfold nextCurrent
  split
  next is => exact absurd is mode
  next => rfl

theorem nextCurrent_same (mode : h'.stage.mode = .request) (before : h.stage.mode ≠ .idle) :
    s.nextCurrent p h h' read = s.current p := by
  rw [nextCurrent, mode]
  exact if_neg before

theorem nextCurrent_read (mode : h'.stage.mode = .request) (before : h.stage.mode = .idle) :
    s.nextCurrent p h h' read = read := by
  rw [nextCurrent, mode]
  exact if_pos before

end Current

theorem Inv.actRead (inv : s.Inv) {h : Host} (there : s.hosts.host p = some h) {frame : Frame}
    {effect : Effect} (turn : Turn h s.hosts.next (.recv (some frame)) effect) {id : Nat}
    {rest : List (Nat × Frame)} (is : (s.link (s.channel p)).requests = (id, frame) :: rest) :
    ((s.setLink (s.channel p) { s.link (s.channel p) with requests := rest }).deliver p h effect
      (some id)).Inv := by
  have paired := inv.paired_at there
  cases turn with
  | take before after =>
    have mode : Stage.mode (.handling frame) = .request := rfl
    rw [← after] at mode
    have early : h.stage.frame? = none := by
      cases stage : h.stage with
      | handling =>
        rw [stage] at before
        cases before
      | _ => rfl
    refine inv.deliverRead there is [] (.inl ⟨early, by rw [after]; rfl⟩) ?_
    rw [before] at paired
    rw [nextCurrent_read mode before, mode]
    simpa using paired.take is
  | @stop _ host after =>
    have late : host.stage.frame? = none := by
      cases stage : host.stage with
      | handling =>
        rw [stage] at after
        cases after
      | _ => rfl
    refine inv.deliverRead there is [] (.inr late) ?_
    rw [nextCurrent_none (by simp [after]), after]
    simpa using paired.stop rest
  | refuse text before after late =>
    refine inv.deliverRead there is [.refusal (.error text)] (.inr late) ?_
    rw [before] at paired
    rw [nextCurrent_same after (by simp [before]), after]
    exact paired.refuse is text
  | quiet nothing | answer _ nothing | reap _ _ nothing | guest _ nothing | announce _ _ nothing
  | fail _ nothing => exact absurd rfl (nothing frame)

theorem Inv.actFork (inv : s.Inv) {h host child : Host} (there : s.hosts.host p = some h) {frame : Frame}
    {control listener : Nat} (before : h.stage = .handling frame)
    (fds : frame.message = .fork ∧ frame.fds = [control, listener]) (after : host.stage.mode = .idle)
    (young : child.stage = .rebuilding listener) :
    (s.deliver p h { host, sent := [.answer (.forked s.hosts.next listener)], child := some (control, child) }
      none).Inv := by
  have paired := inv.paired_at there
  have mode : h.stage.mode = .request := by
    rw [before]
    rfl
  have late : host.stage.frame? = none := by
    cases stage : host.stage with
    | handling =>
      rw [stage] at after
      cases after
    | _ => rfl
  have named : frame.control? = some control := by rw [Frame.control?, fds.1, fds.2]
  have forks := inv.forks_at there
  rw [before] at forks
  have handled : s.forks (s.channel p) = control ::
      (s.link (s.channel p)).requests.filterMap fun q => q.2.control? := by
    rw [forks]
    simp [Stage.frame?, named]
  have first : control ∈ s.forks (s.channel p) := by
    rw [handled]
    exact List.mem_cons_self
  obtain ⟨unowned, parent⟩ := inv.wired.forks _ _ first
  have ne : control ≠ s.channel p := by
    rintro rfl
    rw [inv.wired.served p h there] at unowned
    cases unowned
  rw [deliver_eq]
  dsimp only
  have below : control < s.nextLink := by
    refine inv.wired.lt_of_ne fun is => ?_
    rw [is] at parent
    cases parent
  refine Inv.bear ?_ below ?_ (fun e mem => ?_) rfl rfl (by rw [young]; rfl) ?_
  · refine inv.moveHost there rfl rfl ?_ ?_
    · rw [late, handled]
      exact List.sublist_cons_self ..
    · rw [mode] at paired
      rw [nextCurrent_none (by simp [after])]
      exact paired.answer rfl (.inl after)
  · rw [State.moveHost, setLink_other ne]
    exact unowned
  · rw [forks_moveHost inv.wired there] at mem
    · by_cases is : e = s.channel p
      · rw [if_pos is, late] at mem
        have nodup := inv.wired.nodup (s.channel p)
        rw [handled] at nodup
        exact (List.nodup_cons.mp nodup).1 mem
      · rw [if_neg is] at mem
        have other := (inv.wired.forks e control mem).2
        rw [parent] at other
        exact is (Option.some.inj other).symm
    · rfl
  · have reserved := inv.paired control
    have none : s.mode control = none := by
      rw [State.mode, unowned]
      rfl
    rw [none] at reserved
    rw [State.moveHost, setLink_other ne, young]
    exact reserved.birth (by rw [parent]; rfl) _

theorem Inv.act (inv : s.Inv) {a : Act} {t : State} (next : s.act p a = some t) : t.Inv := by
  obtain ⟨h, effect, there, turn, ⟨frame, id, rest, rfl, is, rfl⟩ | ⟨nothing, rfl⟩⟩ := act_cases next
  · exact inv.actRead there turn is
  have paired := inv.paired_at there
  have idle {host : Host} (mode : host.stage.mode = .idle ∨ host.stage.mode = .ended) :
      host.stage.frame? = none := by
    cases stage : host.stage with
    | handling =>
      rw [stage] at mode
      obtain is | is := mode <;> cases is
    | _ => rfl
  cases turn with
  | @quiet _ host _ mode read =>
    refine inv.deliver there [] read ?_
    obtain same | ended := mode
    · by_cases request : host.stage.mode = .request
      · rw [nextCurrent_same request (by rw [← same, request]; simp), same]
        simpa using paired
      · have none : s.current p = none := by
          rw [← Option.not_isSome_iff_eq_none, paired.at_, ← same]
          simpa using request
        rw [nextCurrent_none request, same]
        rw [none] at paired
        simpa using paired
    · rw [nextCurrent_none (by simp [ended]), ended]
      simpa using paired.ended
  | take => exact absurd rfl (nothing _)
  | stop => exact absurd rfl (nothing _)
  | refuse => exact absurd rfl (nothing _)
  | answer r _ own before after =>
    refine inv.deliver there [.answer r] (.inr (idle after)) ?_
    rw [before] at paired
    rw [nextCurrent_none (by obtain is | is := after <;> simp [is])]
    exact paired.answer own after
  | fork before fds after young => exact inv.actFork there before fds after young
  | @reap _ host status pid _ same before =>
    refine inv.deliver there [.event (.exited .child status (some pid))] (.inl same) ?_
    have at_ : some h.stage.mode = some .idle ∨ some h.stage.mode = some .request :=
      before.imp (congrArg some) (congrArg some)
    have event := paired.event at_ status (some pid)
    rw [same]
    obtain is | is := before
    · have none : s.current p = none := by
        rw [← Option.not_isSome_iff_eq_none, paired.at_, is]
        simp
      rw [none] at event
      rw [nextCurrent_none (by rw [same, is]; simp)]
      exact event
    · rw [nextCurrent_same (by rw [same, is]) (by simp [is])]
      exact event
  | guest status _ before after =>
    refine inv.deliver there [.event (.exited .guest status none)] (.inr (idle (.inr after))) ?_
    rw [nextCurrent_none (by simp [after]), after]
    exact paired.guestExit (before.imp (congrArg some) (congrArg some)) status
  | announce pid endpoint _ before after =>
    refine inv.deliver there [.announcement (.forked pid endpoint)] (.inr (idle (.inl after))) ?_
    rw [before] at paired
    rw [nextCurrent_none (by simp [after])]
    exact paired.announce rfl rfl (.inl after)
  | fail text _ before after =>
    refine inv.deliver there [.announcement (.error text)] (.inr (idle (.inr after))) ?_
    rw [before] at paired
    rw [nextCurrent_none (by simp [after])]
    exact paired.announce rfl rfl (.inr after)

end Hosts

theorem Inv.spawn (inv : s.Inv) (manifest : Manifest) : (s.spawn manifest).Inv := by
  have wired := inv.wired
  have empty := wired.links s.nextLink (Nat.le_refl _)
  have roomy : ({ s with nextLink := s.nextLink + 1 } : State).Inv :=
    ⟨⟨wired.pids, fun c le => wired.links c (Nat.le_of_succ_le le), wired.served, wired.owner,
      wired.forks, wired.nodup⟩, inv.paired⟩
  refine roomy.bear (d := s.nextLink) (Nat.lt_succ_self _) ?_ (forks_fresh wired) rfl ?_ rfl
    (Link.paired_unused (fun is => nomatch is) (fun is => nomatch is) rfl (.inr ⟨rfl, rfl⟩))
  · rw [empty]
  · rw [empty]

theorem Inv.step (inv : s.Inv) {e : Event} {t : State} (next : s.step e = some t) : t.Inv := by
  cases e with
  | spawn manifest =>
    cases next
    exact inv.spawn manifest
  | act p a => exact inv.act next
  | request c q address =>
    simp only [State.step] at next
    split at next <;> cases next
    next guard => exact inv.request guard.1 q address
  | reply c => exact inv.reply next
  | closed c =>
    obtain ⟨guard, next⟩ := guarded next
    refine inv.giveUp (fun id frame asked => ?_) next
    refine (inv.paired c).closed asked guard.1 fun live => ?_
    exact guard.2.elim live.1 live.2
  | fails c =>
    exact inv.giveUp (fun _ _ _ => (inv.paired c).letGo fun none => ((inv.paired c).unowned none).1) next
  | readEvent c =>
    obtain ⟨idle, next⟩ := guarded next
    obtain ⟨l, read, rfl⟩ := Option.map_eq_some_iff.mp next
    have paired := (inv.paired c).readEvent idle read
    unfold Link.readEvent at read
    split at read <;> cases read
    exact inv.setLink rfl (ne_empty (by simp [idle])) rfl rfl paired
  | waitExit c =>
    obtain ⟨idle, next⟩ := guarded next
    obtain ⟨l, read, rfl⟩ := Option.map_eq_some_iff.mp next
    have paired := (inv.paired c).waitExit idle read
    unfold Link.waitExit at read
    split at read <;> cases read
    exact inv.setLink rfl (ne_empty (by simp [idle])) rfl rfl paired
  | takeEvents c =>
    simp only [State.step] at next
    split at next <;> cases next
    next idle =>
      exact inv.setLink rfl (ne_empty (by simp [idle])) rfl rfl (inv.paired c).takeEvents
  | stop c =>
    simp only [State.step] at next
    split at next <;> cases next
    next idle =>
      refine (inv.setId (s.nextId + 1)).setLink (c := c) rfl (ne_empty (by simp [idle])) rfl ?_
        ((inv.paired c).letGo fun none => ?_)
      · rw [List.filterMap_append]
        exact List.append_nil _
      · have := ((inv.paired c).unowned none).2.2.2
        rw [idle] at this
        cases this
  | drop c =>
    simp only [State.step] at next
    split at next <;> cases next
    next idle =>
      exact inv.setLink rfl (ne_empty (by simp [idle])) rfl rfl
        ((inv.paired c).letGo fun none => ((inv.paired c).unowned none).1)

theorem inv_initial : State.Inv {} :=
  ⟨⟨fun _ _ => rfl, fun _ _ => rfl, fun _ _ there => (by cases there), fun _ _ is => (by cases is),
    fun _ _ mem => absurd mem List.not_mem_nil, fun _ => List.nodup_nil⟩,
    fun _ => Link.paired_unused (fun _ => rfl) (fun is => nomatch is) rfl (.inl rfl)⟩

theorem inv_reachable (h : control.Reachable s) : s.Inv := by
  refine System.ReachableBy.invariant (P := State.Inv) (fun s start => ?_) (fun s e t _ inv _ next => ?_) h
  · rw [show s = {} from start]
    exact inv_initial
  · exact inv.step next

end State

/-- On every channel in every reachable state: what a `request` returned is what the host sent for that
request; the exits of clones that were sent were read in that order or are still on their way, and those
that `reply` and `wait_exit` read are in `events`, or were taken from there, once and in that order; and
the first frame on a clone's channel is `forked` or `error`. -/
theorem replies_answer_requests {s : State} (h : control.Reachable s) (c : Nat) :
    (∀ e ∈ (s.link c).returned, e.2.1 = some e.1) ∧
    ((s.link c).sent.filter Reply.isChild = (s.link c).arrived.map Prod.fst ++
        ((s.link c).replies.map Prod.snd).filter Reply.isChild ∧
      (s.link c).taken ++ (s.link c).events = ((s.link c).arrived.filter Prod.snd).map Prod.fst) ∧
    ((s.link c).parent.isSome = true → ∀ r, (s.link c).sent.head? = some r →
      (∃ pid endpoint, r = .forked pid endpoint) ∨ ∃ text, r = .error text) := by
  have paired := (State.inv_reachable h).paired c
  refine ⟨paired.returned, ⟨paired.arrived, paired.kept⟩, fun parent r head => ?_⟩
  have announces := paired.first parent r head
  cases r with
  | forked pid endpoint => exact .inl ⟨pid, endpoint, rfl⟩
  | error text => exact .inr ⟨text, rfl⟩
  | _ => cases announces

def served (p : Nat) (frame : Frame) : List Event :=
  [.poll true, .tick, .reap, .recv (some frame), .handle none none].map (.act p)

/-- A host is started, frozen and forked twice. The first clone's exit comes before the answer to the
second fork, and stays in `events`. -/
theorem replies_answer_requests_forked : ∃ s, control.Reachable s ∧
    (s.link 0).returned.map Prod.fst = [0, 1, 2, 3] ∧ (s.link 0).events = [.exited .child 0 (some 1)] ∧
      (∀ e ∈ (s.link 0).returned, e.2.1 = some e.1) ∧
        ∀ r, (s.link 1).sent.head? = some r → (∃ pid endpoint, r = .forked pid endpoint) ∨ ∃ text, r = .error text := by
  obtain ⟨s, reach, ids, events, parent⟩ : ∃ s, control.Reachable s ∧
      (s.link 0).returned.map Prod.fst = [0, 1, 2, 3] ∧
        (s.link 0).events = [.exited .child 0 (some 1)] ∧ (s.link 1).parent.isSome = true :=
    System.exists_reachable_of_run (s := ({} : State))
      (l := [.spawn {}, .request 0 .start 80] ++ served 0 ⟨.start, [80]⟩ ++
        [Act.bind true, .listen, .poll false, .turn none none].map (.act 0) ++
        [.reply 0, .request 0 .freeze 0] ++ served 0 ⟨.freeze, []⟩ ++
        [.act 0 (.froze (.ok 3)), .reply 0, .request 0 .fork 81] ++ served 0 ⟨.fork, [1, 81]⟩ ++
        [.reply 0, .act 1 (.rebuild fun _ => none), .act 1 (.announce none), .reply 1,
          .act 0 (.childExits 1 0), .request 0 .fork 82] ++
        [Act.poll true, .tick, .reap, .reap, .recv (some ⟨.fork, [2, 82]⟩), .handle none none].map (.act 0) ++
        [.reply 0, .reply 0])
      (.init rfl) (by decide +kernel)
  exact ⟨s, reach, ids, events, (replies_answer_requests reach 0).1,
    (replies_answer_requests reach 1).2.2 parent⟩

end ServiceCache.Control
