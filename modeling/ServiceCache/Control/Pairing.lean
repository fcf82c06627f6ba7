import ServiceCache.Control.Links

/-!
# Replies answer their own request

On each channel by itself: while the host lives, the request that the manager waits for is
in one place, on its way, at the host, or answered.
-/

namespace ServiceCache.Control

def Live (m : Option Mode) : Prop := m ≠ none ∧ m ≠ some .ended

def Reply.isExit : Reply → Bool
  | .exited .guest _ _ | .exited .child _ _ => true
  | _ => false

def Reply.isGuest : Reply → Bool
  | .exited .guest _ _ => true
  | _ => false

def Reply.announces : Reply → Bool
  | .forked _ _ | .error _ => true
  | _ => false

def Handle.pending : Handle → List Nat
  | .asked id _ => [id]
  | _ => []

def Handle.early : Handle → Bool
  | .reserved | .announcing => true
  | _ => false

def Handle.open : Handle → Bool
  | .idle | .asked _ _ => true
  | _ => false

namespace Link

def tags (l : Link) : List Nat := l.replies.filterMap Prod.fst

def ids (l : Link) : List Nat := l.requests.map Prod.fst

structure Paired (l : Link) (m : Option Mode) (cur : Option Nat) : Prop where
  returned : ∀ e ∈ l.returned, e.2.1 = some e.1
  kept : l.taken ++ l.events = (l.arrived.filter Prod.snd).map Prod.fst
  arrived : l.sent.filter Reply.isChild =
    l.arrived.map Prod.fst ++ (l.replies.map Prod.snd).filter Reply.isChild
  own : ∀ f ∈ l.replies, f.1.isSome = true → f.2.isChild = false
  at_ : cur.isSome = true ↔ m = some .request
  tags : l.handle ≠ .gone → l.tags <+: l.handle.pending
  balance : l.handle ≠ .gone → Live m → l.tags ++ cur.toList ++ l.ids = l.handle.pending
  guest : ∀ before f after, l.replies = before ++ f :: after → f.1 = none → f.2.isGuest = true →
    after = [] ∧ ¬ Live m
  plain : l.handle.open = true → ∀ f ∈ l.replies, f.1 = none → f.2.isExit = true
  early : l.handle.early = true → l.parent.isSome = true ∧ l.replies.map Prod.snd = l.sent ∧
    (∀ f ∈ l.replies, f.1 = none) ∧ ∀ f ∈ l.replies.tail, f.2.isExit = true
  first : l.parent.isSome = true → ∀ r, l.sent.head? = some r → r.announces = true
  young : m = some .young → l.sent = [] ∧ l.replies = [] ∧ l.parent.isSome = true ∧
    l.handle.open = false
  announced : l.parent.isSome = true → m = some .idle ∨ m = some .request → l.sent ≠ []
  unowned : m = none → l.requests = [] ∧ l.replies = [] ∧ l.sent = [] ∧ l.handle.open = false

variable {l : Link} {m : Option Mode} {cur : Option Nat}

theorem tags_send (f : Option Nat × Reply) :
    Link.tags { l with replies := l.replies ++ [f], sent := l.sent ++ [f.2] } =
      l.tags ++ f.1.toList := by
  simp only [Link.tags, List.filterMap_append]
  cases is : f.1 <;> simp [is]

theorem tags_cons {f : Option Nat × Reply} {rest : List (Option Nat × Reply)}
    (is : l.replies = f :: rest) : l.tags = f.1.toList ++ rest.filterMap Prod.fst := by
  rw [Link.tags, is]
  cases none : f.1 <;> simp [none]

section Frames

variable (paired : l.Paired m cur)

include paired

theorem Paired.send (live : Live m) {f : Option Nat × Reply} {m' : Option Mode} {cur' : Option Nat}
    (own : f.1.isSome = true → f.2.isChild = false) (at_ : cur'.isSome = true ↔ m' = some .request)
    (owned : m' ≠ none) (grown : m' ≠ some .young)
    (tags : l.handle ≠ .gone → l.tags ++ f.1.toList <+: l.handle.pending)
    (balance : l.handle ≠ .gone → Live m' →
      l.tags ++ f.1.toList ++ cur'.toList ++ l.ids = l.handle.pending)
    (guest : f.1 = none → f.2.isGuest = true → ¬ Live m')
    (plain : l.handle.open = true → f.1 = none → f.2.isExit = true)
    (early : l.handle.early = true → f.1 = none ∧ (l.sent ≠ [] → f.2.isExit = true))
    (first : l.parent.isSome = true → l.sent = [] → f.2.announces = true) :
    ({ l with replies := l.replies ++ [f], sent := l.sent ++ [f.2] } : Link).Paired m' cur' where
  returned := paired.returned
  kept := paired.kept
  arrived := by
    rw [List.filter_append, List.map_append, List.filter_append, paired.arrived, List.append_assoc]
    rfl
  own g mem tagged := by
    obtain old | new := List.mem_append.mp mem
    · exact paired.own g old tagged
    · rw [List.mem_singleton.mp new] at tagged ⊢
      exact own tagged
  at_ := at_
  tags here := by
    rw [tags_send]
    exact tags here
  balance here live := by
    rw [tags_send]
    exact balance here live
  guest before g after is untagged isGuest := by
    obtain rfl | ⟨init, x, rfl⟩ := List.eq_nil_or_concat after
    · have last : g = f := by
        have := congrArg List.getLast? is
        rw [List.getLast?_concat, List.getLast?_concat] at this
        exact (Option.some.inj this).symm
      rw [last] at untagged isGuest
      exact ⟨rfl, guest untagged isGuest⟩
    · have split : l.replies = before ++ g :: init := by
        rw [List.concat_eq_append, ← List.cons_append, ← List.append_assoc] at is
        exact (List.append_inj' is rfl).1
      exact absurd live (paired.guest before g init split untagged isGuest).2
  plain opened g mem untagged := by
    obtain old | new := List.mem_append.mp mem
    · exact paired.plain opened g old untagged
    · rw [List.mem_singleton.mp new] at untagged ⊢
      exact plain opened untagged
  early is := by
    obtain ⟨parent, sent, untagged, exits⟩ := paired.early is
    obtain ⟨none, later⟩ := early is
    refine ⟨parent, ?_, fun g mem => ?_, fun g mem => ?_⟩
    · rw [List.map_append, sent]
      rfl
    · obtain old | new := List.mem_append.mp mem
      · exact untagged g old
      · rw [List.mem_singleton.mp new]
        exact none
    · cases replies : l.replies with
      | nil =>
        rw [replies] at mem
        cases mem
      | cons head rest =>
        have more : l.sent ≠ [] := by
          rw [← sent, replies]
          simp
        rw [replies, List.cons_append, List.tail_cons] at mem
        rw [replies, List.tail_cons] at exits
        obtain old | new := List.mem_append.mp mem
        · exact exits g old
        · rw [List.mem_singleton.mp new]
          exact later more
  first parent r head := by
    cases sent : l.sent with
    | nil =>
      rw [sent] at head
      cases head
      exact first parent sent
    | cons x rest =>
      rw [sent] at head
      exact paired.first parent r (by rw [sent]; exact head)
  young is := absurd is grown
  announced _ _ none := by
    have := congrArg List.length none
    simp at this
  unowned is := absurd is owned

theorem Paired.one (here : l.handle ≠ .gone) (live : Live m) :
    (l.tags ++ cur.toList ++ l.ids).length ≤ 1 := by
  rw [paired.balance here live]
  cases l.handle <;> simp [Handle.pending]

theorem Paired.ended : l.Paired (some .ended) none :=
  { paired with
    at_ := by simp
    balance _ live := absurd rfl live.2
    guest before f after is untagged guest :=
      ⟨(paired.guest before f after is untagged guest).1, fun live => live.2 rfl⟩
    young is := by cases is
    announced _ is := by simp at is
    unowned is := by cases is }

theorem Paired.read {m' : Option Mode} {cur' : Option Nat} {rest : List (Nat × Frame)}
    (owned : m' ≠ none) (grown : m' ≠ some .young)
    (at_ : cur'.isSome = true ↔ m' = some .request)
    (announced : m' = some .idle ∨ m' = some .request → m = some .idle ∨ m = some .request)
    (live : Live m' → Live m)
    (balance : l.handle ≠ .gone → Live m' →
      l.tags ++ cur'.toList ++ rest.map Prod.fst = l.handle.pending) :
    ({ l with requests := rest } : Link).Paired m' cur' :=
  { paired with
    at_ := at_
    balance := balance
    guest before f after is untagged guest := by
      obtain ⟨last, dead⟩ := paired.guest before f after is untagged guest
      exact ⟨last, fun alive => dead (live alive)⟩
    young is := absurd is grown
    announced parent is := paired.announced parent (announced is)
    unowned is := absurd is owned }

end Frames

section Host

/-! The steps of the host. -/

theorem Paired.take (paired : l.Paired (some .idle) cur) {id : Nat} {f : Frame}
    {rest : List (Nat × Frame)} (is : l.requests = (id, f) :: rest) :
    ({ l with requests := rest } : Link).Paired (some .request) (some id) := by
  have none : cur = none := by
    have := paired.at_
    cases cur <;> simp_all
  refine paired.read (by simp) (by simp) (by simp) (fun _ => .inl rfl)
    (fun _ => by simp [Live]) fun here _ => ?_
  have all := paired.balance here (by simp [Live])
  rw [none, Link.ids, is] at all
  simpa using all

theorem Paired.stop (paired : l.Paired m cur) (rest : List (Nat × Frame)) :
    ({ l with requests := rest } : Link).Paired (some .ended) none :=
  paired.read (by simp) (by simp) (by simp) (by simp) (fun live => absurd rfl live.2)
    fun _ live => absurd rfl live.2

theorem Paired.busy (paired : l.Paired (some .request) cur) {id : Nat} {f : Frame}
    {rest : List (Nat × Frame)} (is : l.requests = (id, f) :: rest) : l.handle = .gone := by
  by_contra here
  have one := paired.one here (by simp [Live])
  obtain ⟨other, rfl⟩ := Option.isSome_iff_exists.mp (paired.at_.mpr rfl)
  rw [Link.ids, is] at one
  simp only [List.length_append, Option.toList_some, List.length_map, List.length_cons] at one
  omega

theorem Paired.refuse (paired : l.Paired (some .request) cur) {id : Nat} {f : Frame}
    {rest : List (Nat × Frame)} (is : l.requests = (id, f) :: rest) (text : String) :
    ({ l with
      requests := rest
      replies := l.replies ++ [(some id, .error text)]
      sent := l.sent ++ [.error text] } : Link).Paired (some .request) cur := by
  have gone := paired.busy is
  have read : ({ l with requests := rest } : Link).Paired (some .request) cur :=
    paired.read (by simp) (by simp) paired.at_ (fun is => is) (fun live => live) fun here _ =>
      absurd gone here
  refine read.send (f := (some id, .error text)) (by simp [Live]) (fun _ => rfl) paired.at_ (by simp)
    (by simp) (fun here => absurd gone here) (fun here _ => absurd gone here)
    (fun untagged => by cases untagged) (fun _ untagged => by cases untagged) (fun early => ?_)
    (fun _ _ => rfl)
  dsimp only at early
  rw [gone] at early
  cases early

theorem Paired.answer (paired : l.Paired (some .request) cur) {r : Reply} (own : r.isChild = false)
    {m' : Mode} (after : m' = .idle ∨ m' = .ended) :
    ({ l with replies := l.replies ++ [(cur, r)], sent := l.sent ++ [r] } : Link).Paired (some m')
      none := by
  have live : Live (some .request) := by simp [Live]
  obtain ⟨id, rfl⟩ := Option.isSome_iff_exists.mp (paired.at_.mpr rfl)
  have all (here : l.handle ≠ .gone) : l.tags ++ [id] ++ l.ids = l.handle.pending :=
    paired.balance here live
  refine paired.send (f := (some id, r)) live (fun _ => own) ?_ (by simp) ?_
    (fun here => ⟨l.ids, all here⟩) (fun here _ => by simpa using all here)
    (fun untagged => by cases untagged) (fun _ untagged => by cases untagged) (fun early => ?_)
    (fun parent none => absurd none (paired.announced parent (.inr rfl)))
  · obtain rfl | rfl := after <;> simp
  · obtain rfl | rfl := after <;> simp
  · have none : l.handle.pending = [] := by
      cases is : l.handle <;> simp_all [Handle.early, Handle.pending]
    have := all (by rintro gone; rw [gone] at early; cases early)
    rw [none] at this
    simp at this

theorem Paired.event (paired : l.Paired m cur) (at_ : m = some .idle ∨ m = some .request)
    (status : Int) (pid : Option Nat) :
    ({ l with
      replies := l.replies ++ [(none, .exited .child status pid)]
      sent := l.sent ++ [.exited .child status pid] } : Link).Paired m cur := by
  have live : Live m := by obtain rfl | rfl := at_ <;> simp [Live]
  refine paired.send (f := (none, .exited .child status pid)) live (fun tagged => by cases tagged)
    paired.at_ live.1 ?_ (fun here => by simpa using paired.tags here)
    (fun here live => by simpa using paired.balance here live) (fun _ guest => by cases guest)
    (fun _ _ => rfl) (fun _ => ⟨rfl, fun _ => rfl⟩)
    (fun parent none => absurd none (paired.announced parent at_))
  obtain rfl | rfl := at_ <;> simp

theorem Paired.guestExit (paired : l.Paired m cur) (at_ : m = some .idle ∨ m = some .request)
    (status : Int) :
    ({ l with
      replies := l.replies ++ [(none, .exited .guest status none)]
      sent := l.sent ++ [.exited .guest status none] } : Link).Paired (some .ended) none := by
  have live : Live m := by obtain rfl | rfl := at_ <;> simp [Live]
  exact paired.send (f := (none, .exited .guest status none)) live (fun tagged => by cases tagged)
    (by simp) (by simp) (by simp) (fun here => by simpa using paired.tags here)
    (fun _ live => absurd rfl live.2) (fun _ _ live => live.2 rfl) (fun _ _ => rfl)
    (fun _ => ⟨rfl, fun _ => rfl⟩) (fun parent none => absurd none (paired.announced parent at_))

theorem Paired.announce (paired : l.Paired (some .young) cur) {r : Reply} (announces : r.announces = true)
    (own : r.isChild = false) {m' : Mode} (after : m' = .idle ∨ m' = .ended) :
    ({ l with replies := l.replies ++ [(none, r)], sent := l.sent ++ [r] } : Link).Paired (some m')
      none := by
  obtain ⟨sent, -, -, shut⟩ := paired.young rfl
  have live : Live (some .young) := by simp [Live]
  have idle : cur = none := by
    have := paired.at_
    cases cur <;> simp_all
  refine paired.send (f := (none, r)) live (fun _ => own) ?_ (by simp) ?_
    (fun here => by simpa using paired.tags here) (fun here _ => ?_) (fun _ guest => ?_)
    (fun opened => by rw [shut] at opened; cases opened) (fun _ => ⟨rfl, fun more => absurd sent more⟩)
    (fun _ _ => announces)
  · obtain rfl | rfl := after <;> simp
  · obtain rfl | rfl := after <;> simp
  · have := paired.balance here live
    rw [idle] at this
    simpa using this
  · cases r with
    | exited run => cases run <;> cases announces
    | _ => cases guest

theorem Paired.birth (paired : l.Paired none cur) (parent : l.parent.isSome = true) (p : Nat) :
    ({ l with owner := some p } : Link).Paired (some .young) none := by
  obtain ⟨requests, replies, sent, shut⟩ := paired.unowned rfl
  have pending : l.handle.pending = [] := by
    cases is : l.handle <;> simp_all [Handle.open, Handle.pending]
  exact { paired with
    at_ := by simp
    balance := fun _ _ => by
      change l.tags ++ [] ++ l.ids = l.handle.pending
      rw [pending, Link.tags, Link.ids, requests, replies]
      rfl
    guest := fun before f after is => by
      rw [show l.replies = before ++ f :: after from is] at replies
      simp at replies
    young := fun _ => ⟨sent, replies, parent, shut⟩
    announced := fun _ is => by simp at is
    unowned := nofun }

end Host

section Manager

/-! The calls of the manager. -/

theorem Paired.ask (paired : l.Paired m cur) (idle : l.handle = .idle) (id : Nat) (f : Frame) :
    ({ l with handle := .asked id f, requests := l.requests ++ [(id, f)] } : Link).Paired m cur := by
  have here : l.handle ≠ .gone := by simp [idle]
  exact { paired with
    tags := fun _ => by
      have := paired.tags here
      rw [idle] at this
      change l.tags <+: [id]
      rw [List.prefix_nil.mp this]
      exact List.nil_prefix
    balance := fun _ live => by
      have := paired.balance here live
      rw [idle] at this
      simp only [Handle.pending, List.append_eq_nil_iff] at this
      change l.tags ++ cur.toList ++ (l.requests ++ [(id, f)]).map Prod.fst = [id]
      rw [List.map_append, show l.requests.map Prod.fst = [] from this.2, this.1.1, this.1.2]
      rfl
    plain := fun _ => paired.plain (by rw [idle]; rfl)
    early := nofun
    young := fun is => by
      have := (paired.young is).2.2.2
      rw [idle] at this
      cases this
    unowned := fun is => by
      have := (paired.unowned is).2.2.2
      rw [idle] at this
      cases this }

theorem Paired.letGo (paired : l.Paired m cur) {requests : List (Nat × Frame)}
    (unasked : m = none → requests = []) :
    ({ l with handle := .gone, requests := requests } : Link).Paired m cur :=
  { paired with
    tags here := absurd rfl here
    balance here := absurd rfl here
    plain is := by cases is
    early is := by cases is
    young is := ⟨(paired.young is).1, (paired.young is).2.1, (paired.young is).2.2.1, rfl⟩
    unowned is := ⟨unasked is, (paired.unowned is).2.1, (paired.unowned is).2.2.1, rfl⟩ }

theorem Paired.await (paired : l.Paired m cur) (reserved : l.handle = .reserved) :
    ({ l with handle := .announcing } : Link).Paired m cur :=
  { paired with
    tags _ := by
      have := paired.tags (by simp [reserved])
      rw [reserved] at this
      exact this
    balance _ live := by
      have := paired.balance (by simp [reserved]) live
      rw [reserved] at this
      exact this
    plain is := by cases is
    early _ := paired.early (by rw [reserved]; rfl)
    young is := ⟨(paired.young is).1, (paired.young is).2.1, (paired.young is).2.2.1, rfl⟩
    unowned is := ⟨(paired.unowned is).1, (paired.unowned is).2.1, (paired.unowned is).2.2.1, rfl⟩ }

theorem Paired.pop (paired : l.Paired m cur) {f : Option Nat × Reply}
    {rest : List (Option Nat × Reply)} (is : l.replies = f :: rest) {handle : Handle}
    {events : List Reply} {arrived : List (Reply × Bool)} {returned : List (Nat × Option Nat × Reply)}
    (late : handle.early = false) (returns : ∀ e ∈ returned, e.2.1 = some e.1)
    (kept : l.taken ++ events = (arrived.filter Prod.snd).map Prod.fst)
    (arrives : arrived.map Prod.fst = l.arrived.map Prod.fst ++ [f.2].filter Reply.isChild)
    (tags : handle ≠ .gone → rest.filterMap Prod.fst <+: handle.pending)
    (balance : handle ≠ .gone → Live m →
      rest.filterMap Prod.fst ++ cur.toList ++ l.ids = handle.pending)
    (plain : handle.open = true → ∀ g ∈ rest, g.1 = none → g.2.isExit = true) :
    ({ l with
      replies := rest
      handle := handle
      events := events
      arrived := arrived
      returned := returned } : Link).Paired m cur where
  returned := returns
  kept := kept
  arrived := by
    rw [arrives, paired.arrived, is, List.append_assoc, ← List.filter_append]
    rfl
  own g mem := paired.own g (by rw [is]; exact List.mem_cons_of_mem f mem)
  at_ := paired.at_
  tags := tags
  balance := balance
  guest before g after same :=
    paired.guest (f :: before) g after (by rw [is, show rest = _ from same]; rfl)
  plain := plain
  early early := by
    rw [show Handle.early _ = false from late] at early
    cases early
  first := paired.first
  young young := by
    have := (paired.young young).2.1
    rw [is] at this
    cases this
  announced := paired.announced
  unowned none := by
    have := (paired.unowned none).2.1
    rw [is] at this
    cases this

theorem Paired.answered (paired : l.Paired m cur) {id t : Nat} {frame : Frame} {r : Reply}
    {rest : List (Option Nat × Reply)} (asked : l.handle = .asked id frame)
    (is : l.replies = (some t, r) :: rest) :
    t = id ∧ rest.filterMap Prod.fst = [] ∧ (Live m → cur.toList = [] ∧ l.ids = []) := by
  have here : l.handle ≠ .gone := by simp [asked]
  have tags := tags_cons is
  have all := paired.tags here
  rw [asked, tags] at all
  have split : t = id ∧ rest.filterMap Prod.fst = [] := by
    simpa [Handle.pending, List.cons_prefix_cons] using all
  refine ⟨split.1, split.2, fun live => ?_⟩
  have balance := paired.balance here live
  rw [asked, tags, split.2] at balance
  simpa [Handle.pending, split.1] using balance

theorem Paired.front (paired : l.Paired m cur) {id : Nat} {frame : Frame} {tag : Option Nat} {r : Reply}
    {rest : List (Option Nat × Reply)} (asked : l.handle = .asked id frame)
    (is : l.replies = (tag, r) :: rest) (not : r.isChild = false) :
    (tag = some id ∨ r.isGuest = true) ∧ rest.filterMap Prod.fst = [] ∧
      (Live m → cur.toList = [] ∧ l.ids = []) := by
  cases tag with
  | some t =>
    obtain ⟨rfl, none, balance⟩ := paired.answered asked is
    exact ⟨.inl rfl, none, balance⟩
  | none =>
    have exit : r.isExit = true := paired.plain (by rw [asked]; rfl) (none, r) (by rw [is]; simp) rfl
    have guest : r.isGuest = true := by
      cases r with
      | exited run => cases run <;> simp_all [Reply.isExit, Reply.isChild, Reply.isGuest]
      | _ => cases exit
    obtain ⟨rfl, dead⟩ := paired.guest [] (none, r) rest is rfl guest
    exact ⟨.inr guest, rfl, fun live => absurd live dead⟩

theorem reply_cases {l' : Link} {got : Got} (read : l.reply = some (l', got)) :
    ∃ tag r rest, l.replies = (tag, r) :: rest ∧
      ((r.isChild = true ∧ got = .event ∧
          l' = { l with replies := rest, events := l.events ++ [r], arrived := l.arrived ++ [(r, true)] }) ∨
        (r.isChild = false ∧ got = .failed ∧ l' = { l with replies := rest }) ∨
        (r.isChild = false ∧ r.isGuest = false ∧ got = .reply tag r ∧ l' = { l with replies := rest })) := by
  unfold Link.reply at read
  split at read
  · cases read
  next tag r rest is =>
    refine ⟨tag, r, rest, is, ?_⟩
    cases r with
    | error text =>
      cases read
      exact .inr (.inl ⟨rfl, rfl, rfl⟩)
    | exited run status pid =>
      cases run with
      | guest =>
        cases read
        exact .inr (.inl ⟨rfl, rfl, rfl⟩)
      | child =>
        cases read
        exact .inl ⟨rfl, rfl, rfl⟩
      | prepare | initializer =>
        cases read
        exact .inr (.inr ⟨rfl, rfl, rfl, rfl⟩)
    | ready | frozen | forked =>
      cases read
      exact .inr (.inr ⟨rfl, rfl, rfl, rfl⟩)

theorem Paired.reply_asked (paired : l.Paired m cur) {id : Nat} {frame : Frame}
    (asked : l.handle = .asked id frame) {l' : Link} {got : Got} (read : l.reply = some (l', got)) :
    match got with
    | .event => l'.Paired m cur
    | .failed => ({ l' with handle := .idle } : Link).Paired m cur
    | .reply tag r =>
      ({ l' with handle := .idle, returned := l'.returned ++ [(id, tag, r)] } : Link).Paired m cur := by
  have plain {tag : Option Nat} {r : Reply} {rest : List (Option Nat × Reply)}
      (is : l.replies = (tag, r) :: rest) : ∀ g ∈ rest, g.1 = none → g.2.isExit = true :=
    fun g mem => paired.plain (by rw [asked]; rfl) g (by rw [is]; exact List.mem_cons_of_mem _ mem)
  have here : l.handle ≠ .gone := by simp [asked]
  obtain ⟨tag, r, rest, is, ⟨child, rfl, rfl⟩ | ⟨not, rfl, rfl⟩ | ⟨not, other, rfl, rfl⟩⟩ :=
    reply_cases read
  · have untagged : tag = none := by
      by_contra tagged
      have := paired.own (tag, r) (by rw [is]; simp) (Option.isSome_iff_ne_none.mpr tagged)
      rw [child] at this
      cases this
    have tags := tags_cons is
    rw [untagged] at tags
    refine paired.pop is (by rw [asked]; rfl) paired.returned ?_ ?_ (fun here => ?_)
      (fun here live => ?_) (fun _ => plain is)
    · rw [List.filter_append, List.map_append, ← paired.kept, List.append_assoc]
      rfl
    · rw [List.map_append]
      simp [child]
    · have := paired.tags here
      rwa [tags] at this
    · have := paired.balance here live
      rwa [tags] at this
  · obtain ⟨-, none, balance⟩ := paired.front asked is not
    refine paired.pop is rfl paired.returned paired.kept (by simp [not]) (fun _ => ?_)
      (fun _ live => ?_) (fun _ => plain is)
    · rw [none]
      exact List.nil_prefix
    · obtain ⟨cur, ids⟩ := balance live
      rw [none, cur, ids]
      rfl
  · obtain ⟨tagged, none, balance⟩ := paired.front asked is not
    have own : tag = some id := tagged.resolve_right (by simp [other])
    refine paired.pop is rfl (fun e mem => ?_) paired.kept (by simp [not]) (fun _ => ?_)
      (fun _ live => ?_) (fun _ => plain is)
    · obtain old | new := List.mem_append.mp mem
      · exact paired.returned e old
      · rw [List.mem_singleton.mp new]
        exact own
    · rw [none]
      exact List.nil_prefix
    · obtain ⟨cur, ids⟩ := balance live
      rw [none, cur, ids]
      rfl

theorem Paired.reply_announcing (paired : l.Paired m cur) (waits : l.handle = .announcing) {l' : Link}
    {got : Got} (read : l.reply = some (l', got)) :
    match got with
    | .event => l'.Paired m cur
    | .failed => ({ l' with handle := .gone } : Link).Paired m cur
    | .reply _ r => ({ l' with handle := if r.isForked then .idle else .gone } : Link).Paired m cur := by
  obtain ⟨parent, sent, untagged, exits⟩ := paired.early (by rw [waits]; rfl)
  have here : l.handle ≠ .gone := by simp [waits]
  obtain ⟨tag, r, rest, is, ⟨child, rfl, rfl⟩ | ⟨not, rfl, rfl⟩ | ⟨not, other, rfl, rfl⟩⟩ :=
    reply_cases read
  · have announces := paired.first parent r (by rw [← sent, is]; rfl)
    cases r with
    | exited => cases announces
    | _ => cases child
  · exact paired.pop is rfl paired.returned paired.kept (by simp [not]) (fun here => absurd rfl here)
      (fun here => absurd rfl here) (fun opened => by cases opened)
  · have none : rest.filterMap Prod.fst = [] := by
      rw [List.filterMap_eq_nil_iff]
      exact fun g mem => untagged g (by rw [is]; exact List.mem_cons_of_mem _ mem)
    refine paired.pop is ?_ paired.returned paired.kept (by simp [not]) (fun _ => ?_)
      (fun _ live => ?_) (fun _ g mem _ => exits g (by rw [is]; exact mem))
    · split <;> rfl
    · rw [none]
      exact List.nil_prefix
    · have tags := tags_cons is
      rw [untagged (tag, r) (by rw [is]; simp), none] at tags
      have balance := paired.balance here live
      rw [waits, tags] at balance
      rw [none]
      refine balance.trans ?_
      split <;> rfl

theorem Paired.pop_idle (paired : l.Paired m cur) (idle : l.handle = .idle) {f : Option Nat × Reply}
    {rest : List (Option Nat × Reply)} (is : l.replies = f :: rest) {events : List Reply}
    {arrived : List (Reply × Bool)} (kept : l.taken ++ events = (arrived.filter Prod.snd).map Prod.fst)
    (arrives : arrived.map Prod.fst = l.arrived.map Prod.fst ++ [f.2].filter Reply.isChild) :
    ({ l with replies := rest, events := events, arrived := arrived } : Link).Paired m cur := by
  have here : l.handle ≠ .gone := by simp [idle]
  have tags := tags_cons is
  have none := paired.tags here
  rw [idle, tags] at none
  have none := List.append_eq_nil_iff.mp (List.prefix_nil.mp none)
  refine paired.pop is (by rw [idle]; rfl) paired.returned kept arrives (fun _ => ?_)
    (fun _ live => ?_) (fun opened g mem => ?_)
  · rw [none.2]
    exact List.nil_prefix
  · have balance := paired.balance here live
    rwa [tags, none.1] at balance
  · exact paired.plain opened g (by rw [is]; exact List.mem_cons_of_mem _ mem)

theorem Paired.readEvent (paired : l.Paired m cur) (idle : l.handle = .idle) {l' : Link}
    (read : l.readEvent = some l') : l'.Paired m cur := by
  unfold Link.readEvent at read
  split at read
  · cases read
  next tag r rest is =>
    cases read
    refine paired.pop_idle idle is ?_ ?_
    · split
      · rw [List.filter_append, List.map_append, ← paired.kept]
        simp
      · exact paired.kept
    · split
      next child => simp [child]
      next not => simp [not]

theorem Paired.waitExit (paired : l.Paired m cur) (idle : l.handle = .idle) {l' : Link}
    (read : l.waitExit = some l') : l'.Paired m cur := by
  unfold Link.waitExit at read
  split at read
  · cases read
  next tag r rest is =>
    cases read
    refine paired.pop_idle idle is ?_ ?_
    · split
      · rw [List.filter_append, List.map_append, ← paired.kept, List.append_assoc]
        rfl
      · exact paired.kept
    · split
      next child => simp [child]
      next not => simp [not]

theorem Paired.takeEvents (paired : l.Paired m cur) :
    ({ l with taken := l.taken ++ l.events, events := [] } : Link).Paired m cur :=
  { paired with
    kept := by
      rw [List.append_nil]
      exact paired.kept
    arrived := paired.arrived }

theorem Paired.closed (paired : l.Paired m cur) {id : Nat} {frame : Frame}
    (asked : l.handle = .asked id frame) (dry : l.replies = []) (dead : ¬ Live m) :
    ({ l with handle := .idle } : Link).Paired m cur :=
  { paired with
    tags _ := by
      change l.tags <+: []
      rw [Link.tags, dry]
      exact List.nil_prefix
    balance _ live := absurd live dead
    plain _ := paired.plain (by rw [asked]; rfl)
    early is := by cases is
    young is := absurd (by simp [Live, is]) dead
    unowned is := by
      have := (paired.unowned is).2.2.2
      rw [asked] at this
      cases this }

theorem paired_unused {handle : Handle} {owner parent : Option Nat}
    (shut : m = none → handle.open = false) (child : handle.early = true → parent.isSome = true)
    (pending : handle.pending = []) (at_ : m = none ∨ m = some .idle ∧ parent = none) :
    ({ handle := handle, owner := owner, parent := parent } : Link).Paired m none where
  returned _ mem := by cases mem
  kept := rfl
  arrived := rfl
  own _ mem := by cases mem
  at_ := by obtain rfl | ⟨rfl, -⟩ := at_ <;> simp
  tags _ := List.nil_prefix
  balance _ _ := pending.symm
  guest before f after is := by
    have := congrArg List.length is
    simp at this
  plain _ _ mem := by cases mem
  early is := ⟨child is, rfl, fun _ mem => absurd mem List.not_mem_nil,
    fun _ mem => absurd mem List.not_mem_nil⟩
  first _ _ is := by cases is
  young is := by obtain rfl | ⟨rfl, -⟩ := at_ <;> cases is
  announced isSome is := by
    obtain rfl | ⟨rfl, rfl⟩ := at_
    · simp at is
    · cases isSome
  unowned is := ⟨rfl, rfl, rfl, shut is⟩

end Manager

end Link

end ServiceCache.Control
