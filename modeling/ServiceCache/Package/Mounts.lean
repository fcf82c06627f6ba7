import Mathlib.Data.List.Nodup
import Mathlib.Data.String.Basic

/-!
# Guest paths of modules

`guest_visible_path` names a module by a guest path, through the first mount whose host directory
holds it. The guest's file system, which `read_only_mounts` builds from the same table, serves a
path through the deepest mount on it. A path is the list of its components. What a file on the
host is stays a parameter: two paths may lead to one file.
-/

namespace ServiceCache.Package

structure Mount (α : Type) where
  guest : List α
  host : List α
  deriving DecidableEq, Repr

/-- The `fs` table of a manifest in the order of its keys. A path without components is not
a directory that could be mounted. -/
structure MountTable (α : Type) [LinearOrder α] where
  mounts : List (Mount α)
  sorted : mounts.Pairwise fun a b => List.Lex (· < ·) a.guest b.guest
  hosts : ∀ m ∈ mounts, m.host ≠ []

/-! ## The source -/

section Source

variable {α : Type} [DecidableEq α]

def stripPrefix (path base : List α) : Option (List α) :=
  if base.isPrefixOf path then some (path.drop base.length) else none

def guestVisiblePath (mounts : List (Mount α)) (module : List α) : Option (List α) :=
  mounts.findSome? fun m => (stripPrefix module m.host).map (m.guest ++ ·)

def deeper (best : Option (Mount α)) (m : Mount α) : Option (Mount α) :=
  match best with
  | none => some m
  | some b => if b.guest.length < m.guest.length then some m else some b

def server (mounts : List (Mount α)) (path : List α) : Option (Mount α) :=
  (mounts.filter fun m => m.guest.isPrefixOf path).foldl deeper none

def opened (mounts : List (Mount α)) (path : List α) : Option (List α) :=
  (server mounts path).map fun m => m.host ++ path.drop m.guest.length

end Source

/-! ## Mounts on a path -/

section Serves

variable {α : Type}

structure Serves (mounts : List (Mount α)) (path : List α) (m : Mount α) : Prop where
  mem : m ∈ mounts
  on : m.guest <+: path
  deepest : ∀ other ∈ mounts, other.guest <+: path → other.guest.length ≤ m.guest.length

/-- The mount is the first whose host directory holds the module, which lies below it at the
relative path. -/
structure Names (mounts : List (Mount α)) (module : List α) (m : Mount α) (relative : List α) :
    Prop where
  split : ∃ earlier later, mounts = earlier ++ m :: later ∧
    ∀ other ∈ earlier, ¬ other.host <+: module
  module : module = m.host ++ relative

variable {mounts : List (Mount α)} {path module relative : List α} {m : Mount α}

theorem foldl_deeper (mounts : List (Mount α)) (b : Mount α) :
    ∃ best, mounts.foldl deeper (some b) = some best ∧ (best = b ∨ best ∈ mounts) ∧
      b.guest.length ≤ best.guest.length ∧
      ∀ other ∈ mounts, other.guest.length ≤ best.guest.length := by
  induction mounts generalizing b with
  | nil => exact ⟨b, rfl, .inl rfl, Nat.le_refl _, by simp⟩
  | cons m mounts ih =>
    rw [List.foldl_cons, deeper]
    split
    next less =>
      obtain ⟨best, found, one, above, all⟩ := ih m
      refine ⟨best, found, .inr ?_, by omega, ?_⟩
      · rcases one with rfl | mem
        · exact List.mem_cons_self
        · exact List.mem_cons_of_mem _ mem
      · intro other mem
        rcases List.mem_cons.mp mem with rfl | mem
        · exact above
        · exact all other mem
    next more =>
      obtain ⟨best, found, one, above, all⟩ := ih b
      refine ⟨best, found, ?_, above, ?_⟩
      · rcases one with same | mem
        · exact .inl same
        · exact .inr (List.mem_cons_of_mem _ mem)
      · intro other mem
        rcases List.mem_cons.mp mem with rfl | mem
        · omega
        · exact all other mem

variable [DecidableEq α]

theorem exists_server (mem : m ∈ mounts) (on : m.guest <+: path) :
    ∃ best, server mounts path = some best ∧ Serves mounts path best := by
  have listed : m ∈ mounts.filter fun m => m.guest.isPrefixOf path :=
    List.mem_filter.mpr ⟨mem, List.isPrefixOf_iff_prefix.mpr on⟩
  unfold server
  cases candidates : mounts.filter fun m => m.guest.isPrefixOf path with
  | nil =>
    rw [candidates] at listed
    cases listed
  | cons first rest =>
    obtain ⟨best, found, one, above, all⟩ := foldl_deeper rest first
    have among : best ∈ mounts.filter fun m => m.guest.isPrefixOf path := by
      rw [candidates]
      rcases one with rfl | mem
      · exact List.mem_cons_self
      · exact List.mem_cons_of_mem _ mem
    obtain ⟨mem, on⟩ := List.mem_filter.mp among
    refine ⟨best, found, mem, List.isPrefixOf_iff_prefix.mp on, ?_⟩
    intro other mem on
    have listed : other ∈ mounts.filter fun m => m.guest.isPrefixOf path :=
      List.mem_filter.mpr ⟨mem, List.isPrefixOf_iff_prefix.mpr on⟩
    rw [candidates] at listed
    rcases List.mem_cons.mp listed with rfl | mem
    · exact above
    · exact all other mem

theorem stripPrefix_eq_some_iff {base : List α} :
    stripPrefix path base = some relative ↔ path = base ++ relative := by
  unfold stripPrefix
  constructor
  · intro h
    split at h
    next on =>
      cases h
      exact (List.prefix_iff_eq_append.mp (List.isPrefixOf_iff_prefix.mp on)).symm
    · cases h
  · rintro rfl
    rw [if_pos (List.isPrefixOf_iff_prefix.mpr (List.prefix_append _ _)), List.drop_left]

theorem stripPrefix_eq_none_iff {base : List α} :
    stripPrefix path base = none ↔ ¬ base <+: path := by
  rw [Option.eq_none_iff_forall_ne_some]
  constructor
  · rintro none ⟨relative, below⟩
    exact none relative (stripPrefix_eq_some_iff.mpr below.symm)
  · intro off relative some_
    exact off ⟨relative, (stripPrefix_eq_some_iff.mp some_).symm⟩

theorem guestVisiblePath_eq_some_iff :
    guestVisiblePath mounts module = some path ↔
      ∃ m relative, Names mounts module m relative ∧ path = m.guest ++ relative := by
  rw [guestVisiblePath, List.findSome?_eq_some_iff]
  constructor
  · rintro ⟨earlier, m, later, split, named, none⟩
    obtain ⟨relative, below, rfl⟩ := Option.map_eq_some_iff.mp named
    refine ⟨m, relative, ⟨⟨earlier, later, split, ?_⟩, stripPrefix_eq_some_iff.mp below⟩, rfl⟩
    intro other mem
    exact stripPrefix_eq_none_iff.mp (Option.map_eq_none_iff.mp (none other mem))
  · rintro ⟨m, relative, ⟨⟨earlier, later, split, none⟩, below⟩, rfl⟩
    refine ⟨earlier, m, later, split, ?_, ?_⟩
    · rw [stripPrefix_eq_some_iff.mpr below]
      rfl
    · intro other mem
      rw [stripPrefix_eq_none_iff.mpr (none other mem)]
      rfl

end Serves

section Table

variable {α : Type} [LinearOrder α] {table : MountTable α} {module relative : List α}
  {m other : Mount α}

theorem MountTable.unique (mem : m ∈ table.mounts) (mem' : other ∈ table.mounts)
    (same : m.guest = other.guest) : m = other := by
  have distinct : (table.mounts.map (·.guest)).Nodup := by
    refine List.pairwise_map.mpr (table.sorted.imp ?_)
    intro a b before same
    rw [same] at before
    exact List.lex_irrefl (fun _ => lt_irrefl _) _ before
  exact List.inj_on_of_nodup_map distinct mem mem' same

theorem Serves.unique {path : List α} (first : Serves table.mounts path m)
    (second : Serves table.mounts path other) : m = other := by
  have length := Nat.le_antisymm (second.deepest m first.mem first.on)
    (first.deepest other second.mem second.on)
  refine table.unique first.mem second.mem ?_
  rw [List.prefix_iff_eq_take.mp first.on, List.prefix_iff_eq_take.mp second.on, length]

theorem Names.mem (names : Names table.mounts module m relative) : m ∈ table.mounts := by
  obtain ⟨earlier, later, split, -⟩ := names.split
  rw [split]
  exact List.mem_append_right _ List.mem_cons_self

/-- The condition: a mount that lies deeper than the naming one on the module's guest path,
and serves it, serves the same file there. -/
def MountTable.Unhidden {φ : Type} (file : List α → φ) (table : MountTable α)
    (module : List α) : Prop :=
  ∀ m relative other, Names table.mounts module m relative →
    Serves table.mounts (m.guest ++ relative) other → m.guest ≠ other.guest →
      file (other.host ++ (m.guest ++ relative).drop other.guest.length) = file module

/-- A module's guest path opens the module exactly when no deeper mount on that path serves
another file there. -/
theorem guest_path_opens_module_iff {φ : Type} (file : List α → φ) (table : MountTable α)
    (module : List α) :
    (∀ path, guestVisiblePath table.mounts module = some path →
      (opened table.mounts path).map file = some (file module)) ↔
      table.Unhidden file module := by
  constructor
  · intro opens m relative other names serves _
    have path := guestVisiblePath_eq_some_iff.mpr ⟨m, relative, names, rfl⟩
    obtain ⟨best, found, deepest⟩ := exists_server names.mem (List.prefix_append m.guest relative)
    obtain rfl := deepest.unique serves
    have this := opens _ path
    rw [opened, found] at this
    exact Option.some.inj this
  · intro unhidden path named
    obtain ⟨m, relative, names, rfl⟩ := guestVisiblePath_eq_some_iff.mp named
    obtain ⟨best, found, deepest⟩ := exists_server names.mem (List.prefix_append m.guest relative)
    rw [opened, found, Option.map_some, Option.map_some]
    by_cases naming : m.guest = best.guest
    · -- the mount that names the module also serves it
      obtain rfl := table.unique names.mem deepest.mem naming
      rw [List.drop_left, ← names.module]
    · rw [unhidden m relative best names deepest naming]

end Table

def nested : MountTable String where
  mounts := [⟨["/", "a"], ["/", "pkg"]⟩, ⟨["/", "a", "sub"], ["/", "pkg", "other"]⟩]
  sorted := by decide
  hosts := by decide

theorem nested_unhidden : nested.Unhidden id ["/", "pkg", "m.wasm"] := by
  intro m relative other names serves differ
  have path := guestVisiblePath_eq_some_iff.mpr ⟨m, relative, names, rfl⟩
  have named : guestVisiblePath nested.mounts ["/", "pkg", "m.wasm"] =
      some ["/", "a", "m.wasm"] := by decide
  have same : m.guest ++ relative = ["/", "a", "m.wasm"] := Option.some.inj (path.symm.trans named)
  have only : ∀ e ∈ nested.mounts, e.guest <+: ["/", "a", "m.wasm"] → e.guest = ["/", "a"] := by
    decide
  have first := only m names.mem (same ▸ List.prefix_append _ _)
  have second := only other serves.mem (same ▸ serves.on)
  exact absurd (first.trans second.symm) differ

theorem guest_path_opens_module_beside_nested :
    guestVisiblePath nested.mounts ["/", "pkg", "m.wasm"] = some ["/", "a", "m.wasm"] ∧
      opened nested.mounts ["/", "a", "m.wasm"] = some ["/", "pkg", "m.wasm"] := by
  have named : guestVisiblePath nested.mounts ["/", "pkg", "m.wasm"] =
      some ["/", "a", "m.wasm"] := by decide
  have opens := (guest_path_opens_module_iff id nested ["/", "pkg", "m.wasm"]).mpr
    nested_unhidden _ named
  rw [Option.map_id] at opens
  exact ⟨named, opens⟩

/-- The path of a module below the nested mount point opens another file. -/
theorem nested_mount_hides_module :
    guestVisiblePath nested.mounts ["/", "pkg", "sub", "m.wasm"] =
        some ["/", "a", "sub", "m.wasm"] ∧
      opened nested.mounts ["/", "a", "sub", "m.wasm"] =
        some ["/", "pkg", "other", "m.wasm"] := by
  decide

end ServiceCache.Package
