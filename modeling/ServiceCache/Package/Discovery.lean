import Mathlib.Data.List.Induction
import Mathlib.Data.List.Perm.Basic
import ServiceCache.Package.Manifest

/-!
# The service index

`ServiceIndex::discover` loads the manifest of every package below the search directories
and files it under its name and version. The first of a key is selected; later ones are
kept as shadowed. `select`, `iter` and `all_packages` read the index.
-/

namespace ServiceCache.Package

open Paths Fallible

/-! ## The index -/

abbrev Key := String × String

variable {R : Type}

def Manifest.key (m : Manifest R) : Key := (m.service.name, m.service.version)

structure ShadowedPackage (R : Type) where
  directory : Path String
  manifest : Manifest R

structure DiscoveredPackage (R : Type) where
  manifest : Manifest R
  shadowed : List (ShadowedPackage R)

inductive SelectError where
  | notFound
  | ambiguous (versions : List String)
  deriving DecidableEq, Repr

structure ServiceIndex (R : Type) where
  packages : Std.TreeMap Key (DiscoveredPackage R) (@compare Key lexOrd) := ∅

namespace ServiceIndex

def iter (index : ServiceIndex R) : List (DiscoveredPackage R) :=
  index.packages.toList.map Prod.snd

def candidates (index : ServiceIndex R) (name : String) (version : Option String) :
    List (Manifest R) :=
  index.iter.map (·.manifest)
    |>.filter (fun m => m.service.name = name)
    |>.filter (fun m => version.all fun version => m.service.version = version)

def select (index : ServiceIndex R) (name : String) (version : Option String) :
    Except SelectError (Manifest R) :=
  match index.candidates name version with
  | [] => .error .notFound
  | [m] => .ok m
  | first :: second :: rest =>
    .error (.ambiguous (first.service.version :: second.service.version ::
      rest.map (·.service.version)))

def allPackages (index : ServiceIndex R) : List (Manifest R × Path String) :=
  index.iter.flatMap fun package =>
    (package.manifest, package.manifest.directory) ::
      package.shadowed.map fun shadow => (shadow.manifest, shadow.directory)

def insertManifest (index : ServiceIndex R) (m : Manifest R) : ServiceIndex R where
  packages := index.packages.alter m.key fun
    | none => some ⟨m, []⟩
    | some package =>
      some { package with shadowed := package.shadowed ++ [⟨m.directory, m⟩] }

def ofManifests (manifests : List (Manifest R)) : ServiceIndex R :=
  manifests.foldl insertManifest {}

end ServiceIndex

/-! ## Discovery -/

section Discover

variable (engines : Engines R) (fs : FileSystem String)

def named (name : String) : Path String := ⟨false, [.name name]⟩

/-- An entry of a search directory that is a package, possibly through a link. -/
def manifestOf (searchDir : Path String) (entry : String × Node String) : Option (Path String) :=
  let path := searchDir.join (named entry.1)
  if entry.2.isDir || (entry.2.isLink && fs.isDir path) then
    let manifest := path.join (named "service.toml")
    if fs.isFile manifest then some manifest else none
  else none

def manifestsIn (searchDir : Path String) : Except String (List (Path String)) :=
  match fs.stat searchDir with
  | .error .noEntry => .ok []
  | .ok (.dir entries) => .ok (entries.filterMap (manifestOf fs searchDir))
  | _ => .error ("failed to read services directory " ++ display searchDir)

def cmpComponent : Component String → Component String → Ordering
  | .normal a, .normal b => compare a b
  | a, b => compare (rank a) (rank b)
where
  rank : Component String → Nat
    | .rootDir => 0
    | .curDir => 1
    | .parentDir => 2
    | .normal _ => 3

def sorted (paths : List (Path String)) : List (Path String) :=
  paths.mergeSort fun a b => (List.compareLex cmpComponent a.components b.components).isLE

/-- The first half of `insert`: the manifest is loaded by the real location of its package. -/
def loadFound (manifestPath : Path String) : Except String (Manifest R) := do
  let parent ← manifestPath.parent.elim (.error "manifest path has no parent directory") .ok
  let directory ← (fs.canonicalize parent).mapError fun _ =>
    "failed to resolve package for " ++ display manifestPath
  load engines fs (Path.join ⟨true, directory.map .name⟩ (named "service.toml"))

def insert (index : ServiceIndex R) (manifestPath : Path String) :
    Except String (ServiceIndex R) := do
  let m ← loadFound engines fs manifestPath
  return index.insertManifest m

def discoverIn (index : ServiceIndex R) (searchDir : Path String) :
    Except String (ServiceIndex R) := do
  let manifests ← manifestsIn fs searchDir
  (sorted manifests).foldlM (insert engines fs) index

def discover (searchDirs : List (Path String)) : Except String (ServiceIndex R) :=
  searchDirs.foldlM (discoverIn engines fs) {}

end Discover

/-! ## What the index holds -/

def package : List (Manifest R) → Option (DiscoveredPackage R)
  | [] => none
  | m :: later => some ⟨m, later.map fun s => ⟨s.directory, s⟩⟩

def ofKey (manifests : List (Manifest R)) (k : Key) : List (Manifest R) :=
  manifests.filter fun m => m.key = k

theorem ofKey_append (manifests : List (Manifest R)) (m : Manifest R) (k : Key) :
    ofKey (manifests ++ [m]) k = ofKey manifests k ++ if m.key = k then [m] else [] := by
  rw [ofKey, List.filter_append]
  by_cases same : m.key = k
  · simp [ofKey, same]
  · simp [ofKey, same]

theorem head?_of_package {group : List (Manifest R)} {p : DiscoveredPackage R}
    (held : package group = some p) : group.head? = some p.manifest := by
  cases group with
  | nil => cases held
  | cons m later =>
    cases held
    rfl

theorem package_append (group : List (Manifest R)) (m : Manifest R) :
    package (group ++ [m]) = match package group with
      | none => some ⟨m, []⟩
      | some p => some { p with shadowed := p.shadowed ++ [⟨m.directory, m⟩] } := by
  cases group with
  | nil => rfl
  | cons first later => simp [package]

namespace ServiceIndex

theorem getElem?_insertManifest (index : ServiceIndex R) (m : Manifest R) (k : Key) :
    (index.insertManifest m).packages[k]? =
      if m.key = k then
        match index.packages[k]? with
        | none => some ⟨m, []⟩
        | some p => some { p with shadowed := p.shadowed ++ [⟨m.directory, m⟩] }
      else index.packages[k]? := by
  rw [insertManifest, Std.TreeMap.getElem?_alter]
  by_cases same : m.key = k
  · subst same
    simp
  · simp [same]

theorem getElem?_ofManifests (manifests : List (Manifest R)) (k : Key) :
    (ofManifests manifests).packages[k]? = package (ofKey manifests k) := by
  induction manifests using List.reverseRecOn with
  | nil => simp [ofManifests, ofKey, package]
  | append_singleton manifests m ih =>
    have last : ofManifests (manifests ++ [m]) = (ofManifests manifests).insertManifest m := by
      rw [ofManifests, List.foldl_append]
      rfl
    rw [last, getElem?_insertManifest, ih, ofKey_append]
    by_cases same : m.key = k
    · rw [if_pos same, if_pos same, package_append]
    · rw [if_neg same, if_neg same, List.append_nil]

theorem package_of_mem {manifests : List (Manifest R)} {e : Key × DiscoveredPackage R}
    (mem : e ∈ (ofManifests manifests).packages.toList) :
    package (ofKey manifests e.1) = some e.2 := by
  rw [← getElem?_ofManifests]
  exact Std.TreeMap.mem_toList_iff_getElem?_eq_some.mp mem

theorem mem_keys {manifests : List (Manifest R)} {k : Key} :
    k ∈ (ofManifests manifests).packages.keys ↔ ∃ m ∈ manifests, m.key = k := by
  rw [Std.TreeMap.mem_keys, Std.TreeMap.mem_iff_isSome_getElem?, getElem?_ofManifests]
  cases group : ofKey manifests k with
  | nil =>
    have none := List.filter_eq_nil_iff.mp group
    simpa [package] using none
  | cons m later =>
    have mem : m ∈ ofKey manifests k := group ▸ List.mem_cons_self
    obtain ⟨mem, same⟩ := List.mem_filter.mp mem
    exact iff_of_true rfl ⟨m, mem, of_decide_eq_true same⟩

end ServiceIndex

/-! ## All packages -/

theorem flatMap_filter_perm {α κ : Type} [DecidableEq κ] (key : α → κ) (keys : List κ)
    (distinct : keys.Nodup) (l : List α) (covered : ∀ a ∈ l, key a ∈ keys) :
    (keys.flatMap fun k => l.filter fun a => key a = k).Perm l := by
  induction keys generalizing l with
  | nil =>
    cases l with
    | nil => exact .nil
    | cons a l => cases covered a List.mem_cons_self
  | cons k keys ih =>
    obtain ⟨fresh, distinct⟩ := List.nodup_cons.mp distinct
    have others := ih distinct (l.filter fun a => !decide (key a = k)) (by
      intro a mem
      obtain ⟨mem, other⟩ := List.mem_filter.mp mem
      rcases List.mem_cons.mp (covered a mem) with same | among
      · simp [same] at other
      · exact among)
    -- the groups of the other keys do not see what went to the first
    have same : (keys.flatMap fun k' => (l.filter fun a => !decide (key a = k)).filter
        fun a => key a = k') = keys.flatMap fun k' => l.filter fun a => key a = k' := by
      refine List.flatMap_congr ?_
      intro k' mem
      rw [List.filter_filter]
      refine List.filter_congr ?_
      intro a _
      by_cases at_ : key a = k'
      · have : k' ≠ k := fun same => fresh (same ▸ mem)
        simp [at_, this]
      · simp [at_]
    rw [same] at others
    rw [List.flatMap_cons]
    exact (others.append_left _).trans (List.filter_append_perm _ l)

namespace ServiceIndex

theorem allPackages_perm (manifests : List (Manifest R)) :
    (ofManifests manifests).allPackages.Perm (manifests.map fun m => (m, m.directory)) := by
  have groups : (ofManifests manifests).allPackages =
      ((ofManifests manifests).packages.keys.flatMap fun k => ofKey manifests k).map
        fun m => (m, m.directory) := by
    rw [allPackages, iter, ← Std.TreeMap.map_fst_toList_eq_keys, List.flatMap_map,
      List.flatMap_map, List.map_flatMap]
    refine List.flatMap_congr ?_
    intro e mem
    have held := package_of_mem mem
    cases group : ofKey manifests e.1 with
    | nil => rw [group] at held; cases held
    | cons m later =>
      rw [group] at held
      rw [← Option.some.inj held]
      simp
  rw [groups]
  refine (flatMap_filter_perm Manifest.key _ Std.TreeMap.nodup_keys manifests ?_).map _
  intro m mem
  exact mem_keys.mpr ⟨m, mem, rfl⟩

/-! ## Selection -/

def matching (name : String) (version : Option String) (k : Key) : Bool :=
  decide (k.1 = name) && version.all fun version => k.2 = version

theorem find?_of_mem {manifests : List (Manifest R)} {e : Key × DiscoveredPackage R}
    (mem : e ∈ (ofManifests manifests).packages.toList) :
    manifests.find? (fun m => m.key = e.1) = some e.2.manifest := by
  rw [← List.head?_filter]
  exact head?_of_package (package_of_mem mem)

theorem key_of_mem {manifests : List (Manifest R)} {e : Key × DiscoveredPackage R}
    (mem : e ∈ (ofManifests manifests).packages.toList) : e.2.manifest.key = e.1 := by
  simpa using List.find?_some (find?_of_mem mem)

theorem keys_iter (manifests : List (Manifest R)) :
    ((ofManifests manifests).iter.map (·.manifest)).map Manifest.key =
      (ofManifests manifests).packages.keys := by
  rw [iter, List.map_map, List.map_map, ← Std.TreeMap.map_fst_toList_eq_keys]
  refine List.map_congr_left ?_
  intro e mem
  exact key_of_mem mem

theorem matching_version {name version : String} {k : Key} :
    matching name (some version) k = true ↔ k = (name, version) := by
  rw [Prod.ext_iff]
  simp [matching]

theorem keys_candidates (manifests : List (Manifest R)) (name : String)
    (version : Option String) :
    ((ofManifests manifests).candidates name version).map Manifest.key =
      (ofManifests manifests).packages.keys.filter (matching name version) := by
  rw [← keys_iter, List.filter_map, candidates, List.filter_filter]
  congr 1
  refine List.filter_congr ?_
  intro m _
  rw [Bool.and_comm]
  rfl

theorem find?_of_mem_candidates {manifests : List (Manifest R)} {name : String}
    {version : Option String} {m : Manifest R}
    (mem : m ∈ (ofManifests manifests).candidates name version) :
    manifests.find? (fun other => other.key = m.key) = some m := by
  obtain ⟨p, listed, rfl⟩ := List.mem_map.mp (List.mem_of_mem_filter (List.mem_of_mem_filter mem))
  obtain ⟨e, held, rfl⟩ := List.mem_map.mp listed
  rw [key_of_mem held]
  exact find?_of_mem held

theorem mem_keys_candidates {manifests : List (Manifest R)} {name : String}
    {version : Option String} {k : Key} :
    k ∈ ((ofManifests manifests).candidates name version).map Manifest.key ↔
      (∃ m ∈ manifests, m.key = k) ∧ matching name version k = true := by
  rw [keys_candidates, List.mem_filter, mem_keys]

theorem nodup_keys_candidates (manifests : List (Manifest R)) (name : String)
    (version : Option String) :
    (((ofManifests manifests).candidates name version).map Manifest.key).Nodup := by
  rw [keys_candidates]
  exact Std.TreeMap.nodup_keys.filter _

theorem select_version (manifests : List (Manifest R)) (name version : String) :
    (ofManifests manifests).select name (some version) =
      (manifests.find? fun m => m.key = (name, version)).elim (.error .notFound) .ok := by
  have keys : ∀ m ∈ (ofManifests manifests).candidates name (some version),
      m.key = (name, version) := by
    intro m mem
    have this := mem_keys_candidates.mp (List.mem_map_of_mem mem)
    exact matching_version.mp this.2
  have distinct := nodup_keys_candidates manifests name (some version)
  unfold select
  cases asked : (ofManifests manifests).candidates name (some version) with
  | nil =>
    have unknown : manifests.find? (fun m => m.key = (name, version)) = none := by
      rw [List.find?_eq_none]
      intro m mem same
      have key := mem_keys_candidates.mpr
        ⟨⟨m, mem, of_decide_eq_true same⟩, matching_version.mpr rfl⟩
      rw [asked] at key
      cases key
    rw [unknown]
    rfl
  | cons m rest =>
    rw [asked] at keys distinct
    have first : m ∈ (ofManifests manifests).candidates name (some version) :=
      asked ▸ List.mem_cons_self
    have found := find?_of_mem_candidates first
    rw [keys m List.mem_cons_self] at found
    cases rest with
    | nil =>
      rw [found]
      rfl
    | cons second rest =>
      have same := (keys m List.mem_cons_self).trans
        (keys second (List.mem_cons_of_mem _ List.mem_cons_self)).symm
      rw [List.map_cons, List.map_cons, same] at distinct
      exact absurd List.mem_cons_self (List.nodup_cons.mp distinct).1

theorem key_of_mem_candidates {manifests : List (Manifest R)} {name : String} {m : Manifest R}
    (mem : m ∈ (ofManifests manifests).candidates name none) :
    m.key = (name, m.service.version) := by
  have matched := (mem_keys_candidates.mp (List.mem_map_of_mem mem)).2
  have same : m.key.1 = name := by simpa [matching] using matched
  exact Prod.ext same rfl

def versions (index : ServiceIndex R) (name : String) : List String :=
  (index.candidates name none).map (·.service.version)

theorem versions_ordered (manifests : List (Manifest R)) (name : String) :
    ((ofManifests manifests).versions name).Pairwise fun a b => compare a b = .lt := by
  have keys : (ofManifests manifests).versions name =
      (((ofManifests manifests).candidates name none).map Manifest.key).map Prod.snd := by
    rw [List.map_map]
    rfl
  rw [keys, keys_candidates, List.pairwise_map]
  have ordered := (Std.TreeMap.ordered_keys (t := (ofManifests manifests).packages)).filter
    (matching name none)
  refine ordered.imp_of_mem ?_
  intro a b left right lt
  have named {k : Key} (mem : k ∈ (ofManifests manifests).packages.keys.filter
      (matching name none)) : k.1 = name := by
    simpa [matching] using (List.mem_filter.mp mem).2
  have same : compare a.1 b.1 = .eq := by
    rw [named left, named right, Std.LawfulEqOrd.compare_eq_iff_eq]
  change (compare a.1 b.1).then (compare a.2 b.2) = .lt at lt
  rw [same] at lt
  exact lt

theorem mem_versions {manifests : List (Manifest R)} {name version : String} :
    version ∈ (ofManifests manifests).versions name ↔
      ∃ m ∈ manifests, m.key = (name, version) := by
  have keyed : version ∈ (ofManifests manifests).versions name ↔
      (name, version) ∈ ((ofManifests manifests).candidates name none).map Manifest.key := by
    rw [versions, List.mem_map, List.mem_map]
    constructor
    · rintro ⟨m, mem, rfl⟩
      exact ⟨m, mem, key_of_mem_candidates mem⟩
    · rintro ⟨m, mem, key⟩
      exact ⟨m, mem, congrArg Prod.snd key⟩
  rw [keyed, mem_keys_candidates, and_iff_left]
  simp [matching]

inductive BareAnswer (manifests : List (Manifest R)) (name : String) :
    List String → Except SelectError (Manifest R) → Prop where
  | unknown : BareAnswer manifests name [] (.error .notFound)
  | only {m : Manifest R} (version : String)
      (first : manifests.find? (fun m => m.key = (name, version)) = some m) :
      BareAnswer manifests name [version] (.ok m)
  | several (versions : List String) (two : 2 ≤ versions.length) :
      BareAnswer manifests name versions (.error (.ambiguous versions))

theorem select_bare (manifests : List (Manifest R)) (name : String) :
    BareAnswer manifests name ((ofManifests manifests).versions name)
      ((ofManifests manifests).select name none) := by
  unfold select versions
  cases asked : (ofManifests manifests).candidates name none with
  | nil => exact .unknown
  | cons m rest =>
    have first : m ∈ (ofManifests manifests).candidates name none :=
      asked ▸ List.mem_cons_self
    have found := find?_of_mem_candidates first
    rw [key_of_mem_candidates first] at found
    cases rest with
    | nil => exact .only _ found
    | cons second rest => exact .several _ (Nat.le_add_left 2 _)

structure Faithful (index : ServiceIndex R) (manifests : List (Manifest R)) : Prop where
  packages : ∀ k, index.packages[k]? = package (ofKey manifests k)
  all : index.allPackages.Perm (manifests.map fun m => (m, m.directory))
  version : ∀ name version, index.select name (some version) =
    (manifests.find? fun m => m.key = (name, version)).elim (.error .notFound) .ok
  bare : ∀ name, ∃ versions : List String,
    (versions.Pairwise fun a b => compare a b = .lt) ∧
      (∀ version, version ∈ versions ↔ ∃ m ∈ manifests, m.key = (name, version)) ∧
      BareAnswer manifests name versions (index.select name none)

end ServiceIndex

/-! ## Discovered manifests -/

section Discover

variable {engines : Engines R} {fs : FileSystem String}

theorem foldlM_insert {paths : List (Path String)} {index result : ServiceIndex R}
    (h : paths.foldlM (insert engines fs) index = .ok result) :
    ∃ manifests, paths.mapM (loadFound engines fs) = .ok manifests ∧
      result = manifests.foldl ServiceIndex.insertManifest index := by
  induction paths generalizing index with
  | nil =>
    cases h
    exact ⟨[], rfl, rfl⟩
  | cons path paths ih =>
    rw [List.foldlM_cons] at h
    obtain ⟨next, inserted, h⟩ := bind_ok h
    obtain ⟨m, loaded, inserted⟩ := bind_ok inserted
    cases inserted
    obtain ⟨manifests, others, rfl⟩ := ih h
    refine ⟨m :: manifests, ?_, rfl⟩
    rw [List.mapM_cons, loaded, others]
    rfl

def found (fs : FileSystem String) (searchDir : Path String) :
    Except String (List (Path String)) :=
  (manifestsIn fs searchDir).map sorted

theorem foldlM_discoverIn {searchDirs : List (Path String)} {index result : ServiceIndex R}
    (h : searchDirs.foldlM (discoverIn engines fs) index = .ok result) :
    ∃ paths manifests, searchDirs.mapM (found fs) = .ok paths ∧
      paths.flatten.mapM (loadFound engines fs) = .ok manifests ∧
      result = manifests.foldl ServiceIndex.insertManifest index := by
  induction searchDirs generalizing index with
  | nil =>
    cases h
    exact ⟨[], [], rfl, rfl, rfl⟩
  | cons searchDir searchDirs ih =>
    rw [List.foldlM_cons] at h
    obtain ⟨next, here, h⟩ := bind_ok h
    obtain ⟨paths, listed, here⟩ := bind_ok here
    obtain ⟨first, loaded, rfl⟩ := foldlM_insert here
    obtain ⟨later, manifests, others, rest, rfl⟩ := ih h
    refine ⟨sorted paths :: later, first ++ manifests, ?_, ?_, ?_⟩
    · rw [List.mapM_cons, found, listed, others]
      rfl
    · rw [List.flatten_cons, List.mapM_append, loaded, rest]
      rfl
    · rw [List.foldl_append]

/-- Discovery makes the index of the manifests that it loads, directory by directory. -/
theorem discover_ok {searchDirs : List (Path String)} {index : ServiceIndex R}
    (h : discover engines fs searchDirs = .ok index) :
    ∃ paths manifests, searchDirs.mapM (found fs) = .ok paths ∧
      paths.flatten.mapM (loadFound engines fs) = .ok manifests ∧
      index = ServiceIndex.ofManifests manifests :=
  foldlM_discoverIn h

end Discover

/-- For any list of manifests, the index that discovery makes of them is faithful to it. -/
theorem index_faithful (manifests : List (Manifest R)) :
    (ServiceIndex.ofManifests manifests).Faithful manifests where
  packages := ServiceIndex.getElem?_ofManifests manifests
  all := ServiceIndex.allPackages_perm manifests
  version := ServiceIndex.select_version manifests
  bare name := ⟨_, ServiceIndex.versions_ordered manifests name,
    fun _ => ServiceIndex.mem_versions, ServiceIndex.select_bare manifests name⟩

theorem paths_inside {engines : Engines R} {fs : FileSystem String} {path : Path String}
    {m : Manifest R} (loaded : load engines fs path = .ok m) :
    ∃ package, fs.Resolves m.directory package ∧ ∀ resolved ∈ m.packagePaths,
      ∃ location, fs.Resolves resolved location ∧ fs.root.Inside package location := by
  obtain ⟨raw, package, -, -, found, kept⟩ := load_kept loaded
  refine ⟨package, FileSystem.resolves_of_canonicalize found, fun resolved mem => ?_⟩
  obtain ⟨given, -, -, -, location, leads, under⟩ := exists_of_mem kept.flip mem
  have leads := FileSystem.resolves_of_canonicalize leads
  obtain ⟨node, there⟩ := leads.exists_get
  exact ⟨location, leads, Node.inside_of_isPrefix under there⟩

/-- What `select` finds in a discovered index is the manifest of the first package with its name
and version, in the order of the search directories and of the paths in each; and all its paths
lead into that package. -/
theorem selected_from_first_package {engines : Engines R} {fs : FileSystem String}
    {searchDirs : List (Path String)} {index : ServiceIndex R} {name : String}
    {version : Option String} {m : Manifest R} (h : discover engines fs searchDirs = .ok index)
    (selected : index.select name version = .ok m) :
    m.service.name = name ∧ (∀ v ∈ version, m.service.version = v) ∧
      (∃ paths before path after, searchDirs.mapM (found fs) = .ok paths ∧
        paths.flatten = before ++ path :: after ∧ loadFound engines fs path = .ok m ∧
        ∀ earlier ∈ before, ∃ other, loadFound engines fs earlier = .ok other ∧
          other.key ≠ m.key) ∧
      ∃ package, fs.Resolves m.directory package ∧ ∀ resolved ∈ m.packagePaths,
        ∃ location, fs.Resolves resolved location ∧ fs.root.Inside package location := by
  obtain ⟨paths, manifests, listed, loaded, rfl⟩ := discover_ok h
  have mem : m ∈ (ServiceIndex.ofManifests manifests).candidates name version := by
    unfold ServiceIndex.select at selected
    split at selected <;> cases selected
    next one => exact one ▸ List.mem_singleton_self m
  have asked := List.mem_filter.mp mem
  have called : m.service.name = name := by simpa using (List.mem_filter.mp asked.1).2
  have versioned : ∀ v ∈ version, m.service.version = v := by
    rintro v rfl
    simpa using asked.2
  -- the first of the loaded manifests with the key, and what was loaded before it
  obtain ⟨-, others, later, rfl, differ⟩ :=
    List.find?_eq_some_iff_append.mp (ServiceIndex.find?_of_mem_candidates mem)
  have pairs := mapM_ok loaded
  have before := List.forall₂_take_append _ _ _ pairs
  obtain ⟨path, after, here, -, rest⟩ :=
    List.forall₂_cons_right_iff.mp (List.forall₂_drop_append _ _ _ pairs)
  have split := (List.take_append_drop others.length paths.flatten).symm
  rw [rest] at split
  obtain ⟨_, -, opened⟩ := bind_ok here
  obtain ⟨_, -, opened⟩ := bind_ok opened
  refine ⟨called, versioned, ⟨paths, _, path, after, listed, split, here, ?_⟩, paths_inside opened⟩
  intro earlier there
  obtain ⟨other, among, loaded⟩ := exists_of_mem before there
  exact ⟨other, loaded, by simpa using differ other among⟩

/-- The package is found below the root. -/
theorem selected_from_first_package_linked : ∃ index m,
    discover (oneModule ⟨false, [.name "server.wasm"]⟩) linked [⟨true, []⟩] = .ok index ∧
      index.select "example" (some "1") = .ok m ∧ ∃ package, linked.Resolves m.directory package ∧
        ∀ resolved ∈ m.packagePaths,
          ∃ location, linked.Resolves resolved location ∧ linked.root.Inside package location := by
  have listed : manifestsIn linked ⟨true, []⟩ = .ok [serviceToml] := rfl
  obtain ⟨m, loaded, key⟩ : ∃ m, loadFound (oneModule ⟨false, [.name "server.wasm"]⟩) linked
    serviceToml = .ok m ∧ m.key = ("example", "1") := ⟨_, rfl, rfl⟩
  have h : discover (oneModule ⟨false, [.name "server.wasm"]⟩) linked [⟨true, []⟩] =
      .ok (ServiceIndex.ofManifests [m]) := by
    rw [discover, List.foldlM_cons, discoverIn, listed]
    change (sorted [serviceToml]).foldlM _ _ >>= _ = _
    rw [sorted, List.mergeSort_singleton, List.foldlM_cons, insert, loaded]
    rfl
  have selected : (ServiceIndex.ofManifests [m]).select "example" (some "1") = .ok m := by
    simp [ServiceIndex.select_version, key]
  exact ⟨_, m, h, selected, (selected_from_first_package h selected).2.2.2⟩

end ServiceCache.Package
