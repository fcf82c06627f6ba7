import ServiceCache.ByteString
import ServiceCache.Fallible
import ServiceCache.Paths

/-!
# Manifests

`Manifest::load` reads the `service.toml` of a package and resolves the paths in it. Each must be
plain as it is written, and where it leads to, through any link, must lie in the package.

The TOML and regular expression engines are parameters. An error is its outermost context; the
cause behind it is left out, as are the parts of a manifest that nothing here reads.
-/

namespace ServiceCache.Package

open Paths Fallible ByteString

/-! ## The data -/

structure Service where
  name : String
  version : String
  extensions : List String := []
  deriving DecidableEq, Repr

/-- A `BTreeMap` of paths is the list of its entries, in the order of its keys. -/
structure RawPrepare where
  fs : List (Path String × Path String) := []
  module : Option (Path String) := none
  args : List String := []
  stdinFile : Option (Path String) := none

structure RawReadyProbe where
  send : String := ""
  matches_ : String

structure RawGuest where
  module : Path String
  args : List String := []
  listenPort : UInt16
  ready : Option RawReadyProbe := none

structure RawInitializer where
  module : Path String
  args : List String := []

structure RawManifest where
  service : Service
  prepare : Option RawPrepare := none
  guest : RawGuest
  initializer : Option RawInitializer := none

structure Prepare where
  fs : List (Path String × Path String)
  module : Option (Path String)
  args : List String
  stdinFile : Option (Path String)

structure ReadyProbe (R : Type) where
  send : List UInt8
  matches_ : R

structure Guest (R : Type) where
  module : Path String
  args : List String
  listenPort : UInt16
  ready : Option (ReadyProbe R)

structure Initializer where
  module : Path String
  args : List String

structure Manifest (R : Type) where
  service : Service
  prepare : Option Prepare
  guest : Guest R
  initializer : Option Initializer
  directory : Path String

structure Engines (R : Type) where
  utf8 : List UInt8 → Option String
  toml : String → Option RawManifest
  regex : String → Option R

/-! ## The source -/

def display (p : Path String) : String :=
  (if p.absolute then "/" else "") ++ "/".intercalate (p.pieces.map fun
    | .blank => ""
    | .dot => "."
    | .up => ".."
    | .name n => n)

section Load

variable {R : Type} (engines : Engines R) (fs : FileSystem String)

def rejectEscape (path : Path String) (description : String) : Except String Unit :=
  ensure (∀ part ∈ path.components, part ≠ .rootDir ∧ part ≠ .parentDir)
    (description ++ " " ++ display path ++ " must be a plain relative path inside the package")

def ensureContained (resolved : Path String) (canonicalDirectory : List String)
    (description : String) : Except String Unit := do
  let canonical ← (fs.canonicalize resolved).mapError fun _ =>
    "failed to resolve " ++ description ++ " " ++ display resolved
  ensure (canonicalDirectory <+: canonical)
    (description ++ " " ++ display resolved ++ " resolves outside the package")

/-- What the resolution of a file and of a mount source share; they differ in the kind of
node they ask for. -/
def resolvePath (isKind : Path String → Bool) (kind : String) (directory : Path String)
    (canonical : List String) (path : Path String) (description : String) :
    Except String (Path String) := do
  rejectEscape path description
  let resolved := directory.join path
  ensure (isKind resolved) (description ++ " " ++ display resolved ++ " is not a " ++ kind)
  ensureContained fs resolved canonical description
  return resolved

/-- `resolve_file`, which `resolve_module` is another name of. -/
def resolveFile (directory : Path String) (canonical : List String) (path : Path String)
    (description : String) : Except String (Path String) :=
  resolvePath fs fs.isFile "file" directory canonical path description

def resolveMount (directory : Path String) (canonical : List String)
    (mount : Path String × Path String) : Except String (Path String × Path String) := do
  ensure (mount.1.absolute = true)
    ("prepare mount path " ++ display mount.1 ++ " must be absolute")
  ensure (.parentDir ∉ mount.1.components)
    ("prepare mount path " ++ display mount.1 ++ " must not contain '..'")
  let resolved ← resolvePath fs fs.isDir "directory" directory canonical mount.2
    "prepare mount source"
  return (mount.1, resolved)

def resolvePrepare (raw : RawPrepare) (directory : Path String) (canonical : List String) :
    Except String Prepare := do
  let mounts ← raw.fs.mapM (resolveMount fs directory canonical)
  let module ← raw.module.mapM fun path => resolveFile fs directory canonical path "prepare module"
  let stdinFile ← raw.stdinFile.mapM fun path =>
    resolveFile fs directory canonical path "prepare stdin file"
  return { fs := mounts, module, args := raw.args, stdinFile }

def resolveReady (probe : RawReadyProbe) : Except String (ReadyProbe R) := do
  let send ← (decodeByteString probe.send).mapError fun _ => "invalid ready probe send bytes"
  let matches_ ← (engines.regex probe.matches_).elim (.error "invalid ready probe pattern") .ok
  return { send, matches_ }

def resolveGuest (raw : RawGuest) (directory : Path String) (canonical : List String) :
    Except String (Guest R) := do
  let module ← resolveFile fs directory canonical raw.module "guest module"
  let ready ← raw.ready.mapM (resolveReady engines)
  return { module, args := raw.args, listenPort := raw.listenPort, ready }

def resolveInitializer (raw : RawInitializer) (directory : Path String)
    (canonical : List String) : Except String Initializer := do
  let module ← resolveFile fs directory canonical raw.module "initializer module"
  return { module, args := raw.args }

def readToString (path : Path String) : Option String :=
  match fs.stat path with
  | .ok (.file content) => engines.utf8 content
  | _ => none

def readManifest (path : Path String) : Except String RawManifest := do
  let contents ← (readToString engines fs path).elim
    (.error ("failed to read manifest " ++ display path)) .ok
  (engines.toml contents).elim (.error ("failed to parse manifest " ++ display path)) .ok

def load (path : Path String) : Except String (Manifest R) := do
  let raw ← readManifest engines fs path
  let directory ← path.parent.elim (.error "manifest path has no parent directory") .ok
  let canonical ← (fs.canonicalize directory).mapError fun _ =>
    "failed to resolve package directory " ++ display directory
  ensure (raw.service.name ≠ "") "service name must not be empty"
  ensure (raw.service.version ≠ "") "service version must not be empty"
  let prepare ← raw.prepare.mapM fun table => resolvePrepare fs table directory canonical
  let guest ← resolveGuest engines fs raw.guest directory canonical
  let initializer ← raw.initializer.mapM fun table =>
    resolveInitializer fs table directory canonical
  return { service := raw.service, prepare, guest, initializer, directory }

end Load

def Manifest.modules {R : Type} (m : Manifest R) : List (Path String) :=
  (m.prepare.bind (·.module)).toList ++ m.guest.module ::
    (m.initializer.map (·.module)).toList

/-! ## Package paths -/

/-- The paths of the `prepare` table but its module: the sources of the mounts and the file
of the standard input. -/
def Prepare.paths (prepare : Prepare) : List (Path String) :=
  prepare.fs.map Prod.snd ++ prepare.stdinFile.toList

def Manifest.packagePaths {R : Type} (m : Manifest R) : List (Path String) :=
  m.prepare.toList.flatMap Prepare.paths ++ m.modules

/-! The same paths as the text of the manifest gives them. -/

def RawPrepare.paths (prepare : RawPrepare) : List (Path String) :=
  prepare.fs.map Prod.snd ++ prepare.stdinFile.toList

def RawManifest.modules (raw : RawManifest) : List (Path String) :=
  (raw.prepare.bind (·.module)).toList ++ raw.guest.module ::
    (raw.initializer.map (·.module)).toList

def RawManifest.packagePaths (raw : RawManifest) : List (Path String) :=
  raw.prepare.toList.flatMap RawPrepare.paths ++ raw.modules

structure Kept (fs : FileSystem String) (directory : Path String) (canonical : List String)
    (given resolved : Path String) : Prop where
  joined : resolved = directory.join given
  plain : given.Plain
  under : ∃ location, fs.canonicalize resolved = .ok location ∧ canonical <+: location

section Kept

variable {R : Type} {engines : Engines R} {fs : FileSystem String} {directory : Path String}
  {canonical : List String} {given resolved : Path String}

theorem resolvePath_kept {isKind : Path String → Bool} {kind description : String}
    (h : resolvePath fs isKind kind directory canonical given description = .ok resolved) :
    Kept fs directory canonical given resolved := by
  obtain ⟨_, parts, h⟩ := bind_ok h
  obtain ⟨_, -, h⟩ := bind_ok h
  obtain ⟨_, contained, h⟩ := bind_ok h
  cases h
  obtain ⟨location, found, under⟩ := bind_ok contained
  exact ⟨rfl, Path.plain_of_components (ensure_ok parts),
    location, mapError_ok found, ensure_ok under⟩

theorem resolveMount_kept {mount result : Path String × Path String}
    (h : resolveMount fs directory canonical mount = .ok result) :
    Kept fs directory canonical mount.2 result.2 := by
  obtain ⟨_, -, h⟩ := bind_ok h
  obtain ⟨_, -, h⟩ := bind_ok h
  obtain ⟨resolved, kept, h⟩ := bind_ok h
  cases h
  exact resolvePath_kept kept

theorem optional_kept {description : String} {given resolved : Option (Path String)}
    (h : (given.mapM fun path => resolveFile fs directory canonical path description) =
      .ok resolved) :
    List.Forall₂ (Kept fs directory canonical) given.toList resolved.toList := by
  rcases optionMapM_ok h with ⟨rfl, rfl⟩ | ⟨a, b, rfl, rfl, kept⟩
  · exact .nil
  · exact .cons (resolvePath_kept kept) .nil

theorem resolvePrepare_kept {raw : RawPrepare} {prepare : Prepare}
    (h : resolvePrepare fs raw directory canonical = .ok prepare) :
    List.Forall₂ (Kept fs directory canonical) raw.paths prepare.paths ∧
      List.Forall₂ (Kept fs directory canonical) raw.module.toList prepare.module.toList := by
  obtain ⟨mounts, each, h⟩ := bind_ok h
  obtain ⟨module, main, h⟩ := bind_ok h
  obtain ⟨stdinFile, input, h⟩ := bind_ok h
  cases h
  refine ⟨List.rel_append ?_ (optional_kept input), optional_kept main⟩
  rw [List.forall₂_map_left_iff, List.forall₂_map_right_iff]
  exact (mapM_ok each).imp fun _ _ => resolveMount_kept

theorem resolveGuest_kept {raw : RawGuest} {guest : Guest R}
    (h : resolveGuest engines fs raw directory canonical = .ok guest) :
    Kept fs directory canonical raw.module guest.module := by
  obtain ⟨module, kept, h⟩ := bind_ok h
  obtain ⟨ready, -, h⟩ := bind_ok h
  cases h
  exact resolvePath_kept kept

theorem resolveInitializer_kept {raw : RawInitializer} {initializer : Initializer}
    (h : resolveInitializer fs raw directory canonical = .ok initializer) :
    Kept fs directory canonical raw.module initializer.module := by
  obtain ⟨module, kept, h⟩ := bind_ok h
  cases h
  exact resolvePath_kept kept

theorem load_kept {path : Path String} {m : Manifest R} (h : load engines fs path = .ok m) :
    ∃ raw package, readManifest engines fs path = .ok raw ∧ path.parent = some m.directory ∧
      fs.canonicalize m.directory = .ok package ∧
      List.Forall₂ (Kept fs m.directory package) raw.packagePaths m.packagePaths := by
  obtain ⟨raw, text, h⟩ := bind_ok h
  obtain ⟨directory, parent, h⟩ := bind_ok h
  obtain ⟨package, found, h⟩ := bind_ok h
  obtain ⟨_, -, h⟩ := bind_ok h
  obtain ⟨_, -, h⟩ := bind_ok h
  obtain ⟨prepare, prepared, h⟩ := bind_ok h
  obtain ⟨guest, served, h⟩ := bind_ok h
  obtain ⟨initializer, initialized, h⟩ := bind_ok h
  cases h
  have parent : path.parent = some directory := by
    cases which : path.parent with
    | none => rw [which] at parent; cases parent
    | some p => rw [which] at parent; cases parent; rfl
  have before : List.Forall₂ (Kept fs directory package)
      (raw.prepare.toList.flatMap RawPrepare.paths) (prepare.toList.flatMap Prepare.paths) ∧
      List.Forall₂ (Kept fs directory package) (raw.prepare.bind (·.module)).toList
        (prepare.bind (·.module)).toList := by
    rcases optionMapM_ok prepared with ⟨none, rfl⟩ | ⟨table, result, given, rfl, kept⟩
    · rw [none]
      exact ⟨.nil, .nil⟩
    · rw [given]
      obtain ⟨paths, main⟩ := resolvePrepare_kept kept
      refine ⟨?_, main⟩
      rw [Option.toList_some, Option.toList_some, List.flatMap_singleton,
        List.flatMap_singleton]
      exact paths
  have after : List.Forall₂ (Kept fs directory package)
      (raw.initializer.map (·.module)).toList (initializer.map (·.module)).toList := by
    rcases optionMapM_ok initialized with ⟨none, rfl⟩ | ⟨table, result, given, rfl, kept⟩
    · rw [none]
      exact .nil
    · rw [given]
      exact .cons (resolveInitializer_kept kept) .nil
  refine ⟨raw, package, text, parent, mapError_ok found, ?_⟩
  exact List.rel_append before.1
    (List.rel_append before.2 (.cons (resolveGuest_kept served) after))

end Kept

/-- Every path that a loaded manifest takes from its package was given as a plain relative
path, and leads, through whatever links, to a location in the package directory. -/
theorem loaded_paths_inside_package {R : Type} (engines : Engines R) (fs : FileSystem String)
    (path : Path String) (m : Manifest R) (loaded : load engines fs path = .ok m) :
    ∃ raw package, readManifest engines fs path = .ok raw ∧ path.parent = some m.directory ∧
      fs.Resolves m.directory package ∧
      m.packagePaths = raw.packagePaths.map m.directory.join ∧
      ∀ given ∈ raw.packagePaths, given.Plain ∧
        (∃ location, fs.Resolves (m.directory.join given) location) ∧
        ∀ location, fs.Resolves (m.directory.join given) location →
          fs.root.Inside package location := by
  obtain ⟨raw, package, text, parent, found, kept⟩ := load_kept loaded
  have joined : raw.packagePaths.map m.directory.join = m.packagePaths := by
    rw [← List.forall₂_eq_eq_eq, List.forall₂_map_left_iff]
    exact kept.imp fun _ _ kept => kept.joined.symm
  rw [← joined, List.forall₂_map_right_iff, List.forall₂_same] at kept
  refine ⟨raw, package, text, parent, FileSystem.resolves_of_canonicalize found, joined.symm, ?_⟩
  intro given mem
  obtain ⟨-, plain, location, leads, under⟩ := kept given mem
  have leads := FileSystem.resolves_of_canonicalize leads
  obtain ⟨node, there⟩ := leads.exists_get
  refine ⟨plain, ⟨location, leads⟩, ?_⟩
  intro other leadsThere
  rw [leadsThere.unique leads]
  exact Node.inside_of_isPrefix under there

def linked : FileSystem String where
  root := .dir [("secret", .file [1]), ("pkg", .dir [
    ("service.toml", .file []),
    ("server.wasm", .link ⟨false, [.name "bin", .up, .name "bin", .name "server.wasm"]⟩),
    ("bin", .dir [("server.wasm", .file [0, 97, 115, 109])]),
    ("away", .link ⟨true, [.name "secret"]⟩)])]
  cwd := []
  cwd_dir := ⟨_, rfl⟩

def oneModule (module : Path String) : Engines Unit where
  utf8 _ := some ""
  toml _ := some {
    service := { name := "example", version := "1" }
    prepare := some { fs := [(⟨true, [.name "data"]⟩, ⟨false, [.dot]⟩)] }
    guest := { module, listenPort := 80 } }
  regex _ := some ()

def serviceToml : Path String := ⟨true, [.name "pkg", .name "service.toml"]⟩

theorem loaded_paths_inside_linked :
    ∃ m, load (oneModule ⟨false, [.name "server.wasm"]⟩) linked serviceToml = .ok m ∧
      ∃ raw package,
        readManifest (oneModule ⟨false, [.name "server.wasm"]⟩) linked serviceToml = .ok raw ∧
          linked.Resolves m.directory package ∧
          ∀ given ∈ raw.packagePaths, ∀ location,
            linked.Resolves (m.directory.join given) location →
              linked.root.Inside package location := by
  have loaded : ∃ m, load (oneModule ⟨false, [.name "server.wasm"]⟩) linked serviceToml = .ok m :=
    ⟨_, rfl⟩
  obtain ⟨m, loaded⟩ := loaded
  obtain ⟨raw, package, text, -, found, -, inside⟩ :=
    loaded_paths_inside_package _ _ _ _ loaded
  exact ⟨m, loaded, raw, package, text, found, fun given mem => (inside given mem).2.2⟩

example : (load (oneModule ⟨false, [.name "away"]⟩) linked serviceToml).toOption.isNone := by
  decide

end ServiceCache.Package
