/-!
# Paths and links

Paths as pieces between slashes, directory trees with symbolic links, and the location a path
leads to. What a file name is stays a parameter. `Node.resolve` is the kernel's walk, which gives
up after a number of links; `Node.Resolves` is the same walk as a relation, without a limit.
-/

namespace ServiceCache.Paths

/-! ## Paths -/

inductive Piece (ν : Type) where
  | blank
  | dot
  | up
  | name (n : ν)
  deriving DecidableEq, Repr

/-- A path as it is written: a trailing slash is a last piece that is blank. -/
structure Path (ν : Type) where
  absolute : Bool
  pieces : List (Piece ν)
  deriving DecidableEq, Repr

inductive Component (ν : Type) where
  | rootDir
  | curDir
  | parentDir
  | normal (n : ν)
  deriving DecidableEq, Repr

section

variable {ν : Type}

def Piece.skipped : Piece ν → Bool
  | .blank | .dot => true
  | .up | .name _ => false

def Piece.component? : Piece ν → Option (Component ν)
  | .blank | .dot => none
  | .up => some .parentDir
  | .name n => some (.normal n)

namespace Path

/-- `Path::components`: a dot counts only where a relative path begins with it. -/
def components (p : Path ν) : List (Component ν) :=
  match p.absolute, p.pieces with
  | true, pieces => .rootDir :: pieces.filterMap Piece.component?
  | false, .dot :: pieces => .curDir :: pieces.filterMap Piece.component?
  | false, pieces => pieces.filterMap Piece.component?

def trimmed (absolute : Bool) (pieces : List (Piece ν)) : List (Piece ν) :=
  match absolute, pieces with
  | false, .dot :: rest => .dot :: (rest.reverse.dropWhile Piece.skipped).reverse
  | _, pieces => (pieces.reverse.dropWhile Piece.skipped).reverse

def parent (p : Path ν) : Option (Path ν) :=
  match trimmed p.absolute p.pieces with
  | [] => none
  | pieces => some ⟨p.absolute, trimmed p.absolute pieces.dropLast⟩

def openPieces (p : Path ν) : List (Piece ν) :=
  match p.pieces.getLast? with
  | some .blank => p.pieces.dropLast
  | _ => p.pieces

def join (p q : Path ν) : Path ν :=
  if q.absolute then q
  else if q.pieces = [] then
    if p.pieces = [] then p else ⟨p.absolute, p.openPieces ++ [.blank]⟩
  else ⟨p.absolute, p.openPieces ++ q.pieces⟩

/-- The path is relative and names nothing above where it starts. -/
def Plain (p : Path ν) : Prop := p.absolute = false ∧ .up ∉ p.pieces

theorem mem_filterMap_component {c : Component ν} {pieces : List (Piece ν)} :
    c ∈ pieces.filterMap Piece.component? ↔
      c = .parentDir ∧ .up ∈ pieces ∨ ∃ n, c = .normal n ∧ .name n ∈ pieces := by
  rw [List.mem_filterMap]
  constructor
  · rintro ⟨piece, mem, made⟩
    cases piece with
    | blank => cases made
    | dot => cases made
    | up => exact .inl ⟨(Option.some.inj made).symm, mem⟩
    | name n => exact .inr ⟨n, (Option.some.inj made).symm, mem⟩
  · rintro (⟨rfl, mem⟩ | ⟨n, rfl, mem⟩)
    · exact ⟨.up, mem, rfl⟩
    · exact ⟨.name n, mem, rfl⟩

theorem plain_of_components {p : Path ν}
    (parts : ∀ part ∈ p.components, part ≠ .rootDir ∧ part ≠ .parentDir) : p.Plain := by
  obtain ⟨absolute, pieces⟩ := p
  cases absolute with
  | true => exact absurd rfl (parts .rootDir List.mem_cons_self).1
  | false =>
    refine ⟨rfl, ?_⟩
    intro above
    refine (parts .parentDir ?_).2 rfl
    cases pieces with
    | nil => cases above
    | cons piece rest =>
      have parent : .parentDir ∈ (piece :: rest).filterMap Piece.component? :=
        mem_filterMap_component.mpr (.inl ⟨rfl, above⟩)
      cases piece with
      | dot => exact List.mem_cons_of_mem _ parent
      | blank => exact parent
      | up => exact parent
      | name n => exact parent

end Path

end

/-! ## Trees -/

inductive Node (ν : Type) where
  | dir (entries : List (ν × Node ν))
  | file (content : List UInt8)
  | link (target : Path ν)

inductive Errno where
  | noEntry
  | notDirectory
  | loop
  deriving DecidableEq, Repr

namespace Node

variable {ν : Type}

def isDir : Node ν → Bool
  | dir _ => true
  | _ => false

def isFile : Node ν → Bool
  | file _ => true
  | _ => false

def isLink : Node ν → Bool
  | link _ => true
  | _ => false

variable [DecidableEq ν]

def get : Node ν → List ν → Option (Node ν)
  | node, [] => some node
  | node, n :: names =>
    match node with
    | dir entries =>
      match entries.lookup n with
      | some child => child.get names
      | none => none
    | _ => none

/-- One walk along the pieces; how a link is followed is a parameter. -/
def walk (root : Node ν) (follow : List ν → List (Piece ν) → Except Errno (List ν)) :
    List ν → List (Piece ν) → Except Errno (List ν)
  | here, [] => .ok here
  | here, piece :: rest =>
    match root.get here with
    | some (dir _) =>
      match piece with
      | .blank | .dot => root.walk follow here rest
      | .up => root.walk follow here.dropLast rest
      | .name n =>
        match root.get (here ++ [n]) with
        | none => .error .noEntry
        | some (link target) =>
          if target.absolute = false ∧ target.pieces = [] then .error .noEntry
          else follow (if target.absolute then [] else here) (target.pieces ++ rest)
        | some _ => root.walk follow (here ++ [n]) rest
    | _ => .error .notDirectory

/-- The location that the pieces lead to, if no more links than given lie on the way. -/
def resolve (root : Node ν) : Nat → List ν → List (Piece ν) → Except Errno (List ν)
  | 0 => root.walk fun _ _ => .error .loop
  | links + 1 => root.walk (root.resolve links)

def DirAt (root : Node ν) (here : List ν) : Prop := ∃ entries, root.get here = some (dir entries)

/-- The pieces lead from a directory to a location, through any number of links. -/
inductive Resolves (root : Node ν) : List ν → List (Piece ν) → List ν → Prop where
  | done (here : List ν) : Resolves root here [] here
  | skip {here rest location} (piece : Piece ν) (skipped : piece.skipped = true)
      (inside : root.DirAt here) (next : Resolves root here rest location) :
      Resolves root here (piece :: rest) location
  | up {here rest location} (inside : root.DirAt here)
      (next : Resolves root here.dropLast rest location) :
      Resolves root here (.up :: rest) location
  | enter {here rest location} (n : ν) (node : Node ν) (inside : root.DirAt here)
      (found : root.get (here ++ [n]) = some node) (plain : node.isLink = false)
      (next : Resolves root (here ++ [n]) rest location) :
      Resolves root here (.name n :: rest) location
  | follow {here rest location} (n : ν) (target : Path ν) (inside : root.DirAt here)
      (found : root.get (here ++ [n]) = some (link target))
      (next : Resolves root (if target.absolute then [] else here) (target.pieces ++ rest)
        location) :
      Resolves root here (.name n :: rest) location

def Inside (root : Node ν) (outer location : List ν) : Prop :=
  ∃ below outerNode node, location = outer ++ below ∧ root.get outer = some outerNode ∧
    outerNode.get below = some node

/-! ## Locations -/

variable {root : Node ν} {here location : List ν} {pieces : List (Piece ν)}

theorem get_append (node : Node ν) (names rest : List ν) :
    node.get (names ++ rest) = (node.get names).bind (·.get rest) := by
  induction names generalizing node with
  | nil => rfl
  | cons n names ih =>
    cases node with
    | dir entries =>
      cases child : entries.lookup n with
      | none => simp [get, child]
      | some node => simpa [get, child] using ih node
    | file content => rfl
    | link target => rfl

theorem dirAt_of_append {names rest : List ν} {node : Node ν} (some_ : rest ≠ [])
    (found : root.get (names ++ rest) = some node) : root.DirAt names := by
  rw [get_append] at found
  obtain ⟨outer, at_, below⟩ := Option.bind_eq_some_iff.mp found
  cases rest with
  | nil => exact absurd rfl some_
  | cons n rest =>
    cases outer with
    | dir entries => exact ⟨entries, at_⟩
    | file content => cases below
    | link target => cases below

theorem DirAt.dropLast (inside : root.DirAt here) : root.DirAt here.dropLast := by
  by_cases outermost : here = []
  · subst outermost
    exact inside
  · obtain ⟨entries, found⟩ := inside
    rw [← List.dropLast_concat_getLast outermost] at found
    exact dirAt_of_append (List.cons_ne_nil _ _) found

theorem DirAt.outermost (inside : root.DirAt here) : root.DirAt [] := by
  by_cases outermost : here = []
  · exact outermost ▸ inside
  · obtain ⟨entries, found⟩ := inside
    have found : root.get ([] ++ here) = some (dir entries) := found
    exact dirAt_of_append outermost found

theorem inside_of_isPrefix {outer : List ν} {node : Node ν} (under : outer <+: location)
    (found : root.get location = some node) : root.Inside outer location := by
  obtain ⟨below, rfl⟩ := under
  rw [get_append] at found
  obtain ⟨outerNode, at_, inner⟩ := Option.bind_eq_some_iff.mp found
  exact ⟨below, outerNode, node, rfl, at_, inner⟩

/-! ## Walks -/

theorem walk_sound {follow : List ν → List (Piece ν) → Except Errno (List ν)}
    (follows : ∀ here pieces location, follow here pieces = .ok location →
      root.Resolves here pieces location)
    (ends : root.walk follow here pieces = .ok location) :
    root.Resolves here pieces location := by
  induction pieces generalizing here with
  | nil =>
    cases ends
    exact .done _
  | cons piece rest ih =>
    unfold walk at ends
    split at ends
    next entries inside =>
      have inside : root.DirAt here := ⟨entries, inside⟩
      cases piece with
      | blank => exact .skip .blank rfl inside (ih ends)
      | dot => exact .skip .dot rfl inside (ih ends)
      | up => exact .up inside (ih ends)
      | name n =>
        dsimp only at ends
        split at ends
        · cases ends
        next target found =>
          split at ends
          · cases ends
          · exact .follow n target inside found (follows _ _ _ ends)
        next node plain found =>
          have plain : node.isLink = false := by
            cases node with
            | dir entries => rfl
            | file content => rfl
            | link target => exact absurd rfl (plain target)
          exact .enter n node inside found plain (ih ends)
    · cases ends

theorem resolve_sound {links : Nat} (ends : root.resolve links here pieces = .ok location) :
    root.Resolves here pieces location := by
  induction links generalizing here pieces location with
  | zero => exact walk_sound (fun _ _ _ never => by cases never) ends
  | succ links ih => exact walk_sound (fun _ _ _ ends => ih ends) ends

theorem Resolves.unique {other : List ν} (first : root.Resolves here pieces location)
    (second : root.Resolves here pieces other) : location = other := by
  induction first with
  | done here =>
    cases second
    rfl
  | skip piece skipped inside next ih =>
    cases second with
    | skip piece skipped inside next => exact ih next
    | up inside next => cases skipped
    | enter n node inside found plain next => cases skipped
    | follow n target inside found next => cases skipped
  | up inside next ih =>
    cases second with
    | skip piece skipped inside next => cases skipped
    | up inside next => exact ih next
  | enter n node inside found plain next ih =>
    cases second with
    | skip piece skipped inside next => cases skipped
    | enter n node inside found plain next => exact ih next
    | follow n target inside found' next =>
      rw [found] at found'
      cases found'
      cases plain
  | follow n target inside found next ih =>
    cases second with
    | skip piece skipped inside next => cases skipped
    | enter n node inside found' plain next =>
      rw [found] at found'
      cases found'
      cases plain
    | follow n target inside found' next =>
      rw [found] at found'
      cases found'
      exact ih next

theorem Resolves.ends (walk : root.Resolves here pieces location)
    (start : ∃ node, root.get here = some node ∧ node.isLink = false) :
    ∃ node, root.get location = some node ∧ node.isLink = false := by
  induction walk with
  | done here => exact start
  | skip piece skipped inside next ih => exact ih start
  | up inside next ih =>
    obtain ⟨entries, found⟩ := inside.dropLast
    exact ih ⟨_, found, rfl⟩
  | enter n node inside found plain next ih => exact ih ⟨node, found, plain⟩
  | follow n target inside found next ih =>
    refine ih ?_
    split
    · obtain ⟨entries, found⟩ := inside.outermost
      exact ⟨_, found, rfl⟩
    · obtain ⟨entries, found⟩ := inside
      exact ⟨_, found, rfl⟩

end Node

/-! ## File systems -/

/-- A tree, with the directory that relative paths start from. -/
structure FileSystem (ν : Type) [DecidableEq ν] where
  root : Node ν
  cwd : List ν
  cwd_dir : root.DirAt cwd

def maxLinks : Nat := 40

namespace FileSystem

variable {ν : Type} [DecidableEq ν]

def start (fs : FileSystem ν) (p : Path ν) : List ν := if p.absolute then [] else fs.cwd

def canonicalize (fs : FileSystem ν) (p : Path ν) : Except Errno (List ν) :=
  if p.absolute = false ∧ p.pieces = [] then .error .noEntry
  else fs.root.resolve maxLinks (fs.start p) p.pieces

def stat (fs : FileSystem ν) (p : Path ν) : Except Errno (Node ν) :=
  (fs.canonicalize p).bind fun location => (fs.root.get location).elim (.error .noEntry) .ok

def isFile (fs : FileSystem ν) (p : Path ν) : Bool := (fs.stat p).toOption.any Node.isFile

def isDir (fs : FileSystem ν) (p : Path ν) : Bool := (fs.stat p).toOption.any Node.isDir

def Resolves (fs : FileSystem ν) (p : Path ν) (location : List ν) : Prop :=
  fs.root.Resolves (fs.start p) p.pieces location

variable {fs : FileSystem ν} {p : Path ν} {location : List ν}

theorem resolves_of_canonicalize (h : fs.canonicalize p = .ok location) :
    fs.Resolves p location := by
  unfold canonicalize at h
  split at h
  · cases h
  · exact Node.resolve_sound h

theorem Resolves.exists_get (h : fs.Resolves p location) :
    ∃ node, fs.root.get location = some node := by
  have start : fs.root.DirAt (fs.start p) := by
    unfold FileSystem.start
    split
    · exact fs.cwd_dir.outermost
    · exact fs.cwd_dir
  obtain ⟨entries, found⟩ := start
  obtain ⟨node, found, -⟩ := h.ends ⟨_, found, rfl⟩
  exact ⟨node, found⟩

end FileSystem

end ServiceCache.Paths
