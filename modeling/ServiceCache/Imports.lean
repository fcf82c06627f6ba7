import Mathlib.Data.List.Basic

/-!
# The imports of a module, resolved one by one

`WasiEnv::instantiate` built every host function of every namespace into an import object and
looked each import of the module up in it. Now it asks the tables for each import by its name.
Both are here, as the patch shows what it removes. A table is the list that `host_functions!`
is given. How an import object is searched is Wasmer's.
-/

namespace ServiceCache.Imports

abbrev Table (E : Type) := List (String × E)

/-- Namespace and name. -/
abbrev Import := String × String

structure UnknownImport where
  import_ : Import
  deriving DecidableEq, Repr

variable {E : Type}

/-- What `host_functions!` makes for a name: the arm of its `match`. -/
def Table.one (t : Table E) (name : String) : Option E := t.lookup name

/-- What it makes for no name: the functions are inserted one after another. -/
def Table.all (t : Table E) : String → Option E :=
  t.foldl (fun exports f name => if name = f.1 then some f.2 else exports name) fun _ => none

structure Wasix (E : Type) where
  wasi : Table E
  wasiUnstable : Table E
  wasiSnapshotPreview1 : Table E
  wasix32v1 : Table E
  wasix64v1 : Table E
  ictrobotShm : Table E
  extensionEnabled : Bool

def Wasix.tables (w : Wasix E) : List (Table E) :=
  [w.wasi, w.wasiUnstable, w.wasiSnapshotPreview1, w.wasix32v1, w.wasix64v1, w.ictrobotShm]

def Wasix.byNamespace (w : Wasix E) (get : Table E → String → Option E) (i : Import) : Option E :=
  match i.1 with
  | "wasi" => get w.wasi i.2
  | "wasi_unstable" => get w.wasiUnstable i.2
  | "wasi_snapshot_preview1" => get w.wasiSnapshotPreview1 i.2
  | "wasix_32v1" => get w.wasix32v1 i.2
  | "wasix_64v1" => get w.wasix64v1 i.2
  | "ictrobot_shm_v1" => if w.extensionEnabled then get w.ictrobotShm i.2 else none
  | _ => none

def Wasix.wasixImport (w : Wasix E) : Import → Option E := w.byNamespace Table.one

/-- `import_object_for_all_wasi_versions`, as it was. -/
def Wasix.importObject (w : Wasix E) : Import → Option E := w.byNamespace Table.all

structure Provided (E : Type) where
  wasix : Wasix E
  memory : Option E
  additional : List (Import × E)
  isMemory : E → Bool

namespace Provided

variable (p : Provided E)

/-! ## One by one -/

def provided (i : Import) : Option E :=
  match p.memory with
  | some memory => if i = ("env", "memory") then some memory else p.wasix.wasixImport i
  | none => p.wasix.wasixImport i

def resolve (i : Import) : Except UnknownImport E :=
  match p.provided i with
  | some external => .ok external
  | none => (p.additional.lookup i).elim (.error ⟨i⟩) .ok

def externs (imports : List Import) : Except UnknownImport (List E) := imports.mapM p.resolve

def importedMemory : Option E :=
  p.memory.or ((p.additional.lookup ("env", "memory")).filter p.isMemory)

/-! ## Through the import object -/

def define (object : Import → Option E) (added : Import × E) (i : Import) : Option E :=
  if i = added.1 then (object i).or (some added.2) else object i

def importObject : Import → Option E :=
  p.additional.foldl define fun i =>
    if i = ("env", "memory") then p.memory.or (p.wasix.importObject i) else p.wasix.importObject i

/-- `Instance::new`, as far as it links. -/
def link (object : Import → Option E) (imports : List Import) : Except UnknownImport (List E) :=
  imports.mapM fun i => (object i).elim (.error ⟨i⟩) .ok

def memoryOf (object : Import → Option E) : Option E := (object ("env", "memory")).filter p.isMemory

end Provided

/-! ## Both agree -/

theorem Table.foldl_insert {t : Table E} (once : (t.map Prod.fst).Nodup) (exports : String → Option E)
    (name : String) :
    t.foldl (fun exports f name => if name = f.1 then some f.2 else exports name) exports name =
      (t.one name).or (exports name) := by
  induction t generalizing exports with
  | nil => rfl
  | cons f t ih =>
    obtain ⟨new, once⟩ := List.nodup_cons.mp once
    rw [List.foldl_cons, ih once, Table.one, Table.one, List.lookup_cons]
    rcases eq_or_ne name f.1 with rfl | other
    · have none : t.lookup f.1 = none :=
        List.lookup_eq_none_iff.mpr fun g mem =>
          bne_iff_ne.mpr fun same => new (List.mem_map.mpr ⟨g, mem, same.symm⟩)
      simp [none]
    · simp [other, beq_false_of_ne other]

theorem Table.all_eq_one {t : Table E} (once : (t.map Prod.fst).Nodup) : t.all = t.one := by
  funext name
  rw [Table.all, foldl_insert once, Option.or_none]

theorem Wasix.importObject_eq {w : Wasix E} (once : ∀ t ∈ w.tables, (t.map Prod.fst).Nodup) :
    w.importObject = w.wasixImport := by
  simp only [Wasix.tables, List.forall_mem_cons] at once
  obtain ⟨h₁, h₂, h₃, h₄, h₅, h₆, -⟩ := once
  funext i
  simp only [Wasix.importObject, Wasix.wasixImport, Wasix.byNamespace, Table.all_eq_one, *]

namespace Provided

theorem foldl_define (additional : List (Import × E)) (object : Import → Option E) (i : Import) :
    additional.foldl define object i = (object i).or (additional.lookup i) := by
  induction additional generalizing object with
  | nil => exact Option.or_none.symm
  | cons added additional ih =>
    rw [List.foldl_cons, ih, define, List.lookup_cons]
    rcases eq_or_ne i added.1 with rfl | other
    · simp
    · simp [other, beq_false_of_ne other]

theorem importObject_apply {p : Provided E} (once : ∀ t ∈ p.wasix.tables, (t.map Prod.fst).Nodup)
    (i : Import) : p.importObject i = (p.provided i).or (p.additional.lookup i) := by
  rw [importObject, foldl_define, Wasix.importObject_eq once, provided]
  cases p.memory with
  | none => simp
  | some memory => simp

/-- No table lists a name twice, so a module links as it did: with the same functions, in its own
order, from the same places first, or with the same import missing; and it gets the same memory. -/
theorem externs_eq_link {p : Provided E} (once : ∀ t ∈ p.wasix.tables, (t.map Prod.fst).Nodup)
    (memory : ∀ m, p.memory = some m → p.isMemory m) (imports : List Import) :
    p.externs imports = link p.importObject imports ∧
      p.importedMemory = p.memoryOf p.importObject := by
  constructor
  · have same : p.resolve = fun i => (p.importObject i).elim (.error ⟨i⟩) .ok := by
      funext i
      rw [importObject_apply once, resolve]
      cases p.provided i <;> rfl
    rw [externs, same, link]
  · rw [memoryOf, importObject_apply once, importedMemory, provided]
    cases given : p.memory with
    | none => rfl
    | some m => simp [Option.filter, memory m given]

/-- A module that imports a function, its memory, and one that only the runtime adds. -/
theorem externs_eq_link_small :
    let p : Provided Nat :=
      ⟨⟨[], [], [("fd_write", 1)], [("fd_write", 2)], [], [], false⟩, some 0,
        [(("wasix_32v1", "fd_write"), 3), (("host", "log"), 4)], (· == 0)⟩
    let imports := [("wasix_32v1", "fd_write"), ("env", "memory"), ("host", "log")]
    p.externs imports = link p.importObject imports ∧ p.externs imports = .ok [2, 0, 4] :=
  ⟨(externs_eq_link (by decide) (by decide) _).1, by decide⟩

end Provided

end ServiceCache.Imports
