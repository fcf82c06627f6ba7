import ServiceCache.Fallible
import ServiceCache.Serve.Recipes

/-!
# A recipe of several files

What `recipes::read` is to return, said of the files as a whole. The code reads file by file,
against what is left of the bound.
-/

namespace ServiceCache.Serve.Recipes

open Fallible

/-! ## The specification -/

def joinedTo (text : List UInt8) (contents : List (List UInt8)) : List UInt8 :=
  contents.foldl (fun text b => separated text ++ b) text

/-- The paths are all acceptable, and the recipe is what they hold, within the bound. -/
def App.Reads (app : App) (paths : List String) (maxLen : Nat) (recipe : List UInt8) : Prop :=
  ∃ contents, List.Forall₂ app.Holds paths contents ∧ recipe = joinedTo [] contents ∧
    recipe.length ≤ maxLen

/-- The files do not change: what can be opened can be read, and a regular file is as long
as it says. -/
def App.Still (app : App) : Prop :=
  ∀ path file, app.openFile path = .ok file →
    ∃ isFile len real, file.metadata = .ok ⟨isFile, len⟩ ∧ file.link = .ok real ∧
      (isFile = true → ∃ b, file.content = .ok b ∧ b.length = len ∧ len < 2 ^ 64)

section

variable {app : App} {maxLen : Nat} {recipe r b : List UInt8} {path : String}
  {paths : List String} {contents : List (List UInt8)}

theorem length_le_separated (text : List UInt8) : text.length ≤ (separated text).length := by
  unfold separated
  split
  · exact Nat.le_refl _
  · simp

theorem length_le_joinedTo (text : List UInt8) (contents : List (List UInt8)) :
    text.length ≤ (joinedTo text contents).length := by
  induction contents generalizing text with
  | nil => exact Nat.le_refl _
  | cons b contents ih =>
    have next := ih (separated text ++ b)
    have kept := length_le_separated text
    rw [List.length_append] at next
    exact Nat.le_trans (Nat.le_trans kept (Nat.le_add_right _ _)) next

theorem joinedTo_nil_of_empty (empty : ∀ b ∈ contents, b = []) : joinedTo [] contents = [] := by
  induction contents with
  | nil => rfl
  | cons b contents ih =>
    obtain rfl := empty b List.mem_cons_self
    exact ih fun c mem => empty c (List.mem_cons_of_mem _ mem)

theorem empty_of_joinedTo_nil (none : joinedTo [] contents = []) : ∀ b ∈ contents, b = [] := by
  induction contents with
  | nil =>
    intro b mem
    cases mem
  | cons c contents ih =>
    have first : c = [] := by
      have shorter := length_le_joinedTo (separated [] ++ c) contents
      change _ ≤ (joinedTo [] (c :: contents)).length at shorter
      rw [none] at shorter
      exact List.eq_nil_of_length_eq_zero (Nat.le_zero.mp shorter)
    subst first
    intro b mem
    rcases List.mem_cons.mp mem with rfl | mem
    · rfl
    · exact ih none b mem

theorem App.Holds.unique {c : List UInt8} (first : app.Holds path b) (second : app.Holds path c) :
    b = c := by
  obtain ⟨_, -, opened⟩ := first.file
  obtain ⟨_, -, again⟩ := second.file
  rw [opened] at again
  injection again with same
  injection same with _ _ content
  injection content

theorem holds_unique {others : List (List UInt8)} (first : List.Forall₂ app.Holds paths contents)
    (second : List.Forall₂ app.Holds paths others) : contents = others := by
  induction first generalizing others with
  | nil =>
    cases second
    rfl
  | cons holds rest ih =>
    cases second with
    | cons holds' rest' => rw [holds.unique holds', ih rest']

/-! ## One file -/

theorem holds_of_openRecipe (still : app.Still) {found : Nat × Except String (List UInt8)}
    (h : app.openRecipe path = .ok found) : ∃ b, app.Holds path b := by
  unfold App.openRecipe at h
  split at h
  · cases h
  next absolute =>
    obtain ⟨file, opened, h⟩ := bind_ok h
    obtain ⟨metadata, stated, h⟩ := bind_ok h
    have opened := mapError_ok opened
    obtain ⟨isFile, len, real, states, links, regular⟩ := still path file opened
    rw [states] at stated
    cases stated
    split at h
    · cases h
    next plain =>
      obtain ⟨location, linked, h⟩ := bind_ok h
      rw [links] at linked
      cases linked
      split at h
      · cases h
      next under =>
        obtain rfl : isFile = true := by simpa using plain
        obtain ⟨b, content, rfl, -⟩ := regular rfl
        have whole : file = ⟨.ok ⟨true, b.length⟩, .ok real, .ok b⟩ := by
          rw [← states, ← links, ← content]
        exact ⟨b, by simpa using absolute, real, by simpa using under, whole ▸ opened⟩

theorem App.Holds.length_lt (still : app.Still) (h : app.Holds path b) : b.length < 2 ^ 64 := by
  obtain ⟨real, -, opened⟩ := h.file
  obtain ⟨isFile, len, -, states, -, regular⟩ := still path _ opened
  cases states
  obtain ⟨c, content, -, short⟩ := regular rfl
  exact short

theorem holds_of_readFile (still : app.Still) (h : app.readFile maxLen recipe path = .ok r) :
    ∃ b, app.Holds path b := by
  unfold App.readFile at h
  split at h
  · cases h
  next opened => exact holds_of_openRecipe still opened

theorem readFile_ok_iff (still : app.Still) (small : maxLen + 1 < 2 ^ 64) :
    app.readFile maxLen recipe path = .ok r ↔
      ∃ b, app.Holds path b ∧ r = separated recipe ++ b ∧ r.length ≤ maxLen := by
  constructor
  · intro h
    obtain ⟨b, holds⟩ := holds_of_readFile still h
    rw [holds.readFile] at h
    split at h
    next fits =>
      cases h
      rw [take_readLimit small fits]
      exact ⟨b, holds, rfl, List.length_append ▸ fits⟩
    · cases h
  · rintro ⟨b, holds, rfl, fits⟩
    rw [List.length_append] at fits
    rw [holds.readFile, if_pos fits, take_readLimit small fits]

/-! ## The loop -/

theorem foldlM_readFile_ok_iff (still : app.Still) (small : maxLen + 1 < 2 ^ 64)
    (start : recipe.length ≤ maxLen) :
    paths.foldlM (app.readFile maxLen) recipe = .ok r ↔
      ∃ contents, List.Forall₂ app.Holds paths contents ∧ r = joinedTo recipe contents ∧
        r.length ≤ maxLen := by
  induction paths generalizing recipe with
  | nil =>
    constructor
    · intro h
      cases h
      exact ⟨[], .nil, rfl, start⟩
    · rintro ⟨contents, holds, rfl, -⟩
      cases holds
      rfl
  | cons path paths ih =>
    rw [List.foldlM_cons]
    constructor
    · intro h
      obtain ⟨next, first, h⟩ := bind_ok h
      obtain ⟨b, holds, rfl, fits⟩ := (readFile_ok_iff still small).mp first
      obtain ⟨contents, others, rfl, short⟩ := (ih fits).mp h
      exact ⟨b :: contents, .cons holds others, rfl, short⟩
    · rintro ⟨contents, holds, rfl, short⟩
      cases holds with
      | @cons _ b _ contents holds others =>
        have fits := Nat.le_trans (length_le_joinedTo (separated recipe ++ b) contents) short
        have first := (readFile_ok_iff still small).mpr ⟨b, holds, rfl, fits⟩
        rw [first]
        exact (ih fits).mpr ⟨contents, others, rfl, short⟩

theorem foldlM_readFile_largest (still : app.Still) (holds : List.Forall₂ app.Holds paths contents) :
    paths.foldlM (app.readFile (2 ^ 64 - 1)) [] = .ok [] := by
  induction holds with
  | nil => rfl
  | cons holds others ih =>
    have limit : readLimit (2 ^ 64 - 1) (separated []) = 0 := by decide
    have nothing : separated [] = [] := rfl
    have short := holds.length_lt still
    rw [List.foldlM_cons, holds.readFile, limit, nothing, if_pos (by simp; omega)]
    exact ih

theorem exists_holds_of_foldlM (still : app.Still)
    (h : paths.foldlM (app.readFile maxLen) recipe = .ok r) :
    ∃ contents, List.Forall₂ app.Holds paths contents := by
  induction paths generalizing recipe with
  | nil => exact ⟨[], .nil⟩
  | cons path paths ih =>
    rw [List.foldlM_cons] at h
    obtain ⟨next, first, h⟩ := bind_ok h
    obtain ⟨b, holds⟩ := holds_of_readFile still first
    obtain ⟨contents, others⟩ := ih h
    exact ⟨b :: contents, .cons holds others⟩

end

/-- The condition: the bound is not the largest there is, or there is nothing to read. -/
def App.Countable (app : App) (paths : List String) (maxLen : Nat) : Prop :=
  maxLen < 2 ^ 64 - 1 ∨ ∀ contents, List.Forall₂ app.Holds paths contents → ∀ b ∈ contents, b = []

theorem oneFile_still (b : List UInt8) (short : b.length < 2 ^ 64) : (oneFile b).Still := by
  intro path file opened
  simp only [oneFile] at opened
  split at opened
  · cases opened
    exact ⟨true, b.length, _, rfl, rfl, fun _ => ⟨b, rfl, rfl, short⟩⟩
  · cases opened

end ServiceCache.Serve.Recipes
