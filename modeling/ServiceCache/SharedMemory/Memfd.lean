import Mathlib.Data.List.Basic
import Mathlib.Tactic.Ext

/-!
# Memory files and the sparse copy

`copy_data` copies a memfd into a fresh one of the same length, leaving out chunks of zeros. How
the kernel reports extents and how much one read or write moves is a parameter.
-/

namespace ServiceCache.SharedMemory

/-- A memfd: its length, and its bytes, which are zero from the length on. -/
@[ext]
structure Memfd where
  len : Nat
  byte : Nat → UInt8
  zero_past : ∀ i, len ≤ i → byte i = 0

namespace Memfd

/-- `ftruncate`: the bytes cut off are gone, new ones are holes. -/
@[simps]
def setLen (f : Memfd) (n : Nat) : Memfd where
  len := n
  byte i := if i < n then f.byte i else 0
  zero_past _ h := if_neg (Nat.not_lt.mpr h)

/-- A memfd that holds nothing but holes. -/
@[simps]
def zeros (n : Nat) : Memfd where
  len := n
  byte _ := 0
  zero_past _ _ := rfl

def empty : Memfd := zeros 0

/-- `pwrite` of all of `bs`; writing nothing does not extend the file. -/
@[simps]
def writeAt (f : Memfd) (at_ : Nat) (bs : List UInt8) : Memfd where
  len := if bs = [] then f.len else max f.len (at_ + bs.length)
  byte i := if at_ ≤ i ∧ i < at_ + bs.length then bs.getD (i - at_) 0 else f.byte i
  zero_past i h := by
    split at h
    next nil => rw [nil, if_neg (by simp), f.zero_past i h]
    · have past : ¬ (at_ ≤ i ∧ i < at_ + bs.length) := by omega
      rw [if_neg past, f.zero_past i (by omega)]

/-- A store through a shared mapping: it never changes the length. -/
@[simps]
def poke (f : Memfd) (at_ : Nat) (b : UInt8) : Memfd where
  len := f.len
  byte i := if i = at_ ∧ at_ < f.len then b else f.byte i
  zero_past i h := by
    rw [if_neg (by omega), f.zero_past i h]

def slice (f : Memfd) (at_ n : Nat) : List UInt8 :=
  (List.range n).map (fun i => f.byte (at_ + i))

@[simp] theorem length_slice (f : Memfd) (at_ n : Nat) : (f.slice at_ n).length = n := by
  simp [slice]

theorem getD_slice (f : Memfd) (at_ : Nat) {n i : Nat} (h : i < n) :
    (f.slice at_ n).getD i 0 = f.byte (at_ + i) := by
  simp [slice, List.getD, h]

theorem writeAt_nil (f : Memfd) (at_ : Nat) : f.writeAt at_ [] = f := by
  apply Memfd.ext
  · rfl
  · funext i
    exact if_neg (by simp)

theorem writeAt_append (f : Memfd) (at_ : Nat) (as bs : List UInt8) :
    (f.writeAt at_ as).writeAt (at_ + as.length) bs = f.writeAt at_ (as ++ bs) := by
  apply Memfd.ext
  · by_cases ha : as = []
    · simp [ha]
    · by_cases hb : bs = []
      · simp [ha, hb]
      · simp only [writeAt_len, ha, hb, if_false, List.length_append, List.append_eq_nil_iff,
          false_and]
        omega
  · funext i
    simp only [writeAt_byte, List.length_append]
    by_cases low : at_ ≤ i ∧ i < at_ + as.length
    · rw [if_neg (by omega), if_pos low, if_pos (by omega)]
      simp only [List.getD, List.getElem?_append_left (show i - at_ < as.length by omega)]
    · by_cases high : at_ + as.length ≤ i ∧ i < at_ + as.length + bs.length
      · rw [if_pos high, if_pos (by omega)]
        simp only [List.getD,
          List.getElem?_append_right (show as.length ≤ i - at_ by omega)]
        rw [show i - (at_ + as.length) = i - at_ - as.length by omega]
      · rw [if_neg high, if_neg low, if_neg (by omega)]

end Memfd

inductive Seek
  | found (offset : Nat)
  | enxio
  | failed

/-- How the kernel reports a file's extents, and how many bytes one `read_at` or
`write_at` moves. The fields say what `copy_data` relies on: what is skipped holds
zeros, and a transfer moves something. -/
structure FileOps where
  seekData : Memfd → Nat → Seek
  seekHole : Memfd → Nat → Seek
  readAt : Memfd → Nat → Nat → Nat
  writeAt : Memfd → Nat → Nat → Nat
  skipped : ∀ {f : Memfd} {offset data : Nat}, seekData f offset = .found data →
    offset ≤ data ∧ data < f.len ∧ ∀ i, offset ≤ i → i < data → f.byte i = 0
  noData : ∀ {f : Memfd} {offset : Nat}, seekData f offset = .enxio →
    ∀ i, offset ≤ i → f.byte i = 0
  reads : ∀ {f : Memfd} {at_ n : Nat}, at_ < f.len → 0 < n → 0 < readAt f at_ n
  read_le : ∀ (f : Memfd) (at_ n : Nat), readAt f at_ n ≤ n
  writes : ∀ (f : Memfd) (at_ : Nat) {n : Nat}, 0 < n → 0 < writeAt f at_ n
  write_le : ∀ (f : Memfd) (at_ n : Nat), writeAt f at_ n ≤ n

section Dense

/-! A kernel that reports no holes. -/

variable {f : Memfd} {offset data : Nat}

theorem dense_skipped (h : (if offset < f.len then Seek.found offset else .enxio) = .found data) :
    offset ≤ data ∧ data < f.len ∧ ∀ i, offset ≤ i → i < data → f.byte i = 0 := by
  split at h
  next lt =>
    obtain rfl := Seek.found.inj h
    exact ⟨Nat.le_refl _, lt, fun i low high => by omega⟩
  · cases h

theorem dense_noData (h : (if offset < f.len then Seek.found offset else .enxio) = .enxio) (i : Nat)
    (low : offset ≤ i) : f.byte i = 0 := by
  split at h
  · cases h
  · exact f.zero_past i (by omega)

end Dense

inductive IoError
  | unexpectedEof
  | writeZero
  | noHostAddress
deriving DecidableEq, Repr

variable (ops : FileOps)

/-- The inner loop of both copies: a chunk is written as often as it takes. -/
def writeAll (target : Memfd) (at_ : Nat) (chunk : List UInt8) : Except IoError Memfd :=
  if chunk = [] then .ok target
  else
    let n := ops.writeAt target at_ chunk.length
    if n = 0 then .error .writeZero
    else writeAll (target.writeAt at_ (chunk.take n)) (at_ + n) (chunk.drop n)
termination_by chunk.length
decreasing_by
  have : chunk.length ≠ 0 := fun h => ‹¬ chunk = []› (List.length_eq_zero_iff.mp h)
  simp only [List.length_drop]
  omega

def chunkSize : Nat := 64 * 1024

def copyPlain (source target : Memfd) (offset len : Nat) : Except IoError Memfd :=
  if offset < len then
    let read := ops.readAt source offset (min (len - offset) chunkSize)
    if read = 0 then .error .unexpectedEof
    else do
      let written ← writeAll ops target offset (source.slice offset read)
      copyPlain source written (offset + read) len
  else .ok target
termination_by len - offset

def copyExtent (source target : Memfd) (at_ hole : Nat) : Except IoError Memfd :=
  if at_ < hole then
    let read := ops.readAt source at_ (min (hole - at_) chunkSize)
    if read = 0 then .error .unexpectedEof
    else if (source.slice at_ read).any (fun b => b ≠ 0) then do
      let written ← writeAll ops target at_ (source.slice at_ read)
      copyExtent source written (at_ + read) hole
    else copyExtent source target (at_ + read) hole
  else .ok target
termination_by hole - at_

def copyData (source target : Memfd) (offset len : Nat) : Except IoError Memfd :=
  if offset < len then
    match _hd : ops.seekData source offset with
    | .enxio => .ok target
    | .failed => copyPlain ops source target offset len
    | .found data =>
      match ops.seekHole source data with
      | .found hole =>
        if hole ≤ data then copyPlain ops source target data len
        else do
          let copied ← copyExtent ops source target data (min hole len)
          copyData source copied (min hole len) len
      | _ => copyPlain ops source target data len
  else .ok target
termination_by len - offset
decreasing_by
  have := (ops.skipped _hd).1
  omega

theorem writeAll_eq (target : Memfd) (at_ : Nat) (chunk : List UInt8) :
    writeAll ops target at_ chunk = .ok (target.writeAt at_ chunk) := by
  fun_induction writeAll ops target at_ chunk with
  | case1 target at_ => rw [Memfd.writeAt_nil]
  | case2 target at_ chunk nonempty n zero =>
    have pos := ops.writes target at_ (List.length_pos_iff.mpr nonempty)
    omega
  | case3 target at_ chunk nonempty n some ih =>
    have le : n ≤ chunk.length := ops.write_le target at_ chunk.length
    have whole := target.writeAt_append at_ (chunk.take n) (chunk.drop n)
    rw [List.length_take, Nat.min_eq_left le, List.take_append_drop] at whole
    rw [ih, whole]

def CopiedTo (source target : Memfd) (k : Nat) : Prop :=
  target.len = source.len ∧ ∀ i, target.byte i = if i < k then source.byte i else 0

variable {ops} {source target : Memfd} {k : Nat}

def Upto (source target : Memfd) (k : Nat) : Prop :=
  ∀ i, target.byte i = if i < k then source.byte i else 0

theorem Upto.skip {l : Nat} (h : Upto source target k) (le : k ≤ l)
    (zero : ∀ i, k ≤ i → i < l → source.byte i = 0) : Upto source target l := by
  intro i
  rw [h i]
  by_cases below : i < k
  · rw [if_pos below, if_pos (by omega)]
  · rw [if_neg below]
    split
    next within => exact (zero i (by omega) within).symm
    · rfl

theorem Upto.write (h : Upto source target k) (n : Nat) :
    Upto source (target.writeAt k (source.slice k n)) (k + n) := by
  intro i
  rw [Memfd.writeAt_byte, h i, Memfd.length_slice]
  by_cases within : k ≤ i ∧ i < k + n
  · rw [if_pos within, if_pos within.2, Memfd.getD_slice _ _ (by omega),
      Nat.add_sub_cancel' within.1]
  · rw [if_neg within]
    by_cases below : i < k
    · rw [if_pos below, if_pos (by omega)]
    · rw [if_neg below, if_neg (by omega)]

theorem CopiedTo.zeros (source : Memfd) : CopiedTo source (Memfd.zeros source.len) 0 :=
  ⟨rfl, fun i => by simp⟩

theorem CopiedTo.write (h : CopiedTo source target k) {n : Nat} (le : k + n ≤ source.len) :
    CopiedTo source (target.writeAt k (source.slice k n)) (k + n) := by
  refine ⟨?_, Upto.write h.2 n⟩
  rw [Memfd.writeAt_len, h.1, Memfd.length_slice]
  split
  · rfl
  · omega

theorem CopiedTo.skip (h : CopiedTo source target k) {m : Nat} (le : k ≤ m)
    (zero : ∀ i, k ≤ i → i < m → source.byte i = 0) : CopiedTo source target m :=
  ⟨h.1, Upto.skip h.2 le zero⟩

theorem CopiedTo.eq (h : CopiedTo source target k) (le : source.len ≤ k) : target = source := by
  apply Memfd.ext h.1
  funext i
  rw [h.2]
  split
  · rfl
  · exact (source.zero_past i (by omega)).symm

theorem copyPlain_eq {offset : Nat} (h : CopiedTo source target offset) :
    copyPlain ops source target offset source.len = .ok source := by
  fun_induction copyPlain ops source target offset source.len with
  | case1 target offset more read zero =>
    have pos := ops.reads (f := source) more (show 0 < min (source.len - offset) chunkSize by
      unfold chunkSize; omega)
    omega
  | case2 target offset more read some ih =>
    have le : read ≤ min (source.len - offset) chunkSize := ops.read_le _ _ _
    rw [writeAll_eq]
    exact ih _ (h.write (by omega))
  | case3 target offset done => exact congrArg _ (h.eq (by omega))

theorem copyExtent_copies (ops : FileOps) {at_ hole : Nat} (h : CopiedTo source target at_)
    (le : hole ≤ source.len) (at_le : at_ ≤ hole) :
    ∃ copied, copyExtent ops source target at_ hole = .ok copied ∧
      CopiedTo source copied hole := by
  fun_induction copyExtent ops source target at_ hole with
  | case1 target at_ more read zero =>
    have pos := ops.reads (f := source) (Nat.lt_of_lt_of_le more le)
      (show 0 < min (hole - at_) chunkSize by unfold chunkSize; omega)
    omega
  | case2 target at_ more read some data ih =>
    have bound : read ≤ min (hole - at_) chunkSize := ops.read_le _ _ _
    rw [writeAll_eq]
    exact ih _ (h.write (by omega)) (by omega)
  | case3 target at_ more read some zeros ih =>
    have bound : read ≤ min (hole - at_) chunkSize := ops.read_le _ _ _
    refine ih (h.skip (by omega) fun i low high => ?_) (by omega)
    by_contra nonzero
    apply zeros
    rw [List.any_eq_true]
    exact ⟨source.byte i, List.mem_map.mpr ⟨i - at_, by simp; omega, by
      rw [Nat.add_sub_cancel' low]⟩, by simpa using nonzero⟩
  | case4 target at_ done =>
    have : at_ = hole := by omega
    exact ⟨target, rfl, this ▸ h⟩

theorem copyData_eq (ops : FileOps) {offset : Nat} (h : CopiedTo source target offset) :
    copyData ops source target offset source.len = .ok source := by
  fun_induction copyData ops source target offset source.len with
  | case1 target offset more noData =>
    have rest := h.skip (m := source.len) (by omega) fun i low _ => ops.noData noData i low
    exact congrArg _ (rest.eq (Nat.le_refl _))
  | case2 target offset more failed => exact copyPlain_eq h
  | case3 target offset more data found hole holeFound noHole =>
    exact copyPlain_eq (h.skip (ops.skipped found).1 (ops.skipped found).2.2)
  | case4 target offset more data found hole holeFound extent ih =>
    obtain ⟨le, inside, zero⟩ := ops.skipped found
    obtain ⟨copied, copy, upTo⟩ := copyExtent_copies ops (h.skip le zero)
      (Nat.min_le_right hole source.len) (by omega)
    rw [copy]
    exact ih _ upTo
  | case5 target offset more data found noHole =>
    exact copyPlain_eq (h.skip (ops.skipped found).1 (ops.skipped found).2.2)
  | case6 target offset done => exact congrArg _ (h.eq (by omega))

end ServiceCache.SharedMemory
