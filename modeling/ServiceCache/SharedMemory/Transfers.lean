import ServiceCache.SharedMemory.Memfd

/-!
# The sparse copy, call by call

Here a transfer may move less than it was asked to, differently each time it is asked, and may be
interrupted, which ends the copy. The copy of a kernel that does not interrupt is the one in
`Memfd`.
-/

namespace ServiceCache.SharedMemory.Transfers

inductive Transfer
  | moved (n : Nat)
  | interrupted
  deriving DecidableEq, Repr

/-- What the kernel answers, which may depend on anything it has done before. Its laws are
those of `FileOps`, for the transfers that were not interrupted. -/
structure Kernel (σ : Type) where
  seekData : σ → Memfd → Nat → Seek × σ
  seekHole : σ → Memfd → Nat → Seek × σ
  readAt : σ → Memfd → Nat → Nat → Transfer × σ
  writeAt : σ → Memfd → Nat → Nat → Transfer × σ
  skipped : ∀ {k k' : σ} {f : Memfd} {offset data : Nat},
    seekData k f offset = (.found data, k') →
      offset ≤ data ∧ ∀ i, offset ≤ i → i < data → f.byte i = 0
  noData : ∀ {k k' : σ} {f : Memfd} {offset : Nat}, seekData k f offset = (.enxio, k') →
    ∀ i, offset ≤ i → f.byte i = 0
  reads : ∀ {k k' : σ} {f : Memfd} {at_ n r : Nat}, readAt k f at_ n = (.moved r, k') →
    r ≤ n ∧ (at_ < f.len → 0 < n → 0 < r)
  writes : ∀ {k k' : σ} {f : Memfd} {at_ n r : Nat}, writeAt k f at_ n = (.moved r, k') →
    r ≤ n ∧ (0 < n → 0 < r)

structure Call where
  isWrite : Bool
  at_ : Nat
  amount : Nat
  answer : Transfer
  deriving DecidableEq, Repr

inductive CopyError
  | unexpectedEof
  | writeZero
  | interrupted
  deriving DecidableEq, Repr

/-- The file that is written, the kernel, and, as history, the transfers, the latest first. -/
structure Machine (σ : Type) where
  target : Memfd
  kernel : σ
  calls : List Call := []

abbrev Out (σ : Type) := Except CopyError Unit × Machine σ

/-! ## The source -/

section Source

variable {σ : Type} (K : Kernel σ)

def Machine.read (m : Machine σ) (source : Memfd) (at_ n : Nat) : Transfer × Machine σ :=
  let (answer, kernel) := K.readAt m.kernel source at_ n
  (answer, { m with kernel, calls := ⟨false, at_, n, answer⟩ :: m.calls })

def Machine.write (m : Machine σ) (at_ n : Nat) : Transfer × Machine σ :=
  let (answer, kernel) := K.writeAt m.kernel m.target at_ n
  (answer, { m with kernel, calls := ⟨true, at_, n, answer⟩ :: m.calls })

def Machine.store (m : Machine σ) (at_ : Nat) (bs : List UInt8) : Machine σ :=
  { m with target := m.target.writeAt at_ bs }

def andThen (out : Out σ) (next : Machine σ → Out σ) : Out σ :=
  match out with
  | (.ok (), m) => next m
  | (.error e, m) => (.error e, m)

def writeAll (m : Machine σ) (at_ : Nat) (chunk : List UInt8) : Out σ :=
  if chunk = [] then (.ok (), m)
  else
    match m.write K at_ chunk.length with
    | (.interrupted, m) => (.error .interrupted, m)
    | (.moved n, m) =>
      if n = 0 then (.error .writeZero, m)
      else writeAll (m.store at_ (chunk.take n)) (at_ + n) (chunk.drop n)
termination_by chunk.length
decreasing_by
  have : chunk.length ≠ 0 := fun h => ‹¬ chunk = []› (List.length_eq_zero_iff.mp h)
  simp only [List.length_drop]
  omega

def copyPlain (source : Memfd) (m : Machine σ) (offset len : Nat) : Out σ :=
  if offset < len then
    match m.read K source offset (min (len - offset) chunkSize) with
    | (.interrupted, m) => (.error .interrupted, m)
    | (.moved read, m) =>
      if read = 0 then (.error .unexpectedEof, m)
      else andThen (writeAll K m offset (source.slice offset read)) fun m =>
        copyPlain source m (offset + read) len
  else (.ok (), m)
termination_by len - offset

def copyExtent (source : Memfd) (m : Machine σ) (at_ hole : Nat) : Out σ :=
  if at_ < hole then
    match m.read K source at_ (min (hole - at_) chunkSize) with
    | (.interrupted, m) => (.error .interrupted, m)
    | (.moved read, m) =>
      if read = 0 then (.error .unexpectedEof, m)
      else if (source.slice at_ read).any (fun b => b ≠ 0) then
        andThen (writeAll K m at_ (source.slice at_ read)) fun m =>
          copyExtent source m (at_ + read) hole
      else copyExtent source m (at_ + read) hole
  else (.ok (), m)
termination_by hole - at_

def copyData (source : Memfd) (m : Machine σ) (offset len : Nat) : Out σ :=
  if offset < len then
    match _hd : K.seekData m.kernel source offset with
    | (.enxio, kernel) => (.ok (), { m with kernel })
    | (.failed, kernel) => copyPlain K source { m with kernel } offset len
    | (.found data, kernel) =>
      match K.seekHole kernel source data with
      | (.found hole, kernel) =>
        if hole ≤ data then copyPlain K source { m with kernel } data len
        else
          andThen (copyExtent K source { m with kernel } data (min hole len)) fun m =>
            copyData source m (min hole len) len
      | (_, kernel) => copyPlain K source { m with kernel } data len
  else (.ok (), m)
termination_by len - offset
decreasing_by
  have := (K.skipped _hd).1
  omega

end Source

/-! ## The contract -/

def Call.Within (len : Nat) (c : Call) : Prop := c.isWrite = true → c.at_ + c.amount ≤ len

section Contract

variable {σ : Type}

structure Copying (source : Memfd) (len : Nat) (m : Machine σ) (k : Nat) : Prop where
  within : ∀ c ∈ m.calls, c.Within len
  clear : ∀ c ∈ m.calls, c.answer ≠ .interrupted
  upto : Upto source m.target k

def Kernel.Interrupts (K : Kernel σ) (c : Call) : Prop :=
  c.answer = .interrupted ∧ ∃ k f,
    (if c.isWrite then K.writeAt k f c.at_ c.amount else K.readAt k f c.at_ c.amount).1 =
      .interrupted

structure Stopped (K : Kernel σ) (source : Memfd) (len : Nat) (m : Machine σ) : Prop where
  within : ∀ c ∈ m.calls, c.Within len
  cut : ∃ c ∈ m.calls, K.Interrupts c
  upto : ∃ k ≤ len, Upto source m.target k

def Ends (K : Kernel σ) (source : Memfd) (len goal : Nat) (out : Out σ) : Prop :=
  out.1 = .ok () ∧ Copying source len out.2 goal ∨
    out.1 = .error .interrupted ∧ Stopped K source len out.2

variable {K : Kernel σ} {source : Memfd} {len goal goal' at_ n r : Nat} {m m' : Machine σ}

theorem Ends.andThen {out : Out σ} {next : Machine σ → Out σ} (first : Ends K source len goal out)
    (then_ : ∀ m, Copying source len m goal → Ends K source len goal' (next m)) :
    Ends K source len goal' (andThen out next) := by
  obtain ⟨result, m⟩ := out
  rcases first with ⟨rfl, copying⟩ | ⟨rfl, stopped⟩
  · exact then_ m copying
  · exact .inr ⟨rfl, stopped⟩

theorem Copying.kernel (h : Copying source len m goal) (kernel : σ) :
    Copying source len { m with kernel } goal :=
  ⟨h.within, h.clear, h.upto⟩

theorem Copying.skip {k l : Nat} (h : Copying source len m k) (le : k ≤ l)
    (zero : ∀ i, k ≤ i → i < l → source.byte i = 0) : Copying source len m l :=
  ⟨h.within, h.clear, h.upto.skip le zero⟩

/-! ## One transfer -/

theorem Copying.log {kernel : σ} (h : Copying source len m goal) (c : Call) (fits : c.Within len)
    (through : c.answer ≠ .interrupted) :
    Copying source len { m with kernel, calls := c :: m.calls } goal := by
  refine ⟨?_, ?_, h.upto⟩
  · intro d mem
    rcases List.mem_cons.mp mem with rfl | mem
    · exact fits
    · exact h.within d mem
  · intro d mem
    rcases List.mem_cons.mp mem with rfl | mem
    · exact through
    · exact h.clear d mem

theorem Copying.cut {kernel : σ} (h : Copying source len m goal) (le : goal ≤ len) (c : Call)
    (fits : c.Within len) (cut : K.Interrupts c) :
    Stopped K source len { m with kernel, calls := c :: m.calls } := by
  refine ⟨?_, ⟨c, List.mem_cons_self, cut⟩, goal, le, h.upto⟩
  intro d mem
  rcases List.mem_cons.mp mem with rfl | mem
  · exact fits
  · exact h.within d mem

theorem read_moved (h : Copying source len m goal)
    (call : m.read K source at_ n = (.moved r, m')) :
    Copying source len m' goal ∧ r ≤ n ∧ (at_ < source.len → 0 < n → 0 < r) := by
  unfold Machine.read at call
  cases answered : K.readAt m.kernel source at_ n with
  | mk answer kernel =>
    rw [answered] at call
    obtain ⟨rfl, rfl⟩ := Prod.mk.inj call
    exact ⟨h.log _ (fun never => by cases never) (fun never => by cases never),
      K.reads answered⟩

theorem read_cut (h : Copying source len m goal) (le : goal ≤ len)
    (call : m.read K source at_ n = (.interrupted, m')) : Stopped K source len m' := by
  unfold Machine.read at call
  cases answered : K.readAt m.kernel source at_ n with
  | mk answer kernel =>
    rw [answered] at call
    obtain ⟨rfl, rfl⟩ := Prod.mk.inj call
    exact h.cut le _ (fun never => by cases never) ⟨rfl, _, _, congrArg Prod.fst answered⟩

theorem write_moved (h : Copying source len m goal) (fits : at_ + n ≤ len)
    (call : m.write K at_ n = (.moved r, m')) :
    Copying source len m' goal ∧ r ≤ n ∧ (0 < n → 0 < r) := by
  unfold Machine.write at call
  cases answered : K.writeAt m.kernel m.target at_ n with
  | mk answer kernel =>
    rw [answered] at call
    obtain ⟨rfl, rfl⟩ := Prod.mk.inj call
    exact ⟨h.log _ (fun _ => fits) (fun never => by cases never), K.writes answered⟩

theorem write_cut (h : Copying source len m goal) (le : goal ≤ len) (fits : at_ + n ≤ len)
    (call : m.write K at_ n = (.interrupted, m')) : Stopped K source len m' := by
  unfold Machine.write at call
  cases answered : K.writeAt m.kernel m.target at_ n with
  | mk answer kernel =>
    rw [answered] at call
    obtain ⟨rfl, rfl⟩ := Prod.mk.inj call
    exact h.cut le _ (fun _ => fits) ⟨rfl, _, _, congrArg Prod.fst answered⟩

/-! ## The loops -/

theorem slice_take (f : Memfd) (at_ : Nat) {n r : Nat} (le : r ≤ n) :
    (f.slice at_ n).take r = f.slice at_ r := by
  rw [Memfd.slice, ← List.map_take, List.take_range, Nat.min_eq_left le]
  rfl

theorem slice_drop (f : Memfd) (at_ n r : Nat) :
    (f.slice at_ n).drop r = f.slice (at_ + r) (n - r) := by
  refine List.ext_getElem (by simp) ?_
  intro i _ _
  simp [Memfd.slice, Nat.add_assoc]

theorem writeAll_ends (chunk : List UInt8) (is : chunk = source.slice at_ n)
    (fits : at_ + n ≤ len) (h : Copying source len m at_) :
    Ends K source len (at_ + n) (writeAll K m at_ chunk) := by
  fun_induction writeAll K m at_ chunk generalizing n with
  | case1 m at_ =>
    have none : n = 0 := by simpa using congrArg List.length is.symm
    subst none
    exact .inl ⟨rfl, h⟩
  | case2 m at_ chunk some_ m' call =>
    subst is
    rw [Memfd.length_slice] at call
    exact .inr ⟨rfl, write_cut h (by omega) fits call⟩
  | case3 m at_ chunk some_ m' call =>
    subst is
    rw [Memfd.length_slice] at call
    have amount : n ≠ 0 := by
      rintro rfl
      exact some_ rfl
    have moved := (write_moved h fits call).2.2 (by omega)
    omega
  | case4 m at_ chunk some_ r m' call moved ih =>
    subst is
    rw [Memfd.length_slice] at call
    obtain ⟨copying, le, -⟩ := write_moved h fits call
    rw [slice_take _ _ le, slice_drop] at ih
    have stored : Copying source len (m'.store at_ (source.slice at_ r)) (at_ + r) :=
      ⟨copying.within, copying.clear, copying.upto.write r⟩
    have ends := ih rfl (by omega) stored
    rw [Nat.add_assoc, Nat.add_sub_cancel' le] at ends
    rw [slice_take _ _ le, slice_drop]
    exact ends

theorem copyPlain_ends {offset : Nat} (whole : len ≤ source.len)
    (h : Copying source len m (min offset len)) :
    Ends K source len len (copyPlain K source m offset len) := by
  fun_induction copyPlain K source m offset len with
  | case1 m offset more m' call =>
    rw [Nat.min_eq_left (Nat.le_of_lt more)] at h
    exact .inr ⟨rfl, read_cut h (Nat.le_of_lt more) call⟩
  | case2 m offset more m' call =>
    have moved := (read_moved h call).2.2 (by omega) (by unfold chunkSize; omega)
    omega
  | case3 m offset more read m' call moved ih =>
    rw [Nat.min_eq_left (Nat.le_of_lt more)] at h
    obtain ⟨copying, le, -⟩ := read_moved h call
    have fits : offset + read ≤ len := by omega
    have ends := writeAll_ends (K := K) (source.slice offset read) rfl fits copying
    rw [Nat.min_eq_left fits] at ih
    exact ends.andThen ih
  | case4 m offset done =>
    rw [Nat.min_eq_right (Nat.le_of_not_lt done)] at h
    exact .inl ⟨rfl, h⟩

theorem zero_of_any (zeros : ¬ (source.slice at_ n).any (fun b => b ≠ 0) = true) (i : Nat)
    (low : at_ ≤ i) (high : i < at_ + n) : source.byte i = 0 := by
  by_contra nonzero
  apply zeros
  rw [List.any_eq_true]
  refine ⟨source.byte i, List.mem_map.mpr ⟨i - at_, List.mem_range.mpr (by omega), ?_⟩, ?_⟩
  · rw [Nat.add_sub_cancel' low]
  · exact decide_eq_true nonzero

theorem copyExtent_ends {hole : Nat} (whole : len ≤ source.len) (fits : hole ≤ len)
    (h : Copying source len m (min at_ hole)) :
    Ends K source len hole (copyExtent K source m at_ hole) := by
  fun_induction copyExtent K source m at_ hole with
  | case1 m at_ more m' call =>
    exact .inr ⟨rfl, read_cut h (Nat.le_trans (Nat.min_le_right _ _) fits) call⟩
  | case2 m at_ more m' call =>
    have moved := (read_moved h call).2.2 (by omega) (by unfold chunkSize; omega)
    omega
  | case3 m at_ more read m' call moved data ih =>
    rw [Nat.min_eq_left (Nat.le_of_lt more)] at h
    obtain ⟨copying, le, -⟩ := read_moved h call
    have inside : at_ + read ≤ hole := by omega
    have ends := writeAll_ends (K := K) (source.slice at_ read) rfl
      (Nat.le_trans inside fits) copying
    rw [Nat.min_eq_left inside] at ih
    exact ends.andThen ih
  | case4 m at_ more read m' call moved zeros ih =>
    rw [Nat.min_eq_left (Nat.le_of_lt more)] at h
    obtain ⟨copying, le, -⟩ := read_moved h call
    have inside : at_ + read ≤ hole := by omega
    rw [Nat.min_eq_left inside] at ih
    exact ih (copying.skip (Nat.le_add_right _ _) (zero_of_any zeros))
  | case5 m at_ done =>
    rw [Nat.min_eq_right (Nat.le_of_not_lt done)] at h
    exact .inl ⟨rfl, h⟩

theorem copyData_ends {offset : Nat} (whole : len ≤ source.len) (below : offset ≤ len)
    (h : Copying source len m offset) :
    Ends K source len len (copyData K source m offset len) := by
  -- what lies before the next data is zero, up to the length at least
  have skip {m : Machine σ} {offset data stop : Nat} {k k' : σ}
      (h : Copying source len m offset) (seek : K.seekData k source offset = (.found data, k'))
      (more : offset ≤ stop) (kernel : σ) :
      Copying source len { m with kernel } (min data stop) := by
    obtain ⟨le, zero⟩ := K.skipped seek
    refine (h.kernel kernel).skip (Nat.le_min.mpr ⟨le, more⟩) ?_
    intro i low high
    exact zero i low (Nat.lt_of_lt_of_le high (Nat.min_le_left _ _))
  fun_induction copyData K source m offset len with
  | case1 m offset more kernel seek =>
    refine .inl ⟨rfl, (h.kernel kernel).skip below ?_⟩
    intro i low _
    exact K.noData seek i low
  | case2 m offset more kernel seek =>
    refine copyPlain_ends whole ?_
    rw [Nat.min_eq_left below]
    exact h.kernel kernel
  | case3 m offset more data kernel seek hole kernel' holeSeek noHole =>
    exact copyPlain_ends whole (skip h seek below kernel')
  | case4 m offset more data kernel seek hole kernel' holeSeek extent ih =>
    have reached : offset ≤ min hole len := by
      have := (K.skipped seek).1
      omega
    have ends := copyExtent_ends (K := K) whole (Nat.min_le_right hole len)
      (skip h seek reached kernel')
    exact ends.andThen fun m copying => ih m (Nat.min_le_right hole len) copying
  | case5 m offset more data kernel seek kernel' answer holeSeek noHole =>
    exact copyPlain_ends whole (skip h seek below _)
  | case6 m offset done =>
    have there : offset = len := by omega
    exact .inl ⟨rfl, there ▸ h⟩

theorem copy_ends {target : Memfd} (k : σ) (whole : len ≤ source.len)
    (zeros : ∀ i, target.byte i = 0) :
    Ends K source len len (copyData K source ⟨target, k, []⟩ 0 len) := by
  refine copyData_ends whole (Nat.zero_le len) ⟨by simp, by simp, ?_⟩
  intro i
  rw [zeros i, if_neg (Nat.not_lt_zero i)]

end Contract

/-! ## Kernels that do not interrupt -/

/-- The kernel that answers as the operations of `Memfd` do. -/
def ofOps (ops : FileOps) : Kernel Unit where
  seekData _ f offset := (ops.seekData f offset, ())
  seekHole _ f offset := (ops.seekHole f offset, ())
  readAt _ f at_ n := (.moved (ops.readAt f at_ n), ())
  writeAt _ f at_ n := (.moved (ops.writeAt f at_ n), ())
  skipped found := by
    obtain ⟨le, -, zero⟩ := ops.skipped (congrArg Prod.fst found)
    exact ⟨le, zero⟩
  noData none := ops.noData (congrArg Prod.fst none)
  reads moved := by
    cases moved
    exact ⟨ops.read_le _ _ _, fun inside some_ => ops.reads inside some_⟩
  writes moved := by
    cases moved
    exact ⟨ops.write_le _ _ _, fun some_ => ops.writes _ _ some_⟩

theorem ofOps_not_interrupts (ops : FileOps) (c : Call) : ¬ (ofOps ops).Interrupts c := by
  rintro ⟨-, _, _, answer⟩
  split at answer
  · cases answer
  · cases answer

/-- Without interruptions, the copy call by call makes the file that `Memfd` has it make. -/
theorem copyData_ofOps (ops : FileOps) (source : Memfd) :
    SharedMemory.copyData ops source (.zeros source.len) 0 source.len = .ok source ∧
      (copyData (ofOps ops) source ⟨.zeros source.len, (), []⟩ 0 source.len).1 = .ok () ∧
      (copyData (ofOps ops) source ⟨.zeros source.len, (), []⟩ 0 source.len).2.target.byte =
        source.byte := by
  have ends : Ends (ofOps ops) source source.len source.len _ :=
    copy_ends () (Nat.le_refl _) fun i => Memfd.zeros_byte source.len i
  rcases ends with ⟨result, copied⟩ | ⟨-, stopped⟩
  · refine ⟨copyData_eq ops (.zeros source), result, ?_⟩
    funext i
    rw [copied.upto i]
    split
    · rfl
    next past => exact (source.zero_past i (Nat.le_of_not_lt past)).symm
  · obtain ⟨c, -, cut⟩ := stopped.cut
    exact absurd cut (ofOps_not_interrupts ops c)

/-- A copy into zeros ends, whatever the kernel does. It writes nothing at or past the length.
If no transfer was interrupted, the target holds the source up to the length; otherwise the
interruption is what the copy returns. -/
theorem copy_ends_copied_or_interrupted {σ : Type} (K : Kernel σ) (k : σ) (source target : Memfd)
    (len : Nat) (whole : len ≤ source.len) (zeros : ∀ i, target.byte i = 0) :
    let out := copyData K source ⟨target, k, []⟩ 0 len
    ((∀ c ∈ out.2.calls, c.Within len) ∧ ∀ i, len ≤ i → out.2.target.byte i = 0) ∧
      ((out.1 = .ok () ∧ (∀ c ∈ out.2.calls, c.answer ≠ .interrupted) ∧
          ∀ i, i < len → out.2.target.byte i = source.byte i) ∨
        (out.1 = .error .interrupted ∧ ∃ c ∈ out.2.calls, K.Interrupts c)) := by
  intro out
  have ends : Ends K source len len out := copy_ends k whole zeros
  rcases ends with ⟨result, copied⟩ | ⟨result, stopped⟩
  · refine ⟨⟨copied.within, ?_⟩, .inl ⟨result, copied.clear, ?_⟩⟩
    · intro i past
      rw [copied.upto i, if_neg (Nat.not_lt.mpr past)]
    · intro i below
      rw [copied.upto i, if_pos below]
  · obtain ⟨reached, le, upto⟩ := stopped.upto
    refine ⟨⟨stopped.within, ?_⟩, .inr ⟨result, stopped.cut⟩⟩
    intro i past
    rw [upto i, if_neg (by omega)]

/-- A kernel that reports every byte as data and moves one byte at a time. -/
def byByte : FileOps where
  seekData f offset := if offset < f.len then .found offset else .enxio
  seekHole f _ := .found f.len
  readAt _ _ n := min n 1
  writeAt _ _ n := min n 1
  skipped := @dense_skipped
  noData := @dense_noData
  reads _ some_ := by omega
  read_le _ _ n := Nat.min_le_left n 1
  writes _ _ _ some_ := by omega
  write_le _ _ n := Nat.min_le_left n 1

def twoBytes : Memfd := (Memfd.zeros 0).writeAt 0 [7, 8]

theorem copy_ends_copied_by_byte :
    let out := copyData (ofOps byByte) twoBytes ⟨.zeros 2, (), []⟩ 0 2
    out.1 = .ok () ∧ out.2.target.byte 0 = 7 ∧ out.2.target.byte 1 = 8 := by
  obtain ⟨-, ⟨result, -, copied⟩ | ⟨-, c, -, cut⟩⟩ := copy_ends_copied_or_interrupted
    (ofOps byByte) () twoBytes (.zeros 2) 2 (by decide) (Memfd.zeros_byte 2)
  · exact ⟨result, copied 0 (by decide), copied 1 (by decide)⟩
  · exact absurd cut (ofOps_not_interrupts byByte c)

def interrupting : Kernel Bool where
  seekData k f offset := (byByte.seekData f offset, k)
  seekHole k f offset := (byByte.seekHole f offset, k)
  readAt k f at_ n := (if k then .moved (byByte.readAt f at_ n) else .interrupted, true)
  writeAt k f at_ n := (.moved (byByte.writeAt f at_ n), k)
  skipped found := by
    obtain ⟨le, -, zero⟩ := byByte.skipped (congrArg Prod.fst found)
    exact ⟨le, zero⟩
  noData none := byByte.noData (congrArg Prod.fst none)
  reads {k k' f at_ n r} moved := by
    cases k with
    | true =>
      cases moved
      exact ⟨byByte.read_le _ _ _, fun inside some_ => byByte.reads inside some_⟩
    | false => cases moved
  writes moved := by
    cases moved
    exact ⟨byByte.write_le _ _ _, fun some_ => byByte.writes _ _ some_⟩

/-- One interruption, and the copy ends with nothing copied. -/
theorem interrupted_copy_left_empty :
    let out := copyData interrupting twoBytes ⟨.zeros 2, false, []⟩ 0 2
    out.1 = .error .interrupted ∧ out.2.target.byte 0 = 0 ∧ twoBytes.byte 0 = 7 := by
  intro out
  have cut : copyExtent interrupting twoBytes ⟨.zeros 2, false, []⟩ 0 2 =
      (.error .interrupted, ⟨.zeros 2, true, [⟨false, 0, 2, .interrupted⟩]⟩) := by
    rw [copyExtent]
    rfl
  have ends : out = (.error .interrupted, ⟨.zeros 2, true, [⟨false, 0, 2, .interrupted⟩]⟩) := by
    change copyData interrupting twoBytes ⟨.zeros 2, false, []⟩ 0 2 = _
    rw [copyData]
    change andThen (copyExtent interrupting twoBytes ⟨.zeros 2, false, []⟩ 0 2) _ = _
    rw [cut]
    rfl
  rw [ends]
  exact ⟨rfl, rfl, rfl⟩

end ServiceCache.SharedMemory.Transfers
