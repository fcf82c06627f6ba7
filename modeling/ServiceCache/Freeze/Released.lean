import Mathlib.Data.List.Pairwise
import ServiceCache.Freeze.Extents

/-!
# What the compaction releases

The scan of a memory is a pass over its pages that gathers the pages to release into runs,
`Ranges.sweep`, cut anywhere into blocks. What a block looks at has not been released yet.
-/

namespace ServiceCache.Freeze

open Ranges

/-! ## The pages to release -/

section Pages

variable (z : PageSizes) (h : Host) (m : MemoryScan)

def MemoryScan.resident (i : Nat) : Bool := isResident (h.core (m.addr z i))

def MemoryScan.zero (i : Nat) : Bool := h.isZero (m.addr z i) z.page

def MemoryScan.blockOf (i : Nat) : Nat := m.addr z i / z.hugePage

def MemoryScan.blockFirst (i : Nat) : Nat := (m.blockOf z i * z.hugePage - m.base) / z.page

def MemoryScan.Whole (e : Range) (i : Nat) : Prop :=
  m.addr z e.1 ≤ m.blockOf z i * z.hugePage ∧ (m.blockOf z i + 1) * z.hugePage ≤ m.addr z e.2

def MemoryScan.Kept (i : Nat) : Prop :=
  (∃ e ∈ m.extents, m.Whole z e i) ∧
    (∀ k < z.blockPages, m.resident z h (m.blockFirst z i + k) = true) ∧
    m.spareFullBlocks (m.blockFirst z i) = true ∧
    ¬ ∀ k < z.blockPages, m.zero z h (m.blockFirst z i + k) = true

def MemoryScan.Releasable (i : Nat) : Prop :=
  Covered m.extents i ∧ m.resident z h i = true ∧ m.zero z h i = true ∧ ¬ m.Kept z h i

instance (e : Range) (i : Nat) : Decidable (m.Whole z e i) :=
  inferInstanceAs (Decidable (_ ∧ _))

instance (i : Nat) : Decidable (m.Kept z h i) := inferInstanceAs (Decidable (_ ∧ _))

instance (i : Nat) : Decidable (m.Releasable z h i) := inferInstanceAs (Decidable (_ ∧ _))

def MemoryScan.releases (i : Nat) : Bool := decide (m.Releasable z h i)

end Pages

section Block

variable {z : PageSizes} {h : Host} {m : MemoryScan} {e : Range} {last : Nat}

theorem MemoryScan.addr_add (i k : Nat) : m.addr z (i + k) = m.addr z i + k * z.page := by
  unfold addr
  rw [Nat.add_mul, Nat.add_assoc]

structure MemoryScan.FullBlock (z : PageSizes) (m : MemoryScan) (last : Nat) : Prop where
  first : m.addr z m.next = m.blockOf z m.next * z.hugePage
  ends : m.addr z last = (m.blockOf z m.next + 1) * z.hugePage

theorem MemoryScan.FullBlock.length (full : m.FullBlock z last) :
    (last - m.next) * z.page = z.hugePage := by
  rw [← addr_sub, full.ends, full.first, Nat.succ_mul, Nat.add_sub_cancel_left]

theorem MemoryScan.FullBlock.pages (full : m.FullBlock z last) :
    last - m.next = z.blockPages := by
  rw [PageSizes.blockPages, ← full.length, Nat.mul_div_cancel _ z.page_pos]

theorem MemoryScan.Block.fullBlock (block : m.Block z e.2 last)
    (size : m.blockEnd z e.2 - m.addr z m.next = z.hugePage) : m.FullBlock z last := by
  have pos := z.hugePage_pos
  have low : m.blockOf z m.next * z.hugePage ≤ m.addr z m.next := Nat.div_mul_le_self _ _
  have high : m.blockEnd z e.2 ≤ (m.blockOf z m.next + 1) * z.hugePage :=
    (Nat.min_le_left _ _).trans (Nat.min_le_left _ _)
  rw [Nat.succ_mul] at high
  have ends := block.ends
  refine ⟨by omega, ?_⟩
  rw [Nat.succ_mul]
  omega

theorem MemoryScan.Block.blockOf {i : Nat} (block : m.Block z e.2 last) (begun : m.next ≤ i)
    (below : i < last) : m.blockOf z i = m.blockOf z m.next :=
  block.same begun below

theorem MemoryScan.Block.fullBlock_of_whole (block : m.Block z e.2 last)
    (start : m.next = e.1 ∨ z.hugePage ∣ m.addr z m.next) (whole : m.Whole z e m.next) :
    m.FullBlock z last ∧ m.blockEnd z e.2 - m.addr z m.next = z.hugePage := by
  have first : m.addr z m.next = m.blockOf z m.next * z.hugePage := by
    rcases start with same | ⟨b, multiple⟩
    · have low : m.blockOf z m.next * z.hugePage ≤ m.addr z m.next := Nat.div_mul_le_self _ _
      have high := whole.1
      rw [← same] at high
      exact Nat.le_antisymm high low
    · rw [MemoryScan.blockOf, multiple, Nat.mul_div_cancel_left _ z.hugePage_pos, Nat.mul_comm]
  have ends : m.addr z last = (m.blockOf z m.next + 1) * z.hugePage := by
    rcases block.clipped with same | boundary
    · have high : m.blockEnd z e.2 ≤ (m.blockOf z m.next + 1) * z.hugePage :=
        (Nat.min_le_left _ _).trans (Nat.min_le_left _ _)
      have low := whole.2
      rw [block.ends, same] at high
      rw [same]
      exact Nat.le_antisymm high low
    · exact boundary
  refine ⟨⟨first, ends⟩, ?_⟩
  rw [block.ends, ends, first, Nat.succ_mul, Nat.add_sub_cancel_left]

theorem MemoryScan.FullBlock.blockFirst {i : Nat} (full : m.FullBlock z last)
    (same : m.blockOf z i = m.blockOf z m.next) : m.blockFirst z i = m.next := by
  rw [MemoryScan.blockFirst, same, ← full.first, MemoryScan.addr, Nat.add_sub_cancel_left,
    Nat.mul_div_cancel _ z.page_pos]

theorem MemoryScan.isZero_pages (i count : Nat) :
    h.isZero (m.addr z i) (count * z.page) = true ↔ ∀ k < count, m.zero z h (i + k) = true := by
  simp only [Host.isZero, MemoryScan.zero, decide_eq_true_eq, addr_add]
  constructor
  · intro all k lt j below
    rw [Nat.add_assoc]
    refine all (k * z.page + j) ?_
    calc k * z.page + j < k * z.page + z.page := Nat.add_lt_add_left below _
      _ = (k + 1) * z.page := (Nat.succ_mul k z.page).symm
      _ ≤ count * z.page := Nat.mul_le_mul_right z.page lt
  · intro all j below
    have parts := Nat.div_add_mod j z.page
    have page : j / z.page < count := Nat.div_lt_of_lt_mul (Nat.mul_comm count _ ▸ below)
    have byte := all (j / z.page) page (j % z.page) (Nat.mod_lt j z.page_pos)
    rw [Nat.add_assoc, Nat.mul_comm, parts] at byte
    exact byte

def MemoryScan.Alike (z : PageSizes) (m : MemoryScan) (h h' : Host) (first last : Nat) : Prop :=
  ∀ i, first ≤ i → i < last →
    m.resident z h i = m.resident z h' i ∧ m.zero z h i = m.zero z h' i

theorem MemoryScan.FullBlock.releases {i : Nat} (full : m.FullBlock z last)
    (mem : e ∈ m.extents) (begun : e.1 ≤ m.next) (within : last ≤ e.2) (from_ : m.next ≤ i)
    (below : i < last) (same : m.blockOf z i = m.blockOf z m.next)
    (spare : m.spareFullBlocks m.next = true)
    (resident : ∀ k < z.blockPages, m.resident z h (m.next + k) = true) :
    m.releases z h i = true ↔ ∀ k < z.blockPages, m.zero z h (m.next + k) = true := by
  have first := full.blockFirst same
  have whole : m.Whole z e i := by
    rw [MemoryScan.Whole, same, ← full.first, ← full.ends]
    exact ⟨addr_le_addr.mpr begun, addr_le_addr.mpr within⟩
  have size := full.pages
  have place : i = m.next + (i - m.next) := by omega
  have inBlock : i - m.next < z.blockPages := by omega
  rw [MemoryScan.releases, decide_eq_true_eq, MemoryScan.Releasable, MemoryScan.Kept, first]
  constructor
  · rintro ⟨-, -, -, out⟩
    by_contra notZero
    exact out ⟨⟨e, mem, whole⟩, resident, spare, notZero⟩
  · intro zero
    refine ⟨⟨e, mem, begun.trans from_, below.trans_le within⟩, ?_, ?_, fun kept => kept.2.2.2 zero⟩
    · rw [place]
      exact resident _ inBlock
    · rw [place]
      exact zero _ inBlock

theorem MemoryScan.Block.releases {i : Nat} (block : m.Block z e.2 last) (ordered : Ordered m.extents)
    (mem : e ∈ m.extents) (begun : e.1 ≤ m.next)
    (start : m.next = e.1 ∨ z.hugePage ∣ m.addr z m.next) (from_ : m.next ≤ i) (below : i < last)
    (notFull : m.blockEnd z e.2 - m.addr z m.next = z.hugePage →
      m.spareFullBlocks m.next = true →
      ¬ ∀ k < z.blockPages, m.resident z h (m.next + k) = true) :
    m.releases z h i = (m.resident z h i && m.zero z h i) := by
  have inside : Inside i e := ⟨begun.trans from_, below.trans_le block.within⟩
  have same := block.blockOf from_ below
  have notKept : ¬ m.Kept z h i := by
    rintro ⟨⟨e', mem', whole⟩, resident, spare, -⟩
    -- the extent that holds the block holds the page, so it is this one
    have inside' : Inside i e' := by
      have low : m.blockOf z i * z.hugePage ≤ m.addr z i := Nat.div_mul_le_self _ _
      have high : m.addr z i < (m.blockOf z i + 1) * z.hugePage := by
        rw [Nat.succ_mul]
        exact Nat.lt_div_mul_add z.hugePage_pos
      exact ⟨addr_le_addr.mp (whole.1.trans low), addr_lt_addr.mp (high.trans_le whole.2)⟩
    obtain rfl := ordered.unique mem' mem inside' inside
    rw [MemoryScan.Whole, same] at whole
    obtain ⟨full, size⟩ := block.fullBlock_of_whole start whole
    rw [full.blockFirst same] at resident spare
    exact notFull size spare resident
  rw [Bool.eq_iff_iff, Bool.and_eq_true, MemoryScan.releases, decide_eq_true_eq]
  exact ⟨fun ⟨_, resident, zero, _⟩ => ⟨resident, zero⟩,
    fun ⟨resident, zero⟩ => ⟨⟨e, mem, inside⟩, resident, zero, notKept⟩⟩

theorem MemoryScan.Block.toDrop {h₀ : Host} (block : m.Block z e.2 last)
    (ordered : Ordered m.extents) (mem : e ∈ m.extents) (begun : e.1 ≤ m.next)
    (start : m.next = e.1 ∨ z.hugePage ∣ m.addr z m.next) (alike : m.Alike z h h₀ m.next last) :
    h.toDrop z (m.addr z m.next)
        (m.spareFullBlocks m.next && m.blockEnd z e.2 - m.addr z m.next == z.hugePage &&
          (h.mincore z (m.addr z m.next) (last - m.next)).all isResident)
        (h.mincore z (m.addr z m.next) (last - m.next)) =
      (List.range' m.next (last - m.next)).map (m.releases z h₀) := by
  have resident : (h.mincore z (m.addr z m.next) (last - m.next)).all isResident = true ↔
      ∀ k < last - m.next, m.resident z h₀ (m.next + k) = true := by
    simp only [Host.mincore, List.all_map, List.all_eq_true, List.mem_range, Function.comp_apply,
      ← addr_add]
    refine forall₂_congr fun k lt => ?_
    exact Bool.eq_iff_iff.mp (alike (m.next + k) (by omega) (by omega)).1
  cases full : (m.spareFullBlocks m.next && m.blockEnd z e.2 - m.addr z m.next == z.hugePage &&
      (h.mincore z (m.addr z m.next) (last - m.next)).all isResident) with
  | true =>
    obtain ⟨⟨spare, size⟩, all⟩ := by simpa only [Bool.and_eq_true, beq_iff_eq] using full
    have whole := block.fullBlock size
    have zero : ∀ j < last - m.next, m.zero z h (m.next + j) = m.zero z h₀ (m.next + j) :=
      fun j lt => (alike (m.next + j) (by omega) (by omega)).2
    refine List.ext_getElem (by simp) ?_
    intro k below below'
    simp only [List.length_map, List.length_range'] at below'
    simp only [Host.toDrop, if_true, List.getElem_replicate, Host.length_mincore,
      List.getElem_map, List.getElem_range', Nat.one_mul]
    rw [Bool.eq_iff_iff, isZero_pages, whole.releases mem begun block.within (by omega) (by omega)
      (block.blockOf (by omega) (by omega)) spare (whole.pages ▸ resident.mp all), ← whole.pages]
    exact forall₂_congr fun j lt => by rw [zero j lt]
  | false =>
    refine List.ext_getElem (by simp) ?_
    intro k below below'
    simp only [List.length_map, List.length_range'] at below'
    have here : m.next + k < last := by omega
    have one := alike (m.next + k) (by omega) here
    rw [List.getElem_map, List.getElem_range', Nat.one_mul,
      block.releases ordered mem begun start (by omega) here, ← one.1, ← one.2]
    · simp only [Host.toDrop, Bool.false_eq_true, if_false, List.getElem_mapIdx, Host.mincore,
        List.getElem_map, List.getElem_range, MemoryScan.resident, MemoryScan.zero, addr_add]
    · intro size spare all
      have whole := block.fullBlock size
      rw [spare, size, resident.mpr (whole.pages ▸ all)] at full
      simp at full

end Block

/-! ## The host behind the calls made so far -/

def Hit (a : Nat) (call : Nat × Nat) : Prop := call.1 ≤ a ∧ a < call.1 + call.2

def Host.after (h : Host) (calls : List (Nat × Nat)) : Host :=
  calls.foldl (fun h call => h.madvise call.1 call.2) h

structure Host.Works (h : Host) : Prop where
  mincore : ∀ a, h.mincoreFails a = false
  madvise : ∀ a, h.madviseFails a = false

section After

variable {h : Host} {calls : List (Nat × Nat)} {a : Nat}

theorem Host.after_snoc (call : Nat × Nat) :
    h.after (calls ++ [call]) = (h.after calls).madvise call.1 call.2 := by
  simp [after]

theorem Host.after_works (works : h.Works) (calls : List (Nat × Nat)) : (h.after calls).Works := by
  induction calls generalizing h with
  | nil => exact works
  | cons call calls ih => exact ih ⟨works.mincore, works.madvise⟩

theorem Host.after_madvised : (h.after calls).madvised = h.madvised ++ calls := by
  induction calls generalizing h with
  | nil => exact (List.append_nil _).symm
  | cons call calls ih =>
    calc ((h.madvise call.1 call.2).after calls).madvised
        = (h.madvise call.1 call.2).madvised ++ calls := ih
      _ = h.madvised ++ call :: calls := by simp [madvise]

theorem Host.after_unhit (out : ∀ call ∈ calls, ¬ Hit a call) :
    (h.after calls).byte a = h.byte a ∧ (h.after calls).core a = h.core a := by
  induction calls generalizing h with
  | nil => exact ⟨rfl, rfl⟩
  | cons call calls ih =>
    obtain ⟨first, rest⟩ := List.forall_mem_cons.mp out
    obtain ⟨byte, core⟩ := ih (h := h.madvise call.1 call.2) rest
    exact ⟨byte.trans (if_neg first), core.trans (if_neg first)⟩

theorem Host.after_byte (zero : ∀ call ∈ calls, ∀ a, Hit a call → h.byte a = 0) :
    (h.after calls).byte = h.byte := by
  induction calls generalizing h with
  | nil => rfl
  | cons call calls ih =>
    obtain ⟨first, rest⟩ := List.forall_mem_cons.mp zero
    have same : (h.madvise call.1 call.2).byte = h.byte := by
      funext a
      by_cases hit : Hit a call
      · exact (if_pos hit).trans (first a hit).symm
      · exact if_neg hit
    exact (ih (same ▸ rest)).trans same

end After

/-! ## One memory -/

def MemoryScan.call (z : PageSizes) (m : MemoryScan) (r : Range) : Nat × Nat :=
  (m.addr z r.1, (r.2 - r.1) * z.page)

theorem MemoryScan.hit_call {z : PageSizes} {m : MemoryScan} {r : Range} {a : Nat}
    (le : r.1 ≤ r.2) : Hit a (m.call z r) ↔ m.addr z r.1 ≤ a ∧ a < m.addr z r.2 := by
  have ends : m.addr z r.1 + (r.2 - r.1) * z.page = m.addr z r.2 := by
    rw [← addr_add, Nat.add_sub_cancel' le]
  unfold Hit call
  rw [ends]

def MemoryScan.ledger (z : PageSizes) (h₀ : Host) (m : MemoryScan) : Ledger :=
  if m.pages ≤ m.next then (sweep (m.releases z h₀) m.pages).flush
  else sweep (m.releases z h₀) m.next

def MemoryScan.calls (z : PageSizes) (h₀ : Host) (m : MemoryScan) : List (Nat × Nat) :=
  (m.ledger z h₀).closed.map (m.call z)

structure Tracks (z : PageSizes) (h₀ : Host) (before : List (Nat × Nat)) (w : Work) (g : Ledger) :
    Prop where
  pending : w.memory.pending = g.pending
  host : w.host = h₀.after (before ++ g.closed.map (w.memory.call z))

section Tracks

variable {z : PageSizes} {h₀ : Host} {before : List (Nat × Nat)} {w : Work} {g : Ledger}

theorem Tracks.flush (works : h₀.Works) (t : Tracks z h₀ before w g) :
    Tracks z h₀ before (w.releasePending z) g.flush := by
  refine ⟨by simp [Ledger.flush], ?_⟩
  have call : (w.releasePending z).memory.call z = w.memory.call z := by
    rw [Work.releasePending_memory]
    rfl
  rw [call]
  cases at_ : w.memory.pending with
  | none =>
    rw [Work.releasePending, at_, Ledger.flush, ← t.pending, at_]
    simpa using t.host
  | some r =>
    have succeeds := Host.after_works works (before ++ g.closed.map (w.memory.call z))
    rw [← t.host] at succeeds
    rw [Work.releasePending, at_, Ledger.flush, ← t.pending, at_]
    dsimp only
    rw [if_neg (by simp [succeeds.madvise])]
    simp only [Option.toList_some, List.map_append, List.map_cons, List.map_nil]
    rw [← List.append_assoc, Host.after_snoc, ← t.host]
    rfl

theorem Tracks.setPending (t : Tracks z h₀ before w g) (p : Option Range) :
    Tracks z h₀ before (w.setPending p) ⟨g.closed, p⟩ := ⟨rfl, t.host⟩

theorem Tracks.note (works : h₀.Works) (t : Tracks z h₀ before w g) (i : Nat) (dropped : Bool) :
    Tracks z h₀ before (w.note z i dropped) (g.note i dropped) := by
  cases dropped with
  | false => exact t.flush works
  | true =>
    have fresh := (t.flush works).setPending (some (i, i + 1))
    unfold Work.note Ledger.note
    rw [t.pending]
    cases g.pending with
    | none => exact fresh
    | some r =>
      by_cases same : r.2 = i
      · subst same
        simpa using t.setPending (some (r.1, r.2 + 1))
      · simpa [same] using fresh

theorem Tracks.noteAll (works : h₀.Works) {p : Nat → Bool} {first : Nat} (count : Nat)
    (t : Tracks z h₀ before w (sweep p first)) :
    Tracks z h₀ before (w.noteAll z first ((List.range' first count).map p))
      (sweep p (first + count)) := by
  induction count generalizing w first with
  | zero => exact t
  | succ count ih =>
    have rest : Tracks z h₀ before _ (sweep p (first + 1 + count)) :=
      ih (t.note works first (p first))
    rwa [Nat.succ_add, ← Nat.add_succ] at rest

theorem Tracks.setNext (t : Tracks z h₀ before w g) (next : Nat) :
    Tracks z h₀ before (w.setNext next) g := ⟨t.pending, t.host⟩

theorem Tracks.noteBlock (works : h₀.Works) {p : Nat → Bool} {last : Nat} {full : Bool}
    {resident : List UInt8} (t : Tracks z h₀ before w (sweep p w.memory.next))
    (le : w.memory.next ≤ last)
    (drop : w.host.toDrop z (w.memory.addr z w.memory.next) full resident =
      (List.range' w.memory.next (last - w.memory.next)).map p) :
    Tracks z h₀ before (w.noteBlock z last full resident)
      (if w.memory.pages ≤ last then (sweep p last).flush else sweep p last) := by
  unfold Work.noteBlock
  dsimp only
  rw [drop]
  generalize drop_ : (List.range' w.memory.next (last - w.memory.next)).map p = list
  have noted (totals : ZeroPages) : Tracks z h₀ before
      ((({ w with totals } : Work).noteAll z w.memory.next list).setNext last) (sweep p last) := by
    have start : Tracks z h₀ before { w with totals } (sweep p w.memory.next) :=
      ⟨t.pending, t.host⟩
    have all := (start.noteAll works (last - w.memory.next)).setNext last
    rwa [Nat.add_sub_cancel' le, drop_] at all
  have pages (totals : ZeroPages) :
      ((({ w with totals } : Work).noteAll z w.memory.next list).setNext last).memory.pages =
        w.memory.pages := by
    obtain ⟨pending, memory⟩ := Work.noteAll_memory (z := z) { w with totals } w.memory.next list
    rw [Work.setNext, memory]
  rw [pages]
  by_cases ends : w.memory.pages ≤ last
  · rw [if_pos ends]
    split
    · exact (noted _).flush works
    next more => exact absurd ends more
  · rw [if_neg ends]
    split
    next done => exact absurd done ends
    · exact noted _

end Tracks

structure Progress (z : PageSizes) (h₀ : Host) (before : List (Nat × Nat)) (w : Work) : Prop where
  wellFormed : w.memory.WellFormed z
  within : w.memory.next ≤ w.memory.pages
  boundary : ∀ e ∈ w.memory.extents, e.1 < w.memory.next → w.memory.next < e.2 →
    z.hugePage ∣ w.memory.addr z w.memory.next
  tracks : Tracks z h₀ before w (w.memory.ledger z h₀)

def Elsewhere (z : PageSizes) (m : MemoryScan) (calls : List (Nat × Nat)) : Prop :=
  ∀ call ∈ calls, ∀ a, m.base ≤ a → a < m.addr z m.pages → ¬ Hit a call

section Progress

variable {z : PageSizes} {h₀ : Host} {before : List (Nat × Nat)} {w w' : Work} {s s' : Scratch}

theorem MemoryScan.releases_covered {m : MemoryScan} {i : Nat} (out : ¬ Covered m.extents i) :
    m.releases z h₀ i = false :=
  decide_eq_false fun releasable => out releasable.1

theorem MemoryScan.ledger_open {m : MemoryScan} (lt : m.next < m.pages) :
    m.ledger z h₀ = sweep (m.releases z h₀) m.next :=
  if_neg (Nat.not_le.mpr lt)

theorem Progress.alike (p : Progress z h₀ before w) (elsewhere : Elsewhere z w.memory before)
    (lt : w.memory.next < w.memory.pages) {last : Nat} (le : last ≤ w.memory.pages) :
    w.memory.Alike z w.host h₀ w.memory.next last := by
  intro i from_ below
  have host := p.tracks.host
  rw [MemoryScan.ledger_open lt] at host
  -- the calls so far end below the page, or belong to another memory
  have unhit : ∀ a, w.memory.addr z i ≤ a → a < w.memory.addr z (i + 1) →
      ∀ call ∈ before ++ (sweep (w.memory.releases z h₀) w.memory.next).closed.map
        (w.memory.call z), ¬ Hit a call := by
    intro a low high call mem
    rcases List.mem_append.mp mem with mem | mem
    · refine elsewhere call mem a ((Nat.le_add_right _ _).trans low) (high.trans_le ?_)
      exact MemoryScan.addr_le_addr.mpr (below.trans_le le)
    · obtain ⟨r, run, rfl⟩ := List.mem_map.mp mem
      intro hit
      have ends := le_of_mem_closed run
      have filled := (sweep_exact (p := w.memory.releases z h₀)).ordered.filled r
        (List.mem_append_left _ run)
      have passed := ((MemoryScan.hit_call filled.le).mp hit).2
      have order : w.memory.addr z r.2 ≤ w.memory.addr z i :=
        MemoryScan.addr_le_addr.mpr (ends.trans from_)
      omega
  have page : w.memory.addr z i < w.memory.addr z (i + 1) :=
    MemoryScan.addr_lt_addr.mpr (Nat.lt_succ_self i)
  rw [host]
  refine ⟨?_, ?_⟩
  · rw [MemoryScan.resident, MemoryScan.resident,
      (Host.after_unhit (unhit (w.memory.addr z i) (Nat.le_refl _) page)).2]
  · rw [MemoryScan.zero, MemoryScan.zero, Host.isZero, Host.isZero]
    refine decide_eq_decide.mpr (forall₂_congr fun j lt => ?_)
    have inPage : w.memory.addr z i + j < w.memory.addr z (i + 1) := by
      rw [MemoryScan.addr_add, Nat.one_mul]
      exact Nat.add_lt_add_left lt _
    rw [(Host.after_unhit (unhit _ (Nat.le_add_right _ _) inPage)).1]

theorem Progress.scanExtent (works : h₀.Works) (p : Progress z h₀ before w)
    (elsewhere : Elsewhere z w.memory before) {e : Range} (mem : e ∈ w.memory.extents)
    (begun : e.1 ≤ w.memory.next) (lt : w.memory.next < e.2)
    (scan : w.scanExtent z s e.2 = some (w', s')) : Progress z h₀ before w' := by
  have wf := p.wellFormed
  have within := wf.within e mem
  have block := wf.block within lt
  have unfinished := lt.trans_le within
  have start : w.memory.next = e.1 ∨ z.hugePage ∣ w.memory.addr z w.memory.next := by
    rcases begun.eq_or_lt with same | past
    · exact .inl same.symm
    · exact .inr (p.boundary e mem past lt)
  have succeeds : w.host.Works := p.tracks.host ▸ Host.after_works works _
  have drop := block.toDrop wf.ordered mem begun start
    (p.alike elsewhere unfinished (block.within.trans within))
  unfold Work.scanExtent at scan
  dsimp only at scan
  split at scan
  · rw [if_neg (by simp [succeeds.mincore])] at scan
    simp only [Option.some.injEq, Prod.mk.injEq] at scan
    obtain ⟨rfl, -⟩ := scan
    generalize (w.memory.blockEnd z e.2 - w.memory.base) / z.page = last at block drop ⊢
    have tracks := p.tracks
    rw [MemoryScan.ledger_open unfinished] at tracks
    have noted := tracks.noteBlock works block.advances.le drop
    obtain ⟨pending, memory⟩ := w.noteBlock_memory (z := z) last
      (w.memory.spareFullBlocks w.memory.next &&
        w.memory.blockEnd z e.2 - w.memory.addr z w.memory.next == z.hugePage &&
        (w.host.mincore z (w.memory.addr z w.memory.next) (last - w.memory.next)).all isResident)
      (w.host.mincore z (w.memory.addr z w.memory.next) (last - w.memory.next))
    refine ⟨?_, ?_, ?_, ?_⟩
    · rw [memory]
      exact ⟨wf.aligned, wf.fits, wf.ordered, wf.within⟩
    · rw [memory]
      exact block.within.trans within
    · rw [memory]
      intro e' mem' (past : e'.1 < last) (ahead : last < e'.2)
      -- the block ends at a block boundary, or at the end of its extent
      rcases block.clipped with same | boundary
      · have inside : Inside (last - 1) e := ⟨by have := block.advances; omega, by omega⟩
        have inside' : Inside (last - 1) e' := ⟨by omega, by omega⟩
        obtain rfl := wf.ordered.unique mem mem' inside inside'
        omega
      · exact ⟨_, boundary.trans (Nat.mul_comm _ _)⟩
    · rw [MemoryScan.ledger, memory]
      change Tracks z h₀ before _ (if w.memory.pages ≤ last then
        (sweep (w.memory.releases z h₀) w.memory.pages).flush
        else sweep (w.memory.releases z h₀) last)
      by_cases ends : w.memory.pages ≤ last
      · have same : last = w.memory.pages := Nat.le_antisymm (block.within.trans within) ends
        rw [if_pos ends] at noted ⊢
        rw [← same]
        exact noted
      · rw [if_neg ends] at noted ⊢
        exact noted
  · cases scan

theorem Progress.jump (works : h₀.Works) (p : Progress z h₀ before w) {e : Range}
    (mem : e ∈ w.memory.extents) (gap : w.memory.next < e.1)
    (none_ : ∀ i, w.memory.next ≤ i → i < e.1 → ¬ Covered w.memory.extents i) :
    Progress z h₀ before ((w.releasePending z).setNext e.1) := by
  have wf := p.wellFormed
  have filled := wf.ordered.filled e mem
  have within := wf.within e mem
  have unfinished : w.memory.next < w.memory.pages := by omega
  have memory : ((w.releasePending z).setNext e.1).memory =
      { w.memory with next := e.1, pending := none } := by simp [Work.setNext]
  refine ⟨?_, ?_, ?_, ?_⟩
  · rw [memory]
    exact ⟨wf.aligned, wf.fits, wf.ordered, wf.within⟩
  · rw [memory]
    exact (filled.trans_le within).le
  · rw [memory]
    intro e' mem' (past : e'.1 < e.1) (ahead : e.1 < e'.2)
    obtain rfl := wf.ordered.unique mem mem' ⟨Nat.le_refl e.1, filled⟩ ⟨past.le, ahead⟩
    omega
  · have flushed := (p.tracks.flush works).setNext e.1
    rw [MemoryScan.ledger_open unfinished, ← sweep_skip gap fun i from_ below =>
      MemoryScan.releases_covered (none_ i from_ below)] at flushed
    rw [MemoryScan.ledger_open (by rw [memory]; exact filled.trans_le within), memory]
    exact flushed

theorem Progress.scanBlock (works : h₀.Works) (p : Progress z h₀ before w)
    (elsewhere : Elsewhere z w.memory before) (lt : w.memory.next < w.memory.pages)
    (scan : scanBlock z w s = some (w', s')) : Progress z h₀ before w' := by
  have wf := p.wellFormed
  unfold Freeze.scanBlock at scan
  split at scan
  next found =>
    simp only [Option.some.injEq, Prod.mk.injEq] at scan
    obtain ⟨rfl, -⟩ := scan
    have behind : ∀ e ∈ w.memory.extents, e.2 ≤ w.memory.next := by
      simpa using List.find?_eq_none.mp found
    have memory : ((w.setNext w.memory.pages).releasePending z).memory =
        { w.memory with next := w.memory.pages, pending := none } := by simp [Work.setNext]
    refine ⟨?_, ?_, ?_, ?_⟩
    · rw [memory]
      exact ⟨wf.aligned, wf.fits, wf.ordered, wf.within⟩
    · rw [memory]
    · rw [memory]
      intro e mem past ahead
      have stop := behind e mem
      dsimp only at ahead
      omega
    · -- no page behind the last extent is released
      have skip := sweep_skip (p := w.memory.releases z h₀) lt fun i from_ _ => by
        refine MemoryScan.releases_covered ?_
        rintro ⟨e, mem, inside⟩
        have stop := behind e mem
        have below := inside.2
        omega
      have flushed := (p.tracks.setNext w.memory.pages).flush works
      rw [MemoryScan.ledger_open lt] at flushed
      rw [MemoryScan.ledger, memory]
      change Tracks z h₀ before _ (if w.memory.pages ≤ w.memory.pages then
        (sweep (w.memory.releases z h₀) w.memory.pages).flush else _)
      rw [if_pos (Nat.le_refl _), skip, Ledger.flush_flush]
      exact flushed
  next start stop found =>
    obtain ⟨ahead, pre, post, extents, earlier⟩ := List.find?_eq_some_iff_append.mp found
    simp only [decide_eq_true_eq] at ahead
    have mem : (start, stop) ∈ w.memory.extents := by simp [extents]
    split at scan
    next gap =>
      have none_ : ∀ i, w.memory.next ≤ i → i < start → ¬ Covered w.memory.extents i := by
        rintro i from_ below ⟨r, inList, inside⟩
        have order := wf.ordered.apart
        rw [extents] at inList order
        obtain ⟨-, tail, -⟩ := List.pairwise_append.mp order
        have after := (List.pairwise_cons.mp tail).1
        have filled := wf.ordered.filled (start, stop) mem
        rcases List.mem_append.mp inList with early | late
        · have passed := earlier r early
          simp only [Bool.not_eq_true', decide_eq_false_iff_not, not_lt] at passed
          have := inside.2
          omega
        · rcases List.mem_cons.mp late with rfl | late
          · have := inside.1
            omega
          · have later := after r late
            have := inside.1
            omega
      have jumped := p.jump works mem gap none_
      have memory : ((w.releasePending z).setNext start).memory =
          { w.memory with next := start, pending := none } := by simp [Work.setNext]
      refine jumped.scanExtent (e := (start, stop)) works ?_ ?_ ?_ ?_ scan
      · rw [memory]
        exact elsewhere
      · rw [memory]
        exact mem
      · rw [memory]
      · rw [memory]
        exact wf.ordered.filled (start, stop) mem
    next reached =>
      exact p.scanExtent works elsewhere mem (Nat.not_lt.mp reached) ahead scan

end Progress

/-! ## All memories -/

def MemoryScan.Apart (z : PageSizes) (m m' : MemoryScan) : Prop :=
  m.addr z m.pages ≤ m'.base ∨ m'.addr z m'.pages ≤ m.base

def MemoryScan.static (m : MemoryScan) : MemoryScan := { m with next := 0, pending := none }

structure Compaction.Fresh (z : PageSizes) (c : Compaction) : Prop where
  ready : c.Ready z
  unscanned : ∀ m ∈ c.memories, m.static = m
  apart : c.memories.Pairwise (MemoryScan.Apart z)
  madvised : c.host.madvised = []

structure MemoryScan.Sound (z : PageSizes) (h₀ : Host) (m : MemoryScan) : Prop where
  within : m.next ≤ m.pages
  boundary : ∀ e ∈ m.extents, e.1 < m.next → m.next < e.2 → z.hugePage ∣ m.addr z m.next
  pending : m.pending = (m.ledger z h₀).pending

structure Compaction.Scanning (z : PageSizes) (h₀ : Host) (ms : List MemoryScan)
    (c : Compaction) : Prop where
  ready : c.Ready z
  static : c.memories.map MemoryScan.static = ms
  sound : ∀ m ∈ c.memories, m.Sound z h₀
  host : c.host = h₀.after (c.memories.flatMap (MemoryScan.calls z h₀))
  order : c.memories.Pairwise (fun m m' => m.finished = false → m'.next = 0)
  apart : c.memories.Pairwise (MemoryScan.Apart z)

section Scanning

variable {z : PageSizes} {h₀ : Host} {ms : List MemoryScan} {c c' : Compaction}

theorem MemoryScan.ledger_unscanned {m : MemoryScan} (start : m.next = 0) :
    m.ledger z h₀ = {} := by
  unfold ledger
  split
  next none_ =>
    have pages : m.pages = 0 := by omega
    rw [pages]
    rfl
  · rw [start]
    rfl

theorem Compaction.Fresh.scanning (fresh : c.Fresh z) : c.Scanning z c.host c.memories := by
  have start : ∀ m ∈ c.memories, m.next = 0 ∧ m.pending = none := by
    intro m mem
    rw [← fresh.unscanned m mem]
    exact ⟨rfl, rfl⟩
  refine ⟨fresh.ready, ?_, ?_, ?_, ?_, fresh.apart⟩
  · exact (List.map_congr_left fresh.unscanned).trans (List.map_id' c.memories)
  · intro m mem
    obtain ⟨next, pending⟩ := start m mem
    refine ⟨by omega, fun e _ past _ => by omega, ?_⟩
    rw [MemoryScan.ledger_unscanned next, pending]
  · have none_ : c.memories.flatMap (MemoryScan.calls z c.host) = [] := by
      refine List.flatMap_eq_nil_iff.mpr ?_
      intro m mem
      rw [MemoryScan.calls, MemoryScan.ledger_unscanned (start m mem).1]
      rfl
    rw [none_]
    rfl
  · exact fresh.apart.imp_of_mem fun _ mem _ _ => (start _ mem).1

theorem MemoryScan.Sound.calls_inside {m : MemoryScan} (sound : m.Sound z h₀) {call : Nat × Nat}
    (mem : call ∈ m.calls z h₀) {a : Nat} (hit : Hit a call) :
    m.base ≤ a ∧ a < m.addr z m.pages := by
  obtain ⟨r, run, rfl⟩ := List.mem_map.mp mem
  have exact_ : ∃ n ≤ m.pages, r ∈ (sweep (m.releases z h₀) n).flush.closed := by
    unfold ledger at run
    split at run
    · exact ⟨m.pages, Nat.le_refl _, run⟩
    · exact ⟨m.next, sound.within, List.mem_append_left _ run⟩
  obtain ⟨n, le, run⟩ := exact_
  have runs := runs_exact (p := m.releases z h₀) (n := n)
  obtain ⟨low, high⟩ := (hit_call (runs.ordered.filled r run).le).mp hit
  exact ⟨(Nat.le_add_right _ _).trans low,
    high.trans_le (addr_le_addr.mpr ((runs.below r run).trans le))⟩

theorem Compaction.Scanning.turn (works : h₀.Works) (h : c.Scanning z h₀ ms)
    (open_ : c.done = false) (turn : c.turn z = some c') : c'.Scanning z h₀ ms := by
  obtain ⟨pre, m, rest, memories, finished, unfinished, step⟩ := Compaction.split (z := z) open_
  have mem : m ∈ c.memories := by simp [memories]
  have lt : m.next < m.pages := by simpa [MemoryScan.finished] using unfinished
  have ready : c'.Ready z := by
    obtain ⟨c'', same, ready, -⟩ := Compaction.turn_ready h.ready open_
    rw [turn] at same
    cases same
    exact ready
  rw [step] at turn
  obtain ⟨⟨w', s'⟩, scan, rfl⟩ := Option.map_eq_some_iff.mp turn
  obtain ⟨_, _, scan', scanned⟩ := scanBlock_scanned (w := ⟨m, c.totals, c.host⟩)
    (h.ready.wellFormed m mem) h.ready.scratch lt
  rw [scan] at scan'
  cases scan'
  obtain ⟨next, pending, static⟩ := scanned.static
  have order := h.order
  have apart := h.apart
  rw [memories] at order apart
  obtain ⟨orderPre, orderRest, orderCross⟩ := List.pairwise_append.mp order
  obtain ⟨orderFirst, orderTail⟩ := List.pairwise_cons.mp orderRest
  obtain ⟨apartPre, apartRest, apartCross⟩ := List.pairwise_append.mp apart
  obtain ⟨apartFirst, apartTail⟩ := List.pairwise_cons.mp apartRest
  -- the memories behind this one have made no calls
  have quiet : rest.flatMap (MemoryScan.calls z h₀) = [] := by
    refine List.flatMap_eq_nil_iff.mpr ?_
    intro x memRest
    rw [MemoryScan.calls, MemoryScan.ledger_unscanned (orderFirst x memRest unfinished)]
    rfl
  have host : c.host = h₀.after (pre.flatMap (MemoryScan.calls z h₀) ++ m.calls z h₀) := by
    rw [h.host, memories, List.flatMap_append, List.flatMap_cons, quiet, List.append_nil]
  have elsewhere : Elsewhere z m (pre.flatMap (MemoryScan.calls z h₀)) := by
    intro call memCall a low high hit
    obtain ⟨x, memPre, memCall⟩ := List.mem_flatMap.mp memCall
    have inside := (h.sound x (by simp [memories, memPre])).calls_inside memCall hit
    rcases apartCross x memPre m List.mem_cons_self with before | after
    · omega
    · omega
  have sound := h.sound m mem
  have progress : Progress z h₀ (pre.flatMap (MemoryScan.calls z h₀)) ⟨m, c.totals, c.host⟩ :=
    ⟨h.ready.wellFormed m mem, sound.within, sound.boundary, sound.pending, host⟩
  have after := progress.scanBlock works elsewhere lt scan
  have sameStatic : w'.memory.static = m.static := by rw [static]; rfl
  have samePages : w'.memory.base = m.base ∧ w'.memory.pages = m.pages := by
    rw [static]
    exact ⟨rfl, rfl⟩
  refine ⟨ready, ?_, ?_, ?_, ?_, ?_⟩
  · rw [← h.static, memories]
    simp [sameStatic]
  · intro x memX
    rcases List.mem_append.mp memX with memX | memX
    · exact h.sound x (by simp [memories, memX])
    rcases List.mem_cons.mp memX with rfl | memX
    · exact ⟨after.within, after.boundary, after.tracks.pending⟩
    · exact h.sound x (by simp [memories, memX])
  · simp only [List.flatMap_append, List.flatMap_cons, quiet, List.append_nil]
    exact after.tracks.host
  · refine List.pairwise_append.mpr ⟨orderPre, List.pairwise_cons.mpr ⟨?_, orderTail⟩, ?_⟩
    · exact fun x memX _ => orderFirst x memX unfinished
    · intro x memX y _ notYet
      rw [finished x memX] at notYet
      cases notYet
  · have like (x : MemoryScan) : (m.Apart z x ↔ w'.memory.Apart z x) ∧
        (x.Apart z m ↔ x.Apart z w'.memory) := by
      simp only [MemoryScan.Apart, MemoryScan.addr, samePages.1, samePages.2, and_self]
    refine List.pairwise_append.mpr ⟨apartPre, List.pairwise_cons.mpr ⟨?_, apartTail⟩, ?_⟩
    · exact fun x memX => (like x).1.mp (apartFirst x memX)
    · intro x memX y memY
      rcases List.mem_cons.mp memY with rfl | memY
      · exact (like x).2.mp (apartCross x memX m List.mem_cons_self)
      · exact apartCross x memX y (List.mem_cons_of_mem m memY)

theorem Compaction.Scanning.blocks (works : h₀.Works) (n : Nat) (h : c.Scanning z h₀ ms)
    (run : c.blocks z n = some c') : c'.Scanning z h₀ ms := by
  induction n generalizing c with
  | zero =>
    cases run
    exact h
  | succ n ih =>
    rw [Compaction.blocks] at run
    split at run
    · cases run
      exact h
    next open_ =>
      obtain ⟨c'', turn, rest⟩ := Option.bind_eq_some_iff.mp run
      exact ih (h.turn works (by simpa using open_) turn) rest

def MemoryScan.allCalls (z : PageSizes) (h₀ : Host) (m : MemoryScan) : List (Nat × Nat) :=
  (runs (m.releases z h₀) m.pages).map (m.call z)

theorem Compaction.Scanning.finished (h : c.Scanning z h₀ ms) (ends : c.done = true) :
    c.host = h₀.after (ms.flatMap (MemoryScan.allCalls z h₀)) ∧
      ∀ m ∈ c.memories, m.pending = none := by
  have swept : ∀ m ∈ c.memories, m.ledger z h₀ = (sweep (m.releases z h₀) m.pages).flush := by
    intro m mem
    have finished := List.all_eq_true.mp ends m mem
    exact if_pos (by simpa [MemoryScan.finished] using finished)
  refine ⟨?_, ?_⟩
  · rw [h.host, ← h.static, List.flatMap_map]
    congr 1
    refine List.flatMap_congr fun m mem => ?_
    rw [MemoryScan.calls, swept m mem]
    rfl
  · intro m mem
    rw [(h.sound m mem).pending, swept m mem]
    rfl

end Scanning

def MemoryScan.InPage (z : PageSizes) (m : MemoryScan) (i a : Nat) : Prop :=
  m.addr z i ≤ a ∧ a < m.addr z (i + 1)

section Result

variable {z : PageSizes} {h₀ : Host} {m m' : MemoryScan} {ms : List MemoryScan} {i a : Nat}
  {call : Nat × Nat}

theorem MemoryScan.exists_page {n : Nat} (low : m.base ≤ a) (high : a < m.addr z n) :
    ∃ i < n, m.InPage z i a := by
  have parts := Nat.div_add_mod (a - m.base) z.page
  have rest := Nat.mod_lt (a - m.base) z.page_pos
  have inPage : m.InPage z ((a - m.base) / z.page) a := by
    unfold InPage addr
    rw [Nat.succ_mul, Nat.mul_comm]
    omega
  exact ⟨_, addr_lt_addr.mp (inPage.1.trans_lt high), inPage⟩

theorem MemoryScan.hit_allCalls (wf : m.WellFormed z) (inPage : m.InPage z i a) :
    (∃ call ∈ m.allCalls z h₀, Hit a call) ↔ m.Releasable z h₀ i := by
  have exact_ := runs_exact (p := m.releases z h₀) (n := m.pages)
  constructor
  · rintro ⟨call, mem, hit⟩
    obtain ⟨r, run, rfl⟩ := List.mem_map.mp mem
    obtain ⟨low, high⟩ := (hit_call (exact_.ordered.filled r run).le).mp hit
    have first : r.1 < i + 1 := addr_lt_addr.mp (low.trans_lt inPage.2)
    have last : i < r.2 := addr_lt_addr.mp (inPage.1.trans_lt high)
    have covered := (exact_.covered i).mp ⟨r, run, Nat.lt_succ_iff.mp first, last⟩
    exact of_decide_eq_true covered.2
  · intro releasable
    obtain ⟨e, mem, inside⟩ := releasable.1
    have below : i < m.pages := inside.2.trans_le (wf.within e mem)
    obtain ⟨r, run, first, last⟩ := (exact_.covered i).mpr ⟨below, decide_eq_true releasable⟩
    refine ⟨m.call z r, List.mem_map_of_mem run, (hit_call (first.trans last.le)).mpr ?_⟩
    exact ⟨(addr_le_addr.mpr first).trans inPage.1, inPage.2.trans_le (addr_le_addr.mpr last)⟩

theorem MemoryScan.allCalls_inside (mem : call ∈ m.allCalls z h₀) (hit : Hit a call) :
    m.base ≤ a ∧ a < m.addr z m.pages := by
  obtain ⟨r, run, rfl⟩ := List.mem_map.mp mem
  have exact_ := runs_exact (p := m.releases z h₀) (n := m.pages)
  obtain ⟨low, high⟩ := (hit_call (exact_.ordered.filled r run).le).mp hit
  exact ⟨(Nat.le_add_right _ _).trans low, high.trans_le (addr_le_addr.mpr (exact_.below r run))⟩

def Disjoint (call call' : Nat × Nat) : Prop := ∀ a, ¬ (Hit a call ∧ Hit a call')

theorem MemoryScan.allCalls_disjoint : (m.allCalls z h₀).Pairwise Disjoint := by
  have exact_ := runs_exact (p := m.releases z h₀) (n := m.pages)
  refine List.pairwise_map.mpr (exact_.ordered.apart.imp_of_mem ?_)
  rintro r r' mem mem' order a ⟨hit, hit'⟩
  have filled := exact_.ordered.filled r mem
  have filled' := exact_.ordered.filled r' mem'
  have before : m.addr z r.2 ≤ m.addr z r'.1 := addr_le_addr.mpr order
  have high := ((hit_call filled.le).mp hit).2
  have low := ((hit_call filled'.le).mp hit').1
  omega

theorem hit_flatMap (h₀ : Host) (wf : ∀ m ∈ ms, m.WellFormed z)
    (apart : ms.Pairwise (MemoryScan.Apart z)) (mem : m ∈ ms) (below : i < m.pages)
    (inPage : m.InPage z i a) :
    (∃ call ∈ ms.flatMap (MemoryScan.allCalls z h₀), Hit a call) ↔ m.Releasable z h₀ i := by
  rw [← MemoryScan.hit_allCalls (wf m mem) inPage]
  constructor
  · rintro ⟨call, inAll, hit⟩
    obtain ⟨m', mem', inCalls⟩ := List.mem_flatMap.mp inAll
    by_cases same : m = m'
    · exact same ▸ ⟨call, inCalls, hit⟩
    · have symm : Std.Symm (MemoryScan.Apart z) := ⟨fun _ _ => Or.symm⟩
      obtain ⟨low, high⟩ := MemoryScan.allCalls_inside inCalls hit
      have start : m.base ≤ a := (Nat.le_add_right _ _).trans inPage.1
      have stop : a < m.addr z m.pages :=
        inPage.2.trans_le (MemoryScan.addr_le_addr.mpr below)
      rcases apart.forall mem mem' same with before | after
      · omega
      · omega
  · rintro ⟨call, inCalls, hit⟩
    exact ⟨call, List.mem_flatMap.mpr ⟨m, mem, inCalls⟩, hit⟩

theorem flatMap_disjoint (apart : ms.Pairwise (MemoryScan.Apart z)) :
    (ms.flatMap (MemoryScan.allCalls z h₀)).Pairwise Disjoint := by
  refine List.pairwise_flatMap.mpr ⟨fun _ _ => MemoryScan.allCalls_disjoint, apart.imp ?_⟩
  rintro m m' apart call mem call' mem' a ⟨hit, hit'⟩
  have inside := MemoryScan.allCalls_inside mem hit
  have inside' := MemoryScan.allCalls_inside mem' hit'
  rcases apart with before | after
  · omega
  · omega

end Result

/-- Completed, the compaction has released the resident zero pages of the extents outside the
blocks to be kept, each once; no run is pending; the bytes are as they were; and another cut
of the time ends in the same state. Every cut into enough slices completes it. -/
theorem compaction_releases_zero_pages {z : PageSizes} {c : Compaction} (fresh : c.Fresh z)
    (works : c.host.Works) (ns : List Nat) :
    ∃ c', c.slices z ns = some c' ∧ (c.remaining ≤ ns.length → c'.done = true) ∧
      (c'.done = true →
        (∀ m ∈ c.memories, ∀ i < m.pages, ∀ a, m.InPage z i a →
          ((∃ call ∈ c'.host.madvised, Hit a call) ↔ m.Releasable z c.host i)) ∧
        (∀ call ∈ c'.host.madvised, ∀ a, Hit a call →
          ∃ m ∈ c.memories, ∃ i < m.pages, m.InPage z i a) ∧
        c'.host.madvised.Pairwise Disjoint ∧
        (∀ m ∈ c.memories, ∀ i < m.pages, ¬ Covered m.extents i →
          ∀ a, m.InPage z i a → ∀ call ∈ c'.host.madvised, ¬ Hit a call) ∧
        (∀ m ∈ c'.memories, m.pending = none) ∧
        c'.host.byte = c.host.byte ∧
        ∀ ns' c'', c.slices z ns' = some c'' → c''.done = true → c'' = c') := by
  obtain ⟨c', run, -, ends⟩ := Compaction.blocks_ready fresh.ready (ns.map (· + 1)).sum
  have scanning := fresh.scanning.blocks works _ run
  refine ⟨c', (Compaction.slices_eq ns).trans run, fun le => ends (le.trans (length_le_sum_succ ns)),
    fun done => ?_⟩
  obtain ⟨host, pending⟩ := scanning.finished done
  have madvised : c'.host.madvised = c.memories.flatMap (MemoryScan.allCalls z c.host) := by
    rw [host, Host.after_madvised, fresh.madvised, List.nil_append]
  have hits := fun m (mem : m ∈ c.memories) i (below : i < m.pages) a
      (inPage : m.InPage z i a) =>
    hit_flatMap c.host fresh.ready.wellFormed fresh.apart mem below inPage
  have place : ∀ call ∈ c'.host.madvised, ∀ a, Hit a call →
      ∃ m ∈ c.memories, ∃ i < m.pages, m.InPage z i a := by
    intro call mem a hit
    rw [madvised] at mem
    obtain ⟨m, memory, inCalls⟩ := List.mem_flatMap.mp mem
    obtain ⟨low, high⟩ := MemoryScan.allCalls_inside inCalls hit
    exact ⟨m, memory, MemoryScan.exists_page low high⟩
  refine ⟨?_, place, ?_, ?_, pending, ?_, ?_⟩
  · rw [madvised]
    exact hits
  · rw [madvised]
    exact flatMap_disjoint fresh.apart
  · intro m mem i below out a inPage call inAll hit
    rw [madvised] at inAll
    exact out ((hits m mem i below a inPage).mp ⟨call, inAll, hit⟩).1
  · rw [host]
    refine Host.after_byte ?_
    intro call inAll a hit
    obtain ⟨m, mem, i, below, inPage⟩ := place call (madvised ▸ inAll) a hit
    have zero := ((hits m mem i below a inPage).mp ⟨call, inAll, hit⟩).2.2.1
    have offset := of_decide_eq_true zero (a - m.addr z i) (by
      have high := inPage.2
      rw [MemoryScan.addr_add, Nat.one_mul] at high
      have low := inPage.1
      omega)
    rwa [Nat.add_sub_cancel' inPage.1] at offset
  · intro ns' c'' run' done'
    rw [Compaction.slices_eq] at run'
    -- the longer loop goes on from a state that is done
    have longer := Compaction.blocks_add (c := c) (z := z) (ns.map (· + 1)).sum (ns'.map (· + 1)).sum
    have swapped := Compaction.blocks_add (c := c) (z := z) (ns'.map (· + 1)).sum (ns.map (· + 1)).sum
    rw [run, Option.bind_some, Compaction.blocks_done done] at longer
    rw [run', Option.bind_some, Compaction.blocks_done done', Nat.add_comm, longer] at swapped
    exact (Option.some.inj swapped).symm

theorem Compaction.start_fresh {z : PageSizes} {memories : List (LinearMemory z)}
    (apart : memories.Pairwise fun m m' =>
      m.base + m.pages * z.page ≤ m'.base ∨ m'.base + m'.pages * z.page ≤ m.base)
    (mappings : List (Nat × Nat × Bool)) (host : Host) (none_ : host.madvised = []) :
    (Compaction.start z memories mappings host).Fresh z where
  ready := Compaction.start_ready memories mappings host
  unscanned m mem := by
    obtain ⟨memory, -, rfl⟩ := List.mem_map.mp mem
    rfl
  apart := List.pairwise_map.mpr (apart.filter _)
  madvised := none_

def smallPages : PageSizes := ⟨2, 4, by decide, by decide, by decide⟩

def smallMemory : LinearMemory smallPages where
  base := 4
  len := 11
  privateAnonymous := true
  overlays := [(8, 1)]
  aligned := by decide
  fits := by decide
  inside := by decide

def smallScan : Compaction :=
  Compaction.start smallPages [smallMemory] []
    { byte := fun a => if a = 15 then 7 else 0, core := fun _ => 1 }

/-- The last block is kept, with its zero page. -/
theorem compaction_releases_zero_pages_small :
    ∃ c', smallScan.slices smallPages [0, 1] = some c' ∧ c'.done = true ∧
      c'.host.madvised = [(4, 4), (10, 2)] ∧ c'.host.byte = smallScan.host.byte := by
  have fresh : smallScan.Fresh smallPages := Compaction.start_fresh (List.pairwise_singleton _ _) _ _ rfl
  have works : smallScan.host.Works := ⟨fun _ => rfl, fun _ => rfl⟩
  obtain ⟨c', run, -, result⟩ := compaction_releases_zero_pages fresh works [0, 1]
  have ends : ((smallScan.slices smallPages [0, 1]).map fun c => (c.done, c.host.madvised)) =
      some (true, [(4, 4), (10, 2)]) := by decide +kernel
  rw [run, Option.map_some, Option.some.injEq, Prod.mk.injEq] at ends
  exact ⟨c', run, ends.1, ends.2, (result ends.1).2.2.2.2.2.1⟩

end ServiceCache.Freeze
