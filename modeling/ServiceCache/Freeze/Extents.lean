import Mathlib.Data.List.TakeWhile
import ServiceCache.Freeze.Compaction

/-!
# The extents of a memory and the bounds of its scan

A block is found by address, so its bounds are first put in pages.
-/

namespace ServiceCache.Freeze

open Ranges

theorem lt_divCeil {n d i : Nat} (pos : 0 < d) : i < divCeil n d ↔ i * d < n := by
  have parts := Nat.div_add_mod n d
  have small := Nat.mod_lt n pos
  have whole : i ≤ n / d ↔ i * d ≤ n := Nat.le_div_iff_mul_le pos
  unfold divCeil
  by_cases rest : 0 < n % d
  · have ne : i * d ≠ n := by
      rintro rfl
      simp at rest
    rw [if_pos rest, Nat.lt_succ_iff, whole]
    omega
  · have next : i + 1 ≤ n / d ↔ (i + 1) * d ≤ n := Nat.le_div_iff_mul_le pos
    have exact_ : n = d * (n / d) := by omega
    rw [if_neg rest, Nat.add_zero, ← Nat.succ_le_iff, next, Nat.succ_mul]
    constructor
    · omega
    · intro lt
      -- the next multiple of `d` is not passed over
      have below : i < n / d := by
        rw [exact_, Nat.mul_comm] at lt
        exact Nat.lt_of_mul_lt_mul_left lt
      calc i * d + d = (i + 1) * d := (Nat.succ_mul i d).symm
        _ ≤ (n / d) * d := Nat.mul_le_mul_right d below
        _ = n := by rw [Nat.mul_comm]; exact exact_.symm

/-! ## The extents that `start` builds -/

section Start

variable {z : PageSizes} (m : LinearMemory z)

def LinearMemory.Touched (i : Nat) : Prop :=
  ∃ o ∈ m.overlays, i * z.page < o.1 - m.base + o.2 ∧ o.1 - m.base < (i + 1) * z.page

theorem LinearMemory.mem_overlayPages {r : Range} : r ∈ m.overlayPages ↔
    (∃ o ∈ m.overlays, r = ((o.1 - m.base) / z.page, divCeil (o.1 - m.base + o.2) z.page)) ∧
      r.1 < min r.2 m.pages := by
  unfold overlayPages
  rw [(List.perm_insertionSort lexLE _).mem_iff, List.mem_filter, List.mem_map]
  simp only [decide_eq_true_eq, Prod.exists, @eq_comm Range r]

theorem LinearMemory.overlayPages_sorted :
    m.overlayPages.Pairwise (fun r r' => r.1 ≤ r'.1) := by
  have total : Std.Total lexLE := ⟨fun a b => by unfold lexLE; omega⟩
  have trans : IsTrans Range lexLE := ⟨fun a b c => by unfold lexLE; omega⟩
  refine (List.pairwise_insertionSort lexLE _).imp ?_
  intro a b le
  unfold lexLE at le
  omega

theorem LinearMemory.covered_overlayPages {i : Nat} (lt : i < m.pages) :
    Covered m.overlayPages i ↔ m.Touched i := by
  have low (offset : Nat) : offset / z.page ≤ i ↔ offset < (i + 1) * z.page := by
    rw [← Nat.lt_succ_iff, Nat.div_lt_iff_lt_mul z.page_pos]
  constructor
  · rintro ⟨r, mem, inside⟩
    obtain ⟨⟨o, overlay, rfl⟩, -⟩ := m.mem_overlayPages.mp mem
    exact ⟨o, overlay, (lt_divCeil z.page_pos).mp inside.2, (low _).mp inside.1⟩
  · rintro ⟨o, overlay, reached, begun⟩
    have inside : Inside i ((o.1 - m.base) / z.page, divCeil (o.1 - m.base + o.2) z.page) :=
      ⟨(low _).mpr begun, (lt_divCeil z.page_pos).mpr reached⟩
    refine ⟨_, m.mem_overlayPages.mpr ⟨⟨o, overlay, rfl⟩, ?_⟩, inside⟩
    exact lt_min (inside.1.trans_lt inside.2) (inside.1.trans_lt lt)

variable (mappings : List (Nat × Nat × Bool))

theorem LinearMemory.extents_ordered : Ordered (m.scan mappings).extents := by
  refine ordered_gaps ?_
  intro r mem
  have lt := (m.mem_overlayPages.mp mem).2
  omega

theorem LinearMemory.overlay_begins {r : Range} (mem : r ∈ m.overlayPages) : r.1 ≤ m.pages := by
  have lt := (m.mem_overlayPages.mp mem).2
  omega

theorem LinearMemory.extents_within {e : Range} (mem : e ∈ (m.scan mappings).extents) :
    e.2 ≤ m.pages :=
  le_of_mem_gaps_stop (fun _ => m.overlay_begins) mem

theorem LinearMemory.covered_extents {i : Nat} :
    Covered (m.scan mappings).extents i ↔ i < m.pages ∧ ¬ m.Touched i := by
  have left : Covered (gaps 0 m.overlayPages m.pages) i ↔ _ :=
    covered_gaps m.overlayPages_sorted fun _ => m.overlay_begins
  refine left.trans ⟨?_, ?_⟩
  · rintro ⟨-, lt, out⟩
    exact ⟨lt, fun touched => out ((m.covered_overlayPages lt).mpr touched)⟩
  · rintro ⟨lt, out⟩
    exact ⟨Nat.zero_le i, lt, fun covered => out ((m.covered_overlayPages lt).mp covered)⟩

end Start

/-! ## One block -/

structure MemoryScan.WellFormed (z : PageSizes) (m : MemoryScan) : Prop where
  aligned : z.page ∣ m.base
  fits : m.base + m.pages * z.page < 2 ^ 64
  ordered : Ordered m.extents
  within : ∀ e ∈ m.extents, e.2 ≤ m.pages

theorem LinearMemory.scan_wellFormed {z : PageSizes} (m : LinearMemory z)
    (mappings : List (Nat × Nat × Bool)) : (m.scan mappings).WellFormed z :=
  ⟨m.aligned, m.fits, m.extents_ordered mappings, fun _ => m.extents_within mappings⟩

structure MemoryScan.Block (z : PageSizes) (m : MemoryScan) (stop last : Nat) : Prop where
  advances : m.next < last
  within : last ≤ stop
  short : last - m.next ≤ z.blockPages
  ends : m.blockEnd z stop = m.addr z last
  clipped : last = stop ∨ m.addr z last = (m.addr z m.next / z.hugePage + 1) * z.hugePage

section Block

variable {z : PageSizes} {m : MemoryScan} {stop : Nat}

theorem MemoryScan.addr_le_addr {i j : Nat} : m.addr z i ≤ m.addr z j ↔ i ≤ j := by
  unfold addr
  rw [Nat.add_le_add_iff_left]
  exact Nat.mul_le_mul_right_iff z.page_pos

theorem MemoryScan.addr_lt_addr {i j : Nat} : m.addr z i < m.addr z j ↔ i < j := by
  simp only [← Nat.not_le, addr_le_addr]

theorem MemoryScan.addr_sub {i j : Nat} : m.addr z j - m.addr z i = (j - i) * z.page := by
  unfold addr
  rw [Nat.add_sub_add_left, Nat.sub_mul]

theorem MemoryScan.WellFormed.block (h : m.WellFormed z) (within : stop ≤ m.pages)
    (lt : m.next < stop) : m.Block z stop ((m.blockEnd z stop - m.base) / z.page) := by
  obtain ⟨b, base⟩ := h.aligned
  obtain ⟨k, huge⟩ := z.blocks
  have kPos : 0 < k := Nat.pos_of_mul_pos_left (huge ▸ z.hugePage_pos)
  have pos := z.page_pos
  -- in pages: `b` is the first page of the memory, `k` the pages of a block
  have inPages (i : Nat) : m.addr z i = z.page * (b + i) := by
    rw [MemoryScan.addr, base, Nat.mul_add, Nat.mul_comm i]
  have block : m.addr z m.next / z.hugePage = (b + m.next) / k := by
    rw [inPages, huge, Nat.mul_div_mul_left _ _ pos]
  have fits : m.addr z stop < 2 ^ 64 :=
    (addr_le_addr.mpr within).trans_lt h.fits
  have ends : m.blockEnd z stop = z.page * min (((b + m.next) / k + 1) * k) (b + stop) := by
    have unsaturated : m.blockEnd z stop =
        min ((m.addr z m.next / z.hugePage + 1) * z.hugePage) (m.addr z stop) := by
      change min (min _ _) (m.addr z stop) = _
      omega
    rw [unsaturated, block, inPages, huge, Nat.mul_left_comm, Nat.mul_min_mul_left]
  have below : (b + m.next) / k * k ≤ b + m.next := Nat.div_mul_le_self _ _
  have above : b + m.next < ((b + m.next) / k + 1) * k := by
    rw [Nat.succ_mul]
    exact Nat.lt_div_mul_add kPos
  have blockPages : z.blockPages = k := by
    rw [PageSizes.blockPages, huge, Nat.mul_div_cancel_left _ pos]
  have last : (m.blockEnd z stop - m.base) / z.page =
      min (((b + m.next) / k + 1) * k) (b + stop) - b := by
    rw [ends, base, ← Nat.mul_sub, Nat.mul_div_cancel_left _ pos]
  rw [last]
  have size : ((b + m.next) / k + 1) * k = (b + m.next) / k * k + k := Nat.succ_mul _ _
  refine ⟨by omega, by omega, by omega, ?_, ?_⟩
  · rw [ends, inPages]
    congr 1
    omega
  · rw [inPages, block, huge, Nat.mul_left_comm]
    rcases Nat.le_total (((b + m.next) / k + 1) * k) (b + stop) with le | le
    · refine .inr (congrArg (z.page * ·) ?_)
      omega
    · exact .inl (by omega)

theorem MemoryScan.Block.same {last i : Nat} (h : m.Block z stop last) (begun : m.next ≤ i)
    (below : i < last) : m.addr z i / z.hugePage = m.addr z m.next / z.hugePage := by
  have low : m.addr z m.next / z.hugePage * z.hugePage ≤ m.addr z i :=
    (Nat.div_mul_le_self _ _).trans (addr_le_addr.mpr begun)
  have high : m.addr z i < (m.addr z m.next / z.hugePage + 1) * z.hugePage :=
    calc m.addr z i < m.addr z last := addr_lt_addr.mpr below
      _ = m.blockEnd z stop := h.ends.symm
      _ ≤ saturatingMul (m.addr z m.next / z.hugePage + 1) z.hugePage := Nat.min_le_left _ _
      _ ≤ _ := Nat.min_le_left _ _
  exact Nat.div_eq_of_lt_le low high

end Block

/-! ## One call of `scan_block` -/

section Call

variable {z : PageSizes}

@[simp] theorem Work.releasePending_memory (w : Work) :
    (w.releasePending z).memory = { w.memory with pending := none } := by
  unfold releasePending
  cases at_ : w.memory.pending with
  | none =>
    obtain ⟨⟨_, _, _, _, _, _⟩, _, _⟩ := w
    cases at_
    rfl
  | some run =>
    dsimp only
    split <;> rfl

theorem Work.note_memory (w : Work) (index : Nat) (dropped : Bool) :
    ∃ pending, (w.note z index dropped).memory = { w.memory with pending } := by
  unfold note
  split
  · split
    · split
      · exact ⟨_, rfl⟩
      · exact ⟨some (index, index + 1), by simp [setPending]⟩
    · exact ⟨some (index, index + 1), by simp [setPending]⟩
  · exact ⟨none, by simp⟩

theorem Work.noteAll_memory (w : Work) (first : Nat) (drop : List Bool) :
    ∃ pending, (w.noteAll z first drop).memory = { w.memory with pending } := by
  induction drop generalizing w first with
  | nil => exact ⟨w.memory.pending, rfl⟩
  | cons dropped drop ih =>
    obtain ⟨_, note⟩ := w.note_memory (z := z) first dropped
    obtain ⟨pending, rest⟩ := ih (w.note z first dropped) (first + 1)
    exact ⟨pending, by rw [noteAll, rest, note]⟩

theorem Work.noteBlock_memory (w : Work) (last : Nat) (full : Bool) (resident : List UInt8) :
    ∃ pending, (w.noteBlock z last full resident).memory =
      { w.memory with next := last, pending } := by
  unfold noteBlock
  dsimp only
  generalize w.host.toDrop z (w.memory.addr z w.memory.next) full resident = drop
  obtain ⟨pending, noted⟩ := Work.noteAll_memory (z := z)
    { w with totals := w.totals.block full resident drop } w.memory.next drop
  split
  · exact ⟨none, by simp [setNext, noted]⟩
  · exact ⟨pending, by simp [setNext, noted]⟩

@[simp] theorem Host.length_mincore (h : Host) (addr count : Nat) :
    (h.mincore z addr count).length = count := by
  simp [mincore]

@[simp] theorem Host.length_toDrop (h : Host) (addr : Nat) (full : Bool) (resident : List UInt8) :
    (h.toDrop z addr full resident).length = resident.length := by
  unfold toDrop
  split <;> simp

structure Scratch.Fits (z : PageSizes) (s : Scratch) : Prop where
  resident : z.blockPages ≤ s.resident.length
  drop : z.blockPages ≤ s.drop.length

structure Scratch.Kept (z : PageSizes) (s s' : Scratch) : Prop where
  resident : s'.resident.length = s.resident.length
  drop : s'.drop.length = s.drop.length
  residentTail : s'.resident.drop z.blockPages = s.resident.drop z.blockPages
  dropTail : s'.drop.drop z.blockPages = s.drop.drop z.blockPages

theorem Scratch.Kept.refl (s : Scratch) : s.Kept z s := ⟨rfl, rfl, rfl, rfl⟩

theorem Scratch.Fits.kept {s s' : Scratch} (h : s.Fits z) (kept : s.Kept z s') : s'.Fits z :=
  ⟨kept.resident ▸ h.resident, kept.drop ▸ h.drop⟩

theorem drop_overwrite {α : Type} (l new : List α) {n : Nat} (le : new.length ≤ n)
    (fits : n ≤ l.length) :
    (new ++ l.drop new.length).length = l.length ∧
      (new ++ l.drop new.length).drop n = l.drop n := by
  constructor
  · simp only [List.length_append, List.length_drop]
    omega
  · rw [List.drop_append, List.drop_eq_nil_of_le le, List.nil_append, List.drop_drop]
    congr 1
    omega

structure Scanned (z : PageSizes) (w w' : Work) (s s' : Scratch) : Prop where
  advances : w.memory.next < w'.memory.next
  within : w'.memory.next ≤ w.memory.pages
  extent : w'.memory.next = w.memory.pages ∨
    ∃ e ∈ w.memory.extents, e.1 < w'.memory.next ∧ w'.memory.next ≤ e.2
  static : ∃ next pending, w'.memory = { w.memory with next, pending }
  scratch : s.Kept z s'

theorem Work.scanExtent_scanned {w : Work} {s : Scratch} {e : Range} (wf : w.memory.WellFormed z)
    (fits : s.Fits z) (mem : e ∈ w.memory.extents) (begun : e.1 ≤ w.memory.next)
    (lt : w.memory.next < e.2) :
    ∃ w' s', w.scanExtent z s e.2 = some (w', s') ∧ Scanned z w w' s s' := by
  have within := wf.within e mem
  have block := wf.block within lt
  have inResident := block.short.trans fits.resident
  have inDrop := block.short.trans fits.drop
  unfold scanExtent
  rw [if_pos ⟨inResident, inDrop⟩]
  dsimp only
  split
  · refine ⟨_, _, rfl, ?_⟩
    have next : ((w.setNext w.memory.pages).releasePending z).memory.next = w.memory.pages := by
      simp [setNext]
    refine ⟨?_, next.le, .inl next, ⟨w.memory.pages, none, by simp [setNext]⟩, .refl s⟩
    rw [next]
    exact lt.trans_le within
  · refine ⟨_, _, rfl, ?_⟩
    obtain ⟨pending, memory⟩ := w.noteBlock_memory (z := z)
      ((w.memory.blockEnd z e.2 - w.memory.base) / z.page) _ _
    have ahead := begun.trans_lt block.advances
    refine ⟨?_, ?_, .inr ⟨e, mem, ?_⟩, ⟨_, pending, memory⟩, ?_⟩
    · rw [memory]
      exact block.advances
    · rw [memory]
      exact block.within.trans within
    · rw [memory]
      exact ⟨ahead, block.within⟩
    · have resident := drop_overwrite s.resident (w.host.mincore z (w.memory.addr z w.memory.next)
        ((w.memory.blockEnd z e.2 - w.memory.base) / z.page - w.memory.next))
        (by simpa using block.short) fits.resident
      have drop (full : Bool) := drop_overwrite s.drop (w.host.toDrop z
        (w.memory.addr z w.memory.next) full (w.host.mincore z (w.memory.addr z w.memory.next)
          ((w.memory.blockEnd z e.2 - w.memory.base) / z.page - w.memory.next)))
        (by simpa using block.short) fits.drop
      simp only [Host.length_mincore, Host.length_toDrop] at resident drop
      exact ⟨resident.1, (drop _).1, resident.2, (drop _).2⟩

theorem scanBlock_scanned {w : Work} {s : Scratch} (wf : w.memory.WellFormed z) (fits : s.Fits z)
    (lt : w.memory.next < w.memory.pages) :
    ∃ w' s', scanBlock z w s = some (w', s') ∧ Scanned z w w' s s' := by
  unfold scanBlock
  split
  · refine ⟨_, _, rfl, ?_⟩
    have next : ((w.setNext w.memory.pages).releasePending z).memory.next = w.memory.pages := by
      simp [Work.setNext]
    refine ⟨?_, next.le, .inl next, ⟨w.memory.pages, none, by simp [Work.setNext]⟩, .refl s⟩
    rw [next]
    exact lt
  next start stop found =>
    have mem := List.mem_of_find?_eq_some found
    have ahead : w.memory.next < stop := by simpa using List.find?_some found
    split
    next gap =>
      -- the scan jumps to the start of the extent first
      have memory : ((w.releasePending z).setNext start).memory =
          { w.memory with next := start, pending := none } := by simp [Work.setNext]
      have filled : start < stop := wf.ordered.filled (start, stop) mem
      obtain ⟨w', s', scan, scanned⟩ := Work.scanExtent_scanned (e := (start, stop))
        (w := (w.releasePending z).setNext start)
        (by rw [memory]; exact ⟨wf.aligned, wf.fits, wf.ordered, wf.within⟩) fits
        (by rw [memory]; exact mem) (by rw [memory]) (by rw [memory]; exact filled)
      obtain ⟨advances, within, extent, ⟨next, pending, static⟩, scratch⟩ := scanned
      rw [memory] at advances within extent static
      exact ⟨w', s', scan, gap.trans advances, within, extent, ⟨next, pending, static⟩, scratch⟩
    next reached =>
      exact Work.scanExtent_scanned (e := (start, stop)) wf fits mem (Nat.not_lt.mp reached) ahead

end Call

/-! ## The whole scan -/

section Loop

variable {z : PageSizes} {c : Compaction}

structure Compaction.Ready (z : PageSizes) (c : Compaction) : Prop where
  wellFormed : ∀ m ∈ c.memories, m.WellFormed z
  scratch : c.scratch.Fits z

theorem Compaction.start_ready (memories : List (LinearMemory z))
    (mappings : List (Nat × Nat × Bool)) (host : Host) :
    (Compaction.start z memories mappings host).Ready z := by
  refine ⟨?_, ?_⟩
  · intro m mem
    obtain ⟨memory, -, rfl⟩ := List.mem_map.mp mem
    exact memory.scan_wellFormed mappings
  · exact ⟨by simp [start], by simp [start]⟩

theorem Compaction.split (open_ : c.done = false) : ∃ pre m rest, c.memories = pre ++ m :: rest ∧
    (∀ x ∈ pre, x.finished = true) ∧ m.finished = false ∧
    c.turn z = (scanBlock z ⟨m, c.totals, c.host⟩ c.scratch).map fun r =>
      ⟨pre ++ r.1.memory :: rest, r.1.totals, r.2, r.1.host⟩ := by
  cases at_ : c.memories.dropWhile MemoryScan.finished with
  | nil =>
    have all := List.dropWhile_eq_nil_iff.mp at_
    rw [done, List.all_eq_true.mpr all] at open_
    cases open_
  | cons m rest =>
    refine ⟨c.memories.takeWhile MemoryScan.finished, m, rest, ?_, ?_, ?_, ?_⟩
    · rw [← at_, List.takeWhile_append_dropWhile]
    · exact fun x mem => List.mem_takeWhile_imp mem
    · have first := List.head_dropWhile_not (p := MemoryScan.finished) (l := c.memories) (by simp [at_])
      simpa [at_] using first
    · rw [turn, at_]

def Compaction.remaining (c : Compaction) : Nat := (c.memories.map fun m => m.pages - m.next).sum

theorem Compaction.turn_ready (h : c.Ready z) (open_ : c.done = false) :
    ∃ c', c.turn z = some c' ∧ c'.Ready z ∧ c'.remaining < c.remaining := by
  obtain ⟨pre, m, rest, memories, -, unfinished, turn⟩ := Compaction.split (z := z) open_
  have wf := h.wellFormed m (by simp [memories])
  have lt : m.next < m.pages := by simpa [MemoryScan.finished] using unfinished
  obtain ⟨w', s', scan, scanned⟩ := scanBlock_scanned (w := ⟨m, c.totals, c.host⟩) wf h.scratch lt
  rw [scan] at turn
  obtain ⟨next, pending, static⟩ := scanned.static
  refine ⟨_, turn, ⟨?_, h.scratch.kept scanned.scratch⟩, ?_⟩
  · intro x mem
    rcases List.mem_append.mp mem with mem | mem
    · exact h.wellFormed x (by simp [memories, mem])
    rcases List.mem_cons.mp mem with rfl | mem
    · dsimp only
      rw [static]
      exact ⟨wf.aligned, wf.fits, wf.ordered, wf.within⟩
    · exact h.wellFormed x (by simp [memories, mem])
  · have ahead : m.next < w'.memory.next := scanned.advances
    have within : w'.memory.next ≤ m.pages := scanned.within
    have pages : w'.memory.pages = m.pages := by rw [static]
    simp only [remaining, memories, List.map_append, List.map_cons, List.sum_append, List.sum_cons,
      pages]
    omega

theorem Compaction.done_of_remaining (none_ : c.remaining = 0) : c.done = true := by
  refine List.all_eq_true.mpr ?_
  intro m mem
  have part := List.sum_eq_zero_iff_forall_eq_nat.mp none_ _ (List.mem_map_of_mem mem)
  exact decide_eq_true (Nat.sub_eq_zero_iff_le.mp part)

theorem Compaction.blocks_done (finished : c.done = true) (n : Nat) : c.blocks z n = some c := by
  cases n with
  | zero => rfl
  | succ n => rw [blocks, if_pos finished]

theorem Compaction.blocks_ready (h : c.Ready z) (n : Nat) :
    ∃ c', c.blocks z n = some c' ∧ c'.Ready z ∧ (c.remaining ≤ n → c'.done = true) := by
  induction n generalizing c with
  | zero => exact ⟨c, rfl, h, fun le => done_of_remaining (Nat.le_zero.mp le)⟩
  | succ n ih =>
    cases finished : c.done with
    | true => exact ⟨c, blocks_done finished _, h, fun _ => finished⟩
    | false =>
      obtain ⟨c', turn, ready, lower⟩ := turn_ready h finished
      obtain ⟨c'', rest, ready, ends⟩ := ih ready
      refine ⟨c'', ?_, ready, fun le => ends (by omega)⟩
      rw [blocks, if_neg (by simp [finished]), turn]
      exact rest

theorem Compaction.blocks_add (a b : Nat) :
    c.blocks z (a + b) = (c.blocks z a).bind (Compaction.blocks z b) := by
  induction a generalizing c with
  | zero => rw [Nat.zero_add]; rfl
  | succ a ih =>
    cases finished : c.done with
    | true => rw [blocks_done finished, blocks_done finished, Option.bind_some, blocks_done finished]
    | false =>
      rw [Nat.succ_add, blocks, blocks, if_neg (by simp [finished]), if_neg (by simp [finished]),
        Option.bind_assoc]
      congr 1
      funext c'
      exact ih

theorem Compaction.slices_eq (ns : List Nat) :
    c.slices z ns = c.blocks z (ns.map (· + 1)).sum := by
  induction ns generalizing c with
  | nil => rfl
  | cons n ns ih =>
    rw [List.map_cons, List.sum_cons, blocks_add, slices, step, Option.bind_map]
    congr 1
    funext c'
    exact ih

theorem length_le_sum_succ (ns : List Nat) : ns.length ≤ (ns.map (· + 1)).sum := by
  induction ns with
  | nil => exact Nat.le_refl 0
  | cons n ns ih =>
    simp only [List.length_cons, List.map_cons, List.sum_cons]
    omega

end Loop

theorem LinearMemory.scanned_le {z : PageSizes} (m : LinearMemory z)
    (mappings : List (Nat × Nat × Bool)) :
    (m.scan mappings).scanned ≤ (m.scan mappings).pages := by
  have sum := (m.extents_ordered mappings).sum_le (Nat.zero_le m.pages)
    (fun _ _ => Nat.zero_le _) (fun _ => m.extents_within mappings)
  rw [Nat.zero_add] at sum
  exact sum

end ServiceCache.Freeze
