import Mathlib.Algebra.GroupWithZero.Nat
import ServiceCache.Ranges

/-!
# The release of a frozen guest's zero pages

`Compaction::start` and `Compaction::step`. A slice of time is given by the number of blocks it
had time for. The host is what `mincore`, `madvise` and a read of the memory see.
-/

namespace ServiceCache.Freeze

open Ranges (Range)

structure PageSizes where
  page : Nat
  hugePage : Nat
  page_pos : 0 < page
  hugePage_pos : 0 < hugePage
  blocks : page ∣ hugePage

def PageSizes.blockPages (z : PageSizes) : Nat := z.hugePage / z.page

def divCeil (n d : Nat) : Nat := n / d + if n % d > 0 then 1 else 0

def saturatingMul (a b : Nat) : Nat := min (a * b) (2 ^ 64 - 1)

/-! ## The host -/

/-- `core` is the byte that `mincore` writes for the page at an address. A call fails where
`mincoreFails` or `madviseFails` says so. `madvised` is history: address and length of the
calls of `madvise` that succeeded. -/
structure Host where
  byte : Nat → UInt8
  core : Nat → UInt8
  mincoreFails : Nat → Bool := fun _ => false
  madviseFails : Nat → Bool := fun _ => false
  madvised : List (Nat × Nat) := []

/-- `madvise(MADV_DONTNEED)`: the pages are gone and read as zeros. -/
def Host.madvise (h : Host) (addr len : Nat) : Host :=
  { h with
    byte := fun a => if addr ≤ a ∧ a < addr + len then 0 else h.byte a
    core := fun a => if addr ≤ a ∧ a < addr + len then 0 else h.core a
    madvised := h.madvised ++ [(addr, len)] }

def Host.mincore (h : Host) (z : PageSizes) (addr count : Nat) : List UInt8 :=
  (List.range count).map fun k => h.core (addr + k * z.page)

def isResident (byte : UInt8) : Bool := byte &&& 1 != 0

def Host.isZero (h : Host) (addr len : Nat) : Bool := decide (∀ i < len, h.byte (addr + i) = 0)

/-! ## The scan of one memory -/

structure ZeroPages where
  memories : Nat := 0
  scanned : Nat := 0
  overlay : Nat := 0
  resident : Nat := 0
  zero : Nat := 0
  released : Nat := 0
  keptBlocks : Nat := 0
  runs : Nat := 0
  deriving DecidableEq, Repr

structure MemoryScan where
  base : Nat
  pages : Nat
  /-- First page, page behind the last, and whether the mapping holds huge pages. -/
  mappings : List (Nat × Nat × Bool)
  extents : List Range
  next : Nat := 0
  pending : Option Range := none
  deriving DecidableEq, Repr

structure Work where
  memory : MemoryScan
  totals : ZeroPages
  host : Host

structure Scratch where
  resident : List UInt8
  drop : List Bool
  deriving DecidableEq, Repr

def MemoryScan.addr (m : MemoryScan) (z : PageSizes) (i : Nat) : Nat := m.base + i * z.page

def Work.setNext (w : Work) (next : Nat) : Work := { w with memory := { w.memory with next } }

def Work.setPending (w : Work) (pending : Option Range) : Work :=
  { w with memory := { w.memory with pending } }

def ZeroPages.release (t : ZeroPages) (run : Nat) : ZeroPages :=
  { t with released := t.released + run, runs := t.runs + 1 }

def Work.releasePending (z : PageSizes) (w : Work) : Work :=
  match w.memory.pending with
  | none => w
  | some (start, stop) =>
    let run := stop - start
    if w.host.madviseFails (w.memory.addr z start) then w.setPending none
    else
      { w.setPending none with
        totals := w.totals.release run
        host := w.host.madvise (w.memory.addr z start) (run * z.page) }

def Work.note (z : PageSizes) (w : Work) (index : Nat) (dropped : Bool) : Work :=
  if dropped then
    match w.memory.pending with
    | some (start, stop) =>
      if stop = index then w.setPending (some (start, stop + 1))
      else (w.releasePending z).setPending (some (index, index + 1))
    | none => (w.releasePending z).setPending (some (index, index + 1))
  else w.releasePending z

def Work.noteAll (z : PageSizes) (w : Work) (first : Nat) : List Bool → Work
  | [] => w
  | dropped :: rest => (w.note z first dropped).noteAll z (first + 1) rest

def MemoryScan.blockEnd (m : MemoryScan) (z : PageSizes) (extentEnd : Nat) : Nat :=
  min (saturatingMul (m.addr z m.next / z.hugePage + 1) z.hugePage) (m.base + extentEnd * z.page)

def MemoryScan.spareFullBlocks (m : MemoryScan) (first : Nat) : Bool :=
  match m.mappings.find? (fun (start, stop, _) => start ≤ first && first < stop) with
  | none => true
  | some (_, _, huge) => huge

/-- Which pages of a block go: all or none of a full one, otherwise the resident zero pages. -/
def Host.toDrop (h : Host) (z : PageSizes) (addr : Nat) (full : Bool) (resident : List UInt8) :
    List Bool :=
  if full then List.replicate resident.length (h.isZero addr (resident.length * z.page))
  else resident.mapIdx fun offset byte =>
    isResident byte && h.isZero (addr + offset * z.page) z.page

def ZeroPages.block (t : ZeroPages) (full : Bool) (resident : List UInt8) (drop : List Bool) :
    ZeroPages :=
  { t with
    resident := t.resident + resident.countP isResident
    zero := t.zero + drop.count true
    keptBlocks := t.keptBlocks + if full && !drop.all id then 1 else 0 }

/-- The part of `scan_block` behind `mincore`, with the loop over `drop`. -/
def Work.noteBlock (z : PageSizes) (w : Work) (last : Nat) (full : Bool) (resident : List UInt8) :
    Work :=
  let first := w.memory.next
  let drop := w.host.toDrop z (w.memory.addr z first) full resident
  let looked := { w with totals := w.totals.block full resident drop }
  let noted := (looked.noteAll z first drop).setNext last
  if noted.memory.pages ≤ noted.memory.next then noted.releasePending z else noted

/-- The part of `scan_block` behind the choice of the extent. It panics where a slice of the
scratch is out of range. -/
def Work.scanExtent (z : PageSizes) (w : Work) (s : Scratch) (extentEnd : Nat) :
    Option (Work × Scratch) :=
  let first := w.memory.next
  let addr := w.memory.addr z first
  let blockEnd := w.memory.blockEnd z extentEnd
  let last := (blockEnd - w.memory.base) / z.page
  let count := last - first
  if count ≤ s.resident.length ∧ count ≤ s.drop.length then
    if w.host.mincoreFails addr then
      some ((w.setNext w.memory.pages).releasePending z, s)
    else
      let resident := w.host.mincore z addr count
      let full := w.memory.spareFullBlocks first && blockEnd - addr == z.hugePage &&
        resident.all isResident
      some (w.noteBlock z last full resident,
        ⟨resident ++ s.resident.drop count,
          w.host.toDrop z addr full resident ++ s.drop.drop count⟩)
  else none

def scanBlock (z : PageSizes) (w : Work) (s : Scratch) : Option (Work × Scratch) :=
  match w.memory.extents.find? (fun e => w.memory.next < e.2) with
  | none => some ((w.setNext w.memory.pages).releasePending z, s)
  | some (start, extentEnd) =>
    -- past an overlay: a run never spans one
    if w.memory.next < start then
      ((w.releasePending z).setNext start).scanExtent z s extentEnd
    else w.scanExtent z s extentEnd

/-! ## The scan of all memories -/

/-- An entry of `linear_memories`. An overlay is given by its address and length. -/
structure LinearMemory (z : PageSizes) where
  base : Nat
  len : Nat
  privateAnonymous : Bool
  overlays : List (Nat × Nat)
  aligned : z.page ∣ base
  fits : base + divCeil len z.page * z.page < 2 ^ 64
  inside : ∀ o ∈ overlays, base ≤ o.1

def lexLE (a b : Range) : Prop := a.1 < b.1 ∨ a.1 = b.1 ∧ a.2 ≤ b.2

instance : DecidableRel lexLE := fun a b => inferInstanceAs (Decidable (a.1 < b.1 ∨ _))

section Start

variable {z : PageSizes} (m : LinearMemory z)

def LinearMemory.pages : Nat := divCeil m.len z.page

def LinearMemory.overlayPages : List Range :=
  ((m.overlays.map fun (addr, len) =>
      ((addr - m.base) / z.page, divCeil (addr - m.base + len) z.page)).filter
    fun r => r.1 < min r.2 m.pages).insertionSort lexLE

/-- The loop that collects the extents is `Ranges.gaps`. -/
def LinearMemory.scan (mappings : List (Nat × Nat × Bool)) : MemoryScan where
  base := m.base
  pages := m.pages
  mappings :=
    (mappings.filter fun (start, stop, _) => start < m.base + m.pages * z.page && m.base < stop).map
      fun (start, stop, huge) =>
        ((max start m.base - m.base) / z.page,
          divCeil (min stop (m.base + m.pages * z.page) - m.base) z.page, huge)
  extents := Ranges.gaps 0 m.overlayPages m.pages

end Start

structure Compaction where
  memories : List MemoryScan
  totals : ZeroPages
  scratch : Scratch
  host : Host

def MemoryScan.scanned (m : MemoryScan) : Nat := (m.extents.map fun e => e.2 - e.1).sum

def Compaction.start (z : PageSizes) (memories : List (LinearMemory z))
    (mappings : List (Nat × Nat × Bool)) (host : Host) : Compaction :=
  let memories := (memories.filter fun m => m.privateAnonymous && 0 < m.len).map (·.scan mappings)
  let scanned := (memories.map MemoryScan.scanned).sum
  { memories
    totals :=
      { memories := memories.length, scanned
        overlay := (memories.map MemoryScan.pages).sum - scanned }
    scratch := ⟨List.replicate z.blockPages 0, List.replicate z.blockPages false⟩
    host }

def MemoryScan.finished (m : MemoryScan) : Bool := m.pages ≤ m.next

def Compaction.done (c : Compaction) : Bool := c.memories.all MemoryScan.finished

def Compaction.turn (z : PageSizes) (c : Compaction) : Option Compaction :=
  match c.memories.dropWhile MemoryScan.finished with
  | [] => some c
  | m :: rest =>
    (scanBlock z ⟨m, c.totals, c.host⟩ c.scratch).map fun (w, scratch) =>
      { memories := c.memories.takeWhile MemoryScan.finished ++ w.memory :: rest
        totals := w.totals, scratch, host := w.host }

def Compaction.blocks (z : PageSizes) : Nat → Compaction → Option Compaction
  | 0, c => some c
  | n + 1, c => if c.done then some c else (c.turn z).bind (Compaction.blocks z n)

def Compaction.step (z : PageSizes) (n : Nat) (c : Compaction) : Option (Compaction × Bool) :=
  (c.blocks z (n + 1)).map fun c => (c, c.done)

def Compaction.slices (z : PageSizes) : List Nat → Compaction → Option Compaction
  | [], c => some c
  | n :: ns, c => (c.step z n).bind fun (c, _) => Compaction.slices z ns c

end ServiceCache.Freeze
