import ServiceCache.Freeze.Extents

/-!
# Compaction as the guest sees it

Whatever `mincore` and `madvise` refuse, and wherever the compaction is stopped, no byte of the
process has changed: a run waits to be released only while all its bytes are zero.
-/

namespace ServiceCache.Freeze

open Ranges (Range)

variable {z : PageSizes} {byte : Nat → UInt8} {m : MemoryScan} {w : Work}

def MemoryScan.Zero (z : PageSizes) (byte : Nat → UInt8) (m : MemoryScan) (first last : Nat) : Prop :=
  ∀ a, m.addr z first ≤ a → a < m.addr z last → byte a = 0

def MemoryScan.Spares (z : PageSizes) (byte : Nat → UInt8) (m : MemoryScan) : Prop :=
  ∀ r, m.pending = some r → m.Zero z byte r.1 r.2

structure Work.Unseen (z : PageSizes) (byte : Nat → UInt8) (w : Work) : Prop where
  host : w.host.byte = byte
  spares : w.memory.Spares z byte

theorem Work.Unseen.setPending (h : w.Unseen z byte) {r : Range}
    (zero : w.memory.Zero z byte r.1 r.2) : (w.setPending (some r)).Unseen z byte where
  host := h.host
  spares _ at_ := by
    cases at_
    exact zero

theorem Work.Unseen.releasePending (h : w.Unseen z byte) : (w.releasePending z).Unseen z byte := by
  refine ⟨?_, fun r at_ => by rw [releasePending_memory] at at_; cases at_⟩
  rw [Work.releasePending]
  split
  · exact h.host
  next start stop at_ =>
    dsimp only
    split
    · exact h.host
    -- what is released reads as zero before and after
    funext a
    simp only [Host.madvise, h.host]
    split
    next hit =>
      have bounds : w.memory.addr z stop - w.memory.addr z start = (stop - start) * z.page :=
        MemoryScan.addr_sub
      have high : a < w.memory.addr z stop := by omega
      exact (h.spares _ at_ a hit.1 high).symm
    · rfl

theorem Work.Unseen.note (h : w.Unseen z byte) (i : Nat) (dropped : Bool)
    (zero : dropped → w.memory.Zero z byte i (i + 1)) : (w.note z i dropped).Unseen z byte := by
  have fresh (d : dropped) : ((w.releasePending z).setPending (some (i, i + 1))).Unseen z byte := by
    refine h.releasePending.setPending ?_
    rw [releasePending_memory]
    exact zero d
  rw [Work.note]
  split
  next d =>
    split
    next start stop at_ =>
      split
      next same =>
        refine h.setPending fun a low high => ?_
        rcases Nat.lt_or_ge a (w.memory.addr z stop) with below | above
        · exact h.spares _ at_ a low below
        · exact zero d a (same ▸ above) (same ▸ high)
      next => exact fresh d
    next => exact fresh d
  next => exact h.releasePending

theorem Work.Unseen.noteAll (h : w.Unseen z byte) {first : Nat} {drop : List Bool}
    (zero : ∀ k, drop[k]? = some true → w.memory.Zero z byte (first + k) (first + k + 1)) :
    (w.noteAll z first drop).Unseen z byte := by
  induction drop generalizing w first with
  | nil => exact h
  | cons dropped drop ih =>
    have noted := h.note first dropped fun d => zero 0 (by rw [d]; rfl)
    obtain ⟨pending, memory⟩ := w.note_memory (z := z) first dropped
    refine ih noted fun k at_ => ?_
    rw [memory, Nat.add_assoc first 1 k, Nat.add_comm 1 k]
    exact zero (k + 1) at_

theorem Host.toDrop_zero {h : Host} {first k : Nat} {full : Bool} {resident : List UInt8}
    (at_ : (h.toDrop z (m.addr z first) full resident)[k]? = some true) :
    m.Zero z h.byte (first + k) (first + k + 1) := by
  intro a low high
  have start : m.addr z (first + k) = m.addr z first + k * z.page := by
    simp only [MemoryScan.addr, Nat.add_mul, Nat.add_assoc]
  have stop : m.addr z (first + k + 1) = m.addr z (first + k) + z.page := by
    simp only [MemoryScan.addr, Nat.add_mul, Nat.one_mul, Nat.add_assoc]
  rw [Host.toDrop] at at_
  split at at_
  · obtain ⟨lt, zero⟩ := List.getElem?_eq_some_iff.mp at_
    rw [List.length_replicate] at lt
    rw [List.getElem_replicate, Host.isZero, decide_eq_true_eq] at zero
    have within : (k + 1) * z.page ≤ resident.length * z.page := Nat.mul_le_mul_right _ lt
    rw [Nat.succ_mul] at within
    have far : a - m.addr z first < resident.length * z.page := by omega
    rw [← zero _ far, Nat.add_sub_cancel' (by omega)]
  · rw [List.getElem?_mapIdx, Option.map_eq_some_iff] at at_
    obtain ⟨_, -, zero⟩ := at_
    rw [Bool.and_eq_true, Host.isZero, decide_eq_true_eq, ← start] at zero
    have near : a - m.addr z (first + k) < z.page := by omega
    rw [← zero.2 _ near, Nat.add_sub_cancel' low]

theorem Work.Unseen.noteBlock (h : w.Unseen z byte) (last : Nat) (full : Bool)
    (resident : List UInt8) : (w.noteBlock z last full resident).Unseen z byte := by
  have noted (totals : ZeroPages) : ((({ w with totals } : Work).noteAll z w.memory.next
      (w.host.toDrop z (w.memory.addr z w.memory.next) full resident)).setNext last).Unseen z byte :=
    have all := Work.Unseen.noteAll (w := { w with totals }) ⟨h.host, h.spares⟩ fun k at_ =>
      h.host ▸ Host.toDrop_zero at_
    ⟨all.host, all.spares⟩
  simp only [Work.noteBlock]
  split
  · exact (noted _).releasePending
  · exact noted _

theorem Work.Unseen.scanExtent (h : w.Unseen z byte) {s : Scratch} {stop : Nat} {r : Work × Scratch}
    (scan : w.scanExtent z s stop = some r) : r.1.Unseen z byte := by
  simp only [Work.scanExtent] at scan
  split at scan
  · split at scan <;> cases scan
    · exact Work.Unseen.releasePending (w := w.setNext _) ⟨h.host, h.spares⟩
    · exact h.noteBlock _ _ _
  · cases scan

theorem Work.Unseen.scanBlock (h : w.Unseen z byte) {s : Scratch} {r : Work × Scratch}
    (scan : scanBlock z w s = some r) : r.1.Unseen z byte := by
  have released := h.releasePending
  rw [Freeze.scanBlock] at scan
  split at scan
  · cases scan
    exact Work.Unseen.releasePending (w := w.setNext _) ⟨h.host, h.spares⟩
  next start stop _ =>
    have moved : ((w.releasePending z).setNext start).Unseen z byte :=
      ⟨released.host, released.spares⟩
    split at scan
    · exact moved.scanExtent scan
    · exact h.scanExtent scan

structure Compaction.Unseen (z : PageSizes) (byte : Nat → UInt8) (c : Compaction) : Prop where
  host : c.host.byte = byte
  spares : ∀ m ∈ c.memories, m.Spares z byte

theorem Compaction.Unseen.blocks {c c' : Compaction} (h : c.Unseen z byte) {n : Nat}
    (run : c.blocks z n = some c') : c'.Unseen z byte := by
  induction n generalizing c with
  | zero => cases run; exact h
  | succ n ih =>
    cases finished : c.done with
    | true => rw [blocks_done finished] at run; cases run; exact h
    | false =>
      rw [Compaction.blocks, if_neg (by simp [finished])] at run
      obtain ⟨c₁, turn, run⟩ := Option.bind_eq_some_iff.mp run
      obtain ⟨pre, m, rest, memories, -, -, turned⟩ := Compaction.split (z := z) finished
      obtain ⟨r, scan, rfl⟩ := Option.map_eq_some_iff.mp (turned.symm.trans turn)
      obtain ⟨host, spares⟩ := h
      rw [memories, List.forall_mem_append, List.forall_mem_cons] at spares
      obtain ⟨before, here, behind⟩ := spares
      have scanned := Work.Unseen.scanBlock (w := ⟨m, c.totals, c.host⟩) ⟨host, here⟩ scan
      refine ih ⟨scanned.host, ?_⟩ run
      rw [List.forall_mem_append, List.forall_mem_cons]
      exact ⟨before, scanned.spares, behind⟩

/-- Compaction runs through however its time is cut, and at every moment each byte reads as it did
before it started, also where `mincore` or `madvise` fails. -/
theorem compaction_unseen (z : PageSizes) (memories : List (LinearMemory z))
    (mappings : List (Nat × Nat × Bool)) (host : Host) (ns : List Nat) :
    ∃ c, (Compaction.start z memories mappings host).slices z ns = some c ∧
      c.host.byte = host.byte := by
  obtain ⟨c, run, -⟩ := Compaction.blocks_ready (Compaction.start_ready memories mappings host)
    (ns.map (· + 1)).sum
  refine ⟨c, (Compaction.slices_eq ns).trans run, ?_⟩
  have start : (Compaction.start z memories mappings host).Unseen z host.byte := by
    refine ⟨rfl, fun m mem r at_ => ?_⟩
    obtain ⟨_, -, rfl⟩ := List.mem_map.mp mem
    cases at_
  exact (start.blocks run).host

end ServiceCache.Freeze
