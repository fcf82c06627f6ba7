import ServiceCache.SharedMemory.Runs

/-!
# New backing files

`freeze` and `reshare_after_fork` are the same loop; `Replaced` says what it does as a whole.
-/

namespace ServiceCache.SharedMemory

def RegisteredMapping.At (m : RegisteredMapping) (a offset : Nat) : Prop :=
  ∃ h, m.hostAddress = some h ∧ h ≤ a ∧ a < h + (m.stop - m.start) ∧ offset = m.start + (a - h)

theorem Object.mem_registered {x : Object} {r : RegisteredMapping} :
    r ∈ x.registered ↔ ∃ id, id < x.nextMapping ∧ x.mappings id = some r := by
  simp [Object.registered]

theorem Records.shows_iff_registered {p : Process} (records : Records p) {a o offset : Nat} :
    p.Shows a o offset ↔ ∃ r ∈ (p.object o).registered, r.At a offset := by
  constructor
  · rintro ⟨id, r, h, hr, rest⟩
    exact ⟨r, Object.mem_registered.mpr ⟨id, (records.known o id r hr).2.1, hr⟩, h, rest⟩
  · rintro ⟨r, hr, h, rest⟩
    obtain ⟨id, -, hid⟩ := Object.mem_registered.mp hr
    exact ⟨id, r, h, hid, rest⟩

theorem remapOne_out {file : Nat} {shared : Bool} {space : Nat → Cell} {m : RegisteredMapping}
    {a : Nat} (out : ∀ offset, ¬ m.At a offset) : remapOne file shared space m a = space a := by
  cases hh : m.hostAddress with
  | none => simp only [remapOne, hh]
  | some h =>
    simp only [remapOne, hh, overlay]
    refine if_neg ?_
    rintro ⟨low, high⟩
    exact out _ ⟨h, hh, low, high, rfl⟩

theorem remapOne_at {file : Nat} {shared : Bool} {space : Nat → Cell} {m : RegisteredMapping}
    {a offset : Nat} (hat : m.At a offset) :
    remapOne file shared space m a = backing shared file offset := by
  obtain ⟨h, hh, low, high, rfl⟩ := hat
  simp only [remapOne, hh, overlay]
  exact if_pos ⟨low, high⟩

theorem remap_out {file : Nat} {shared : Bool} {space : Nat → Cell}
    {ms : List RegisteredMapping} {a : Nat} (out : ∀ m ∈ ms, ∀ offset, ¬ m.At a offset) :
    remap file shared space ms a = space a := by
  induction ms generalizing space with
  | nil => rfl
  | cons m rest ih =>
    exact (ih fun m' hm' => out m' (List.mem_cons_of_mem _ hm')).trans
      (remapOne_out (out m List.mem_cons_self))

theorem remap_at {file : Nat} {shared : Bool} {space : Nat → Cell} {ms : List RegisteredMapping}
    {a offset : Nat} (only : ∀ m ∈ ms, ∀ offset', m.At a offset' → offset' = offset)
    (hit : space a = backing shared file offset ∨ ∃ m ∈ ms, m.At a offset) :
    remap file shared space ms a = backing shared file offset := by
  induction ms generalizing space with
  | nil =>
    rcases hit with here | ⟨m, hm, -⟩
    · exact here
    · cases hm
  | cons m rest ih =>
    refine ih (fun m' hm' => only m' (List.mem_cons_of_mem _ hm')) ?_
    by_cases here : ∃ offset', m.At a offset'
    · obtain ⟨offset', hat⟩ := here
      rw [only m List.mem_cons_self _ hat] at hat
      exact .inl (remapOne_at hat)
    · have out : ∀ offset', ¬ m.At a offset' := fun offset' hat => here ⟨offset', hat⟩
      rcases hit with old | ⟨m', hm', hat⟩
      · exact .inl ((remapOne_out out).trans old)
      · rcases List.mem_cons.mp hm' with rfl | later
        · exact absurd hat (out offset)
        · exact .inr ⟨m', later, hat⟩

def State.replaced (s : State) (o : Nat) (mappings : List RegisteredMapping) (shared : Bool) :
    State :=
  ((s.createMemfd (s.content o)).setSpace
    (remap s.kernel.next shared s.process.space mappings)).setObject o
      { s.process.object o with file := s.kernel.next }

theorem replaceBacking_eq (ops : FileOps) (s : State) (o : Nat)
    (mappings : List RegisteredMapping) (shared : Bool) :
    s.replaceBacking ops o mappings shared = .ok (s.replaced o mappings shared) := by
  unfold State.replaceBacking
  simp only [copyData_eq ops (CopiedTo.zeros (s.content o))]
  rfl

structure Replaced (s t : State) (shared : Bool) (os : List Nat) : Prop where
  mappings : ∀ o, (t.process.object o).mappings = (s.process.object o).mappings
  nextMapping : ∀ o, (t.process.object o).nextMapping = (s.process.object o).nextMapping
  file_kept : ∀ o, o ∉ os → (t.process.object o).file = (s.process.object o).file
  file_new : ∀ o ∈ os, s.kernel.next ≤ (t.process.object o).file ∧
    (t.process.object o).file < t.kernel.next
  file_apart : ∀ o ∈ os, ∀ o' ∈ os, (t.process.object o).file = (t.process.object o').file → o = o'
  content : ∀ o, (s.process.object o).file < s.kernel.next → t.content o = s.content o
  next_le : s.kernel.next ≤ t.kernel.next
  kernel : ∀ f, f < s.kernel.next → t.kernel.file f = s.kernel.file f
  shown : ∀ o ∈ os, ∀ a offset, s.process.Shows a o offset →
    t.process.space a = backing shared (t.process.object o).file offset
  hidden : ∀ a, (∀ o ∈ os, ∀ offset, ¬ s.process.Shows a o offset) →
    t.process.space a = s.process.space a
  nextObject : t.process.nextObject = s.process.nextObject
  mapped : t.process.mapped = s.process.mapped
  guest : t.process.guest = s.process.guest
  nextGuest : t.process.nextGuest = s.process.nextGuest
  files : t.process.files = s.process.files
  fd : t.process.fd = s.process.fd

variable {s t u : State} {shared : Bool} {os os' : List Nat}

theorem Replaced.shows (h : Replaced s t shared os) {a o offset : Nat} :
    t.process.Shows a o offset ↔ s.process.Shows a o offset := shows_congr h.mappings

theorem Replaced.records (h : Replaced s t shared os) (records : Records s.process) :
    Records t.process := by
  refine records.congr h.mappings (fun o _ => Nat.le_of_eq (h.nextMapping o).symm) ?_
    (Nat.le_of_eq h.nextObject.symm) (fun o ho => h.mapped ▸ ho) (h.mapped ▸ records.mapped_nodup)
  intro g base m
  unfold Process.Maps
  rw [h.guest]

theorem Replaced.geometry (h : Replaced s t shared os) (geometry : Geometry s.process) :
    Geometry t.process := by
  constructor <;> rw [h.guest]
  · rw [h.nextGuest]
    exact geometry.known
  · exact geometry.sized
  · exact geometry.inside
  · exact geometry.apart
  · exact geometry.guests

theorem Replaced.registered (h : Replaced s t shared os) (o : Nat) :
    (t.process.object o).registered = (s.process.object o).registered := by
  unfold Object.registered
  rw [h.mappings, h.nextMapping]

theorem Replaced.refl (s : State) (shared : Bool) : Replaced s s shared [] where
  mappings _ := rfl
  nextMapping _ := rfl
  file_kept _ _ := rfl
  file_new _ ho := by cases ho
  file_apart _ ho := by cases ho
  content _ _ := rfl
  next_le := Nat.le_refl _
  kernel _ _ := rfl
  shown _ ho := by cases ho
  hidden _ _ := rfl
  nextObject := rfl
  mapped := rfl
  guest := rfl
  nextGuest := rfl
  files := rfl
  fd := rfl

theorem replaced_one (shared : Bool) (records : Records s.process) (geometry : Geometry s.process) (o : Nat) :
    Replaced s (s.replaced o (s.process.object o).registered shared) shared [o] := by
  have object : ∀ o', (s.replaced o (s.process.object o).registered shared).process.object o' =
      if o' = o then { s.process.object o with file := s.kernel.next } else s.process.object o' :=
    fun o' => Function.update_apply _ _ _ _
  have file : ∀ f, (s.replaced o (s.process.object o).registered shared).kernel.file f =
      if f = s.kernel.next then s.content o else s.kernel.file f :=
    fun f => Function.update_apply _ _ _ _
  have next : (s.replaced o (s.process.object o).registered shared).kernel.next =
    s.kernel.next + 1 := rfl
  constructor
  · intro o'
    rw [object]
    split
    next ho => rw [ho]
    · rfl
  · intro o'
    rw [object]
    split
    next ho => rw [ho]
    · rfl
  · intro o' ho'
    rw [object, if_neg (by simpa using ho')]
  · intro o' ho'
    rw [object, if_pos (by simpa using ho'), next]
    exact ⟨Nat.le_refl _, Nat.lt_succ_self _⟩
  · intro o₁ h₁ o₂ h₂ _
    rw [List.mem_singleton.mp h₁, List.mem_singleton.mp h₂]
  · intro o' lt
    unfold State.content
    rw [object, file]
    split
    next ho =>
      rw [if_pos rfl, ho]
      rfl
    · exact if_neg (by omega)
  · omega
  · intro f hf
    rw [file, if_neg (by omega)]
  · intro o' ho' a offset hs
    obtain rfl := List.mem_singleton.mp ho'
    rw [object, if_pos rfl]
    refine remap_at (fun m hm offset' hat => ?_) (.inr (records.shows_iff_registered.mp hs))
    exact (shows_unique records geometry (records.shows_iff_registered.mpr ⟨m, hm, hat⟩) hs).2
  · intro a out
    refine remap_out fun m hm offset hat => ?_
    exact out o (by simp) offset (records.shows_iff_registered.mpr ⟨m, hm, hat⟩)
  all_goals rfl

theorem Replaced.trans (records : Records s.process) (geometry : Geometry s.process)
    (first : Replaced s t shared os) (then_ : Replaced t u shared os')
    (apart : ∀ o ∈ os, o ∉ os') : Replaced s u shared (os ++ os') where
  mappings o := (then_.mappings o).trans (first.mappings o)
  nextMapping o := (then_.nextMapping o).trans (first.nextMapping o)
  file_kept o ho := by
    rw [List.mem_append, not_or] at ho
    rw [then_.file_kept o ho.2, first.file_kept o ho.1]
  file_new o ho := by
    have := first.next_le
    rcases List.mem_append.mp ho with old | new
    · rw [then_.file_kept o (apart o old)]
      have := first.file_new o old
      have := then_.next_le
      omega
    · have := then_.file_new o new
      omega
  file_apart o ho o' ho' same := by
    have le := first.next_le
    rcases List.mem_append.mp ho with old | new
    · have lt := (first.file_new o old).2
      rw [then_.file_kept o (apart o old)] at same
      rcases List.mem_append.mp ho' with old' | new'
      · rw [then_.file_kept o' (apart o' old')] at same
        exact first.file_apart o old o' old' same
      · have := (then_.file_new o' new').1
        omega
    · have ge := (then_.file_new o new).1
      rcases List.mem_append.mp ho' with old' | new'
      · have := (first.file_new o' old').2
        rw [then_.file_kept o' (apart o' old')] at same
        omega
      · exact then_.file_apart o new o' new' same
  content o lt := by
    have known : (t.process.object o).file < t.kernel.next := by
      by_cases ho : o ∈ os
      · exact (first.file_new o ho).2
      · rw [first.file_kept o ho]
        exact Nat.lt_of_lt_of_le lt first.next_le
    rw [then_.content o known, first.content o lt]
  next_le := Nat.le_trans first.next_le then_.next_le
  kernel f hf := by
    rw [then_.kernel f (Nat.lt_of_lt_of_le hf first.next_le), first.kernel f hf]
  shown o ho a offset hs := by
    rcases List.mem_append.mp ho with old | new
    · rw [then_.file_kept o (apart o old), ← first.shown o old a offset hs]
      refine then_.hidden a fun o' ho' offset' hs' => ?_
      have := (shows_unique records geometry hs (first.shows.mp hs')).1
      exact apart o old (this ▸ ho')
    · exact then_.shown o new a offset (first.shows.mpr hs)
  hidden a out := by
    rw [then_.hidden a fun o ho offset hs =>
      out o (List.mem_append_right _ ho) offset (first.shows.mp hs)]
    exact first.hidden a fun o ho => out o (List.mem_append_left _ ho)
  nextObject := then_.nextObject.trans first.nextObject
  mapped := then_.mapped.trans first.mapped
  guest := then_.guest.trans first.guest
  nextGuest := then_.nextGuest.trans first.nextGuest
  files := then_.files.trans first.files
  fd := then_.fd.trans first.fd

end ServiceCache.SharedMemory
