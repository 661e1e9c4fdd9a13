import D7os.Multitasking.ElfLoader
import D7os.Ipc.Manager
import D7os.Lib.Except

/-!
# The physical memory map

`src/memory/map.rs` and `src/memory/area.rs`: `load_memory_map` keeps the whole
2 MiB pages of the E820 entries of type 1 or 4 with ACPI bit 0 set, cuts out the
memory below `MEMORY_RESERVED_BELOW` and the kernel heap, and writes each piece
into the 20 slots of `MemoryRanges`, merged into the first stored range that
`can_merge` accepts; a second loop adds up the sizes for the log.

The stored ranges are 2 MiB aligned and hold exactly the addresses they should.
They need not be disjoint: `can_merge` asks only whether an end of the new range
lies in the stored one. An unaligned entry inside one page gives a range whose
start is past its end, and the size loop panics on its `PhysAddr` subtraction.
-/

namespace D7os

def MEMORY_RESERVED_BELOW : Nat := 0x1100_0000

def HEAP_START : Nat := 0x4000_0000

def HEAP_SIZE : Nat := 0x640_0000

def MAX_OK_ENTRIES : Nat := 20

structure PhysMemoryRange where
  start : Nat
  «end» : Nat
  deriving DecidableEq

namespace PhysMemoryRange

def containsAddress (self : PhysMemoryRange) (phAddr : Nat) : Bool :=
  self.start ≤ phAddr && phAddr < self.end

/-- Are these areas adjacent or overlapping -/
def canMerge (self other : PhysMemoryRange) : Bool :=
  (self.start ≤ other.start && other.start ≤ self.end) || (self.start ≤ other.end && other.end ≤ self.end)

def merge (self other : PhysMemoryRange) : Except Panic PhysMemoryRange :=
  if self.canMerge other then .ok ⟨min self.start other.start, max self.end other.end⟩
  else .error "assertion failed: self.can_merge(other)"

def below (self : PhysMemoryRange) (phAddr : Nat) : Option PhysMemoryRange :=
  if phAddr ≤ self.start then none else some ⟨self.start, min self.end phAddr⟩

def above (self : PhysMemoryRange) (phAddr : Nat) : Option PhysMemoryRange :=
  if phAddr ≥ self.end then none else some ⟨max self.start phAddr, self.end⟩

/-- `size_bytes`: `end - start`, a difference of two `PhysAddr`s, which the
x86_64 crate computes as `checked_sub(..).unwrap()`. -/
def sizeBytes (self : PhysMemoryRange) : Except Panic Nat :=
  if self.start ≤ self.end then .ok (self.end - self.start) else .error Ipc.unwrapNone

/-- Both ends on a 2 MiB boundary. -/
def Aligned (r : PhysMemoryRange) : Prop :=
  r.start % PAGE_SIZE_BYTES = 0 ∧ r.end % PAGE_SIZE_BYTES = 0

end PhysMemoryRange

/-- `MemoryRanges`: its `MAX_OK_ENTRIES` slots. -/
structure MemoryRanges where
  slots : List (Option PhysMemoryRange)
  length_eq : slots.length = MAX_OK_ENTRIES

namespace MemoryRanges

def new : MemoryRanges := ⟨List.replicate MAX_OK_ENTRIES none, List.length_replicate⟩

/-- The loop of `write_entry` over the slots from `i` on, with the first free slot
seen so far: the slot to merge into with the merged range, or the first free
slot. -/
def scan (entry : PhysMemoryRange) : Nat → Option Nat → List (Option PhysMemoryRange) →
    Except Panic ((Nat × PhysMemoryRange) ⊕ Option Nat)
  | _, firstFree, [] => .ok (.inr firstFree)
  | i, firstFree, some ok :: rest =>
    if ok.canMerge entry then (ok.merge entry).map fun merged => .inl (i, merged)
    else scan entry (i + 1) firstFree rest
  | i, firstFree, none :: rest => scan entry (i + 1) (if firstFree.isNone then some i else firstFree) rest

def writeEntry (self : MemoryRanges) (entry : PhysMemoryRange) : Except Panic MemoryRanges := do
  match ← scan entry 0 none self.slots with
  | .inl (i, merged) => .ok ⟨self.slots.set i (some merged), by rw [List.length_set, self.length_eq]⟩
  | .inr (some i) => .ok ⟨self.slots.set i (some entry), by rw [List.length_set, self.length_eq]⟩
  | .inr none => .error "No free entries left"

/-- `if let Some(part) = part { self.write_entry(part) }`. -/
def writePart (self : MemoryRanges) : Option PhysMemoryRange → Except Panic MemoryRanges
  | some part => self.writeEntry part
  | none => .ok self

def splitAndWriteEntry (self : MemoryRanges) (entry : PhysMemoryRange) : Except Panic MemoryRanges :=
  match entry.above MEMORY_RESERVED_BELOW with
  | some ok => do
    let self ← self.writePart (ok.below HEAP_START)
    self.writePart (ok.above (HEAP_START + HEAP_SIZE))
  | none => .ok self

/-- The addresses of the stored ranges. -/
def Covers (slots : List (Option PhysMemoryRange)) (x : Nat) : Prop :=
  ∃ r, some r ∈ slots ∧ r.containsAddress x = true

def Aligned (self : MemoryRanges) : Prop := ∀ r, some r ∈ self.slots → r.Aligned

end MemoryRanges

/-- An entry of the E820 map: `(e_start, e_size, e_type, e_acpi_data)`. -/
structure E820Entry where
  start : Nat
  size : Nat
  type : Nat
  acpiData : Nat

structure MemoryInfo where
  allocatable : List (Option PhysMemoryRange)
  maxMemory : Nat

/-- `u64` addition under the kernel's overflow checks. -/
def addU64 (a b : Nat) : Except Panic Nat :=
  if a + b < UInt64.size then .ok (a + b) else .error addOverflow

/-- One pass of the loop of `load_memory_map`. -/
def loadEntry (allocatable : MemoryRanges) (maxMemory : Nat) (e : E820Entry) :
    Except Panic (MemoryRanges × Nat) := do
  let eEnd ← addU64 e.start e.size
  let maxMemory := max maxMemory eEnd
  let start ← pageAlignU64 e.start true
  let «end» ← pageAlignU64 eEnd false
  if start = «end» then .ok (allocatable, maxMemory)
  else if e.acpiData &&& 1 ≠ 1 then .ok (allocatable, maxMemory)
  else if e.type = 1 ∨ e.type = 4 then (allocatable.splitAndWriteEntry ⟨start, «end»⟩).map (·, maxMemory)
  else .ok (allocatable, maxMemory)

/-- The second loop of `load_memory_map`: `memory_counter_bytes`, the checked
`u64` sum of the sizes of the stored ranges. -/
def memoryCounterBytes (slots : List (Option PhysMemoryRange)) : Except Panic Nat :=
  slots.foldlM (fun counter entry => match entry with
    | some area => do addU64 counter (← area.sizeBytes)
    | none => .ok counter) 0

/-- `load_memory_map`, over the entries the bootloader left. -/
def loadMemoryMap (entries : List E820Entry) : Except Panic MemoryInfo := do
  let (allocatable, maxMemory) ← entries.foldlM (fun st e => loadEntry st.1 st.2 e) (MemoryRanges.new, 0)
  -- the counter only feeds the log line of the memory size, but its arithmetic is checked
  let _ ← memoryCounterBytes allocatable.slots
  pure ⟨allocatable.slots, maxMemory⟩

/-- An address `load_memory_map` should make allocatable from the entry `e`: its
2 MiB page lies inside `e`, of type 1 or 4 with ACPI bit 0 set, and it is neither
below `MEMORY_RESERVED_BELOW` nor in the heap. -/
def E820Entry.Usable (e : E820Entry) (x : Nat) : Prop :=
  e.acpiData % 2 = 1 ∧ (e.type = 1 ∨ e.type = 4) ∧
    e.start ≤ x / PAGE_SIZE_BYTES * PAGE_SIZE_BYTES ∧
    x / PAGE_SIZE_BYTES * PAGE_SIZE_BYTES + PAGE_SIZE_BYTES ≤ e.start + e.size ∧
    MEMORY_RESERVED_BELOW ≤ x ∧ ¬ (HEAP_START ≤ x ∧ x < HEAP_START + HEAP_SIZE)

/-! ## Ranges -/

namespace PhysMemoryRange

variable {r e p : PhysMemoryRange} {a x : Nat}

@[simp] theorem containsAddress_iff : r.containsAddress x = true ↔ r.start ≤ x ∧ x < r.end := by
  simp [containsAddress]

/-- **A merge loses and adds no address**: the hull of two ranges `can_merge`
accepts holds exactly the addresses of the two. -/
theorem merge_containsAddress (h : r.canMerge e = true) :
    (⟨min r.start e.start, max r.end e.end⟩ : PhysMemoryRange).containsAddress x = true ↔
      r.containsAddress x = true ∨ e.containsAddress x = true := by
  simp only [canMerge, Bool.or_eq_true, Bool.and_eq_true, decide_eq_true_eq] at h
  simp only [containsAddress_iff]
  omega

theorem below_containsAddress (r : PhysMemoryRange) (a x : Nat) :
    (∃ part, r.below a = some part ∧ part.containsAddress x = true) ↔ r.containsAddress x = true ∧ x < a := by
  unfold below
  split
  · simp only [reduceCtorEq, false_and, exists_false, false_iff, containsAddress_iff]
    omega
  · simp only [Option.some.injEq, exists_eq_left', containsAddress_iff]
    omega

theorem above_containsAddress (r : PhysMemoryRange) (a x : Nat) :
    (∃ part, r.above a = some part ∧ part.containsAddress x = true) ↔ r.containsAddress x = true ∧ a ≤ x := by
  unfold above
  split
  · simp only [reduceCtorEq, false_and, exists_false, false_iff, containsAddress_iff]
    omega
  · simp only [Option.some.injEq, exists_eq_left', containsAddress_iff]
    omega

theorem Aligned.merge (hr : r.Aligned) (he : e.Aligned) :
    (⟨min r.start e.start, max r.end e.end⟩ : PhysMemoryRange).Aligned := by
  simp only [Aligned, PAGE_SIZE_BYTES] at *
  omega

theorem Aligned.below (hr : r.Aligned) (ha : a % PAGE_SIZE_BYTES = 0) (h : r.below a = some p) : p.Aligned := by
  unfold PhysMemoryRange.below at h
  split at h
  · cases h
  · cases h
    simp only [Aligned, PAGE_SIZE_BYTES] at *
    omega

theorem Aligned.above (hr : r.Aligned) (ha : a % PAGE_SIZE_BYTES = 0) (h : r.above a = some p) : p.Aligned := by
  unfold PhysMemoryRange.above at h
  split at h
  · cases h
  · cases h
    simp only [Aligned, PAGE_SIZE_BYTES] at *
    omega

end PhysMemoryRange

/-! ## Writing a range -/

namespace MemoryRanges

variable {self self' : MemoryRanges} {entry : PhysMemoryRange} {x : Nat}

theorem covers_append_cons (pre post : List (Option PhysMemoryRange)) (o : Option PhysMemoryRange) (x : Nat) :
    Covers (pre ++ o :: post) x ↔ Covers pre x ∨ (∃ r, o = some r ∧ r.containsAddress x = true) ∨ Covers post x := by
  constructor
  · rintro ⟨r, hr, hx⟩
    rcases List.mem_append.mp hr with hr | hr
    · exact .inl ⟨r, hr, hx⟩
    · rcases List.mem_cons.mp hr with hr | hr
      · exact .inr (.inl ⟨r, hr.symm, hx⟩)
      · exact .inr (.inr ⟨r, hr, hx⟩)
  · rintro (⟨r, hr, hx⟩ | ⟨r, rfl, hx⟩ | ⟨r, hr, hx⟩)
    · exact ⟨r, List.mem_append_left _ hr, hx⟩
    · exact ⟨r, List.mem_append_right _ List.mem_cons_self, hx⟩
    · exact ⟨r, List.mem_append_right _ (List.mem_cons_of_mem _ hr), hx⟩

theorem covers_new (x : Nat) : ¬ Covers new.slots x := by
  rintro ⟨r, hr, -⟩
  exact absurd (List.eq_of_mem_replicate hr) (by simp)

/-- The scan stops at a stored range that `can_merge` accepts, with their hull. -/
theorem scan_inl : ∀ {slots : List (Option PhysMemoryRange)} {i : Nat} {firstFree : Option Nat} {j : Nat}
    {merged : PhysMemoryRange}, scan entry i firstFree slots = .ok (.inl (j, merged)) →
      ∃ pre ok post, slots = pre ++ some ok :: post ∧ j = i + pre.length ∧ ok.canMerge entry = true ∧
        merged = ⟨min ok.start entry.start, max ok.end entry.end⟩
  | [], _, _, _, _, h => by cases h
  | some ok :: rest, i, firstFree, j, merged, h => by
    rw [scan] at h
    split at h
    · rename_i hc
      obtain ⟨m, hm, he⟩ := Except.map_eq_ok.mp h
      rw [PhysMemoryRange.merge, if_pos hc] at hm
      cases hm
      simp only [Sum.inl.injEq, Prod.mk.injEq] at he
      obtain ⟨rfl, rfl⟩ := he
      exact ⟨[], ok, rest, rfl, rfl, hc, rfl⟩
    · obtain ⟨pre, ok', post, rfl, rfl, hc, hm⟩ := scan_inl h
      exact ⟨some ok :: pre, ok', post, rfl, by simp only [List.length_cons]; omega, hc, hm⟩
  | none :: rest, i, firstFree, j, merged, h => by
    rw [scan] at h
    obtain ⟨pre, ok', post, rfl, rfl, hc, hm⟩ := scan_inl h
    exact ⟨none :: pre, ok', post, rfl, by simp only [List.length_cons]; omega, hc, hm⟩

/-- Without a merge, the scan returns the free slot it was given or the first
free one it passed. -/
theorem scan_inr : ∀ {slots : List (Option PhysMemoryRange)} {i : Nat} {firstFree firstFree' : Option Nat},
    scan entry i firstFree slots = .ok (.inr firstFree') →
      firstFree' = firstFree ∨ firstFree = none ∧ ∃ pre post, slots = pre ++ none :: post ∧
        firstFree' = some (i + pre.length)
  | [], _, _, _, h => by
    cases h
    exact .inl rfl
  | some ok :: rest, i, firstFree, firstFree', h => by
    rw [scan] at h
    split at h
    · obtain ⟨m, -, he⟩ := Except.map_eq_ok.mp h
      cases he
    · rcases scan_inr h with hf | ⟨rfl, pre, post, rfl, rfl⟩
      · exact .inl hf
      · exact .inr ⟨rfl, some ok :: pre, post, rfl, by simp only [List.length_cons, Option.some.injEq]; omega⟩
  | none :: rest, i, firstFree, firstFree', h => by
    rw [scan] at h
    cases firstFree with
    | none =>
      -- this slot is the first free one
      rcases scan_inr h with hf | ⟨hf, -⟩
      · exact .inr ⟨rfl, [], rest, rfl, by rw [hf]; rfl⟩
      · cases hf
    | some f =>
      rcases scan_inr h with hf | ⟨hf, -⟩
      · exact .inl hf
      · cases hf

/-- **What `write_entry` does**: it replaces a stored range that `can_merge`
accepts by its hull with the entry, or fills a free slot with the entry. -/
theorem writeEntry_ok (h : self.writeEntry entry = .ok self') :
    (∃ pre ok post, self.slots = pre ++ some ok :: post ∧ ok.canMerge entry = true ∧
      self'.slots = pre ++ some ⟨min ok.start entry.start, max ok.end entry.end⟩ :: post) ∨
    (∃ pre post, self.slots = pre ++ none :: post ∧ self'.slots = pre ++ some entry :: post) := by
  unfold writeEntry at h
  obtain ⟨res, hscan, h⟩ := Except.bind_eq_ok.mp h
  rcases res with ⟨j, merged⟩ | _ | j
  · obtain ⟨pre, ok, post, hslots, rfl, hc, rfl⟩ := scan_inl hscan
    cases h
    refine .inl ⟨pre, ok, post, hslots, hc, ?_⟩
    simp only [hslots, Nat.zero_add, List.set_append_length]
  · cases h
  · rcases scan_inr hscan with hf | ⟨-, pre, post, hslots, hf⟩
    · cases hf
    · cases hf
      cases h
      refine .inr ⟨pre, post, hslots, ?_⟩
      simp only [hslots, Nat.zero_add, List.set_append_length]

theorem writeEntry_covers (h : self.writeEntry entry = .ok self') :
    Covers self'.slots x ↔ Covers self.slots x ∨ entry.containsAddress x = true := by
  rcases writeEntry_ok h with ⟨pre, ok, post, hslots, hc, hslots'⟩ | ⟨pre, post, hslots, hslots'⟩
  · rw [hslots', hslots, covers_append_cons, covers_append_cons]
    simp only [Option.some.injEq, exists_eq_left']
    rw [PhysMemoryRange.merge_containsAddress hc]
    tauto
  · rw [hslots', hslots, covers_append_cons, covers_append_cons]
    simp only [Option.some.injEq, exists_eq_left', reduceCtorEq, false_and, exists_false, false_or]
    tauto

theorem writeEntry_aligned (hself : self.Aligned) (hentry : entry.Aligned) (h : self.writeEntry entry = .ok self') :
    self'.Aligned := by
  intro r hr
  rcases writeEntry_ok h with ⟨pre, ok, post, hslots, -, hslots'⟩ | ⟨pre, post, hslots, hslots'⟩
  · have hok : ok.Aligned := hself ok (by simp [hslots])
    rw [hslots'] at hr
    rcases List.mem_append.mp hr with hr | hr
    · exact hself r (by simp [hslots, hr])
    · rcases List.mem_cons.mp hr with hr | hr
      · rw [Option.some.inj hr]
        exact hok.merge hentry
      · exact hself r (by simp [hslots, hr])
  · rw [hslots'] at hr
    rcases List.mem_append.mp hr with hr | hr
    · exact hself r (by simp [hslots, hr])
    · rcases List.mem_cons.mp hr with hr | hr
      · rw [Option.some.inj hr]
        exact hentry
      · exact hself r (by simp [hslots, hr])

theorem writePart_covers {part : Option PhysMemoryRange} (h : self.writePart part = .ok self') :
    Covers self'.slots x ↔ Covers self.slots x ∨ ∃ r, part = some r ∧ r.containsAddress x = true := by
  cases part with
  | none =>
    cases h
    simp
  | some r =>
    rw [writeEntry_covers h]
    simp

theorem writePart_aligned {part : Option PhysMemoryRange} (hself : self.Aligned)
    (hpart : ∀ r, part = some r → r.Aligned) (h : self.writePart part = .ok self') : self'.Aligned := by
  cases part with
  | none =>
    cases h
    exact hself
  | some r => exact writeEntry_aligned hself (hpart r rfl) h

/-- **What `split_and_write_entry` writes**: the entry's addresses outside the
reserved memory and the heap. -/
theorem splitAndWriteEntry_covers (h : self.splitAndWriteEntry entry = .ok self') :
    Covers self'.slots x ↔ Covers self.slots x ∨
      (entry.containsAddress x = true ∧ MEMORY_RESERVED_BELOW ≤ x ∧ ¬ (HEAP_START ≤ x ∧ x < HEAP_START + HEAP_SIZE)) := by
  have habove := entry.above_containsAddress MEMORY_RESERVED_BELOW x
  unfold splitAndWriteEntry at h
  cases hok : entry.above MEMORY_RESERVED_BELOW with
  | none =>
    rw [hok] at h
    cases h
    simp only [hok, reduceCtorEq, false_and, exists_false, false_iff] at habove
    tauto
  | some ok =>
    rw [hok] at h
    obtain ⟨self₁, h₁, h₂⟩ := Except.bind_eq_ok.mp h
    simp only [hok, Option.some.injEq, exists_eq_left'] at habove
    rw [writePart_covers h₂, writePart_covers h₁, ok.below_containsAddress, ok.above_containsAddress, habove]
    have hheap : x < HEAP_START ∨ HEAP_START + HEAP_SIZE ≤ x ↔ ¬ (HEAP_START ≤ x ∧ x < HEAP_START + HEAP_SIZE) := by
      omega
    rw [← hheap]
    tauto

theorem splitAndWriteEntry_aligned (hself : self.Aligned) (hentry : entry.Aligned)
    (h : self.splitAndWriteEntry entry = .ok self') : self'.Aligned := by
  unfold splitAndWriteEntry at h
  cases hok : entry.above MEMORY_RESERVED_BELOW with
  | none =>
    rw [hok] at h
    cases h
    exact hself
  | some ok =>
    rw [hok] at h
    obtain ⟨self₁, h₁, h₂⟩ := Except.bind_eq_ok.mp h
    -- the reserved memory and the heap end on 2 MiB boundaries
    have hok : ok.Aligned := hentry.above (by decide) hok
    exact writePart_aligned (writePart_aligned hself (fun _ => hok.below (by decide)) h₁)
      (fun _ => hok.above (by decide)) h₂

end MemoryRanges

/-! ## The entries -/

section Entries

variable {allocatable allocatable' : MemoryRanges} {maxMemory maxMemory' : Nat} {e : E820Entry}

theorem addU64_ok {a b c : Nat} (h : addU64 a b = .ok c) : c = a + b := by
  unfold addU64 at h
  split at h
  · cases h
    rfl
  · cases h

theorem addU64_of_lt {a b : Nat} (h : a + b < UInt64.size) : addU64 a b = .ok (a + b) := if_pos h

theorem pageAlignU64_up {a r : Nat} (h : pageAlignU64 a true = .ok r) :
    r % PAGE_SIZE_BYTES = 0 ∧ a ≤ r ∧ r < a + PAGE_SIZE_BYTES := by
  unfold pageAlignU64 at h
  by_cases h0 : a % PAGE_SIZE_BYTES = 0
  · rw [if_pos h0] at h
    cases h
    exact ⟨h0, Nat.le_refl a, by unfold PAGE_SIZE_BYTES; omega⟩
  · rw [if_neg h0, if_pos rfl] at h
    by_cases hov : UInt64.size ≤ a + PAGE_SIZE_BYTES
    · rw [if_pos hov] at h
      cases h
    · rw [if_neg hov] at h
      cases h
      unfold PAGE_SIZE_BYTES at *
      omega

theorem pageAlignU64_down {a r : Nat} (h : pageAlignU64 a false = .ok r) : r = a - a % PAGE_SIZE_BYTES := by
  unfold pageAlignU64 at h
  by_cases h0 : a % PAGE_SIZE_BYTES = 0
  · rw [if_pos h0] at h
    cases h
    omega
  · rw [if_neg h0, if_neg Bool.false_ne_true] at h
    cases h
    rfl

/-- An address lies between the start aligned up and the end aligned down
exactly when its page lies inside the entry. -/
theorem page_inside_iff {s t start x : Nat} (hstart : start % PAGE_SIZE_BYTES = 0 ∧ s ≤ start ∧ start < s + PAGE_SIZE_BYTES) :
    (start ≤ x ∧ x < t - t % PAGE_SIZE_BYTES) ↔
      s ≤ x / PAGE_SIZE_BYTES * PAGE_SIZE_BYTES ∧ x / PAGE_SIZE_BYTES * PAGE_SIZE_BYTES + PAGE_SIZE_BYTES ≤ t := by
  unfold PAGE_SIZE_BYTES at *
  omega

/-- **One entry**: its usable addresses are added to the stored ranges. -/
theorem loadEntry_covers (h : loadEntry allocatable maxMemory e = .ok (allocatable', maxMemory')) (x : Nat) :
    MemoryRanges.Covers allocatable'.slots x ↔ MemoryRanges.Covers allocatable.slots x ∨ e.Usable x := by
  unfold loadEntry at h
  obtain ⟨eEnd, hEnd, h⟩ := Except.bind_eq_ok.mp h
  obtain ⟨start, hstart, h⟩ := Except.bind_eq_ok.mp h
  obtain ⟨stop, hstop, h⟩ := Except.bind_eq_ok.mp h
  rw [addU64_ok hEnd] at hstop
  have hpage := page_inside_iff (t := e.start + e.size) (x := x) (pageAlignU64_up hstart)
  rw [← pageAlignU64_down hstop] at hpage
  have hacpi : e.acpiData % 2 = 1 ↔ e.acpiData &&& 1 = 1 := by rw [Nat.and_one_is_mod]
  split_ifs at h with h1 h2 h3
  · -- no whole page: nothing is usable
    cases h
    have hno : ¬ e.Usable x := fun hu => by
      have hin := hpage.mpr ⟨hu.2.2.1, hu.2.2.2.1⟩
      rw [h1] at hin
      omega
    exact ⟨.inl, fun h => h.resolve_right hno⟩
  · cases h
    unfold E820Entry.Usable
    tauto
  · obtain ⟨allocatable₁, hsplit, he⟩ := Except.map_eq_ok.mp h
    cases he
    rw [MemoryRanges.splitAndWriteEntry_covers hsplit, PhysMemoryRange.containsAddress_iff]
    unfold E820Entry.Usable
    rw [hpage]
    tauto
  · cases h
    unfold E820Entry.Usable
    tauto

theorem loadEntry_aligned (hA : allocatable.Aligned) (h : loadEntry allocatable maxMemory e = .ok (allocatable', maxMemory')) :
    allocatable'.Aligned := by
  unfold loadEntry at h
  obtain ⟨eEnd, -, h⟩ := Except.bind_eq_ok.mp h
  obtain ⟨start, hstart, h⟩ := Except.bind_eq_ok.mp h
  obtain ⟨stop, hstop, h⟩ := Except.bind_eq_ok.mp h
  have hrange : (⟨start, stop⟩ : PhysMemoryRange).Aligned := by
    refine ⟨(pageAlignU64_up hstart).1, ?_⟩
    show stop % PAGE_SIZE_BYTES = 0
    rw [pageAlignU64_down hstop]
    unfold PAGE_SIZE_BYTES
    omega
  split_ifs at h
  · cases h
    exact hA
  · cases h
    exact hA
  · obtain ⟨allocatable₁, hsplit, he⟩ := Except.map_eq_ok.mp h
    cases he
    exact MemoryRanges.splitAndWriteEntry_aligned hA hrange hsplit
  · cases h
    exact hA

/-- **The run lemma**: the stored ranges hold the addresses they held and the
usable ones of every entry read. -/
theorem loadLoop_covers : ∀ (entries : List E820Entry) {allocatable allocatable' : MemoryRanges}
    {maxMemory maxMemory' : Nat},
    entries.foldlM (fun st e => loadEntry st.1 st.2 e) (allocatable, maxMemory) = .ok (allocatable', maxMemory') →
      ∀ x, MemoryRanges.Covers allocatable'.slots x ↔
        MemoryRanges.Covers allocatable.slots x ∨ ∃ e ∈ entries, e.Usable x
  | [], _, _, _, _, h, x => by
    cases h
    simp
  | e :: entries, allocatable, allocatable', maxMemory, maxMemory', h, x => by
    rw [List.foldlM_cons] at h
    obtain ⟨⟨allocatable₁, maxMemory₁⟩, h₁, h₂⟩ := Except.bind_eq_ok.mp h
    rw [loadLoop_covers entries h₂, loadEntry_covers h₁]
    simp only [List.mem_cons, exists_eq_or_imp, or_assoc]

end Entries

/-- A size loop that gets through has met no range whose start is past its end. -/
theorem memoryCounterBytes_ordered {slots : List (Option PhysMemoryRange)} {n : Nat}
    (h : memoryCounterBytes slots = .ok n) : ∀ r, some r ∈ slots → r.start ≤ r.end := by
  intro r hr
  obtain ⟨counter, counter', hstep⟩ := Except.foldlM_ok_mem h (some r) hr
  obtain ⟨size, hsize, -⟩ := Except.bind_eq_ok.mp hstep
  unfold PhysMemoryRange.sizeBytes at hsize
  split at hsize
  · assumption
  · cases hsize

/-- **The memory map.** For every list of E820 entries that `load_memory_map`
gets through, every allocatable range is 2 MiB aligned, its start is not past
its end, and together they hold exactly the addresses whose page lies in a
usable entry, outside the reserved memory and the heap. The ranges need not be
disjoint: a range containing a stored one is stored beside it. And an entry
inside one page, whose start aligns up past its end, makes the loader panic. -/
theorem load_memory_map_overlapping_ranges :
    (∀ entries info, loadMemoryMap entries = .ok info →
      (∀ r, some r ∈ info.allocatable →
        r.start % PAGE_SIZE_BYTES = 0 ∧ r.end % PAGE_SIZE_BYTES = 0 ∧ r.start ≤ r.end) ∧
      ∀ x, (∃ r, some r ∈ info.allocatable ∧ r.start ≤ x ∧ x < r.end) ↔ ∃ e ∈ entries, e.Usable x) ∧
    loadMemoryMap [⟨0x2000_0000, 0x20_0000, 1, 1⟩, ⟨0x1FE0_0000, 0x60_0000, 1, 1⟩] =
      .ok ⟨some ⟨0x2000_0000, 0x2020_0000⟩ :: some ⟨0x1FE0_0000, 0x2040_0000⟩ :: List.replicate 18 none,
        0x2040_0000⟩ ∧
    loadMemoryMap [⟨0x2020_1000, 0x1000, 1, 1⟩] = .error Ipc.unwrapNone := by
  refine ⟨fun entries info h => ?_, rfl, rfl⟩
  unfold loadMemoryMap at h
  obtain ⟨⟨allocatable, maxMemory⟩, hloop, h⟩ := Except.bind_eq_ok.mp h
  obtain ⟨size, hsize, h⟩ := Except.bind_eq_ok.mp h
  cases h
  refine ⟨fun r hr => ?_, fun x => ?_⟩
  · -- alignment holds from `MemoryRanges::new` on, through every entry
    have hA : allocatable.Aligned :=
      Except.foldlM_invariant (P := fun st : MemoryRanges × Nat => st.1.Aligned)
        (fun _ _ _ hA h => loadEntry_aligned hA h) entries (fun _ hr => by cases List.eq_of_mem_replicate hr) hloop
    exact ⟨(hA r hr).1, (hA r hr).2, memoryCounterBytes_ordered hsize r hr⟩
  · have hcov := loadLoop_covers entries hloop x
    simp only [MemoryRanges.Covers, PhysMemoryRange.containsAddress_iff] at hcov
    rw [hcov]
    have hnew := MemoryRanges.covers_new x
    simp only [MemoryRanges.Covers, PhysMemoryRange.containsAddress_iff] at hnew
    exact ⟨fun h => h.resolve_left hnew, .inr⟩

end D7os
