import D7os.Multitasking.Process
import D7os.Memory.Virt
import D7os.Memory.Map

/-!
# Reading a process' memory from the kernel

`Process::memory_slice` of `src/multitasking/process.rs`: the 2 MiB pages from
`align_down(ptr)` to `align_up(ptr + len)` are translated in the process' tables
and mapped into a window of the kernel's address space from the virtual
allocator; an unmapped page gives `None` and the window is dropped.

Where the range is mapped, the call returns `Some` and byte `i` of the slice is
at the physical address of `ptr + i`. But it is not total: `ptr + len` is a
checked `u64` sum; a range over 4 GiB panics with "Out of virtual memory",
although `try_len!` lets 16 GiB through; and a range of no bytes at a page
boundary takes a window of no pages, whose drop panics. The canonical-form check
of `VirtAddr::new` and the trace line are not modelled.
-/

namespace D7os

namespace X86_64

/-- `x86_64::align_down` for a power of two `align`. -/
def alignDown (addr align : Nat) : Nat := addr - addr % align

/-- `x86_64::align_up` for a power of two `align`: the next multiple, which must
fit a `u64`. -/
def alignUp (addr align : Nat) : Except Panic Nat :=
  if addr % align = 0 then .ok addr
  else if UInt64.size ≤ addr - addr % align + align then .error addOverflow
  else .ok (addr - addr % align + align)

end X86_64

/-- The kernel state `memory_slice` reads and changes: the page tables in
physical memory, the kernel's `PAGE_MAP` and the virtual allocator's `FREE_LIST`. -/
structure SliceKernel where
  tables : PhysMemory
  pageMap : PageMap
  virtFree : List Virt.Block

/-- The physical address a map gives a virtual address: the frame of its 2 MiB
page and the offset in the page. -/
def PageMap.physAddrOf (m : PageMap) (mem : PhysMemory) (addr : Nat) : Option Nat :=
  (m.walk mem addr).map fun e => e.addr + addr % HUGE_PAGE_SIZE

namespace ProcessMemory

/-- The loop of `memory_slice` over the pages `i, …, i + n - 1`: the process' page
at `r_start` is translated and mapped at the window's page; `false` at the first
page the process has not mapped. -/
def mapSliceLoop (pt : PageMap) (flags : PageTableFlags) (rStart areaStart : Nat) :
    Nat → Nat → PageMap × PhysMemory → Except Panic ((PageMap × PhysMemory) × Bool)
  | _, 0, s => .ok (s, true)
  | i, n + 1, (pageMap, tables) => do
    let rOffset := i * PAGE_SIZE_BYTES
    let page ← pageAt (areaStart + rOffset)
    match ← pt.translate tables (rStart + rOffset) with
    | none => .ok ((pageMap, tables), false)
    | some physAddr =>
      -- `PhysFrame::from_start_address_unchecked`: the process' entries are
      -- frame starts; the model stops at any other entry
      if h : physAddr % HUGE_PAGE_SIZE = 0 then
        mapSliceLoop pt flags rStart areaStart (i + 1) n (pageMap.mapTo tables page ⟨physAddr, h⟩ flags)
      else .error "assertion failed: addr.is_aligned(Size4KiB::SIZE)"

/-- `memory_slice(ptr, len)` and `memory_slice_mut(ptr, len)`, which differ in the
flags of the kernel's mappings only: the kernel state after the call, and on
success the window and the kernel address of the slice of `len` bytes. -/
def memorySliceWith (flags : PageTableFlags) (p : ProcessMemory) (k : SliceKernel) (ptr len : Nat) :
    Except Panic (SliceKernel × Option (Virt.Allocation × Nat)) := do
  let _ ← physToVirt p.pageTable.physAddr
  let rStart := X86_64.alignDown ptr PAGE_SIZE_BYTES
  let rEnd ← X86_64.alignUp (← addU64 ptr len) PAGE_SIZE_BYTES
  let rSizePages := (rEnd - rStart) / PAGE_SIZE_BYTES
  let offset := ptr - rStart
  let (virtFree, virtarea) ← Virt.allocate rSizePages k.virtFree
  let ((pageMap, tables), mapped) ←
    mapSliceLoop p.pageTable flags rStart virtarea.start 0 rSizePages (k.pageMap, k.tables)
  if mapped then .ok (⟨tables, pageMap, virtFree⟩, some (virtarea, virtarea.start + offset))
  else do
    -- the `?` returns early and drops the window
    let virtFree ← virtarea.drop virtFree
    .ok (⟨tables, pageMap, virtFree⟩, none)

def memorySlice (p : ProcessMemory) (k : SliceKernel) (ptr len : Nat) :
    Except Panic (SliceKernel × Option (Virt.Allocation × Nat)) :=
  memorySliceWith PageTableFlags.PRESENT p k ptr len

def memorySliceMut (p : ProcessMemory) (k : SliceKernel) (ptr len : Nat) :
    Except Panic (SliceKernel × Option (Virt.Allocation × Nat)) :=
  memorySliceWith (PageTableFlags.PRESENT ||| PageTableFlags.WRITABLE) p k ptr len

/-- What the kernel keeps between calls: both maps well formed over the shared
tables, the process' entries frame starts, the kernel's table area apart from
the process' one, the free list of the virtual allocator sorted and in range,
and the process' tables reachable through `phys_to_virt`. -/
structure Coherent (p : ProcessMemory) (k : SliceKernel) : Prop where
  kernel_wf : k.pageMap.Wf k.tables
  process_wf : p.pageTable.Wf k.tables
  frames_aligned : ∀ a e, p.pageTable.walk k.tables a = some e → e.addr % HUGE_PAGE_SIZE = 0
  apart : ∀ j j', j' < p.pageTable.tableCount →
    frameAddr k.pageMap.physAddr j ≠ frameAddr p.pageTable.physAddr j'
  free_wf : Virt.Wf k.virtFree
  phys : HIGHER_HALF_START + p.pageTable.physAddr < UInt64.size

/-! ## Page arithmetic -/

section Arith

theorem alignDown_spec (a : Nat) :
    X86_64.alignDown a PAGE_SIZE_BYTES ≤ a ∧ a < X86_64.alignDown a PAGE_SIZE_BYTES + PAGE_SIZE_BYTES ∧
      X86_64.alignDown a PAGE_SIZE_BYTES % PAGE_SIZE_BYTES = 0 := by
  unfold X86_64.alignDown PAGE_SIZE_BYTES
  omega

/-- Below the last page of the `u64` range, `align_up` rounds up. -/
theorem alignUp_ok {a : Nat} (h : a + PAGE_SIZE_BYTES ≤ UInt64.size) :
    ∃ r, X86_64.alignUp a PAGE_SIZE_BYTES = .ok r ∧ a ≤ r ∧ r < a + PAGE_SIZE_BYTES ∧
      r % PAGE_SIZE_BYTES = 0 := by
  unfold X86_64.alignUp
  by_cases ha : a % PAGE_SIZE_BYTES = 0
  · exact ⟨a, if_pos ha, le_rfl, by unfold PAGE_SIZE_BYTES; omega, ha⟩
  · have hfit : ¬ UInt64.size ≤ a - a % PAGE_SIZE_BYTES + PAGE_SIZE_BYTES := by
      have := Nat.mod_le a PAGE_SIZE_BYTES
      omega
    refine ⟨_, by rw [if_neg ha, if_neg hfit], ?_, ?_, ?_⟩ <;> unfold PAGE_SIZE_BYTES at ha ⊢ <;> omega

theorem addU64_ok {a b : Nat} (h : a + b < UInt64.size) : addU64 a b = .ok (a + b) := if_pos h

theorem addU64_error {a b : Nat} (h : UInt64.size ≤ a + b) : addU64 a b = .error addOverflow :=
  if_neg (Nat.not_lt.mpr h)

theorem physToVirt_ok {a : Nat} (h : HIGHER_HALF_START + a < UInt64.size) :
    physToVirt a = .ok (HIGHER_HALF_START + a) :=
  if_neg (Nat.not_le.mpr h)

/-- Two addresses of one window, `j` and `j'` pages in, are in different slots. -/
theorem not_sameSlot_pages {a j j' : Nat} (ha : a % PAGE_SIZE_BYTES = 0) (hne : j ≠ j')
    (hj : a + j * PAGE_SIZE_BYTES < 0x1_0000_0000_0000) (hj' : a + j' * PAGE_SIZE_BYTES < 0x1_0000_0000_0000) :
    ¬ PageMap.SameSlot (a + j * PAGE_SIZE_BYTES) (a + j' * PAGE_SIZE_BYTES) := by
  intro hs
  have := PageMap.div_eq_of_sameSlot hj hj' hs
  unfold PAGE_SIZE_BYTES at ha this
  omega

/-- **The pages the loop visits are those the range touches.** Page `j` of the
loop starts `j` pages after `align_down(ptr)`; a property of 2 MiB pages holds of
each of them exactly when it holds of every byte of `[ptr, ptr + len)`, or of the
byte at `ptr` when the range is empty and `ptr` is inside a page. -/
theorem pages_iff_bytes {α : Type} (f : Nat → Option α)
    (hf : ∀ q q', q / 0x20_0000 = q' / 0x20_0000 → f q = f q') {ptr len rEnd n : Nat}
    (hr₁ : ptr + len ≤ rEnd) (hr₂ : rEnd < ptr + len + PAGE_SIZE_BYTES) (hr₃ : rEnd % PAGE_SIZE_BYTES = 0)
    (hn : n * PAGE_SIZE_BYTES = rEnd - X86_64.alignDown ptr PAGE_SIZE_BYTES)
    (hne : 0 < len ∨ ptr % PAGE_SIZE_BYTES ≠ 0) :
    (∀ j < n, (f (X86_64.alignDown ptr PAGE_SIZE_BYTES + j * PAGE_SIZE_BYTES)).isSome) ↔
      ∀ a, ptr ≤ a → a < ptr + max len 1 → (f a).isSome := by
  obtain ⟨hd₁, hd₂, hd₃⟩ := alignDown_spec ptr
  generalize X86_64.alignDown ptr PAGE_SIZE_BYTES = rStart at hd₁ hd₂ hd₃ hn ⊢
  unfold PAGE_SIZE_BYTES at *
  constructor
  · intro h a ha₁ ha₂
    -- the page of `a` is the `(a - r_start) / 2 MiB`-th of the loop
    have hj : (a - rStart) / 0x20_0000 < n := by
      rcases hne with hlen | hmod <;> omega
    rw [hf a (rStart + (a - rStart) / 0x20_0000 * 0x20_0000) (by omega)]
    exact h _ hj
  · intro h j hj
    -- the first byte of the range in page `j`
    have hlt : rStart + j * 0x20_0000 < ptr + max len 1 := by
      rcases hne with hlen | hmod <;> omega
    rw [hf _ (max ptr (rStart + j * 0x20_0000)) (by omega)]
    exact h _ (le_max_left _ _) (by omega)

end Arith

/-! ## The page loop -/

section Loop

variable {pt : PageMap} {flags : PageTableFlags} {rStart areaStart : Nat}

/-- What the loop over the pages `i, …, i + n - 1` leaves, from the kernel map
`km` over `mem`: the kernel map well formed; the process' table area as it was;
`true` exactly when every page was mapped in the process; then each window page
mapping its process frame; and every other slot of the kernel map as it was. -/
structure LoopPost (pt : PageMap) (flags : PageTableFlags) (rStart areaStart i n : Nat) (km : PageMap)
    (mem : PhysMemory) (km' : PageMap) (mem' : PhysMemory) (mapped : Bool) : Prop where
  wf : km'.Wf mem'
  physAddr_eq : km'.physAddr = km.physAddr
  agrees : pt.AgreesOn mem' mem
  complete : mapped = true ↔ ∀ j, i ≤ j → j < i + n → (pt.walk mem (rStart + j * PAGE_SIZE_BYTES)).isSome
  window : mapped = true → ∀ j, i ≤ j → j < i + n →
    km'.walk mem' (areaStart + j * PAGE_SIZE_BYTES) =
      (pt.walk mem (rStart + j * PAGE_SIZE_BYTES)).map fun e => ⟨e.addr, flags ||| PageTableFlags.HUGE_PAGE⟩
  frame : ∀ q, (∀ j, i ≤ j → j < i + n → ¬ PageMap.SameSlot q (areaStart + j * PAGE_SIZE_BYTES)) →
    km'.walk mem' q = km.walk mem q

theorem loopPost_stop (km : PageMap) (mem : PhysMemory) {i n : Nat} (hk : km.Wf mem)
    (hw : pt.walk mem (rStart + i * PAGE_SIZE_BYTES) = none) :
    LoopPost pt flags rStart areaStart i (n + 1) km mem km mem false where
  wf := hk
  physAddr_eq := rfl
  agrees := fun _ _ => rfl
  complete := by
    refine ⟨fun h => absurd h Bool.false_ne_true, fun h => ?_⟩
    have := h i le_rfl (by omega)
    rw [hw] at this
    exact absurd this Bool.false_ne_true
  window := fun h => absurd h Bool.false_ne_true
  frame := fun _ _ => rfl

/-- One page mapped, then the rest of the loop. -/
theorem LoopPost.cons {km km₁ km' : PageMap} {mem mem₁ mem' : PhysMemory} {mapped : Bool} {i n : Nat}
    {e : PageTableEntry} (hp : pt.Wf mem) (ha : areaStart % PAGE_SIZE_BYTES = 0)
    (hb : areaStart + (i + (n + 1)) * PAGE_SIZE_BYTES ≤ 0x1_0000_0000_0000)
    (hw : pt.walk mem (rStart + i * PAGE_SIZE_BYTES) = some e) (hp₁ : km₁.physAddr = km.physAddr)
    (hagree₁ : pt.AgreesOn mem₁ mem)
    (hwalk₁ : ∀ q, km₁.walk mem₁ q = if PageMap.SameSlot q (areaStart + i * PAGE_SIZE_BYTES)
      then some ⟨e.addr, flags ||| PageTableFlags.HUGE_PAGE⟩ else km.walk mem q)
    (post : LoopPost pt flags rStart areaStart (i + 1) n km₁ mem₁ km' mem' mapped) :
    LoopPost pt flags rStart areaStart i (n + 1) km mem km' mem' mapped := by
  have hwalk : pt.walk mem₁ = pt.walk mem := PageMap.walk_congr hp hagree₁
  have hlt : ∀ j, j < i + (n + 1) → areaStart + j * PAGE_SIZE_BYTES < 0x1_0000_0000_0000 := fun j hj => by
    unfold PAGE_SIZE_BYTES at hb ⊢
    omega
  -- the later pages of the window are not in the slot of page `i`
  have hslot : ∀ j, i + 1 ≤ j → j < i + 1 + n →
      ¬ PageMap.SameSlot (areaStart + i * PAGE_SIZE_BYTES) (areaStart + j * PAGE_SIZE_BYTES) :=
    fun j h₁ h₂ => not_sameSlot_pages ha (by omega) (hlt i (by omega)) (hlt j (by omega))
  refine ⟨post.wf, post.physAddr_eq.trans hp₁, post.agrees.trans hagree₁, ?_, ?_, ?_⟩
  · rw [post.complete, hwalk]
    constructor
    · intro h j h₁ h₂
      rcases Nat.eq_or_lt_of_le h₁ with rfl | h₁
      · simp [hw]
      · exact h j h₁ (by omega)
    · exact fun h j h₁ h₂ => h j (by omega) (by omega)
  · intro hm j h₁ h₂
    rcases Nat.eq_or_lt_of_le h₁ with rfl | h₁
    · rw [post.frame _ (hslot · ), hwalk₁, if_pos ⟨rfl, rfl, rfl⟩, hw]
      rfl
    · rw [post.window hm j h₁ (by omega), hwalk]
  · intro q hq
    rw [post.frame q fun j h₁ h₂ => hq j (by omega) (by omega), hwalk₁, if_neg (hq i le_rfl (by omega))]

/-- **The page loop.** From well-formed maps whose table areas are apart, over a
window inside the first `2^48` bytes, the loop does not panic and leaves
`LoopPost`. -/
theorem mapSliceLoop_spec (pt : PageMap) (flags : PageTableFlags) (rStart : Nat) {areaStart : Nat}
    (ha : areaStart % PAGE_SIZE_BYTES = 0) :
    ∀ (n i : Nat) (km : PageMap) (mem : PhysMemory),
      areaStart + (i + n) * PAGE_SIZE_BYTES ≤ 0x1_0000_0000_0000 → km.Wf mem → pt.Wf mem →
      (∀ a e, pt.walk mem a = some e → e.addr % HUGE_PAGE_SIZE = 0) →
      (∀ j j', j' < pt.tableCount → frameAddr km.physAddr j ≠ frameAddr pt.physAddr j') →
      ∃ km' mem' mapped, mapSliceLoop pt flags rStart areaStart i n (km, mem) = .ok ((km', mem'), mapped) ∧
        LoopPost pt flags rStart areaStart i n km mem km' mem' mapped := by
  intro n
  induction n with
  | zero =>
    intro i km mem _ hk _ _ _
    refine ⟨km, mem, true, rfl, hk, rfl, fun _ _ => rfl, ?_, fun _ j h₁ h₂ => absurd h₂ (by omega), fun _ _ => rfl⟩
    exact ⟨fun _ j h₁ h₂ => absurd h₂ (by omega), fun _ => rfl⟩
  | succ n ih =>
    intro i km mem hb hk hp hframes hapart
    have hpa : (areaStart + i * PAGE_SIZE_BYTES) % HUGE_PAGE_SIZE = 0 := by
      unfold PAGE_SIZE_BYTES at ha ⊢
      unfold HUGE_PAGE_SIZE
      omega
    rw [mapSliceLoop, show pageAt (areaStart + i * PAGE_SIZE_BYTES) = .ok ⟨_, hpa⟩ from pageAt_start ⟨_, hpa⟩,
      Except.ok_bind, PageMap.translate_eq hp, Except.ok_bind]
    cases hw : pt.walk mem (rStart + i * PAGE_SIZE_BYTES) with
    | none => exact ⟨km, mem, false, rfl, loopPost_stop km mem hk hw⟩
    | some e =>
      have hal := hframes _ e hw
      simp only [Option.map_some, dif_pos hal]
      -- map page `i`, then the rest of the loop from the new kernel map
      obtain ⟨hw₁, hp₁, hwalk₁⟩ := PageMap.mapTo_walk hk ⟨_, hpa⟩ ⟨e.addr, hal⟩ flags
      have hagree₁ := PageMap.mapTo_agreesOn hk hapart ⟨_, hpa⟩ ⟨e.addr, hal⟩ flags
      have hwalk : pt.walk (km.mapTo mem ⟨_, hpa⟩ ⟨e.addr, hal⟩ flags).2 = pt.walk mem :=
        PageMap.walk_congr hp hagree₁
      obtain ⟨km', mem', mapped, hrun, post⟩ :=
        ih (i + 1) _ _ (by rw [Nat.add_assoc, Nat.add_comm 1 n]; exact hb) hw₁
          (hp.congr hagree₁) (by rw [hwalk]; exact hframes) (by rw [hp₁]; exact hapart)
      exact ⟨km', mem', mapped, hrun, post.cons hp ha hb hw hp₁ hagree₁ hwalk₁⟩

end Loop

/-! ## The call -/

section Call

variable {flags : PageTableFlags} {p : ProcessMemory} {k : SliceKernel} {ptr len : Nat}

/-- The call once the sum, the rounding and the window have succeeded: the page
loop, then the slice or the drop of the window. -/
theorem memorySliceWith_eq {rEnd n start : Nat} {free' : List Virt.Block}
    (hphys : HIGHER_HALF_START + p.pageTable.physAddr < UInt64.size) (hsum : ptr + len < UInt64.size)
    (halign : X86_64.alignUp (ptr + len) PAGE_SIZE_BYTES = .ok rEnd)
    (hn : (rEnd - X86_64.alignDown ptr PAGE_SIZE_BYTES) / PAGE_SIZE_BYTES = n)
    (halloc : Virt.Allocator.allocate n k.virtFree = .ok (free', start)) :
    memorySliceWith flags p k ptr len = (do
      let ((pageMap, tables), mapped) ← mapSliceLoop p.pageTable flags (X86_64.alignDown ptr PAGE_SIZE_BYTES)
        start 0 n (k.pageMap, k.tables)
      if mapped then
        .ok (⟨tables, pageMap, free'⟩,
          some (⟨start, start + n * PAGE_SIZE_BYTES⟩, start + (ptr - X86_64.alignDown ptr PAGE_SIZE_BYTES)))
      else do
        let virtFree ← (⟨start, start + n * PAGE_SIZE_BYTES⟩ : Virt.Allocation).drop free'
        .ok (⟨tables, pageMap, virtFree⟩, none)) := by
  rw [memorySliceWith, physToVirt_ok hphys, Except.ok_bind, addU64_ok hsum, Except.ok_bind, halign,
    Except.ok_bind]
  dsimp only
  rw [hn, Virt.allocate_of_allocator halloc, Except.ok_bind]

/-- **`memory_slice` where it works.** From a coherent kernel state, for a range
that stays below the last page of the `u64` range and is not empty at a page
boundary, with a free block of the virtual allocator that holds it with a page to
spare on each side, the call does not panic. The kernel state stays coherent and
the process' tables are left as they were. The call returns `Some` exactly when
every byte of the range (the byte at `ptr`, for an empty range) is in a page the
process has mapped; then the slice lies in the window, and byte `i` of it is at
the physical address of `ptr + i`. -/
theorem memorySliceWith_spec (hc : Coherent p k) (hend : ptr + len + PAGE_SIZE_BYTES ≤ UInt64.size)
    (hne : 0 < len ∨ ptr % PAGE_SIZE_BYTES ≠ 0)
    (hroom : ∃ b ∈ k.virtFree, len + 2 * PAGE_SIZE_BYTES ≤ b.sizePages * PAGE_SIZE_BYTES) :
    ∃ k' r, memorySliceWith flags p k ptr len = .ok (k', r) ∧ Coherent p k' ∧
      p.pageTable.walk k'.tables = p.pageTable.walk k.tables ∧
      (r.isSome ↔ ∀ a, ptr ≤ a → a < ptr + max len 1 → (p.pageTable.walk k.tables a).isSome) ∧
      ∀ area start, r = some (area, start) → area.start ≤ start ∧ start + len ≤ area.endAddr ∧
        ∀ i < len, k'.pageMap.physAddrOf k'.tables (start + i) = p.pageTable.physAddrOf k.tables (ptr + i) := by
  obtain ⟨hd₁, hd₂, hd₃⟩ := alignDown_spec ptr
  obtain ⟨rEnd, halign, hr₁, hr₂, hr₃⟩ := alignUp_ok hend
  generalize hrStart : X86_64.alignDown ptr PAGE_SIZE_BYTES = rStart at hd₁ hd₂ hd₃
  -- the window has `n` pages, at least one
  obtain ⟨n, hn⟩ : ∃ n, (rEnd - rStart) / PAGE_SIZE_BYTES = n := ⟨_, rfl⟩
  have hnP : n * PAGE_SIZE_BYTES = rEnd - rStart := by
    unfold PAGE_SIZE_BYTES at *
    omega
  have hpos : 0 < n := by
    unfold PAGE_SIZE_BYTES at *
    rcases hne with hlen | hmod <;> omega
  obtain ⟨b, hb, hbroom⟩ := hroom
  have hnb : n ≤ b.sizePages := by
    have : n * PAGE_SIZE_BYTES < b.sizePages * PAGE_SIZE_BYTES := by omega
    exact (Nat.lt_of_mul_lt_mul_right this).le
  obtain ⟨free', start, halloc⟩ := Virt.Allocator.allocate_ok_of_le ⟨b, hb, hnb⟩
  obtain ⟨hfree', hwin, -, -, hwapart⟩ := Virt.allocate_spec hpos hc.free_wf halloc
  have hsa : start % PAGE_SIZE_BYTES = 0 := by simpa using hwin.start_aligned
  have hsu : start + n * PAGE_SIZE_BYTES ≤ Virt.END_ADDR := by simpa using hwin.upper
  -- the page loop over the window
  obtain ⟨km', mem', mapped, hrun, post⟩ := mapSliceLoop_spec p.pageTable flags rStart hsa n 0 k.pageMap k.tables
    (by rw [Nat.zero_add]; unfold Virt.END_ADDR at hsu; omega) hc.kernel_wf hc.process_wf hc.frames_aligned hc.apart
  have hwalk' : p.pageTable.walk mem' = p.pageTable.walk k.tables := PageMap.walk_congr hc.process_wf post.agrees
  have hcomplete : mapped = true ↔ ∀ a, ptr ≤ a → a < ptr + max len 1 → (p.pageTable.walk k.tables a).isSome := by
    rw [post.complete, ← pages_iff_bytes _ (fun q q' h => PageMap.walk_eq_of_div_eq _ _ h) hr₁ hr₂ hr₃
      (by rw [hrStart]; exact hnP) hne, hrStart]
    exact ⟨fun h j hj => h j (Nat.zero_le j) (by omega), fun h j _ hj => h j (by omega)⟩
  have hcoh : ∀ free'', Virt.Wf free'' → Coherent p ⟨mem', km', free''⟩ := fun free'' hw'' =>
    { kernel_wf := post.wf
      process_wf := hc.process_wf.congr post.agrees
      frames_aligned := by
        show ∀ a e, p.pageTable.walk mem' a = some e → _
        rw [hwalk']
        exact hc.frames_aligned
      apart := by
        show ∀ j j', j' < _ → frameAddr km'.physAddr j ≠ _
        rw [post.physAddr_eq]
        exact hc.apart
      free_wf := hw''
      phys := hc.phys }
  rw [memorySliceWith_eq hc.phys (by omega) halign (by rw [hrStart]; exact hn) halloc, hrStart, hrun,
    Except.ok_bind]
  cases mapped with
  | false =>
    -- the window is dropped: it is apart from every free block
    obtain ⟨free'', hdrop, hw'', -⟩ := Virt.free_spec hfree' hwin hwapart
    simp only [Virt.Block.sizePages, Virt.Block.sizeBytes, Virt.window_start, Virt.window_endAddr] at hdrop
    refine ⟨⟨mem', km', free''⟩, none, ?_, hcoh free'' hw'', hwalk', ?_, fun _ _ h => by cases h⟩
    · simp only [Bool.false_eq_true, ↓reduceIte, Virt.Allocation.drop, Virt.Allocation.sizePages, hdrop,
        Except.ok_bind]
    · simpa using hcomplete
  | true =>
    refine ⟨⟨mem', km', free'⟩, _, rfl, hcoh free' hfree', hwalk', by simpa using hcomplete, ?_⟩
    rintro area sstart ⟨⟩
    refine ⟨Nat.le_add_right _ _, by dsimp only; omega, fun i hi => ?_⟩
    -- byte `i` is in page `j` of the window
    obtain ⟨j, hj⟩ : ∃ j, (ptr - rStart + i) / PAGE_SIZE_BYTES = j := ⟨_, rfl⟩
    have hjn : j < n := by
      unfold PAGE_SIZE_BYTES at *
      omega
    have hkw : km'.walk mem' (start + (ptr - rStart) + i) = km'.walk mem' (start + j * PAGE_SIZE_BYTES) :=
      PageMap.walk_eq_of_div_eq _ _ (by unfold PAGE_SIZE_BYTES at *; omega)
    have hpw : p.pageTable.walk k.tables (ptr + i) = p.pageTable.walk k.tables (rStart + j * PAGE_SIZE_BYTES) :=
      PageMap.walk_eq_of_div_eq _ _ (by unfold PAGE_SIZE_BYTES at *; omega)
    have hoff : (start + (ptr - rStart) + i) % HUGE_PAGE_SIZE = (ptr + i) % HUGE_PAGE_SIZE := by
      unfold PAGE_SIZE_BYTES at *
      unfold HUGE_PAGE_SIZE
      omega
    unfold PageMap.physAddrOf
    rw [hkw, post.window rfl j (Nat.zero_le j) (by omega), hpw, hoff, Option.map_map]
    rfl

/-- **A range that reaches the top of the `u64` range panics**: `ptr + len` is a
checked sum. -/
theorem memorySliceWith_of_overflow (hphys : HIGHER_HALF_START + p.pageTable.physAddr < UInt64.size)
    (h : UInt64.size ≤ ptr + len) : memorySliceWith flags p k ptr len = .error addOverflow := by
  rw [memorySliceWith, physToVirt_ok hphys, Except.ok_bind]
  dsimp only
  rw [addU64_error h, Except.error_bind]

/-- **A range of more than 4 GiB panics.** The window is taken before any page is
looked at, and no block of the allocator's 4 GiB range holds it. -/
theorem memorySliceWith_of_large (hphys : HIGHER_HALF_START + p.pageTable.physAddr < UInt64.size)
    (hfree : Virt.Wf k.virtFree) (hend : ptr + len + PAGE_SIZE_BYTES ≤ UInt64.size)
    (hlarge : 2048 * PAGE_SIZE_BYTES < len) :
    memorySliceWith flags p k ptr len = .error Virt.Allocator.outOfVirtualMemory := by
  obtain ⟨hd₁, -, hd₃⟩ := alignDown_spec ptr
  obtain ⟨rEnd, halign, hr₁, -, hr₃⟩ := alignUp_ok hend
  -- both ends are page aligned, so the window has at least 2049 pages
  have hmany : 2048 < (rEnd - X86_64.alignDown ptr PAGE_SIZE_BYTES) / PAGE_SIZE_BYTES := by
    unfold PAGE_SIZE_BYTES at *
    omega
  have hnone : Virt.Allocator.allocate _ k.virtFree = .error _ :=
    Virt.Allocator.allocate_of_lt fun b hb => lt_of_le_of_lt (hfree.valid b hb).sizePages_le hmany
  rw [memorySliceWith, physToVirt_ok hphys, Except.ok_bind,
    addU64_ok (by unfold PAGE_SIZE_BYTES at hend; omega), Except.ok_bind, halign, Except.ok_bind]
  dsimp only
  rw [Virt.allocate, hnone, Except.error_bind, Except.error_bind]

/-- **A range of no bytes at a page boundary takes a window of no pages.** The
call returns the empty window at the start of the first free block, and its drop,
when the system call is done with the slice, panics with a double free. -/
theorem memorySliceWith_of_empty (hphys : HIGHER_HALF_START + p.pageTable.physAddr < UInt64.size)
    (hptr : ptr < UInt64.size) (haligned : ptr % PAGE_SIZE_BYTES = 0) {b : Virt.Block} {rest : List Virt.Block}
    (hfree : k.virtFree = b :: rest) (hb : 0 < b.sizePages) :
    ∃ area, memorySliceWith flags p k ptr 0 = .ok (k, some (area, b.start)) ∧ area.start = b.start ∧
      area.endAddr = b.start ∧ area.drop k.virtFree = .error (Virt.Allocator.doubleFree b.start 0) := by
  have hdown : X86_64.alignDown ptr PAGE_SIZE_BYTES = ptr := by
    unfold X86_64.alignDown
    omega
  have hup : X86_64.alignUp (ptr + 0) PAGE_SIZE_BYTES = .ok ptr := by
    rw [Nat.add_zero]
    exact if_pos haligned
  have halloc : Virt.Allocator.allocate 0 k.virtFree = .ok (k.virtFree, b.start) := by
    rw [hfree]
    exact Virt.Allocator.allocate_zero b rest hb
  refine ⟨⟨b.start, b.start + 0 * PAGE_SIZE_BYTES⟩, ?_, rfl, by simp, ?_⟩
  · rw [memorySliceWith_eq hphys (by omega) hup (by rw [hdown, Nat.sub_self, Nat.zero_div]) halloc, hdown,
      Nat.sub_self, Nat.add_zero]
    rfl
  · rw [hfree]
    simp only [Virt.Allocation.drop, Virt.Allocation.sizePages, Nat.zero_mul, Nat.add_zero, Nat.sub_self,
      Nat.zero_div]
    exact Virt.Allocator.free_at_head b rest 0

end Call

end ProcessMemory

/-- **`memory_slice` is exact where it returns, and not total.** For
`memory_slice` and `memory_slice_mut` alike (any flags), every process and every
kernel state: a range whose end reaches `2^64` panics on the checked sum; a range
of more than 4 GiB panics in the virtual allocator over any well-formed free
list, although `try_len!` admits 16 GiB; a range of no bytes at a page boundary
returns a window of no pages, whose drop panics. From a coherent kernel state and
away from these, the call does not panic, keeps the state coherent and the
process' tables as they were, returns `Some` exactly when every byte of the range
is in a page the process has mapped (for an empty range inside a page: that page),
and then byte `i` of the slice is at the physical address of `ptr + i`. -/
theorem memory_slice_not_total :
    (∀ flags (p : ProcessMemory) k ptr len, HIGHER_HALF_START + p.pageTable.physAddr < UInt64.size →
      UInt64.size ≤ ptr + len → p.memorySliceWith flags k ptr len = .error addOverflow) ∧
    (∀ flags (p : ProcessMemory) (k : SliceKernel) ptr len,
      HIGHER_HALF_START + p.pageTable.physAddr < UInt64.size → Virt.Wf k.virtFree →
      ptr + len + PAGE_SIZE_BYTES ≤ UInt64.size → 2048 * PAGE_SIZE_BYTES < len →
      p.memorySliceWith flags k ptr len = .error Virt.Allocator.outOfVirtualMemory) ∧
    (∀ flags (p : ProcessMemory) (k : SliceKernel) ptr (b : Virt.Block) rest,
      HIGHER_HALF_START + p.pageTable.physAddr < UInt64.size → ptr < UInt64.size → ptr % PAGE_SIZE_BYTES = 0 →
      k.virtFree = b :: rest → 0 < b.sizePages →
      ∃ area : Virt.Allocation, p.memorySliceWith flags k ptr 0 = .ok (k, some (area, b.start)) ∧
        area.start = area.endAddr ∧ area.drop k.virtFree = .error (Virt.Allocator.doubleFree b.start 0)) ∧
    (∀ flags (p : ProcessMemory) (k : SliceKernel) ptr len, p.Coherent k →
      ptr + len + PAGE_SIZE_BYTES ≤ UInt64.size → (0 < len ∨ ptr % PAGE_SIZE_BYTES ≠ 0) →
      (∃ b ∈ k.virtFree, len + 2 * PAGE_SIZE_BYTES ≤ b.sizePages * PAGE_SIZE_BYTES) →
      ∃ k' r, p.memorySliceWith flags k ptr len = .ok (k', r) ∧ p.Coherent k' ∧
        p.pageTable.walk k'.tables = p.pageTable.walk k.tables ∧
        (r.isSome ↔ ∀ a, ptr ≤ a → a < ptr + max len 1 → (p.pageTable.walk k.tables a).isSome) ∧
        ∀ area start, r = some (area, start) → area.start ≤ start ∧ start + len ≤ area.endAddr ∧
          ∀ i < len, k'.pageMap.physAddrOf k'.tables (start + i) = p.pageTable.physAddrOf k.tables (ptr + i)) := by
  refine ⟨fun flags p k ptr len hphys h => ProcessMemory.memorySliceWith_of_overflow hphys h,
    fun flags p k ptr len hphys hfree hend hlarge =>
      ProcessMemory.memorySliceWith_of_large hphys hfree hend hlarge,
    fun flags p k ptr b rest hphys hptr haligned hfree hb => ?_,
    fun flags p k ptr len hc hend hne hroom => ProcessMemory.memorySliceWith_spec hc hend hne hroom⟩
  obtain ⟨area, hslice, hstart, hend, hdrop⟩ := ProcessMemory.memorySliceWith_of_empty hphys hptr haligned hfree hb
  exact ⟨area, hslice, hstart.trans hend.symm, hdrop⟩

end D7os
