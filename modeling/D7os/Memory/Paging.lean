import D7os.Multitasking.WaitFor

/-!
# The page-table mapper

`src/memory/paging/mapper.rs`: a four-level x86-64 page map that uses only 2 MiB
pages, so a walk ends at a P2 entry. The tables of one map live in the one huge
frame at `phys_addr`: the P4 table first, then the P3 and P2 tables in the order
`map_to` creates them, the next one at `phys_addr + 0x1000 * table_count`.

Physical memory is the table stored at each physical address, and a table is its
512 entries, `none` for an unused one. The source reaches a table through the
virtual alias `curr_addr + (addr - p4_addr)`; here the table at `addr` is read
directly, which is what that alias denotes.
-/

namespace D7os

def HUGE_PAGE_SIZE : Nat := 0x20_0000

/-- Maximum number of page tables -/
def MAX_PAGE_TABLES : Nat := HUGE_PAGE_SIZE / 0x1000

/-- `PageTableFlags`, as the bits of the entry. -/
abbrev PageTableFlags := UInt64

namespace PageTableFlags

def PRESENT : PageTableFlags := 1

def WRITABLE : PageTableFlags := 2

def HUGE_PAGE : PageTableFlags := 0x80

def NO_EXECUTE : PageTableFlags := 0x8000_0000_0000_0000

def contains (flags other : PageTableFlags) : Bool := flags &&& other == other

end PageTableFlags

/-- `pt_flags!(3)` (and `pt_flags!(4)`, the same bits): a pointer to a lower table. -/
def ptFlags3 : PageTableFlags := PageTableFlags.PRESENT ||| PageTableFlags.WRITABLE

/-- `pt_flags!(2)`: a huge-page mapping. -/
def ptFlags2 : PageTableFlags :=
  PageTableFlags.PRESENT ||| PageTableFlags.WRITABLE ||| PageTableFlags.HUGE_PAGE

/-- A 2 MiB page; the type keeps its start aligned. -/
structure Page where
  start : Nat
  aligned : start % HUGE_PAGE_SIZE = 0
  deriving DecidableEq

/-- A 2 MiB physical frame. -/
structure PhysFrame where
  start : Nat
  aligned : start % HUGE_PAGE_SIZE = 0
  deriving DecidableEq

/-- `Page::from_start_address`. -/
def Page.fromStartAddress (addr : Nat) : Option Page :=
  if h : addr % HUGE_PAGE_SIZE = 0 then some ⟨addr, h⟩ else none

@[simp] theorem Page.fromStartAddress_start (page : Page) :
    Page.fromStartAddress page.start = some page := by
  simp [Page.fromStartAddress, page.aligned]

/-- `VirtAddr::p4_index`, `p3_index` and `p2_index`: nine bits each. -/
def p4Index (addr : Nat) : Nat := addr / 0x80_0000_0000 % 512

def p3Index (addr : Nat) : Nat := addr / 0x4000_0000 % 512

def p2Index (addr : Nat) : Nat := addr / 0x20_0000 % 512

/-- A used page-table entry: the address `set_addr` stored and its flags. -/
structure PageTableEntry where
  addr : Nat
  flags : PageTableFlags
  deriving DecidableEq, Repr

abbrev PageTable := Nat → Option PageTableEntry

/-- The page table stored at each physical address. -/
abbrev PhysMemory := Nat → PageTable

/-- `table[index].set_addr(..)` or `set_unused()` on the table at `addr`. -/
def setEntry (mem : PhysMemory) (addr index : Nat) (e : Option PageTableEntry) : PhysMemory :=
  Function.update mem addr (Function.update (mem addr) index e)

/-- `PageTable::zero` on the table at `addr`. -/
def zeroTable (mem : PhysMemory) (addr : Nat) : PhysMemory :=
  Function.update mem addr fun _ => none

@[simp] theorem setEntry_same (mem : PhysMemory) (addr index : Nat) (e : Option PageTableEntry) :
    setEntry mem addr index e addr = Function.update (mem addr) index e := by
  simp [setEntry]

@[simp] theorem setEntry_ne {mem : PhysMemory} {addr b : Nat} (index : Nat) (e : Option PageTableEntry)
    (h : b ≠ addr) : setEntry mem addr index e b = mem b := by
  simp [setEntry, h]

@[simp] theorem zeroTable_same (mem : PhysMemory) (addr : Nat) :
    zeroTable mem addr addr = fun _ => none := by
  simp [zeroTable]

@[simp] theorem zeroTable_ne {mem : PhysMemory} {addr b : Nat} (h : b ≠ addr) :
    zeroTable mem addr b = mem b := by
  simp [zeroTable, h]

/-- `frame_addr!(base, index)`. -/
def frameAddr (base index : Nat) : Nat := base + 0x1000 * index

/-- # Paging manager. The `x86_64` entry setter asserts a 4 KiB aligned address;
every table address is `phys_addr` plus a multiple of `0x1000`, so keeping
`phys_addr` aligned is what keeps that assertion from firing. -/
structure PageMap where
  /-- Physical address of the page table, and by extension, the P4 table -/
  physAddr : Nat
  /-- Next table will be placed to `physAddr + 0x1000 * tableCount` -/
  tableCount : Nat
  aligned : physAddr % 0x1000 = 0

namespace PageMap

/-- `PageMap::init(curr_addr, phys_addr, virt_addr)`: zero the first three tables
and chain them so that the huge page at `virt_addr` maps the table area itself. -/
def init (mem : PhysMemory) (physAddr virtAddr : Nat) : Except Panic (PageMap × PhysMemory) :=
  let mem := zeroTable (zeroTable (zeroTable mem (frameAddr physAddr 0)) (frameAddr physAddr 1))
    (frameAddr physAddr 2)
  match Page.fromStartAddress (virtAddr + 0x1000 * 0) with
  | none => .error "called `Result::unwrap()` on an `Err` value: AddressNotAligned"
  | some page =>
    if h : physAddr % 0x1000 = 0 then
      let mem := setEntry mem (frameAddr physAddr 0) (p4Index page.start)
        (some ⟨frameAddr physAddr 1, ptFlags3⟩)
      let mem := setEntry mem (frameAddr physAddr 1) (p3Index page.start)
        (some ⟨frameAddr physAddr 2, ptFlags3⟩)
      let mem := setEntry mem (frameAddr physAddr 2) (p2Index page.start)
        (some ⟨frameAddr physAddr 0, ptFlags2⟩)
      .ok (⟨physAddr, 3, h⟩, mem)
    else .error "assertion failed: addr.is_aligned(Size4KiB::SIZE)"

/-- `next_addr - self.p4_addr()`, a checked `PhysAddr` subtraction, followed by
the access at that offset: the table at `addr`. -/
def tableAt (m : PageMap) (addr : Nat) : Except Panic Nat :=
  if addr < m.physAddr then .error "called `Option::unwrap()` on a `None` value" else .ok addr

/-- `translate(curr_addr, addr)`: the frame the P2 entry of `addr` maps. -/
def translate (m : PageMap) (mem : PhysMemory) (addr : Nat) : Except Panic (Option Nat) :=
  match mem m.physAddr (p4Index addr) with
  | none => .ok none
  | some e4 => do
    let p3 ← m.tableAt e4.addr
    match mem p3 (p3Index addr) with
    | none => .ok none
    | some e3 => do
      let p2 ← m.tableAt e3.addr
      match mem p2 (p2Index addr) with
      | none => .ok none
      | some e2 =>
        if e2.flags.contains PageTableFlags.HUGE_PAGE then .ok (some e2.addr)
        else .error "assertion failed: p2[addr.p2_index()].flags().contains(Flags::HUGE_PAGE)"

/-- The lower table that entry `index` of the table at `parent` points to; when the
entry is unused, a new zeroed table at the next slot of the table area (the two
"table missing" branches of `map_to`). -/
def nextTable (m : PageMap) (mem : PhysMemory) (parent index : Nat) :
    PageMap × PhysMemory × Nat :=
  match mem parent index with
  | none =>
    let addr := frameAddr m.physAddr m.tableCount
    (⟨m.physAddr, m.tableCount + 1, m.aligned⟩,
      zeroTable (setEntry mem parent index (some ⟨addr, ptFlags3⟩)) addr, addr)
  | some e => (m, mem, e.addr)

/-- `map_to(curr_addr, page, frame, flags)`. Nothing bounds `table_count`. -/
def mapTo (m : PageMap) (mem : PhysMemory) (page : Page) (frame : PhysFrame)
    (flags : PageTableFlags) : PageMap × PhysMemory :=
  let (m, mem, p3) := nextTable m mem m.physAddr (p4Index page.start)
  let (m, mem, p2) := nextTable m mem p3 (p3Index page.start)
  (m, setEntry mem p2 (p2Index page.start)
    (some ⟨frame.start, flags ||| PageTableFlags.HUGE_PAGE⟩))

/-- `unmap(curr_addr, page)`: clear the P2 entry of a page whose P3 and P2 exist. -/
def unmap (m : PageMap) (mem : PhysMemory) (page : Page) : Except Panic PhysMemory :=
  match mem m.physAddr (p4Index page.start) with
  | none => .error "Unmap nonexistent: P3 missing"
  | some e4 =>
    match mem e4.addr (p3Index page.start) with
    | none => .error "Unmap nonexistent: P2 missing"
    | some e3 => .ok (setEntry mem e3.addr (p2Index page.start) none)

/-! ## Creating tables -/

theorem nextTable_of_unused {m : PageMap} {mem : PhysMemory} {parent index : Nat}
    (h : mem parent index = none) :
    m.nextTable mem parent index =
      (⟨m.physAddr, m.tableCount + 1, m.aligned⟩,
        zeroTable (setEntry mem parent index (some ⟨frameAddr m.physAddr m.tableCount, ptFlags3⟩))
          (frameAddr m.physAddr m.tableCount),
        frameAddr m.physAddr m.tableCount) := by
  simp [nextTable, h]

theorem nextTable_of_used {m : PageMap} {mem : PhysMemory} {parent index : Nat}
    {e : PageTableEntry} (h : mem parent index = some e) :
    m.nextTable mem parent index = (m, mem, e.addr) := by
  simp [nextTable, h]

/-- Every table after the P4 one lies above it. -/
theorem frameAddr_ne_base {base index : Nat} (h : 0 < index) : frameAddr base index ≠ base := by
  unfold frameAddr
  omega

/-- After `init`, one slot of the P4 table is used: the one of `virt_addr`. -/
theorem init_p4 {mem : PhysMemory} {physAddr : Nat} {page : Page} (h : physAddr % 0x1000 = 0) :
    ∃ mem', init mem physAddr page.start = .ok (⟨physAddr, 3, h⟩, mem') ∧
      ∀ j ≠ p4Index page.start, mem' physAddr j = none := by
  have h1 : physAddr ≠ frameAddr physAddr 1 := (frameAddr_ne_base Nat.one_pos).symm
  have h2 : physAddr ≠ frameAddr physAddr 2 := (frameAddr_ne_base Nat.two_pos).symm
  have h0 : frameAddr physAddr 0 = physAddr := by simp [frameAddr]
  simp only [init, Nat.mul_zero, Nat.add_zero, Page.fromStartAddress_start, dif_pos h]
  refine ⟨_, rfl, ?_⟩
  intro j hj
  simp [h0, setEntry_ne _ _ h1, setEntry_ne _ _ h2, zeroTable_ne h1, zeroTable_ne h2,
    Function.update_of_ne hj]


/-- A page whose P4 slot is unused takes two new tables, the P3 one at slot
`table_count` and the P2 one after it. -/
theorem mapTo_of_p4_unused {m : PageMap} {mem : PhysMemory} {page : Page} {frame : PhysFrame}
    {flags : PageTableFlags} (h4 : mem m.physAddr (p4Index page.start) = none) :
    m.mapTo mem page frame flags =
      (⟨m.physAddr, m.tableCount + 2, m.aligned⟩,
        setEntry
          (zeroTable
            (setEntry
              (zeroTable
                (setEntry mem m.physAddr (p4Index page.start)
                  (some ⟨frameAddr m.physAddr m.tableCount, ptFlags3⟩))
                (frameAddr m.physAddr m.tableCount))
              (frameAddr m.physAddr m.tableCount) (p3Index page.start)
              (some ⟨frameAddr m.physAddr (m.tableCount + 1), ptFlags3⟩))
            (frameAddr m.physAddr (m.tableCount + 1)))
          (frameAddr m.physAddr (m.tableCount + 1)) (p2Index page.start)
          (some ⟨frame.start, flags ||| PageTableFlags.HUGE_PAGE⟩)) := by
  -- the new P3 table is zeroed, so its entry is unused too
  have h3 : zeroTable (setEntry mem m.physAddr (p4Index page.start)
      (some ⟨frameAddr m.physAddr m.tableCount, ptFlags3⟩)) (frameAddr m.physAddr m.tableCount)
      (frameAddr m.physAddr m.tableCount) (p3Index page.start) = none := by
    simp
  simp only [mapTo, nextTable_of_unused h4, nextTable_of_unused h3]

/-- The P4 table at other slots is untouched by such a mapping. -/
theorem mapTo_p4_of_ne {m : PageMap} {mem : PhysMemory} {page : Page} {frame : PhysFrame}
    {flags : PageTableFlags} (hc : 0 < m.tableCount)
    (h4 : mem m.physAddr (p4Index page.start) = none) {j : Nat} (hj : j ≠ p4Index page.start) :
    (m.mapTo mem page frame flags).2 m.physAddr j = mem m.physAddr j := by
  have ha3 : m.physAddr ≠ frameAddr m.physAddr m.tableCount := (frameAddr_ne_base hc).symm
  have ha2 : m.physAddr ≠ frameAddr m.physAddr (m.tableCount + 1) :=
    (frameAddr_ne_base (Nat.succ_pos _)).symm
  rw [mapTo_of_p4_unused h4]
  simp [setEntry_ne _ _ ha2, zeroTable_ne ha2, setEntry_ne _ _ ha3, zeroTable_ne ha3,
    Function.update_of_ne hj]

/-- **Sparse mappings.** Mapping pages whose P4 slots are distinct and unused
takes two tables each: `table_count` grows by twice their number, with no bound,
and the P4 slots of no other page change. -/
theorem mapTo_foldl_of_p4_unused (frame : PhysFrame) (flags : PageTableFlags) :
    ∀ (pages : List Page) (m : PageMap) (mem : PhysMemory), 0 < m.tableCount →
      (pages.map fun page => p4Index page.start).Nodup →
      (∀ page ∈ pages, mem m.physAddr (p4Index page.start) = none) →
      let r := pages.foldl (fun s page => s.1.mapTo s.2 page frame flags) (m, mem)
      r.1.physAddr = m.physAddr ∧ r.1.tableCount = m.tableCount + 2 * pages.length ∧
        ∀ j ∉ pages.map fun page => p4Index page.start, r.2 m.physAddr j = mem m.physAddr j := by
  intro pages
  induction pages with
  | nil => intro m mem _ _ _; simp
  | cons page pages ih =>
    intro m mem hc hnd hfree
    simp only [List.map_cons, List.nodup_cons, List.mem_map] at hnd
    have h4 : mem m.physAddr (p4Index page.start) = none := hfree page (by simp)
    -- the rest of the pages still find their P4 slots unused after this one
    have hrest : ∀ p ∈ pages, (m.mapTo mem page frame flags).2 m.physAddr (p4Index p.start) = none := by
      intro p hp
      have hne : p4Index p.start ≠ p4Index page.start := fun he => hnd.1 ⟨p, hp, he⟩
      rw [mapTo_p4_of_ne hc h4 hne]
      exact hfree p (by simp [hp])
    have hpair : m.mapTo mem page frame flags =
        (⟨m.physAddr, m.tableCount + 2, m.aligned⟩, (m.mapTo mem page frame flags).2) := by
      rw [mapTo_of_p4_unused h4]
    obtain ⟨hp, hcount, hkeep⟩ := ih ⟨m.physAddr, m.tableCount + 2, m.aligned⟩
      (m.mapTo mem page frame flags).2 (by dsimp only; omega) hnd.2 hrest
    dsimp only at hp hcount hkeep ⊢
    rw [List.foldl_cons]
    dsimp only
    rw [hpair]
    refine ⟨hp, by simp only [hcount, List.length_cons]; omega, ?_⟩
    intro j hj
    simp only [List.map_cons, List.mem_cons, not_or] at hj
    exact (hkeep j hj.2).trans (mapTo_p4_of_ne hc h4 hj.1)

/-! ## Past the table area -/

/-- The page `(i + 1) * 512 GiB + 2 MiB`: P4 slot `i + 1`, P3 slot 0, P2 slot 1. -/
def sparsePage (i : Nat) : Page :=
  ⟨(i + 1) * 0x80_0000_0000 + HUGE_PAGE_SIZE, by unfold HUGE_PAGE_SIZE; omega⟩

theorem p4Index_sparsePage {i : Nat} (hi : i < 511) : p4Index (sparsePage i).start = i + 1 := by
  simp only [sparsePage, p4Index, HUGE_PAGE_SIZE]
  omega

theorem p4Index_sparsePages {n : Nat} (hn : n ≤ 511) :
    ((List.range n).map sparsePage).map (fun page => p4Index page.start) =
      (List.range n).map (· + 1) := by
  rw [List.map_map]
  apply List.map_congr_left
  intro i hi
  -- stated through the composition, the kernel would unfold the index arithmetic
  rw [Function.comp_apply]
  exact p4Index_sparsePage (by simp at hi; omega)

theorem p2Index_sparsePage (i : Nat) : p2Index (sparsePage i).start = 1 := by
  simp only [sparsePage, p2Index, HUGE_PAGE_SIZE]
  omega

/-- **The table area overflows.** From `init` at virtual address 0, mapping the 255
pages `sparsePage 0, .., sparsePage 254` takes two new tables each: every `map_to`
returns, `table_count` ends one past `MAX_PAGE_TABLES`, and the last P2 table is
zeroed and written at `phys_addr + HUGE_PAGE_SIZE`, in the frame after the one
reserved for the tables. -/
theorem map_to_overflows_table_area (mem : PhysMemory) (pt frame : PhysFrame)
    (flags : PageTableFlags) :
    ∃ m mem', (init mem pt.start 0).map
        (fun r => ((List.range 255).map sparsePage).foldl
          (fun s page => s.1.mapTo s.2 page frame flags) r) = .ok (m, mem') ∧
      m.tableCount = MAX_PAGE_TABLES + 1 ∧
      mem' (pt.start + HUGE_PAGE_SIZE) =
        Function.update (fun _ => none) 1 (some ⟨frame.start, flags ||| PageTableFlags.HUGE_PAGE⟩) := by
  have hpt : pt.start % 0x1000 = 0 := by
    have := pt.aligned
    unfold HUGE_PAGE_SIZE at this
    omega
  obtain ⟨mem0, hinit, hfree0⟩ := @init_p4 mem pt.start ⟨0, rfl⟩ hpt
  -- the first 254 pages, then the last one
  have hsplit : (List.range 255).map sparsePage =
      (List.range 254).map sparsePage ++ [sparsePage 254] := by
    rw [List.range_succ, List.map_append, List.map_singleton]
  have hidx := @p4Index_sparsePages 254 (by omega)
  have hnd : (((List.range 254).map sparsePage).map fun page => p4Index page.start).Nodup := by
    rw [hidx]
    exact List.nodup_range.map fun a b h => by simpa using h
  have hunused : ∀ page ∈ (List.range 254).map sparsePage,
      mem0 pt.start (p4Index page.start) = none := by
    intro page hp
    obtain ⟨i, hi, rfl⟩ := List.mem_map.mp hp
    apply hfree0
    rw [p4Index_sparsePage (by simp at hi; omega)]
    simp [p4Index]
  obtain ⟨hp, hcount, hkeep⟩ :=
    mapTo_foldl_of_p4_unused frame flags _ ⟨pt.start, 3, hpt⟩ mem0 (by simp) hnd hunused
  dsimp only at hp hcount hkeep
  generalize hr : ((List.range 254).map sparsePage).foldl
    (fun (s : PageMap × PhysMemory) page => s.1.mapTo s.2 page frame flags)
    ((⟨pt.start, 3, hpt⟩ : PageMap), mem0) = r at hp hcount hkeep
  simp only [List.length_map, List.length_range] at hcount
  -- the last page's P4 slot, 255, is still unused
  have h255 : r.2 r.1.physAddr (p4Index (sparsePage 254).start) = none := by
    rw [hp, p4Index_sparsePage (by omega), hkeep 255 (by rw [hidx]; simp)]
    exact hfree0 255 (by simp [p4Index])
  refine ⟨(r.1.mapTo r.2 (sparsePage 254) frame flags).1,
    (r.1.mapTo r.2 (sparsePage 254) frame flags).2, ?_, ?_, ?_⟩
  · have hinit' : init mem pt.start 0 = .ok (⟨pt.start, 3, hpt⟩, mem0) := hinit
    rw [hinit']
    simp only [Except.map]
    rw [hsplit, List.foldl_append, hr]
    rfl
  · rw [mapTo_of_p4_unused h255]
    simp [hcount, MAX_PAGE_TABLES, HUGE_PAGE_SIZE]
  · rw [mapTo_of_p4_unused h255]
    dsimp only
    rw [hcount, hp]
    have ha : pt.start + HUGE_PAGE_SIZE = frameAddr pt.start (511 + 1) := by
      simp [frameAddr, HUGE_PAGE_SIZE]
    rw [ha, setEntry_same, zeroTable_same, p2Index_sparsePage]

end PageMap

end D7os
