import D7os.Multitasking.ElfLoader
import D7os.Memory.PageWalk
import D7os.Syscall.Dispatch
import D7os.Lib.Except

/-!
# Process memory

`src/multitasking/process.rs`: `create_process` builds the page map of a new
process (descriptor tables, common code, stack and ELF image), and
`memory_alloc` / `memory_dealloc` let the process map, re-flag and unmap 2 MiB
pages of its own, one page of the range after the other. A page may only be
changed when the frame it maps is one of the process' `dynamic_memory`. An error
returns from the middle of the loop: the pages before it stay changed.

The page tables live in physical memory, shared with the frame allocator's
state (`PhysState`). Virtual addresses are numbers; the canonical-form checks
of `VirtAddr::new` are not modelled, nor the bytes written to the stack.
-/

namespace D7os

def HIGHER_HALF_START : Nat := 0xffff_8000_0000_0000

def PROCESS_COMMON_CODE : Nat := 0x20_0000

def PROCESS_STACK : Nat := 0x40_0000

def PROCESS_STACK_SIZE_PAGES : Nat := 2

/-- `d7abi::MemoryProtectionFlags`. -/
def MemoryProtectionFlags.READ : Nat := 1

def MemoryProtectionFlags.WRITE : Nat := 2

def MemoryProtectionFlags.EXECUTE : Nat := 4

def MemoryProtectionFlags.contains (flags flag : Nat) : Bool := flags &&& flag == flag

/-- Physical memory as the memory code sees it: the page tables in it and the
state of the frame allocator. -/
structure PhysState (σ : Type) where
  tables : PhysMemory
  frames : σ

/-- The fields of `Process` that own its memory. -/
structure ProcessMemory where
  /-- Physical address of page tables -/
  pageTable : PageMap
  /-- Stack pointer in process address space -/
  stackPointer : Nat
  /-- Stack frames -/
  stackMemory : Allocation
  /-- Dynamic memory frames, e.g. process heap -/
  dynamicMemory : List Allocation
  /-- Elf image RAII guard -/
  elfImage : ElfImage

/-- `phys_to_virt`. -/
def physToVirt (offset : Nat) : Except Panic Nat :=
  if UInt64.size ≤ HIGHER_HALF_START + offset then .error "phys_to_virt overflow"
  else .ok (HIGHER_HALF_START + offset)

/-- `Page::from_start_address(addr).unwrap()`. -/
def pageAt (addr : Nat) : Except Panic Page :=
  match Page.fromStartAddress addr with
  | none => .error "called `Result::unwrap()` on an `Err` value: AddressNotAligned"
  | some page => .ok page

/-- `PhysFrame::from_start_address(addr).unwrap()`. -/
def frameAt (addr : Nat) : Except Panic PhysFrame :=
  if h : addr % HUGE_PAGE_SIZE = 0 then .ok ⟨addr, h⟩
  else .error "called `Result::unwrap()` on an `Err` value: AddressNotAligned"

section

variable {σ : Type} (A : PhysAllocator σ)

/-- A run of `map_to` calls on the tables in `ps`. -/
def mapPages (ps : PhysState σ) (pm : PageMap) (flags : PageTableFlags) :
    List (Nat × Nat) → Except Panic (PageMap × PhysState σ)
  | [] => .ok (pm, ps)
  | (addr, frame) :: rest => do
    let page ← pageAt addr
    let frame ← frameAt frame
    let (pm, tables) := pm.mapTo ps.tables page frame flags
    mapPages { ps with tables } pm flags rest

/-- The loop of `create_process` that maps the executable image, one section
after the other, frame `i` of a section at `virtual_address + i * PAGE_SIZE_BYTES`. -/
def mapSections (ps : PhysState σ) (pm : PageMap) :
    List (ELFProgramHeader × List Allocation) → Except Panic (PageMap × PhysState σ)
  | [] => .ok (pm, ps)
  | (ph, frames) :: rest =>
    if ph.virtualAddress < 0x400_000 then .error "assertion failed: ph.virtual_address >= 0x400_000"
    else
      let flags := PageTableFlags.PRESENT |||
        (if ph.hasFlag ELFPermissionFlags.EXECUTABLE then 0 else PageTableFlags.NO_EXECUTE)
      if !ph.hasFlag ELFPermissionFlags.READABLE then
        .error "Non-readable pages are not supported (yet?)"
      else
        let flags := flags ||| (if ph.hasFlag ELFPermissionFlags.WRITABLE then PageTableFlags.WRITABLE else 0)
        do
          let (pm, ps) ← mapPages ps pm flags
            ((List.range frames.length).zip frames |>.map fun (i, frame) =>
              (ph.virtualAddress + PAGE_SIZE_BYTES * i, frame.frame.start))
          mapSections ps pm rest

/-- The frames an `ElfImage` owns, in the order they are dropped. -/
def ElfImage.frames (elf : ElfImage) : List Allocation := elf.sections.flatMap Prod.snd

/-- `create_process(pid, args, elf)` as far as memory goes; `idt` and `common` are
`PROCESS_IDT_PHYS_ADDR` and `COMMON_ADDRESS_PHYS`, and `args` are the bytes of
the arguments. On `OutOfMemory` the stack and the image are dropped. -/
def createProcess (ps : PhysState σ) (args : List (List UInt8)) (elf : ElfImage)
    (idt common : PhysFrame) : Except Panic (PhysState σ × Except OutOfMemory ProcessMemory) :=
  let stackSizeBytes := PROCESS_STACK_SIZE_PAGES * PAGE_SIZE_BYTES
  match A.allocateZeroed stackSizeBytes ps.frames with
  | .error e => .ok ({ ps with frames := elf.frames.foldl A.drop ps.frames }, .error e)
  | .ok (stack, frames) =>
    let ps := { ps with frames }
    let argsSizeInMemory :=
      8 + 8 * args.length + (args.foldl (fun n arg => n + arg.length) 0 + 7) / 8 * 8
    let stackItemsFixed := 15 + 1 + 5
    if stackSizeBytes < argsSizeInMemory + stackItemsFixed then
      .error "Attempting to have too large argv"
    else
      let processStackEnd := PROCESS_STACK + stackSizeBytes - argsSizeInMemory
      let processInitRsp := processStackEnd - stackItemsFixed * 8
      match A.allocate PAGE_SIZE_BYTES ps.frames with
      | none =>
        .ok ({ ps with frames := elf.frames.foldl A.drop (A.drop ps.frames stack) }, .error ⟨⟩)
      | some (ptFrame, frames) => do
        let ps := { ps with frames }
        let pmAddr ← physToVirt ptFrame.start
        let (pm, tables) ← PageMap.init ps.tables ptFrame.start pmAddr
        let ps := { ps with tables }
        let (pm, ps) ← mapPages ps pm
          (PageTableFlags.PRESENT ||| PageTableFlags.NO_EXECUTE ||| PageTableFlags.WRITABLE)
          [(0x0, idt.start)]
        let (pm, ps) ← mapPages ps pm PageTableFlags.PRESENT [(PROCESS_COMMON_CODE, common.start)]
        let (pm, ps) ← mapPages ps pm
          (PageTableFlags.PRESENT ||| PageTableFlags.WRITABLE ||| PageTableFlags.NO_EXECUTE)
          ((List.range PROCESS_STACK_SIZE_PAGES).map fun i =>
            (PROCESS_STACK + i * PAGE_SIZE_BYTES, stack.frame.start + i * PAGE_SIZE_BYTES))
        let (pm, ps) ← mapSections ps pm elf.sections
        pure (ps, .ok ⟨pm, processInitRsp, stack, [], elf⟩)

/-- One page of the `memory_alloc` loop: a page already mapped to a dynamic frame
is re-flagged, an unmapped page gets a new zeroed frame, and any other page is
refused. -/
def allocPage (ptFlags : PageTableFlags) (p : ProcessMemory) (ps : PhysState σ) (addr : Nat) :
    Except Panic ((ProcessMemory × PhysState σ) × Except SyscallErrorCode Unit) := do
  match ← p.pageTable.translate ps.tables addr with
  | some physStart =>
    -- `is_dynamic`; the frame made from `phys_start` is the allocation's own
    match p.dynamicMemory.find? (·.frame.start == physStart) with
    | none => pure ((p, ps), .error .mmapPermissionError)
    | some b =>
      let page ← pageAt addr
      let (pageTable, tables) := p.pageTable.mapTo ps.tables page b.frame ptFlags
      pure (({ p with pageTable }, { ps with tables }), .ok ())
  | none =>
    match A.allocateZeroed PAGE_SIZE_BYTES ps.frames with
    | .error _ => pure ((p, ps), .error .outOfMemory)
    | .ok (allocation, frames) =>
      let page ← pageAt addr
      let (pageTable, tables) := p.pageTable.mapTo ps.tables page allocation.frame ptFlags
      pure (({ p with pageTable, dynamicMemory := p.dynamicMemory ++ [allocation] }, ⟨tables, frames⟩),
        .ok ())

/-- The page loop of `memory_alloc`, stopping at the first error. -/
def allocPages (ptFlags : PageTableFlags) (areaPtr : Nat) :
    List Nat → ProcessMemory → PhysState σ →
      Except Panic ((ProcessMemory × PhysState σ) × Except SyscallErrorCode Unit)
  | [], p, ps => .ok ((p, ps), .ok ())
  | i :: rest, p, ps => do
    let ((p, ps), r) ← allocPage A ptFlags p ps (areaPtr + i * PAGE_SIZE_BYTES)
    match r with
    | .error e => pure ((p, ps), .error e)
    | .ok () => allocPages ptFlags areaPtr rest p ps

/-- `Process::memory_alloc(area_ptr, size, flags)`. -/
def memoryAlloc (p : ProcessMemory) (ps : PhysState σ) (areaPtr size flags : Nat) :
    Except Panic ((ProcessMemory × PhysState σ) × Except SyscallErrorCode Unit) :=
  if areaPtr % PAGE_SIZE_BYTES ≠ 0 then .ok ((p, ps), .error .mmapIncorrectAlignment)
  else if size % PAGE_SIZE_BYTES ≠ 0 then .ok ((p, ps), .error .mmapIncorrectAlignment)
  else
    let sizePages := size / PAGE_SIZE_BYTES
    if !MemoryProtectionFlags.contains flags MemoryProtectionFlags.READ then
      .ok ((p, ps), .error .unsupported)
    else
      let ptFlags := PageTableFlags.PRESENT |||
        (if MemoryProtectionFlags.contains flags MemoryProtectionFlags.WRITE then
          PageTableFlags.WRITABLE else 0)
      let ptFlags := ptFlags |||
        (if MemoryProtectionFlags.contains flags MemoryProtectionFlags.EXECUTE then 0
          else PageTableFlags.NO_EXECUTE)
      allocPages A ptFlags areaPtr (List.range sizePages) p ps

/-- One page of the `memory_dealloc` loop: a mapped page is unmapped when its
frame is dynamic, and every dynamic allocation of that frame is dropped. -/
def deallocPage (p : ProcessMemory) (ps : PhysState σ) (addr : Nat) :
    Except Panic ((ProcessMemory × PhysState σ) × Except SyscallErrorCode Unit) := do
  match ← p.pageTable.translate ps.tables addr with
  | none => pure ((p, ps), .ok ())
  | some physStart =>
    -- `drain_filter(..).next()`: the rest of the matches are dropped with the iterator
    let drained := p.dynamicMemory.filter (·.frame.start == physStart)
    let p := { p with dynamicMemory := p.dynamicMemory.filter (·.frame.start != physStart) }
    let ps := { ps with frames := drained.foldl A.drop ps.frames }
    if drained.isEmpty then pure ((p, ps), .error .mmapPermissionError)
    else do
      let page ← pageAt addr
      let tables ← p.pageTable.unmap ps.tables page
      pure ((p, { ps with tables }), .ok ())

/-- The page loop of `memory_dealloc`, stopping at the first error. -/
def deallocPages (areaPtr : Nat) :
    List Nat → ProcessMemory → PhysState σ →
      Except Panic ((ProcessMemory × PhysState σ) × Except SyscallErrorCode Unit)
  | [], p, ps => .ok ((p, ps), .ok ())
  | i :: rest, p, ps => do
    let ((p, ps), r) ← deallocPage A p ps (areaPtr + i * PAGE_SIZE_BYTES)
    match r with
    | .error e => pure ((p, ps), .error e)
    | .ok () => deallocPages areaPtr rest p ps

/-- `Process::memory_dealloc(area_ptr, size)`. -/
def memoryDealloc (p : ProcessMemory) (ps : PhysState σ) (areaPtr size : Nat) :
    Except Panic ((ProcessMemory × PhysState σ) × Except SyscallErrorCode Unit) :=
  if areaPtr % PAGE_SIZE_BYTES ≠ 0 then .ok ((p, ps), .error .mmapIncorrectAlignment)
  else if size % PAGE_SIZE_BYTES ≠ 0 then .ok ((p, ps), .error .mmapIncorrectAlignment)
  else deallocPages A areaPtr (List.range (size / PAGE_SIZE_BYTES)) p ps

end

/-! ## The page map of a new process -/

section Create

variable {σ : Type}

open PageMap

theorem pageAt_start (page : Page) : pageAt page.start = .ok page := by
  simp [pageAt]

/-- A run of `map_to` calls keeps the tables well formed and leaves the frame
allocator alone. -/
theorem mapPages_wf {flags : PageTableFlags} :
    ∀ (pages : List (Nat × Nat)) {ps ps' : PhysState σ} {pm pm' : PageMap}, pm.Wf ps.tables →
      mapPages ps pm flags pages = .ok (pm', ps') →
      pm'.Wf ps'.tables ∧ pm'.physAddr = pm.physAddr ∧ ps'.frames = ps.frames := by
  intro pages
  induction pages with
  | nil =>
    intro ps ps' pm pm' hw h
    cases h
    exact ⟨hw, rfl, rfl⟩
  | cons entry rest ih =>
    intro ps ps' pm pm' hw h
    obtain ⟨addr, frame⟩ := entry
    simp only [mapPages] at h
    obtain ⟨page, -, h⟩ := Except.bind_eq_ok.mp h
    obtain ⟨frame, -, h⟩ := Except.bind_eq_ok.mp h
    obtain ⟨hw₁, hp₁, -⟩ := mapTo_walk hw page frame flags
    obtain ⟨hw', hp', hf'⟩ := ih hw₁ h
    exact ⟨hw', hp'.trans hp₁, hf'⟩

/-- Past its two assertions, a section is one run of `map_to` calls, with the
flags the section asks for. -/
theorem mapSections_cons {ps : PhysState σ} {pm : PageMap} {ph : ELFProgramHeader}
    {frames : List Allocation} {rest : List (ELFProgramHeader × List Allocation)}
    {r : PageMap × PhysState σ} (h : mapSections ps pm ((ph, frames) :: rest) = .ok r) :
    ∃ flags s, mapPages ps pm flags
        ((List.range frames.length).zip frames |>.map fun (i, frame) =>
          (ph.virtualAddress + PAGE_SIZE_BYTES * i, frame.frame.start)) = .ok s ∧
      mapSections s.2 s.1 rest = .ok r := by
  simp only [mapSections] at h
  split_ifs at h <;> first | cases h | exact ⟨_, Except.bind_eq_ok.mp h⟩

/-- The loop over the sections of the image, section by section. -/
theorem mapSections_wf :
    ∀ (sections : List (ELFProgramHeader × List Allocation)) {ps ps' : PhysState σ}
      {pm pm' : PageMap}, pm.Wf ps.tables → mapSections ps pm sections = .ok (pm', ps') →
      pm'.Wf ps'.tables ∧ pm'.physAddr = pm.physAddr ∧ ps'.frames = ps.frames := by
  intro sections
  induction sections with
  | nil =>
    intro ps ps' pm pm' hw h
    cases h
    exact ⟨hw, rfl, rfl⟩
  | cons s rest ih =>
    intro ps ps' pm pm' hw h
    obtain ⟨ph, frames⟩ := s
    obtain ⟨flags, ⟨pm₁, ps₁⟩, h₁, h⟩ := mapSections_cons h
    obtain ⟨hw₁, hp₁, hf₁⟩ := mapPages_wf _ hw h₁
    obtain ⟨hw', hp', hf'⟩ := ih hw₁ h
    exact ⟨hw', hp'.trans hp₁, hf'.trans hf₁⟩

/-- **`create_process` builds a well-formed page map.** A created process has a
well-formed page map at the frame it was given, owns no dynamic memory yet, and
the allocator is left as the stack and table allocations leave it. -/
theorem createProcess_wf {A : PhysAllocator σ} {ps ps' : PhysState σ} {args : List (List UInt8)}
    {elf : ElfImage} {idt common : PhysFrame} {p : ProcessMemory}
    (h : createProcess A ps args elf idt common = .ok (ps', .ok p)) :
    p.pageTable.Wf ps'.tables ∧ p.dynamicMemory = [] ∧
      ∃ stack st ptFrame, A.allocateZeroed (PROCESS_STACK_SIZE_PAGES * PAGE_SIZE_BYTES) ps.frames =
          .ok (stack, st) ∧ A.allocate PAGE_SIZE_BYTES st = some (ptFrame, ps'.frames) ∧
        p.pageTable.physAddr = ptFrame.start ∧ p.stackMemory = stack := by
  unfold createProcess at h
  dsimp only at h
  split at h
  · cases h
  rename_i stack st hs
  split_ifs at h
  split at h
  · cases h
  rename_i ptFrame st₂ hpt
  obtain ⟨pmAddr, -, h⟩ := Except.bind_eq_ok.mp h
  obtain ⟨⟨pm₀, tables₀⟩, hinit, h⟩ := Except.bind_eq_ok.mp h
  obtain ⟨⟨pm₁, ps₁⟩, h₁, h⟩ := Except.bind_eq_ok.mp h
  obtain ⟨⟨pm₂, ps₂⟩, h₂, h⟩ := Except.bind_eq_ok.mp h
  obtain ⟨⟨pm₃, ps₃⟩, h₃, h⟩ := Except.bind_eq_ok.mp h
  obtain ⟨⟨pm₄, ps₄⟩, h₄, h⟩ := Except.bind_eq_ok.mp h
  cases h
  -- `init` gives the table area at `pt_frame`; each later run keeps what it finds
  have hp₀ : pm₀.physAddr = ptFrame.start := by
    unfold init at hinit
    split at hinit
    · cases hinit
    split at hinit
    · cases hinit
      rfl
    · cases hinit
  obtain ⟨hw₀, -⟩ := init_walk hinit
  obtain ⟨hw₁, hp₁, hf₁⟩ := mapPages_wf _ hw₀ h₁
  obtain ⟨hw₂, hp₂, hf₂⟩ := mapPages_wf _ hw₁ h₂
  obtain ⟨hw₃, hp₃, hf₃⟩ := mapPages_wf _ hw₂ h₃
  obtain ⟨hw₄, hp₄, hf₄⟩ := mapSections_wf _ hw₃ h₄
  refine ⟨hw₄, rfl, stack, st, ptFrame, hs, ?_, ?_, rfl⟩
  · rw [hf₄, hf₃, hf₂, hf₁]
    exact hpt
  · rw [hp₄, hp₃, hp₂, hp₁, hp₀]

end Create

/-! ## One page of `memory_alloc` -/

section Alloc

variable {σ : Type} {A : PhysAllocator σ} {p : ProcessMemory} {ps : PhysState σ}
  {ptFlags : PageTableFlags}

open PageMap

/-- An unmapped page gets a new zeroed frame, which `dynamic_memory` keeps. -/
theorem allocPage_fresh {page : Page} {f : PhysFrame} {st : σ}
    (hfree : p.pageTable.translate ps.tables page.start = .ok none)
    (hA : A.allocate PAGE_SIZE_BYTES ps.frames = some (f, st)) :
    allocPage A ptFlags p ps page.start =
      .ok (({ p with
              pageTable := (p.pageTable.mapTo ps.tables page f ptFlags).1
              dynamicMemory := p.dynamicMemory ++ [⟨f, PAGE_SIZE_BYTES, fun _ => 0⟩] },
            ⟨(p.pageTable.mapTo ps.tables page f ptFlags).2, st⟩), .ok ()) := by
  simp [allocPage, hfree, PhysAllocator.allocateZeroed, hA, pageAt_start, bind, Except.bind,
    pure, Except.pure]

/-- A mapped page whose frame is not dynamic is refused, and nothing changes. -/
theorem allocPage_refused {addr q : Nat}
    (hmapped : p.pageTable.translate ps.tables addr = .ok (some q))
    (hq : ∀ b ∈ p.dynamicMemory, b.frame.start ≠ q) :
    allocPage A ptFlags p ps addr = .ok ((p, ps), .error .mmapPermissionError) := by
  have hfind : p.dynamicMemory.find? (·.frame.start == q) = none := by
    rw [List.find?_eq_none]
    intro b hb
    simpa using hq b hb
  simp [allocPage, hmapped, hfind, bind, Except.bind, pure, Except.pure]

theorem allocPages_cons_ok {areaPtr i : Nat} {rest : List Nat} {p' : ProcessMemory}
    {ps' : PhysState σ} (h : allocPage A ptFlags p ps (areaPtr + i * PAGE_SIZE_BYTES) = .ok ((p', ps'), .ok ())) :
    allocPages A ptFlags areaPtr (i :: rest) p ps = allocPages A ptFlags areaPtr rest p' ps' := by
  simp [allocPages, h, bind, Except.bind]

theorem allocPages_cons_error {areaPtr i : Nat} {rest : List Nat} {p' : ProcessMemory}
    {ps' : PhysState σ} {e : SyscallErrorCode}
    (h : allocPage A ptFlags p ps (areaPtr + i * PAGE_SIZE_BYTES) = .ok ((p', ps'), .error e)) :
    allocPages A ptFlags areaPtr (i :: rest) p ps = .ok ((p', ps'), .error e) := by
  simp [allocPages, h, bind, Except.bind, pure, Except.pure]

/-- Past the checks, `memory_alloc` is its page loop. -/
theorem memoryAlloc_of_checks {areaPtr size flags : Nat} (ha : areaPtr % PAGE_SIZE_BYTES = 0)
    (hs : size % PAGE_SIZE_BYTES = 0)
    (hr : MemoryProtectionFlags.contains flags MemoryProtectionFlags.READ = true) :
    ∃ ptFlags, memoryAlloc A p ps areaPtr size flags =
      allocPages A ptFlags areaPtr (List.range (size / PAGE_SIZE_BYTES)) p ps := by
  simp only [memoryAlloc, ha, hs, hr, ne_eq, not_true_eq_false, if_false, Bool.not_true,
    Bool.false_eq_true]
  exact ⟨_, rfl⟩

theorem not_sameSlot_next_page (a : Nat) : ¬ SameSlot (a + 1 * PAGE_SIZE_BYTES) a := by
  rintro ⟨-, -, h2⟩
  simp only [p2Index, PAGE_SIZE_BYTES] at h2
  omega

/-- **`memory_alloc` is not atomic.** Asked for two pages of which the first is
unmapped and the second maps a frame the process does not own dynamically,
`memory_alloc` maps a new frame at the first page and records it in
`dynamic_memory`, then refuses the second page and returns the error with the
first page still mapped. -/
theorem memory_alloc_keeps_pages_on_error (A : PhysAllocator σ) (p : ProcessMemory)
    (ps : PhysState σ) (page : Page) (f : PhysFrame) (st : σ) (q : Nat)
    (hw : p.pageTable.Wf ps.tables)
    (hfree : p.pageTable.translate ps.tables page.start = .ok none)
    (hnext : p.pageTable.translate ps.tables (page.start + PAGE_SIZE_BYTES) = .ok (some q))
    (hq : ∀ b ∈ p.dynamicMemory, b.frame.start ≠ q) (hfq : f.start ≠ q)
    (hA : A.allocate PAGE_SIZE_BYTES ps.frames = some (f, st)) :
    ∃ p' ps', memoryAlloc A p ps page.start (2 * PAGE_SIZE_BYTES) MemoryProtectionFlags.READ =
        .ok ((p', ps'), .error .mmapPermissionError) ∧
      p'.dynamicMemory = p.dynamicMemory ++ [⟨f, PAGE_SIZE_BYTES, fun _ => 0⟩] ∧
      p'.pageTable.translate ps'.tables page.start = .ok (some f.start) ∧ ps'.frames = st := by
  obtain ⟨ptFlags, hm⟩ := @memoryAlloc_of_checks σ A p ps page.start (2 * PAGE_SIZE_BYTES) MemoryProtectionFlags.READ
    page.aligned (by decide) (by decide)
  -- the first page gets the new frame
  have h₀ := @allocPage_fresh σ A p ps ptFlags page f st hfree hA
  obtain ⟨hw₁, -, hwalk₁⟩ := mapTo_walk hw page f ptFlags
  generalize p.pageTable.mapTo ps.tables page f ptFlags = m₁ at h₀ hw₁ hwalk₁
  -- the second page still maps `q`, which the grown `dynamic_memory` does not own
  have hmapped : m₁.1.translate m₁.2 (page.start + 1 * PAGE_SIZE_BYTES) = .ok (some q) := by
    rw [translate_eq hw₁, hwalk₁, if_neg (not_sameSlot_next_page _), Nat.one_mul,
      ← translate_eq hw]
    exact hnext
  have hq₁ : ∀ b ∈ p.dynamicMemory ++ [⟨f, PAGE_SIZE_BYTES, fun _ => 0⟩], b.frame.start ≠ q := by
    intro b hb
    rcases List.mem_append.mp hb with hb | hb
    · exact hq b hb
    · rw [List.mem_singleton.mp hb]
      exact hfq
  let p₁ : ProcessMemory :=
    { p with
      pageTable := m₁.1
      dynamicMemory := p.dynamicMemory ++ [⟨f, PAGE_SIZE_BYTES, fun _ => 0⟩] }
  have h₁ := @allocPage_refused σ A p₁ ⟨m₁.2, st⟩ ptFlags _ q hmapped hq₁
  refine ⟨p₁, ⟨m₁.2, st⟩, ?_, rfl, ?_, rfl⟩
  · rw [hm, show List.range (2 * PAGE_SIZE_BYTES / PAGE_SIZE_BYTES) = [0, 1] from rfl,
      allocPages_cons_ok (by rw [Nat.zero_mul, Nat.add_zero]; exact h₀)]
    exact allocPages_cons_error h₁
  · show m₁.1.translate m₁.2 page.start = .ok (some f.start)
    rw [translate_eq hw₁, hwalk₁, if_pos ⟨rfl, rfl, rfl⟩]
    rfl

/-- A loaded image of one section at `0x100_0000`, two pages long, in frames 0
and 1; and the frames that hold the descriptor tables and the common code. -/
def imageElf : ElfImage :=
  ⟨ELFHeader.read twoPageImage, [(twoPageSegment,
    [⟨⟨0, by decide⟩, PAGE_SIZE_BYTES, fun _ => 0⟩,
      ⟨⟨PAGE_SIZE_BYTES, by decide⟩, PAGE_SIZE_BYTES, fun _ => 0⟩])]⟩

def idtFrame : PhysFrame := ⟨100 * PAGE_SIZE_BYTES, by decide⟩

def commonFrame : PhysFrame := ⟨101 * PAGE_SIZE_BYTES, by decide⟩

/-- The process created for `imageElf`, with frames handed out from frame 2 on,
asks for the two pages below its image: the first gets frame 5, the second is
the image's first page and is refused, and frame 5 stays mapped and recorded. -/
theorem memory_alloc_keeps_pages_on_error_imageProcess :
    ∃ ps₁ p, createProcess frameCounter ⟨fun _ _ => none, 2⟩ [] imageElf idtFrame commonFrame =
        .ok (ps₁, .ok p) ∧ p.dynamicMemory = [] ∧
      p.pageTable.translate ps₁.tables 0xE0_0000 = .ok none ∧
      ∃ p' ps', memoryAlloc frameCounter p ps₁ 0xE0_0000 (2 * PAGE_SIZE_BYTES)
          MemoryProtectionFlags.READ = .ok ((p', ps'), .error .mmapPermissionError) ∧
        p'.dynamicMemory = [⟨⟨5 * PAGE_SIZE_BYTES, by decide⟩, PAGE_SIZE_BYTES, fun _ => 0⟩] ∧
        p'.pageTable.translate ps'.tables 0xE0_0000 = .ok (some (5 * PAGE_SIZE_BYTES)) := by
  -- run `create_process` once, reading off the two slots and the allocator
  obtain ⟨ps₁, p, hc, hfree, hnext, hframes⟩ : ∃ ps₁ p,
      createProcess frameCounter ⟨fun _ _ => none, 2⟩ [] imageElf idtFrame commonFrame =
        .ok (ps₁, .ok p) ∧ p.pageTable.walk ps₁.tables 0xE0_0000 = none ∧
      (p.pageTable.walk ps₁.tables (0xE0_0000 + PAGE_SIZE_BYTES)).map PageTableEntry.addr =
        some 0 ∧ ps₁.frames = 5 :=
    ⟨_, _, rfl, by decide +kernel, by decide +kernel, rfl⟩
  obtain ⟨hw, hdyn, -⟩ := createProcess_wf hc
  have hfree' : p.pageTable.translate ps₁.tables 0xE0_0000 = .ok none := by
    rw [translate_eq hw, hfree]
    rfl
  obtain ⟨p', ps', hm, hdyn', htr, -⟩ := memory_alloc_keeps_pages_on_error frameCounter p ps₁
    ⟨0xE0_0000, by decide⟩ ⟨5 * PAGE_SIZE_BYTES, by decide⟩ 6 0 hw hfree'
    (by rw [translate_eq hw]; exact congrArg Except.ok hnext) (by simp [hdyn]) (by decide)
    (by rw [hframes]; rfl)
  exact ⟨ps₁, p, hc, hdyn, hfree', p', ps', hm, by rw [hdyn', hdyn]; rfl, htr⟩

end Alloc

end D7os
