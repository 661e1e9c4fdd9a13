import D7os.Util.ElfParser
import D7os.Memory.Phys

/-!
# Loading an ELF image

`src/multitasking/elf_loader.rs`: `load_elf` parses the image and gives every
loadable segment of nonzero memory size one zeroed 2 MiB frame per page of its
memory size. Into each frame it copies the `size_in_file` bytes at `offset`,
the same bytes for every frame of the segment; `create_process` then maps frame
`k` at `virtual_address + k * PAGE_SIZE_BYTES`. When the allocator runs out, the
frames taken so far are dropped.
-/

namespace D7os

/-- `page_align_u64(address, upwards)`, with the 2 MiB `Page::SIZE`. -/
def pageAlignU64 (address : Nat) (upwards : Bool) : Except Panic Nat :=
  if address % PAGE_SIZE_BYTES = 0 then .ok address
  else if upwards then
    if UInt64.size ≤ address + PAGE_SIZE_BYTES then .error addOverflow
    else .ok (address + PAGE_SIZE_BYTES - address % PAGE_SIZE_BYTES)
  else .ok (address - address % PAGE_SIZE_BYTES)

/-- A loaded and validated elf image -/
structure ElfImage where
  header : ELFHeader
  sections : List (ELFProgramHeader × List Allocation)

/-- `area[..size].copy_from_slice(&image[start..start + size])` on a fresh frame. -/
def copyFileBytes (image : List UInt8) (ph : ELFProgramHeader) (area : Allocation) :
    Except Panic Allocation :=
  let start := ph.offset
  let size := ph.sizeInFile
  if area.size < size then .error (sliceEndIndexLenFail size area.size)
  else if UInt64.size ≤ start + size then .error addOverflow
  else if image.length < start + size then
    .error (sliceEndIndexLenFail (start + size) image.length)
  else .ok { area with bytes := fun j => if j < size then image.getD (start + j) 0 else area.bytes j }

section

variable {σ : Type} (A : PhysAllocator σ)

/-- The frame loop of one segment: `n` more frames, each allocated zeroed and
given the segment's file bytes. On `OutOfMemory` the segment's frames are dropped. -/
def loadFrames (image : List UInt8) (ph : ELFProgramHeader) :
    Nat → σ → List Allocation → Except Panic (σ × Except OutOfMemory (List Allocation))
  | 0, st, frames => .ok (st, .ok frames)
  | n + 1, st, frames =>
    match A.allocateZeroed PAGE_SIZE_BYTES st with
    | .error e => .ok (frames.foldl A.drop st, .error e)
    | .ok (allocation, st) => do
      let allocation ← copyFileBytes image ph allocation
      loadFrames image ph n st (frames ++ [allocation])

/-- The segment loop of `load_elf`, over the headers still to load, with the
sections loaded so far; on `OutOfMemory` their frames are dropped too. -/
def loadSegments (image : List UInt8) :
    List ELFProgramHeader → σ → List (ELFProgramHeader × List Allocation) →
      Except Panic (σ × Except OutOfMemory (List (ELFProgramHeader × List Allocation)))
  | [], st, sections => .ok (st, .ok sections)
  | ph :: rest, st, sections =>
    if ph.loadable && ph.sizeInMemory != 0 then do
      let sizeInPages := (← pageAlignU64 ph.sizeInMemory true) / PAGE_SIZE_BYTES
      let (st, r) ← loadFrames A image ph sizeInPages st []
      match r with
      | .error e => pure (sections.foldl (fun st s => s.2.foldl A.drop st) st, .error e)
      | .ok frames => loadSegments image rest st (sections ++ [(ph, frames)])
    else loadSegments image rest st sections

/-- `load_elf(image)`. -/
def loadElf (image : List UInt8) (st : σ) : Except Panic (σ × Except OutOfMemory ElfImage) :=
  match parseElf image with
  | .error p => .error p
  | .ok (.error e) => .error ("Invalid ELF image: " ++ e.debug)
  | .ok (.ok elf) => do
    let (st, r) ← loadSegments A image (elf.phTable.toList.filterMap id) st []
    pure (st, r.map fun sections => ⟨elf.header, sections⟩)

end

/-! ## What every frame holds -/

/-- The bytes `load_elf` leaves in each frame of the segment `ph`: its file bytes
at the start, zero after them. -/
def segmentFileBytes (image : List UInt8) (ph : ELFProgramHeader) (j : Nat) : UInt8 :=
  if j < ph.sizeInFile then image.getD (ph.offset + j) 0 else 0

theorem copyFileBytes_ok {image : List UInt8} {ph : ELFProgramHeader} {area a : Allocation}
    (h : copyFileBytes image ph area = .ok a) :
    ph.sizeInFile ≤ area.size ∧ ph.offset + ph.sizeInFile ≤ image.length ∧
      a = { area with
        bytes := fun j => if j < ph.sizeInFile then image.getD (ph.offset + j) 0 else area.bytes j } := by
  unfold copyFileBytes at h
  dsimp only at h
  split_ifs at h with h1 h2 h3
  cases h
  exact ⟨by omega, by omega, rfl⟩

section

variable {σ : Type} {A : PhysAllocator σ}

/-- Frames that `load_elf` accepts for the segment `ph`: full pages holding its
file bytes, which fit in one page. -/
def SegmentFrames (image : List UInt8) (ph : ELFProgramHeader) (frames : List Allocation) : Prop :=
  ∀ a ∈ frames, a.size = PAGE_SIZE_BYTES ∧ a.bytes = segmentFileBytes image ph ∧
    ph.sizeInFile ≤ PAGE_SIZE_BYTES

/-- One step of the frame loop when the allocator has a frame and the file bytes fit. -/
theorem loadFrames_succ {image : List UInt8} {ph : ELFProgramHeader} {n : Nat} {st st' : σ}
    {frames : List Allocation} {frame : PhysFrame}
    (hA : A.allocate PAGE_SIZE_BYTES st = some (frame, st'))
    (hfit : ph.sizeInFile ≤ PAGE_SIZE_BYTES) (hov : ph.offset + ph.sizeInFile < UInt64.size)
    (hin : ph.offset + ph.sizeInFile ≤ image.length) :
    loadFrames A image ph (n + 1) st frames =
      loadFrames A image ph n st' (frames ++ [⟨frame, PAGE_SIZE_BYTES, segmentFileBytes image ph⟩]) := by
  have h1 : ¬PAGE_SIZE_BYTES < ph.sizeInFile := by omega
  have h2 : ¬UInt64.size ≤ ph.offset + ph.sizeInFile := by omega
  have h3 : ¬image.length < ph.offset + ph.sizeInFile := by omega
  simp only [loadFrames, PhysAllocator.allocateZeroed, hA, copyFileBytes, h1, h2, h3, if_false,
    bind, Except.bind]
  rfl

theorem loadFrames_ok {image : List UInt8} {ph : ELFProgramHeader} :
    ∀ (n : Nat) (st st' : σ) (frames frames' : List Allocation),
      loadFrames A image ph n st frames = .ok (st', .ok frames') →
      ∃ added, frames' = frames ++ added ∧ added.length = n ∧ SegmentFrames image ph added := by
  intro n
  induction n with
  | zero =>
    intro st st' frames frames' h
    simp only [loadFrames, Except.ok.injEq, Prod.mk.injEq] at h
    obtain ⟨-, h⟩ := h
    cases h
    exact ⟨[], by simp, rfl, by simp [SegmentFrames]⟩
  | succ n ih =>
    intro st st' frames frames' h
    simp only [loadFrames] at h
    split at h
    · cases h
    rename_i allocation st₁ halloc
    obtain ⟨frame, -, rfl⟩ := PhysAllocator.allocateZeroed_ok halloc
    cases hc : copyFileBytes image ph ⟨frame, PAGE_SIZE_BYTES, fun _ => 0⟩ with
    | error e => simp [hc, bind, Except.bind] at h
    | ok a =>
      simp only [hc, bind, Except.bind] at h
      obtain ⟨added, rfl, hlen, hframes⟩ := ih _ _ _ _ h
      obtain ⟨hsize, -, ha⟩ := copyFileBytes_ok hc
      refine ⟨a :: added, by simp, by simp [hlen], ?_⟩
      intro b hb
      rcases List.mem_cons.mp hb with rfl | hb
      · -- the frame was zeroed, so past the file bytes it keeps its zeros
        subst ha
        exact ⟨rfl, by funext j; simp [segmentFileBytes], hsize⟩
      · exact hframes b hb

theorem loadSegments_ok {image : List UInt8} :
    ∀ (phs : List ELFProgramHeader) (st st' : σ)
      (sections sections' : List (ELFProgramHeader × List Allocation)),
      loadSegments A image phs st sections = .ok (st', .ok sections') →
      ∃ added, sections' = sections ++ added ∧ ∀ s ∈ added, SegmentFrames image s.1 s.2 := by
  intro phs
  induction phs with
  | nil =>
    intro st st' sections sections' h
    simp only [loadSegments, Except.ok.injEq, Prod.mk.injEq] at h
    obtain ⟨-, h⟩ := h
    cases h
    exact ⟨[], by simp, by simp⟩
  | cons ph rest ih =>
    intro st st' sections sections' h
    simp only [loadSegments] at h
    split at h
    · cases hp : pageAlignU64 ph.sizeInMemory true with
      | error e => simp [hp, bind, Except.bind] at h
      | ok pages =>
        simp only [hp, bind, Except.bind] at h
        cases hf : loadFrames A image ph (pages / PAGE_SIZE_BYTES) st [] with
        | error e => simp [hf] at h
        | ok r =>
          obtain ⟨st₁, r⟩ := r
          cases r with
          | error e => simp [hf, pure, Except.pure] at h
          | ok frames =>
            simp only [hf] at h
            obtain ⟨added, rfl, hadded⟩ := ih _ _ _ _ h
            obtain ⟨fresh, hfresh, -, hsegment⟩ := loadFrames_ok _ _ _ _ _ hf
            simp only [List.nil_append] at hfresh
            subst hfresh
            refine ⟨(ph, frames) :: added, by simp, ?_⟩
            intro s hs
            rcases List.mem_cons.mp hs with rfl | hs
            · exact hsegment
            · exact hadded s hs
    · exact ih _ _ _ _ h

/-- **The frames of a loaded image.** Whenever `load_elf` returns an image, every
frame of every segment is a full page holding that segment's file bytes followed
by zeros: the frame at page `k` of a segment holds the bytes from `offset`, not
from `offset + k * PAGE_SIZE_BYTES`. -/
theorem loadElf_frames {image : List UInt8} {st st' : σ} {elf : ElfImage}
    (h : loadElf A image st = .ok (st', .ok elf)) :
    ∀ s ∈ elf.sections, SegmentFrames image s.1 s.2 := by
  unfold loadElf at h
  split at h
  · cases h
  · cases h
  rename_i data _
  generalize List.filterMap _ data.phTable.toList = phs at h
  cases hl : loadSegments A image phs st [] with
  | error e => simp [hl, bind, Except.bind] at h
  | ok r =>
    obtain ⟨st₁, r⟩ := r
    cases r with
    | error e => simp [hl, bind, Except.bind, pure, Except.pure, Except.map] at h
    | ok sections =>
      simp only [hl, bind, Except.bind, pure, Except.pure, Except.map, Except.ok.injEq,
        Prod.mk.injEq] at h
      obtain ⟨-, rfl⟩ := h
      obtain ⟨added, rfl, hadded⟩ := loadSegments_ok _ _ _ _ _ hl
      simpa using hadded

end

/-! ## A segment of two pages -/

/-- An image with one `PT_LOAD` segment at virtual address `0x100_0000`: one byte,
`0xAA`, in the file at offset 120, one page and one byte in memory. The header
is followed by the program header at 64. -/
def twoPageImage : List UInt8 :=
  leBytes 4 ELF_MAGIC ++ [2, 1, 1, 0] ++ leBytes 8 0 ++ leBytes 2 2 ++ leBytes 2 ELF_ARCH_X86_64 ++
    leBytes 4 1 ++ leBytes 8 0x100_0000 ++ leBytes 8 64 ++ leBytes 8 0 ++ leBytes 4 0 ++
    leBytes 2 64 ++ leBytes 2 ELF_PH_TABLE_ENTRY_SIZE ++ leBytes 2 1 ++ leBytes 6 0 ++
  leBytes 4 1 ++ leBytes 4 5 ++ leBytes 8 120 ++ leBytes 8 0x100_0000 ++ leBytes 8 0 ++
    leBytes 8 1 ++ leBytes 8 (PAGE_SIZE_BYTES + 1) ++ leBytes 8 PAGE_SIZE_BYTES ++
  [0xAA]

/-- The program header of `twoPageImage`. -/
def twoPageSegment : ELFProgramHeader := ⟨1, 5, 120, 0x100_0000, 1, PAGE_SIZE_BYTES + 1⟩

set_option maxRecDepth 8000 in
theorem parseElf_twoPageImage :
    parseElf twoPageImage = .ok (.ok ⟨ELFHeader.read twoPageImage,
      (Vector.replicate MAX_PH_ENTRY_COUNT none).set 0 (some twoPageSegment) (by decide)⟩) := by
  rfl

/-- **Every page of a segment gets its first page's bytes.** For any allocator
that can hand out two frames, `load_elf` accepts `twoPageImage`, whose segment is
in the image, page aligned and no larger in the file than in memory, and gives
it two frames. Byte `PAGE_SIZE_BYTES` of the segment, which is past its one file
byte and so should be zero, is byte 0 of the second frame, and that holds the
segment's first file byte `0xAA`. -/
theorem load_elf_repeats_file_bytes {σ : Type} (A : PhysAllocator σ) (st st₁ st₂ : σ)
    (f₀ f₁ : PhysFrame) (h₀ : A.allocate PAGE_SIZE_BYTES st = some (f₀, st₁))
    (h₁ : A.allocate PAGE_SIZE_BYTES st₁ = some (f₁, st₂)) :
    ∃ elf, loadElf A twoPageImage st = .ok (st₂, .ok elf) ∧
      ∃ ph a₀ a₁, elf.sections = [(ph, [a₀, a₁])] ∧
        ph.offset + ph.sizeInFile ≤ twoPageImage.length ∧ ph.sizeInFile ≤ ph.sizeInMemory ∧
        ph.virtualAddress % PAGE_SIZE_BYTES = 0 ∧
        ph.sizeInFile ≤ PAGE_SIZE_BYTES ∧ PAGE_SIZE_BYTES < ph.sizeInMemory ∧
        a₁.bytes (PAGE_SIZE_BYTES % PAGE_SIZE_BYTES) = 0xAA := by
  have hlen : twoPageImage.length = 121 := rfl
  have hbyte : twoPageImage.getD 120 0 = 0xAA := rfl
  have hlist : ((Vector.replicate MAX_PH_ENTRY_COUNT none).set 0 (some twoPageSegment)
      (by decide)).toList.filterMap id = [twoPageSegment] := rfl
  have hfit : twoPageSegment.sizeInFile ≤ PAGE_SIZE_BYTES := by decide
  have hov : twoPageSegment.offset + twoPageSegment.sizeInFile < UInt64.size := by decide
  have hin : twoPageSegment.offset + twoPageSegment.sizeInFile ≤ twoPageImage.length := by
    rw [hlen]
    decide
  -- one page and one byte of memory round up to two pages
  have hpages : pageAlignU64 twoPageSegment.sizeInMemory true = .ok (2 * PAGE_SIZE_BYTES) := by
    decide
  have hload : (twoPageSegment.loadable && twoPageSegment.sizeInMemory != 0) = true := by decide
  have hframes : loadFrames A twoPageImage twoPageSegment (2 * PAGE_SIZE_BYTES / PAGE_SIZE_BYTES)
      st [] = .ok (st₂, .ok [⟨f₀, PAGE_SIZE_BYTES, segmentFileBytes twoPageImage twoPageSegment⟩,
        ⟨f₁, PAGE_SIZE_BYTES, segmentFileBytes twoPageImage twoPageSegment⟩]) := by
    rw [show 2 * PAGE_SIZE_BYTES / PAGE_SIZE_BYTES = 0 + 1 + 1 by decide,
      loadFrames_succ h₀ hfit hov hin, loadFrames_succ h₁ hfit hov hin]
    rfl
  refine ⟨⟨ELFHeader.read twoPageImage, [(twoPageSegment,
      [⟨f₀, PAGE_SIZE_BYTES, segmentFileBytes twoPageImage twoPageSegment⟩,
        ⟨f₁, PAGE_SIZE_BYTES, segmentFileBytes twoPageImage twoPageSegment⟩])]⟩, ?_,
    twoPageSegment, _, _, rfl, by rw [hlen]; decide, by decide, by decide, hfit, by decide, ?_⟩
  · rw [loadElf, parseElf_twoPageImage]
    dsimp only
    rw [hlist, loadSegments, if_pos hload]
    simp only [hpages, bind, Except.bind, hframes, loadSegments, pure, Except.pure, Except.map]
    rfl
  · -- the second frame holds the first file byte at its start
    show segmentFileBytes twoPageImage twoPageSegment 0 = 0xAA
    exact hbyte

/-- An allocator handing out physical memory from frame `next` on, in order, a
whole number of frames for each block, and never taking one back. -/
def frameCounter : PhysAllocator Nat where
  allocate size next := some (⟨next * PAGE_SIZE_BYTES, by unfold PAGE_SIZE_BYTES HUGE_PAGE_SIZE; omega⟩,
    next + (size + PAGE_SIZE_BYTES - 1) / PAGE_SIZE_BYTES)
  deallocate _ _ st := st

theorem load_elf_repeats_file_bytes_frameCounter :
    ∃ elf, loadElf frameCounter twoPageImage 0 = .ok (2, .ok elf) ∧
      ∃ ph a₀ a₁, elf.sections = [(ph, [a₀, a₁])] ∧
        ph.offset + ph.sizeInFile ≤ twoPageImage.length ∧ ph.sizeInFile ≤ ph.sizeInMemory ∧
        ph.virtualAddress % PAGE_SIZE_BYTES = 0 ∧
        ph.sizeInFile ≤ PAGE_SIZE_BYTES ∧ PAGE_SIZE_BYTES < ph.sizeInMemory ∧
        a₁.bytes (PAGE_SIZE_BYTES % PAGE_SIZE_BYTES) = 0xAA :=
  load_elf_repeats_file_bytes frameCounter 0 1 2 _ _ rfl rfl

/-! ## Malformed images panic

`parse_elf` slices the data before it checks anything, stores each `PT_LOAD`
header into a table of `MAX_PH_ENTRY_COUNT` slots without a bound, and
`load_elf` calls `expect` on the result, so the kernel panics where an `Err` is
expected. `exec` passes the bytes a process names straight to `load_elf`. -/

/-- A valid header announcing one program header at 64, and nothing after it. -/
def headerOnlyImage : List UInt8 :=
  leBytes 4 ELF_MAGIC ++ [2, 1, 1, 0] ++ leBytes 8 0 ++ leBytes 2 2 ++ leBytes 2 ELF_ARCH_X86_64 ++
    leBytes 4 1 ++ leBytes 8 0x100_0000 ++ leBytes 8 64 ++ leBytes 8 0 ++ leBytes 4 0 ++
    leBytes 2 64 ++ leBytes 2 ELF_PH_TABLE_ENTRY_SIZE ++ leBytes 2 1 ++ leBytes 6 0

/-- A valid header whose one program header would end past `u64::MAX`. -/
def overflowImage : List UInt8 :=
  leBytes 4 ELF_MAGIC ++ [2, 1, 1, 0] ++ leBytes 8 0 ++ leBytes 2 2 ++ leBytes 2 ELF_ARCH_X86_64 ++
    leBytes 4 1 ++ leBytes 8 0x100_0000 ++ leBytes 8 (UInt64.size - 1) ++ leBytes 8 0 ++ leBytes 4 0 ++
    leBytes 2 64 ++ leBytes 2 ELF_PH_TABLE_ENTRY_SIZE ++ leBytes 2 1 ++ leBytes 6 0

/-- A valid header and 21 `PT_LOAD` program headers, one more than the table holds. -/
def twentyOneLoadsImage : List UInt8 :=
  leBytes 4 ELF_MAGIC ++ [2, 1, 1, 0] ++ leBytes 8 0 ++ leBytes 2 2 ++ leBytes 2 ELF_ARCH_X86_64 ++
    leBytes 4 1 ++ leBytes 8 0x100_0000 ++ leBytes 8 64 ++ leBytes 8 0 ++ leBytes 4 0 ++
    leBytes 2 64 ++ leBytes 2 ELF_PH_TABLE_ENTRY_SIZE ++ leBytes 2 21 ++ leBytes 6 0 ++
  (List.replicate 21 (leBytes 4 1 ++ leBytes 52 0)).flatten

set_option maxRecDepth 8000 in
theorem parseElf_headerOnlyImage :
    parseElf headerOnlyImage = .error (sliceEndIndexLenFail 120 64) := by
  rfl

set_option maxRecDepth 8000 in
theorem parseElf_overflowImage : parseElf overflowImage = .error addOverflow := by
  rfl

set_option maxRecDepth 8000 in
theorem parseElf_twentyOneLoadsImage :
    parseElf twentyOneLoadsImage = .error "index out of bounds: the len is 20 but the index is 20" := by
  rfl

/-- An image too short for the header panics on the first slice. -/
theorem parseElf_of_short {data : List UInt8} (h : data.length < ELF_HEADER_SIZE) :
    parseElf data = .error (sliceEndIndexLenFail ELF_HEADER_SIZE data.length) := by
  rw [parseElf, if_pos h]

/-- `load_elf` panics on an image that is not ELF. -/
theorem loadElf_of_not_elf {σ : Type} (A : PhysAllocator σ) (st : σ) {data : List UInt8}
    (hlen : ELF_HEADER_SIZE ≤ data.length) (hmagic : (ELFHeader.read data).magic ≠ ELF_MAGIC) :
    loadElf A data st = .error "Invalid ELF image: NotElf" := by
  have hparse : parseElf data = .ok (.error .NotElf) := by
    rw [parseElf, if_neg (Nat.not_lt.mpr hlen)]
    exact if_pos hmagic
  rw [loadElf, hparse]
  rfl

/-- **Malformed images panic instead of failing.** Every image shorter than the
64-byte header, a header whose program-header table lies past the end of the
data or past `u64::MAX`, and 21 loadable program headers make `parse_elf` panic; and `load_elf`
panics on every image of at least 64 bytes that does not start with the ELF
magic, where it should pass the parse error on. -/
theorem parse_elf_panics_on_malformed_images :
    (∀ data : List UInt8, data.length < ELF_HEADER_SIZE →
      parseElf data = .error (sliceEndIndexLenFail ELF_HEADER_SIZE data.length)) ∧
    parseElf headerOnlyImage = .error (sliceEndIndexLenFail 120 64) ∧
    parseElf overflowImage = .error addOverflow ∧
    parseElf twentyOneLoadsImage = .error "index out of bounds: the len is 20 but the index is 20" ∧
    ∀ {σ : Type} (A : PhysAllocator σ) (st : σ) (data : List UInt8), ELF_HEADER_SIZE ≤ data.length →
      (ELFHeader.read data).magic ≠ ELF_MAGIC → loadElf A data st = .error "Invalid ELF image: NotElf" :=
  ⟨fun _ h => parseElf_of_short h, parseElf_headerOnlyImage, parseElf_overflowImage,
    parseElf_twentyOneLoadsImage,
    fun A st _ hlen hmagic => loadElf_of_not_elf A st hlen hmagic⟩

end D7os
