import D7os.Multitasking.WaitFor

/-!
# The DMA allocator

`src/memory/allocators/dma_allocator.rs`: the low-memory area for DMA buffers
(`DMA_MEMORY_START`, `DMA_MEMORY_SIZE` of `build_config/constants/0_misc.toml`),
split into 4 KiB blocks that are either free or used. `allocate` scans for a run
of free blocks, first fit; it panics when the request is empty, larger than the
area, or finds no run. The kernel is built with overflow checks, so the `usize`
addition of the rounding panics at `usize::MAX`.
-/

namespace D7os

def DMA_MEMORY_START : Nat := 0x4_0000

def DMA_MEMORY_SIZE : Nat := 0x4_0000

def DMA_BLOCK_SIZE : Nat := 0x1000

/-- `round_up_block`, on numbers that do not overflow. -/
def roundUpBlock (s : Nat) : Nat := (s + (DMA_BLOCK_SIZE - 1)) / DMA_BLOCK_SIZE

def DMA_BLOCKS : Nat := roundUpBlock DMA_MEMORY_SIZE

inductive BlockState
  | Free
  | Used
  deriving DecidableEq, Repr

structure DmaAllocator where
  blocks : List BlockState

namespace DmaAllocator

/-- `Allocator::new`: every block free. -/
def new : DmaAllocator := ⟨List.replicate DMA_BLOCKS .Free⟩

/-- The blocks `start .. start + size_blocks` are all free. -/
def runFree (a : DmaAllocator) (start sizeBlocks : Nat) : Bool :=
  (List.range sizeBlocks).all fun offset => a.blocks[start + offset]? == some .Free

/-- `allocate`: the start address of the first free run, for `start` in
`0..(blocks.len() - size_blocks)`. -/
def allocate (a : DmaAllocator) (size : Nat) : Except Panic (DmaAllocator × Nat) :=
  if size = 0 then .error "assertion failed: size != 0"
  else if UInt64.size ≤ size + (DMA_BLOCK_SIZE - 1) then .error "attempt to add with overflow"
  else
    let sizeBlocks := roundUpBlock size
    if sizeBlocks > a.blocks.length then .error "Not enough of DMA memory"
    else
      match (List.range (a.blocks.length - sizeBlocks)).find? (a.runFree · sizeBlocks) with
      | some start =>
        .ok (⟨a.blocks.mapIdx fun i b => if start ≤ i ∧ i < start + sizeBlocks then .Used else b⟩,
          DMA_MEMORY_START + start * DMA_BLOCK_SIZE)
      | none => .error "Out of DMA memory"

theorem allocate_zero (a : DmaAllocator) : a.allocate 0 = .error "assertion failed: size != 0" :=
  rfl

/-- A request of more blocks than the area has panics, unless the rounding
overflows first. -/
theorem allocate_of_length_lt {a : DmaAllocator} {size : Nat}
    (hl : a.blocks.length < roundUpBlock size) (ho : size + (DMA_BLOCK_SIZE - 1) < UInt64.size) :
    a.allocate size = .error "Not enough of DMA memory" := by
  have hne : size ≠ 0 := by
    rintro rfl
    simp [roundUpBlock, DMA_BLOCK_SIZE] at hl
  simp [allocate, hne, Nat.not_le.mpr ho, hl]

theorem runFree_iff {a : DmaAllocator} {start n : Nat} :
    a.runFree start n = true ↔ ∀ offset < n, a.blocks[start + offset]? = some .Free := by
  simp [runFree]

/-- The search of `allocate`, once the request has passed its checks. -/
theorem allocate_eq_find {a : DmaAllocator} {size : Nat} (h0 : size ≠ 0)
    (ho : size + (DMA_BLOCK_SIZE - 1) < UInt64.size) (hl : roundUpBlock size ≤ a.blocks.length) :
    a.allocate size =
      match (List.range (a.blocks.length - roundUpBlock size)).find? (a.runFree · (roundUpBlock size)) with
      | some start =>
        .ok (⟨a.blocks.mapIdx fun i b =>
            if start ≤ i ∧ i < start + roundUpBlock size then .Used else b⟩,
          DMA_MEMORY_START + start * DMA_BLOCK_SIZE)
      | none => .error "Out of DMA memory" := by
  rw [allocate, if_neg h0, if_neg (Nat.not_le.mpr ho)]
  exact if_neg (Nat.not_lt.mpr hl)

/-- **What a successful `allocate` returns.** The region starts at the lowest
free run among the starts the loop tries; its blocks were free and are used
after, and every other block is unchanged. -/
theorem allocate_ok {a a' : DmaAllocator} {size addr : Nat} (h : a.allocate size = .ok (a', addr)) :
    ∃ start, start + roundUpBlock size < a.blocks.length ∧
      addr = DMA_MEMORY_START + start * DMA_BLOCK_SIZE ∧
      (∀ offset < roundUpBlock size, a.blocks[start + offset]? = some .Free) ∧
      (∀ s < start, a.runFree s (roundUpBlock size) = false) ∧
      a'.blocks.length = a.blocks.length ∧
      (∀ i, start ≤ i → i < start + roundUpBlock size → a'.blocks[i]? = some .Used) ∧
      ∀ i, (i < start ∨ start + roundUpBlock size ≤ i) → a'.blocks[i]? = a.blocks[i]? := by
  -- the three checks before the loop all pass, or `h` would be a panic
  have h0 : size ≠ 0 := by
    rintro rfl
    cases h
  have ho : size + (DMA_BLOCK_SIZE - 1) < UInt64.size := by
    refine Nat.lt_of_not_le fun hle => ?_
    rw [allocate, if_neg h0, if_pos hle] at h
    cases h
  have hl : roundUpBlock size ≤ a.blocks.length := by
    refine Nat.le_of_not_lt fun hlt => ?_
    rw [allocate_of_length_lt hlt ho] at h
    cases h
  rw [allocate_eq_find h0 ho hl] at h
  split at h
  case h_2 => cases h
  case h_1 start hfind =>
    obtain ⟨hrun, hmem, hlow⟩ := List.find?_range_eq_some.mp hfind
    obtain ⟨rfl, rfl⟩ := Prod.mk.inj (Except.ok.inj h).symm
    refine ⟨start, by simp at hmem; omega, rfl, runFree_iff.mp hrun,
      fun s hs => by simpa using hlow s hs, List.length_mapIdx, ?_, ?_⟩
    · intro i hi hi'
      have hlt : i < a.blocks.length := by simp at hmem; omega
      simp [List.getElem?_eq_getElem hlt, hi, hi']
    · intro i hi
      simp only [List.getElem?_mapIdx]
      cases a.blocks[i]? with
      | none => rfl
      | some b => simp only [Option.map_some]; rw [if_neg (by omega)]

/-- **`allocate` misses a run that ends at the last block.** The loop tries the
starts below `blocks.len() - size_blocks` only, so when no free run of
`size_blocks` starts there, `allocate` panics, whether or not the run starting
at `blocks.len() - size_blocks` is free. -/
theorem allocate_of_no_run {a : DmaAllocator} {size : Nat} (h0 : size ≠ 0)
    (ho : size + (DMA_BLOCK_SIZE - 1) < UInt64.size) (hl : roundUpBlock size ≤ a.blocks.length)
    (hrun : ∀ s < a.blocks.length - roundUpBlock size, a.runFree s (roundUpBlock size) = false) :
    a.allocate size = .error "Out of DMA memory" := by
  have hnone : (List.range (a.blocks.length - roundUpBlock size)).find?
      (a.runFree · (roundUpBlock size)) = none :=
    List.find?_range_eq_none.mpr fun i hi => by simp [hrun i hi]
  rw [allocate_eq_find h0 ho hl, hnone]

/-- The area with every block used but the last. -/
def lastBlockFree : DmaAllocator := ⟨List.replicate (DMA_BLOCKS - 1) .Used ++ [.Free]⟩

/-- **First fit misses the last start.** A request for the whole area on a fresh
allocator, where all `DMA_BLOCKS` blocks are free, and a request for one block
when only the last block is free both panic with "Out of DMA memory". -/
theorem dma_allocate_misses_last_run :
    roundUpBlock DMA_MEMORY_SIZE = DMA_BLOCKS ∧ new.runFree 0 DMA_BLOCKS = true ∧
      new.allocate DMA_MEMORY_SIZE = .error "Out of DMA memory" ∧
    lastBlockFree.runFree (DMA_BLOCKS - 1) (roundUpBlock 1) = true ∧
      lastBlockFree.allocate 1 = .error "Out of DMA memory" := by
  refine ⟨rfl, by decide, ?_, by decide, ?_⟩
  · -- `0..(64 - 64)` is empty
    exact allocate_of_no_run (by decide) (by decide) (by decide) fun s hs => (Nat.not_lt_zero s hs).elim
  · -- the one free block is at start 63, outside `0..63`
    exact allocate_of_no_run (by decide) (by decide) (by decide) (by decide)

end DmaAllocator

end D7os
