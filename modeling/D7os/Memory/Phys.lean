import D7os.Memory.Paging

/-!
# Physical memory allocations

`src/memory/phys`: an `Allocation` owns a block of physical memory and gives it
back to the allocator when dropped. The allocator itself is the buddy allocator
of the `allogator` crate, outside this repository's kernel; it is a parameter
here, `PhysAllocator σ` over its state `σ`. The kernel only asks it for blocks
aligned to 2 MiB (`PAGE_LAYOUT` and the process stack), so a block starts at a
`PhysFrame`. `allocate_zeroed` hands out a block whose bytes are all zero.
-/

namespace D7os

def PAGE_SIZE_BYTES : Nat := 0x20_0000

/-- `memory::phys::OutOfMemory`. -/
structure OutOfMemory where
  deriving DecidableEq, Repr

/-- A freeable allocation: its start, its size and the bytes written to it. -/
structure Allocation where
  frame : PhysFrame
  size : Nat
  bytes : Nat → UInt8

/-- The physical allocator: a block of `size` bytes at a 2 MiB aligned frame, or
none when memory has run out; and the deallocation of a block. -/
structure PhysAllocator (σ : Type) where
  allocate : Nat → σ → Option (PhysFrame × σ)
  deallocate : PhysFrame → Nat → σ → σ

namespace PhysAllocator

variable {σ : Type}

/-- `phys::allocate_zeroed`. -/
def allocateZeroed (A : PhysAllocator σ) (size : Nat) (st : σ) :
    Except OutOfMemory (Allocation × σ) :=
  match A.allocate size st with
  | none => .error ⟨⟩
  | some (frame, st) => .ok (⟨frame, size, fun _ => 0⟩, st)

/-- `Drop for Allocation`. -/
def drop (A : PhysAllocator σ) (st : σ) (a : Allocation) : σ :=
  A.deallocate a.frame a.size st

theorem allocateZeroed_ok {A : PhysAllocator σ} {size : Nat} {st st' : σ} {a : Allocation}
    (h : A.allocateZeroed size st = .ok (a, st')) :
    ∃ frame, A.allocate size st = some (frame, st') ∧ a = ⟨frame, size, fun _ => 0⟩ := by
  unfold allocateZeroed at h
  split at h
  · cases h
  · rename_i frame st'' hA
    cases h
    exact ⟨frame, hA, rfl⟩

end PhysAllocator

end D7os
