import D7os.Lib.Bits
import D7os.Lib.Except
import D7os.Multitasking.WaitFor

/-!
# The user-space bump allocator

`src/libs/libd7/src/allocator.rs`: `BlockAllocator` hands out memory linearly from
`PROCESS_DYNAMIC_MEMORY`. `allocate(layout)` starts the block at
`align_up(PROCESS_DYNAMIC_MEMORY + used_bytes, align)`, counts `size + align`
bytes as used, and asks the kernel (`mem_alloc`, a parameter) for whole 2 MiB
pages at the waterline when the capacity falls short. Below the user addresses
the kernel maps, no `u64` sum wraps.

The waterline is `PROCESS_DYNAMIC_MEMORY` plus the capacity, the used bytes never
pass it, every block is aligned, and the `size` bytes asked for lie in mapped
memory apart from every other block. But the block returned is `size + align`
long from a start up to `align - 1` bytes past the used bytes, so its tail can
reach unmapped memory and the next block.
-/

namespace D7os.Libd7

/-- `PROCESS_DYNAMIC_MEMORY` of `build_config/constants/1_process.toml`. -/
def PROCESS_DYNAMIC_MEMORY : Nat := 0x100_0000_0000

/-- The end of the lower half of the address space, where user memory ends. -/
def USER_SPACE_END : Nat := 0x8000_0000_0000

/-- `u64::is_power_of_two`. -/
def isPowerOfTwo (n : Nat) : Bool := n != 0 && n &&& (n - 1) == 0

/-- `align_down(addr, align)`: `addr & !(align - 1)` in `u64`. -/
def alignDown (addr align : Nat) : Except Panic Nat :=
  if isPowerOfTwo align then .ok (addr &&& (UInt64.size - 1 - (align - 1)))
  else if align = 0 then .ok addr
  else .error "`align` must be a power of 2"

/-- `align_up(addr, align)`: `addr + align - 1` wraps in `u64`. -/
def alignUp (addr align : Nat) : Except Panic Nat :=
  alignDown ((addr + align + (UInt64.size - 1)) % UInt64.size) align

/-- `u64::next_multiple_of(rhs)`, wrapping. -/
def nextMultipleOf (x rhs : Nat) : Nat :=
  if x % rhs = 0 then x else (x + (rhs - x % rhs)) % UInt64.size

/-- `core::alloc::Layout`: a `usize` power-of-two alignment, and a size that rounded
up to it is at most `isize::MAX`, which for such an alignment is
`size + align ≤ 2 ^ 63`. -/
structure Layout where
  size : Nat
  align : Nat
  align_pow : ∃ k, k < 64 ∧ align = 2 ^ k
  size_add_align_le : size + align ≤ 2 ^ 63

structure BlockAllocator where
  usedBytes : Nat
  capacityBytes : Nat
  waterline : Nat
  deriving DecidableEq, Repr

/-- `BlockAllocator::new()`. -/
def BlockAllocator.new : BlockAllocator := ⟨0, 0, PROCESS_DYNAMIC_MEMORY⟩

/-- `available_capacity_bytes()`, a wrapping `u64` subtraction. -/
def BlockAllocator.availableCapacityBytes (ba : BlockAllocator) : Nat :=
  (ba.capacityBytes + UInt64.size - ba.usedBytes) % UInt64.size

/-- The `if` of `allocate` that asks for more memory when the capacity left is
short of `requiredSize`: the allocator after it, or `none` for the `AllocError`
of a refused `mem_alloc`. The waterline is an `x86_64::VirtAddr`. -/
def BlockAllocator.reserve (memAlloc : Nat → Nat → Bool) (ba : BlockAllocator) (requiredSize : Nat) :
    Except Panic (Option BlockAllocator) :=
  if ba.availableCapacityBytes < requiredSize then
    let more := requiredSize - ba.availableCapacityBytes
    let requiredBytes := (ba.capacityBytes + more) % UInt64.size
    let allocSize := nextMultipleOf requiredBytes 0x20_0000
    if allocSize = 0 then .error "Cannot mem_alloc an empty region"
    else if memAlloc ba.waterline allocSize then
      .ok (some { ba with
        waterline := ba.waterline + allocSize
        capacityBytes := (ba.capacityBytes + allocSize) % UInt64.size })
    else .ok none
  else .ok (some ba)

/-- `<Locked<BlockAllocator> as Allocator>::allocate(layout)`: the allocator after
it and the block `(ptr, len)`, or `none` for `AllocError`. -/
def allocate (memAlloc : Nat → Nat → Bool) (ba : BlockAllocator) (layout : Layout) :
    Except Panic (BlockAllocator × Option (Nat × Nat)) := do
  let startAddr ← alignUp ((PROCESS_DYNAMIC_MEMORY + ba.usedBytes) % UInt64.size) layout.align
  let requiredSize := layout.size + layout.align
  match ← ba.reserve memAlloc requiredSize with
  | none => pure (ba, none)
  | some ba =>
    pure ({ ba with usedBytes := (ba.usedBytes + requiredSize) % UInt64.size },
      some (startAddr, requiredSize))

/-- A run of `allocate` calls. -/
def allocateRun (memAlloc : Nat → Nat → Bool) :
    BlockAllocator → List Layout → Except Panic (BlockAllocator × List (Option (Nat × Nat)))
  | ba, [] => .ok (ba, [])
  | ba, layout :: layouts => do
    let (ba, r) ← allocate memAlloc ba layout
    let (ba, rs) ← allocateRun memAlloc ba layouts
    pure (ba, r :: rs)

/-! ## Rounding -/

section Rounding

theorem isPowerOfTwo_two_pow (k : Nat) : isPowerOfTwo (2 ^ k) = true := by
  rw [isPowerOfTwo, Nat.and_two_pow_sub_one_eq_mod, Nat.mod_self]
  simp

/-- The mask of `align_down` for `2 ^ k` is the high `64 - k` bits of the word. -/
theorem alignDown_two_pow {x k : Nat} (hk : k < 64) (hx : x < UInt64.size) :
    alignDown x (2 ^ k) = .ok (x / 2 ^ k * 2 ^ k) := by
  have hword : UInt64.size = 2 ^ (k + (64 - k)) := by
    rw [Nat.add_sub_cancel' hk.le]
    rfl
  have hsplit : 2 ^ (k + (64 - k)) = 2 ^ (64 - k) * 2 ^ k := by
    rw [Nat.pow_add, Nat.mul_comm]
  have hmask : UInt64.size - 1 - (2 ^ k - 1) = (2 ^ (64 - k) - 1) * 2 ^ k := by
    have hone : 1 ≤ 2 ^ k := Nat.one_le_two_pow
    rw [Nat.sub_one_mul, ← hsplit, ← hword]
    omega
  rw [alignDown, if_pos (isPowerOfTwo_two_pow k), hmask,
    Nat.land_mul_two_pow_sub_one_of_lt (by rw [← hword]; exact hx)]

/-- `align_up` where the sum does not wrap. -/
theorem alignUp_two_pow {x k : Nat} (hk : k < 64) (hx : x + 2 ^ k ≤ UInt64.size) :
    alignUp x (2 ^ k) = .ok ((x + 2 ^ k - 1) / 2 ^ k * 2 ^ k) := by
  have hone : 1 ≤ 2 ^ k := Nat.one_le_two_pow
  have hsum : (x + 2 ^ k + (UInt64.size - 1)) % UInt64.size = x + 2 ^ k - 1 := by
    unfold UInt64.size at hx ⊢
    omega
  rw [alignUp, hsum, alignDown_two_pow hk (by omega)]

/-- Rounding up to a multiple of `a` moves by less than `a`. -/
theorem le_roundUp (x : Nat) {a : Nat} (ha : 0 < a) : x ≤ (x + a - 1) / a * a := by
  have h := Nat.lt_div_mul_add (a := x + a - 1) ha
  omega

theorem roundUp_le (x a : Nat) : (x + a - 1) / a * a ≤ x + a - 1 := Nat.div_mul_le_self _ _

theorem roundUp_mod (x a : Nat) : (x + a - 1) / a * a % a = 0 := Nat.mul_mod_left _ _

/-- `next_multiple_of` where the sum does not wrap: no smaller than `x`, and less
than `rhs` above it. -/
theorem nextMultipleOf_bounds {x rhs : Nat} (hr : 0 < rhs) (hx : x + rhs ≤ UInt64.size) :
    x ≤ nextMultipleOf x rhs ∧ nextMultipleOf x rhs < x + rhs := by
  have hmod : x % rhs < rhs := Nat.mod_lt _ hr
  unfold nextMultipleOf
  split_ifs with h
  · omega
  · rw [Nat.mod_eq_of_lt (by omega)]
    omega

end Rounding

/-! ## One allocation -/

/-- What every state of the allocator keeps: the waterline is the start of dynamic
memory plus the capacity, inside user memory, and the used bytes are covered. -/
structure BlockAllocator.Inv (ba : BlockAllocator) : Prop where
  waterline_eq : ba.waterline = PROCESS_DYNAMIC_MEMORY + ba.capacityBytes
  used_le : ba.usedBytes ≤ ba.capacityBytes
  waterline_le : ba.waterline ≤ USER_SPACE_END

theorem BlockAllocator.inv_new : BlockAllocator.new.Inv := ⟨rfl, le_rfl, by decide⟩

/-- A `mem_alloc` that maps only user memory. -/
def UserSpace (memAlloc : Nat → Nat → Bool) : Prop :=
  ∀ v n, memAlloc v n = true → v + n ≤ USER_SPACE_END

section Step

variable {memAlloc : Nat → Nat → Bool} {ba : BlockAllocator}

theorem BlockAllocator.Inv.available_eq (h : ba.Inv) :
    ba.availableCapacityBytes = ba.capacityBytes - ba.usedBytes := by
  have hw := h.waterline_le
  rw [h.waterline_eq] at hw
  unfold availableCapacityBytes
  unfold USER_SPACE_END PROCESS_DYNAMIC_MEMORY at hw
  unfold UInt64.size
  have hu := h.used_le
  omega

/-- **What the reservation does**: it is refused, or it leaves the used bytes and
covers `requiredSize` more of them, keeping the invariant. -/
theorem BlockAllocator.reserve_spec (hm : UserSpace memAlloc) (h : ba.Inv) {requiredSize : Nat}
    (hreq : requiredSize ≤ 2 ^ 63) :
    ba.reserve memAlloc requiredSize = .ok none ∨
      ∃ ba', ba.reserve memAlloc requiredSize = .ok (some ba') ∧ ba'.Inv ∧
        ba'.usedBytes = ba.usedBytes ∧ ba.usedBytes + requiredSize ≤ ba'.capacityBytes := by
  have hw := h.waterline_le
  have hu := h.used_le
  rw [h.waterline_eq] at hw
  unfold USER_SPACE_END PROCESS_DYNAMIC_MEMORY at hw
  unfold reserve
  rw [h.available_eq]
  by_cases hshort : ba.capacityBytes - ba.usedBytes < requiredSize
  case neg =>
    rw [if_neg hshort]
    exact .inr ⟨ba, rfl, h, rfl, by omega⟩
  case pos =>
    rw [if_pos hshort]
    dsimp only
    -- the capacity asked for does not wrap, and rounding it up to a page does not either
    have hreqBytes : (ba.capacityBytes + (requiredSize - (ba.capacityBytes - ba.usedBytes))) % UInt64.size =
        ba.capacityBytes + (requiredSize - (ba.capacityBytes - ba.usedBytes)) := by
      apply Nat.mod_eq_of_lt
      unfold UInt64.size
      omega
    have hround := nextMultipleOf_bounds (x := ba.capacityBytes + (requiredSize - (ba.capacityBytes - ba.usedBytes)))
      (by decide : 0 < 0x20_0000) (by unfold UInt64.size; omega)
    rw [hreqBytes]
    generalize nextMultipleOf (ba.capacityBytes + (requiredSize - (ba.capacityBytes - ba.usedBytes))) 0x20_0000 =
      allocSize at hround ⊢
    rw [if_neg (by omega)]
    by_cases hgrant : memAlloc ba.waterline allocSize = true
    case neg =>
      rw [if_neg hgrant]
      exact .inl rfl
    case pos =>
      rw [if_pos hgrant]
      have huser := hm _ _ hgrant
      rw [h.waterline_eq] at huser
      unfold USER_SPACE_END PROCESS_DYNAMIC_MEMORY at huser
      have hcap : (ba.capacityBytes + allocSize) % UInt64.size = ba.capacityBytes + allocSize := by
        apply Nat.mod_eq_of_lt
        unfold UInt64.size
        omega
      refine .inr ⟨_, rfl, ⟨?_, ?_, ?_⟩, rfl, ?_⟩
      · show ba.waterline + allocSize = PROCESS_DYNAMIC_MEMORY + (ba.capacityBytes + allocSize) % UInt64.size
        rw [hcap, h.waterline_eq, Nat.add_assoc]
      · show ba.usedBytes ≤ (ba.capacityBytes + allocSize) % UInt64.size
        rw [hcap]
        omega
      · show ba.waterline + allocSize ≤ USER_SPACE_END
        rw [h.waterline_eq]
        unfold USER_SPACE_END PROCESS_DYNAMIC_MEMORY
        omega
      · show ba.usedBytes + requiredSize ≤ (ba.capacityBytes + allocSize) % UInt64.size
        rw [hcap]
        omega

/-- Where a block of `layout` starts: the used bytes rounded up to the alignment. -/
def blockStart (ba : BlockAllocator) (layout : Layout) : Nat :=
  (PROCESS_DYNAMIC_MEMORY + ba.usedBytes + layout.align - 1) / layout.align * layout.align

theorem alignUp_blockStart (h : ba.Inv) (layout : Layout) :
    alignUp ((PROCESS_DYNAMIC_MEMORY + ba.usedBytes) % UInt64.size) layout.align =
      .ok (blockStart ba layout) := by
  obtain ⟨k, hk, halign⟩ := layout.align_pow
  have hw := h.waterline_le
  have hu := h.used_le
  have hsize := layout.size_add_align_le
  rw [h.waterline_eq] at hw
  unfold USER_SPACE_END PROCESS_DYNAMIC_MEMORY at hw
  have hnowrap : (PROCESS_DYNAMIC_MEMORY + ba.usedBytes) % UInt64.size = PROCESS_DYNAMIC_MEMORY + ba.usedBytes := by
    apply Nat.mod_eq_of_lt
    unfold PROCESS_DYNAMIC_MEMORY UInt64.size
    omega
  rw [hnowrap, blockStart, halign]
  rw [halign] at hsize
  exact alignUp_two_pow hk (by unfold PROCESS_DYNAMIC_MEMORY UInt64.size; omega)

theorem Layout.align_pos (layout : Layout) : 0 < layout.align := by
  obtain ⟨k, -, halign⟩ := layout.align_pow
  rw [halign]
  exact Nat.two_pow_pos k

/-- **What one allocation does.** It never panics. Refused, it changes nothing;
granted, it keeps the invariant, counts `size + align` more bytes as used, and
returns a block of that length whose start is aligned and at most `align - 1`
bytes past the bytes used before. -/
theorem allocate_spec (hm : UserSpace memAlloc) (h : ba.Inv) (layout : Layout) :
    allocate memAlloc ba layout = .ok (ba, none) ∨
      ∃ ba', allocate memAlloc ba layout =
          .ok (ba', some (blockStart ba layout, layout.size + layout.align)) ∧
        ba'.Inv ∧ ba'.usedBytes = ba.usedBytes + (layout.size + layout.align) := by
  have hsize := layout.size_add_align_le
  rw [allocate, alignUp_blockStart h, Except.ok_bind]
  dsimp only
  rcases ba.reserve_spec hm h hsize with hnone | ⟨ba', hsome, hinv, hused, hcover⟩
  · rw [hnone, Except.ok_bind]
    exact .inl rfl
  · rw [hsome, Except.ok_bind]
    have hw := hinv.waterline_le
    have hc := hinv.waterline_eq
    unfold USER_SPACE_END at hw
    unfold PROCESS_DYNAMIC_MEMORY at hc
    have hnowrap : (ba'.usedBytes + (layout.size + layout.align)) % UInt64.size =
        ba.usedBytes + (layout.size + layout.align) := by
      rw [hused]
      apply Nat.mod_eq_of_lt
      unfold UInt64.size
      omega
    refine .inr ⟨_, rfl, ⟨hinv.waterline_eq, ?_, hinv.waterline_le⟩, hnowrap⟩
    show (ba'.usedBytes + (layout.size + layout.align)) % UInt64.size ≤ ba'.capacityBytes
    rw [hnowrap]
    exact hcover

/-- The block starts aligned, no lower than the bytes used before, and the `size`
bytes asked for end below the bytes used after. -/
theorem blockStart_bounds (ba : BlockAllocator) (layout : Layout) :
    blockStart ba layout % layout.align = 0 ∧
      PROCESS_DYNAMIC_MEMORY + ba.usedBytes ≤ blockStart ba layout ∧
      blockStart ba layout + layout.size < PROCESS_DYNAMIC_MEMORY + ba.usedBytes + (layout.size + layout.align) := by
  have ha := layout.align_pos
  have hle := roundUp_le (PROCESS_DYNAMIC_MEMORY + ba.usedBytes) layout.align
  refine ⟨roundUp_mod _ _, le_roundUp _ ha, ?_⟩
  unfold blockStart
  omega

end Step

/-! ## A run of allocations -/

/-- The bytes each granted block of a run was asked for: `[ptr, ptr + size)`. -/
def requested : List Layout → List (Option (Nat × Nat)) → List (Nat × Nat)
  | layout :: layouts, some (ptr, _) :: rs => (ptr, ptr + layout.size) :: requested layouts rs
  | _ :: layouts, none :: rs => requested layouts rs
  | _, _ => []

/-- The blocks a run returns, as `[ptr, ptr + len)`. -/
def returned (rs : List (Option (Nat × Nat))) : List (Nat × Nat) :=
  rs.filterMap fun r => r.map fun (ptr, len) => (ptr, ptr + len)

section Run

variable {memAlloc : Nat → Nat → Bool}

/-- **The run lemma.** From a state with the invariant, a run never panics, keeps
the invariant and the number of answers, returns aligned blocks at least as long
as asked, and the requested bytes of its blocks lie in order between the bytes
used before and after the run. -/
theorem allocateRun_spec (hm : UserSpace memAlloc) : ∀ (layouts : List Layout) {ba : BlockAllocator},
    ba.Inv → ∃ ba' rs, allocateRun memAlloc ba layouts = .ok (ba', rs) ∧ ba'.Inv ∧
      ba.usedBytes ≤ ba'.usedBytes ∧
      (∀ layout ptr len, (layout, some (ptr, len)) ∈ layouts.zip rs →
        ptr % layout.align = 0 ∧ layout.size ≤ len) ∧
      (∀ b ∈ requested layouts rs,
        PROCESS_DYNAMIC_MEMORY + ba.usedBytes ≤ b.1 ∧ b.2 ≤ PROCESS_DYNAMIC_MEMORY + ba'.usedBytes) ∧
      (requested layouts rs).Pairwise fun a b => a.2 ≤ b.1
  | [], ba, h => ⟨ba, [], rfl, h, le_rfl, by simp, by simp [requested], by simp [requested]⟩
  | layout :: layouts, ba, h => by
    rcases allocate_spec hm h layout with hnone | ⟨ba₁, hsome, h₁, hused₁⟩
    · -- refused: the rest of the run starts from the same state
      obtain ⟨ba', rs, hrun, h', hle, haligned, hin, hord⟩ := allocateRun_spec hm layouts h
      refine ⟨ba', none :: rs, ?_, h', hle, ?_, hin, hord⟩
      · rw [allocateRun, hnone, Except.ok_bind]
        dsimp only
        rw [hrun, Except.ok_bind]
        rfl
      · intro l ptr len hmem
        rcases List.mem_cons.mp hmem with he | hmem
        · cases he
        · exact haligned l ptr len hmem
    · obtain ⟨ba', rs, hrun, h', hle, haligned, hin, hord⟩ := allocateRun_spec hm layouts h₁
      obtain ⟨hmod, hlo, hhi⟩ := blockStart_bounds ba layout
      refine ⟨ba', some (blockStart ba layout, layout.size + layout.align) :: rs, ?_, h', by omega, ?_, ?_, ?_⟩
      · rw [allocateRun, hsome, Except.ok_bind]
        dsimp only
        rw [hrun, Except.ok_bind]
        rfl
      · intro l ptr len hmem
        rcases List.mem_cons.mp hmem with he | hmem
        · obtain ⟨rfl, rfl, rfl⟩ : l = layout ∧ ptr = blockStart ba layout ∧
              len = layout.size + layout.align := by
            simp only [Prod.mk.injEq, Option.some.injEq] at he
            exact ⟨he.1, he.2.1, he.2.2⟩
          exact ⟨hmod, Nat.le_add_right _ _⟩
        · exact haligned l ptr len hmem
      · intro b hb
        rcases List.mem_cons.mp hb with rfl | hb
        · exact ⟨hlo, by omega⟩
        · have := hin b hb
          omega
      · -- the new block ends below every later one, which starts above the bytes used now
        refine List.Pairwise.cons (fun b hb => ?_) hord
        have := hin b hb
        dsimp only
        omega

end Run

/-! ## The blocks returned -/

/-- The `mem_alloc` of a kernel that maps whatever user memory is asked for. -/
def userSpaceAlloc (v n : Nat) : Bool := decide (v + n ≤ USER_SPACE_END)

theorem userSpace_userSpaceAlloc : UserSpace userSpaceAlloc := fun _ _ h => of_decide_eq_true h

def layoutByte : Layout := ⟨0, 1, ⟨0, by decide, rfl⟩, by decide⟩

def layoutOneByte : Layout := ⟨1, 1, ⟨0, by decide, rfl⟩, by decide⟩

/-- The rest of the first page after a one-byte block, 16-aligned. -/
def layoutPageRest : Layout := ⟨0x1F_FFEF, 16, ⟨4, by decide, rfl⟩, by decide⟩

/-- Two half-open ranges share no byte. -/
def Apart (a b : Nat × Nat) : Prop := a.2 ≤ b.1 ∨ b.2 ≤ a.1

instance (a b : Nat × Nat) : Decidable (Apart a b) := inferInstanceAs (Decidable (_ ∨ _))

theorem allocateRun_pageRest :
    allocateRun userSpaceAlloc .new [layoutByte, layoutPageRest] =
      .ok (⟨0x20_0000, 0x20_0000, PROCESS_DYNAMIC_MEMORY + 0x20_0000⟩,
        [some (PROCESS_DYNAMIC_MEMORY, 1), some (PROCESS_DYNAMIC_MEMORY + 16, 0x1F_FFFF)]) := by
  rfl

theorem allocateRun_pageRest_byte :
    allocateRun userSpaceAlloc .new [layoutByte, layoutPageRest, layoutOneByte] =
      .ok (⟨0x20_0002, 0x60_0000, PROCESS_DYNAMIC_MEMORY + 0x60_0000⟩,
        [some (PROCESS_DYNAMIC_MEMORY, 1), some (PROCESS_DYNAMIC_MEMORY + 16, 0x1F_FFFF),
          some (PROCESS_DYNAMIC_MEMORY + 0x20_0000, 2)]) := by
  rfl

/-- **The blocks `allocate` returns overlap and pass the mapped memory.** Every run
from `BlockAllocator::new()` against a kernel that maps only user memory keeps
the waterline at `PROCESS_DYNAMIC_MEMORY` plus the capacity and the used bytes
within it, returns aligned blocks at least as long as asked, and the requested
bytes of its blocks are mapped and apart. But the blocks are `size + align` bytes
long: after a one-byte block, a 16-aligned block of the rest of the first page
ends 15 bytes past the waterline, and the next one-byte block lies inside it. -/
theorem block_allocator_blocks_overlap :
    (∀ memAlloc : Nat → Nat → Bool, UserSpace memAlloc → ∀ layouts : List Layout,
      ∃ ba rs, allocateRun memAlloc .new layouts = .ok (ba, rs) ∧
        ba.waterline = PROCESS_DYNAMIC_MEMORY + ba.capacityBytes ∧ ba.usedBytes ≤ ba.capacityBytes ∧
        (∀ layout ptr len, (layout, some (ptr, len)) ∈ layouts.zip rs →
          ptr % layout.align = 0 ∧ layout.size ≤ len) ∧
        (∀ b ∈ requested layouts rs, PROCESS_DYNAMIC_MEMORY ≤ b.1 ∧ b.2 ≤ ba.waterline) ∧
        (requested layouts rs).Pairwise Apart) ∧
    allocateRun userSpaceAlloc .new [layoutByte, layoutPageRest] =
      .ok (⟨0x20_0000, 0x20_0000, PROCESS_DYNAMIC_MEMORY + 0x20_0000⟩,
        [some (PROCESS_DYNAMIC_MEMORY, 1), some (PROCESS_DYNAMIC_MEMORY + 16, 0x1F_FFFF)]) ∧
    PROCESS_DYNAMIC_MEMORY + 0x20_0000 < PROCESS_DYNAMIC_MEMORY + 16 + 0x1F_FFFF ∧
    allocateRun userSpaceAlloc .new [layoutByte, layoutPageRest, layoutOneByte] =
      .ok (⟨0x20_0002, 0x60_0000, PROCESS_DYNAMIC_MEMORY + 0x60_0000⟩,
        [some (PROCESS_DYNAMIC_MEMORY, 1), some (PROCESS_DYNAMIC_MEMORY + 16, 0x1F_FFFF),
          some (PROCESS_DYNAMIC_MEMORY + 0x20_0000, 2)]) ∧
    ¬ (returned [some (PROCESS_DYNAMIC_MEMORY, 1), some (PROCESS_DYNAMIC_MEMORY + 16, 0x1F_FFFF),
        some (PROCESS_DYNAMIC_MEMORY + 0x20_0000, 2)]).Pairwise Apart := by
  refine ⟨fun memAlloc hm layouts => ?_, allocateRun_pageRest, by decide, allocateRun_pageRest_byte, ?_⟩
  · obtain ⟨ba, rs, hrun, h, -, haligned, hin, hord⟩ := allocateRun_spec hm layouts BlockAllocator.inv_new
    refine ⟨ba, rs, hrun, h.waterline_eq, h.used_le, haligned, fun b hb => ?_, ?_⟩
    · obtain ⟨hlo, hhi⟩ := hin b hb
      have hw := h.waterline_eq
      have hu := h.used_le
      exact ⟨Nat.le_trans (Nat.le_add_right _ _) hlo, by omega⟩
    · exact hord.imp fun hab => .inl hab
  · -- the second block, `[+16, +0x20_000F)`, holds the third, `[+0x20_0000, +0x20_0002)`
    decide

end D7os.Libd7
