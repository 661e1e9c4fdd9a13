import D7os.Ipc.List
import D7os.Memory.Phys
import D7os.Lib.List
import D7os.Lib.Except

/-!
# The virtual address allocator

`src/memory/virt/allocator.rs` and `src/memory/virt/mod.rs`. `FREE_LIST` holds the
free blocks of `START_ADDR..END_ADDR` sorted by start. `allocate` is first fit;
`free` finds the insertion point by `binary_search`, reports a double free when a
free block starts at the freed address, and otherwise merges the range into the
block before it, or else into the block after it, or inserts it.

`virt::allocate(0)` takes the empty range at the start of the first free block,
so dropping it frees an address at which a free block starts: the double-free
panic (`zero_page_allocation_double_free`). For ranges of at least one page the
list stays sorted, disjoint, aligned and inside the range, apart from every
window (`World.Inv`); but a range that fills the gap between two free blocks is
merged with the block before it only (`virt_free_list_fragments`).
-/

namespace D7os.Virt

open Ipc (binarySearch)

def START_ADDR : Nat := 0x100_000_000

def END_ADDR : Nat := 0x200_000_000

/-- `struct Block`: the range `start..end`. -/
structure Block where
  start : Nat
  endAddr : Nat
  deriving DecidableEq, Repr

namespace Block

def sizeBytes (b : Block) : Nat := b.endAddr - b.start

def sizePages (b : Block) : Nat := b.sizeBytes / PAGE_SIZE_BYTES

end Block

namespace Allocator

/-- `FREE_LIST` at boot. -/
def FREE_LIST : List Block := [⟨START_ADDR, END_ADDR⟩]

def outOfVirtualMemory : Panic := "Out of virtual memory"

/-- `allocate(size_pages)`: the start of the first block with room, which is removed
when it fits exactly and shrunk from its start otherwise. -/
def allocate (sizePages : Nat) : List Block → Except Panic (List Block × Nat)
  | [] => .error outOfVirtualMemory
  | b :: rest =>
    if sizePages ≤ b.sizePages then
      if b.sizePages = sizePages then .ok (rest, b.start)
      else .ok ({ b with start := b.start + sizePages * PAGE_SIZE_BYTES } :: rest, b.start)
    else do
      let (rest, start) ← allocate sizePages rest
      pure (b :: rest, start)

/-- The panic of `free`, with the `Debug` text of `VirtAddr`. -/
def doubleFree (start sizePages : Nat) : Panic :=
  "VirtAlloc: Double free: VirtAddr(0x" ++ String.ofList (Nat.toDigits 16 start) ++ ") (" ++
    toString sizePages ++ " pages)"

/-- `free(start, size_pages)`. -/
def free (start sizePages : Nat) (blocks : List Block) : Except Panic (List Block) :=
  match binarySearch (fun a b => compare a.start b.start) blocks ⟨start, start⟩ with
  | .ok _ => .error (doubleFree start sizePages)
  | .error index =>
    let stop := start + sizePages * PAGE_SIZE_BYTES
    if 0 < index ∧ blocks[index - 1]?.map Block.endAddr = some start then
      .ok (blocks.modify (index - 1) fun b =>
        { b with endAddr := b.endAddr + sizePages * PAGE_SIZE_BYTES })
    else if blocks[index]?.map Block.start = some stop then
      .ok (blocks.modify index fun b => { b with start := start })
    else .ok (blocks.insertIdx index ⟨start, stop⟩)

end Allocator

/-- `virt::Allocation`: a window owned until it is dropped. -/
structure Allocation where
  start : Nat
  endAddr : Nat
  deriving DecidableEq, Repr

def Allocation.sizePages (a : Allocation) : Nat := (a.endAddr - a.start) / PAGE_SIZE_BYTES

/-- `virt::allocate(size_pages)`. -/
def allocate (sizePages : Nat) (blocks : List Block) : Except Panic (List Block × Allocation) := do
  let (blocks, start) ← Allocator.allocate sizePages blocks
  pure (blocks, ⟨start, start + sizePages * PAGE_SIZE_BYTES⟩)

theorem allocate_of_allocator {n : Nat} {blocks blocks' : List Block} {start : Nat}
    (h : Allocator.allocate n blocks = .ok (blocks', start)) :
    allocate n blocks = .ok (blocks', ⟨start, start + n * PAGE_SIZE_BYTES⟩) := by
  rw [allocate, h]
  rfl

/-- `Drop for Allocation`. -/
def Allocation.drop (a : Allocation) (blocks : List Block) : Except Panic (List Block) :=
  Allocator.free a.start a.sizePages blocks

/-! ## A window of no pages -/

namespace Allocator

theorem allocate_zero (b : Block) (rest : List Block) (hb : 0 < b.sizePages) :
    allocate 0 (b :: rest) = .ok (b :: rest, b.start) := by
  simp [allocate, Nat.ne_of_gt hb]

/-- The search finds a block that starts at the freed address first. -/
theorem free_at_head (b : Block) (rest : List Block) (n : Nat) :
    free b.start n (b :: rest) = .error (doubleFree b.start n) := by
  simp [free, binarySearch]

end Allocator

/-- **A window of no pages cannot be dropped.** `allocate(0)` returns the start of
the first free block, whose size it leaves as it was, and the drop of that window
reports a double free. -/
theorem zero_page_allocation_double_free (b : Block) (rest : List Block)
    (hb : 0 < b.sizePages) :
    ∃ a, allocate 0 (b :: rest) = .ok (b :: rest, a) ∧ a.start = b.start ∧
      a.endAddr = b.start ∧ a.drop (b :: rest) = .error (Allocator.doubleFree b.start 0) := by
  refine ⟨⟨b.start, b.start⟩, ?_, rfl, rfl, ?_⟩
  · simp [allocate, Allocator.allocate_zero b rest hb, bind, Except.bind, pure, Except.pure]
  · simp [Allocation.drop, Allocation.sizePages, Allocator.free_at_head]

theorem zero_page_allocation_double_free_at_boot :
    0 < (⟨START_ADDR, END_ADDR⟩ : Block).sizePages ∧
      ∃ a, allocate 0 Allocator.FREE_LIST = .ok (Allocator.FREE_LIST, a) ∧ a.start = START_ADDR ∧
        a.endAddr = START_ADDR ∧
        a.drop Allocator.FREE_LIST = .error (Allocator.doubleFree START_ADDR 0) :=
  ⟨by decide, zero_page_allocation_double_free ⟨START_ADDR, END_ADDR⟩ [] (by decide)⟩

/-! ## What the free list keeps -/

namespace Block

/-- Two ranges that share no address. -/
def Apart (a b : Block) : Prop := a.endAddr ≤ b.start ∨ b.endAddr ≤ a.start

/-- `c` lies inside `b`. -/
def Within (c b : Block) : Prop := b.start ≤ c.start ∧ c.endAddr ≤ b.endAddr

/-- A block the list may hold: non-empty, page-aligned and inside the range. -/
structure Valid (b : Block) : Prop where
  nonempty : b.start < b.endAddr
  start_aligned : b.start % PAGE_SIZE_BYTES = 0
  end_aligned : b.endAddr % PAGE_SIZE_BYTES = 0
  lower : START_ADDR ≤ b.start
  upper : b.endAddr ≤ END_ADDR

theorem Apart.symm {a b : Block} (h : a.Apart b) : b.Apart a := Or.symm h

theorem Within.apart {c b x : Block} (hc : c.Within b) (h : b.Apart x) : c.Apart x := by
  unfold Apart at h ⊢
  unfold Within at hc
  omega

/-- A valid block has at most the 2048 pages of the allocator's range. -/
theorem Valid.sizePages_le {b : Block} (h : b.Valid) : b.sizePages ≤ 2048 := by
  have h₁ := h.lower
  have h₂ := h.upper
  unfold sizePages sizeBytes
  unfold START_ADDR at h₁
  unfold END_ADDR at h₂
  unfold PAGE_SIZE_BYTES
  omega

theorem Valid.end_eq {b : Block} (h : b.Valid) :
    b.endAddr = b.start + b.sizePages * PAGE_SIZE_BYTES := by
  have h₁ := h.nonempty
  have h₂ := h.start_aligned
  have h₃ := h.end_aligned
  unfold sizePages sizeBytes
  unfold PAGE_SIZE_BYTES at h₂ h₃ ⊢
  omega

end Block

/-- What `FREE_LIST` keeps: valid blocks, sorted by start and apart. -/
structure Wf (blocks : List Block) : Prop where
  valid : ∀ b ∈ blocks, b.Valid
  sorted : blocks.Pairwise fun a b => a.endAddr ≤ b.start

theorem wf_FREE_LIST : Wf Allocator.FREE_LIST where
  valid b hb := by
    rw [Allocator.FREE_LIST, List.mem_singleton] at hb
    subst hb
    exact ⟨by decide, by decide, by decide, le_rfl, le_rfl⟩
  sorted := List.pairwise_singleton _ _

theorem Wf.tail {b : Block} {rest : List Block} (h : Wf (b :: rest)) : Wf rest :=
  ⟨fun c hc => h.valid c (List.mem_cons_of_mem b hc), (List.pairwise_cons.mp h.sorted).2⟩

theorem Wf.head_le {b : Block} {rest : List Block} (h : Wf (b :: rest)) :
    ∀ c ∈ rest, b.endAddr ≤ c.start :=
  (List.pairwise_cons.mp h.sorted).1

theorem Wf.apart {blocks : List Block} (h : Wf blocks) : blocks.Pairwise Block.Apart :=
  h.sorted.imp fun hab => .inl hab

/-- The window `allocate` hands out: `n` pages from `a`. -/
def window (a n : Nat) : Block := ⟨a, a + n * PAGE_SIZE_BYTES⟩

-- Proved by unfolding rather than by `rfl`, so that `simp` rewrites with them instead
-- of leaving the kernel to compare `(window b.start n).start` with `b.start`, which it
-- first tries argument by argument and which then unfolds `n * PAGE_SIZE_BYTES`.
@[simp] theorem window_start (a n : Nat) : (window a n).start = a := by
  unfold window
  rfl

@[simp] theorem window_endAddr (a n : Nat) : (window a n).endAddr = a + n * PAGE_SIZE_BYTES := by
  unfold window
  rfl

theorem window_valid {a n : Nat} (hn : 0 < n) (ha : a % PAGE_SIZE_BYTES = 0)
    (hlo : START_ADDR ≤ a) (hhi : a + n * PAGE_SIZE_BYTES ≤ END_ADDR) : (window a n).Valid where
  nonempty := by
    have := Nat.mul_pos hn (show 0 < PAGE_SIZE_BYTES by decide)
    rw [window_start, window_endAddr]
    omega
  start_aligned := by rwa [window_start]
  end_aligned := by rwa [window_endAddr, Nat.add_mul_mod_self_right]
  lower := by rwa [window_start]
  upper := by rwa [window_endAddr]

theorem window_within {a n : Nat} {b : Block} (hlo : b.start ≤ a)
    (hhi : a + n * PAGE_SIZE_BYTES ≤ b.endAddr) : (window a n).Within b := by
  unfold Block.Within
  rw [window_start, window_endAddr]
  exact ⟨hlo, hhi⟩

/-- **What `allocate` does.** A request of at least one page takes a valid window
out of a free block; the blocks left lie inside the old ones, apart from the
window, and the list keeps its invariant. -/
theorem allocate_spec {n : Nat} (hn : 0 < n) :
    ∀ {blocks blocks' : List Block} {a : Nat}, Wf blocks →
      Allocator.allocate n blocks = .ok (blocks', a) →
      Wf blocks' ∧ (window a n).Valid ∧ (∃ b ∈ blocks, (window a n).Within b) ∧
        (∀ c ∈ blocks', ∃ b ∈ blocks, c.Within b) ∧ ∀ c ∈ blocks', c.Apart (window a n) := by
  intro blocks
  induction blocks with
  | nil =>
    intro blocks' a _ h
    cases h
  | cons b rest ih =>
    intro blocks' a hw h
    have hb := hw.valid b List.mem_cons_self
    have hend := hb.end_eq
    have hle := hw.head_le
    have hP : PAGE_SIZE_BYTES = 0x20_0000 := rfl
    unfold Allocator.allocate at h
    split_ifs at h with hroom hexact
    · -- the block is taken whole
      cases h
      rw [hexact] at hend
      refine ⟨hw.tail, ?_, ⟨b, List.mem_cons_self, window_within le_rfl hend.symm.le⟩,
        fun c hc => ⟨c, List.mem_cons_of_mem b hc, le_rfl, le_rfl⟩, fun c hc => ?_⟩
      · unfold window
        rw [← hend]
        exact hb
      · have := hle c hc
        simp only [Block.Apart, window_start, window_endAddr]
        omega
    · -- the block is shrunk from its start
      cases h
      have hlt : n < b.sizePages := Nat.lt_of_le_of_ne hroom (Ne.symm hexact)
      have hsplit : b.start + n * PAGE_SIZE_BYTES < b.endAddr := by
        rw [hend]
        have := Nat.mul_lt_mul_of_pos_right hlt (show 0 < PAGE_SIZE_BYTES by decide)
        omega
      have hal := hb.start_aligned
      refine ⟨⟨fun c hc => ?_, ?_⟩, window_valid hn hal hb.lower (hsplit.le.trans hb.upper),
        ⟨b, List.mem_cons_self, window_within le_rfl hsplit.le⟩, fun c hc => ?_, fun c hc => ?_⟩
      · rcases List.mem_cons.mp hc with rfl | hc
        · refine ⟨hsplit, ?_, hb.end_aligned, ?_, hb.upper⟩
          · dsimp only
            rw [hP] at hal ⊢
            omega
          · have := hb.lower
            dsimp only
            omega
        · exact hw.valid c (List.mem_cons_of_mem b hc)
      · exact List.Pairwise.cons (fun c hc => hle c hc) (List.pairwise_cons.mp hw.sorted).2
      · rcases List.mem_cons.mp hc with rfl | hc
        · exact ⟨b, List.mem_cons_self, Nat.le_add_right _ _, le_rfl⟩
        · exact ⟨c, List.mem_cons_of_mem _ hc, le_rfl, le_rfl⟩
      · rcases List.mem_cons.mp hc with rfl | hc
        · exact .inr (window_endAddr _ _).le
        · have := hle c hc
          simp only [Block.Apart, window_start, window_endAddr]
          omega
    · -- the request goes on to the next block
      obtain ⟨⟨rest', a'⟩, hr, hok⟩ := Except.bind_eq_ok.mp h
      cases hok
      obtain ⟨hw', hv, ⟨r, hr, hwr⟩, hsub, hap⟩ := ih hw.tail hr
      refine ⟨⟨fun c hc => ?_, ?_⟩, hv, ⟨r, List.mem_cons_of_mem b hr, hwr⟩, fun c hc => ?_,
        fun c hc => ?_⟩
      · rcases List.mem_cons.mp hc with rfl | hc
        · exact hb
        · exact hw'.valid c hc
      · refine List.Pairwise.cons (fun c hc => ?_) hw'.sorted
        obtain ⟨r', hr', hcr'⟩ := hsub c hc
        exact (hle r' hr').trans hcr'.1
      · rcases List.mem_cons.mp hc with rfl | hc
        · exact ⟨c, List.mem_cons_self, le_rfl, le_rfl⟩
        · obtain ⟨r', hr', hcr'⟩ := hsub c hc
          exact ⟨r', List.mem_cons_of_mem b hr', hcr'⟩
      · rcases List.mem_cons.mp hc with rfl | hc
        · exact .inl ((hle r hr).trans hwr.1)
        · exact hap c hc

/-! ## What `free` does -/

namespace Allocator

theorem search_lt {a : Block} {s : Nat} :
    (compare a.start (⟨s, s⟩ : Block).start == .lt) = true ↔ a.start < s := by
  simp [Nat.compare_eq_lt]

/-- The insertion point of a free list cut at the freed address. -/
theorem binarySearch_split {l₁ l₂ : List Block} {s : Nat} (h₁ : ∀ b ∈ l₁, b.start < s)
    (h₂ : ∀ b ∈ l₂, s < b.start) :
    binarySearch (fun a b => compare a.start b.start) (l₁ ++ l₂) ⟨s, s⟩ = .error l₁.length := by
  have ht : (l₁ ++ l₂).takeWhile (fun x => compare x.start (⟨s, s⟩ : Block).start == .lt) = l₁ := by
    rw [List.takeWhile_append_of_pos fun b hb => search_lt.mpr (h₁ b hb)]
    cases l₂ with
    | nil => simp
    | cons c t =>
      have hc := h₂ c List.mem_cons_self
      rw [List.takeWhile_cons_of_neg (p := fun b : Block => compare b.start (⟨s, s⟩ : Block).start == .lt)
        fun h => Nat.lt_asymm hc (search_lt.mp h), List.append_nil]
  unfold binarySearch
  dsimp only
  rw [ht, List.getElem?_append_right le_rfl, Nat.sub_self]
  cases l₂ with
  | nil => rfl
  | cons c t =>
    have hc := h₂ c List.mem_cons_self
    have hne : compare c.start s ≠ .eq := by
      rw [Ne, Nat.compare_eq_eq]
      omega
    simp [hne]

/-- **The three ways `free` ends**, for a list cut at the freed address: the range
joins the block before it when that block ends at its start, or else the block
after it when that block starts at its end, or it is inserted. -/
theorem free_cases {l₁ l₂ : List Block} {s n : Nat} (h₁ : ∀ b ∈ l₁, b.start < s)
    (h₂ : ∀ b ∈ l₂, s < b.start) :
    (∃ l p, l₁ = l ++ [p] ∧ p.endAddr = s ∧
      free s n (l₁ ++ l₂) =
        .ok (l ++ { p with endAddr := p.endAddr + n * PAGE_SIZE_BYTES } :: l₂)) ∨
    (l₁.getLast?.map Block.endAddr ≠ some s ∧ ∃ c t, l₂ = c :: t ∧
      c.start = s + n * PAGE_SIZE_BYTES ∧ free s n (l₁ ++ l₂) = .ok (l₁ ++ { c with start := s } :: t)) ∨
    (l₁.getLast?.map Block.endAddr ≠ some s ∧
      l₂.head?.map Block.start ≠ some (s + n * PAGE_SIZE_BYTES) ∧
      free s n (l₁ ++ l₂) = .ok (l₁ ++ ⟨s, s + n * PAGE_SIZE_BYTES⟩ :: l₂)) := by
  have hnext : (l₁ ++ l₂)[l₁.length]? = l₂.head? := by
    rw [List.getElem?_append_right le_rfl, Nat.sub_self]
    cases l₂ <;> rfl
  unfold free
  rw [binarySearch_split h₁ h₂]
  dsimp only
  rcases List.eq_nil_or_concat l₁ with rfl | ⟨l, p, rfl⟩
  · -- no block before the range
    right
    rw [if_neg (by simp), hnext]
    by_cases hc : l₂.head?.map Block.start = some (s + n * PAGE_SIZE_BYTES)
    · left
      cases l₂ with
      | nil => simp at hc
      | cons c t =>
        simp only [List.head?_cons, Option.map_some, Option.some.injEq] at hc
        refine ⟨by simp, c, t, rfl, hc, ?_⟩
        rw [if_pos (by simpa using hc)]
        exact congrArg Except.ok (List.modify_append_length [] t c _)
    · right
      rw [if_neg hc]
      exact ⟨by simp, hc, congrArg Except.ok (List.insertIdx_append_length [] l₂ _)⟩
  · rw [List.concat_eq_append] at hnext ⊢
    have hlast : (l ++ [p] ++ l₂)[(l ++ [p]).length - 1]? = some p := by
      rw [List.length_append, List.length_singleton, Nat.add_sub_cancel, List.append_assoc,
        List.getElem?_append_right le_rfl, Nat.sub_self]
      rfl
    by_cases hp : p.endAddr = s
    · left
      refine ⟨l, p, rfl, hp, ?_⟩
      rw [if_pos ⟨by simp, by rw [hlast]; simp [hp]⟩]
      rw [List.length_append, List.length_singleton, Nat.add_sub_cancel, List.append_assoc]
      exact congrArg Except.ok (List.modify_append_length l l₂ p _)
    · right
      have hp' : (l ++ [p]).getLast?.map Block.endAddr ≠ some s := by simp [hp]
      rw [if_neg (fun h => hp (by simpa [hlast] using h.2)), hnext]
      by_cases hc : l₂.head?.map Block.start = some (s + n * PAGE_SIZE_BYTES)
      · left
        cases l₂ with
        | nil => simp at hc
        | cons c t =>
          simp only [List.head?_cons, Option.map_some, Option.some.injEq] at hc
          refine ⟨hp', c, t, rfl, hc, ?_⟩
          rw [if_pos (by simpa using hc)]
          exact congrArg Except.ok (List.modify_append_length (l ++ [p]) t c _)
      · right
        rw [if_neg hc]
        exact ⟨hp', hc, congrArg Except.ok (List.insertIdx_append_length (l ++ [p]) l₂ _)⟩

/-- **`free` joins a range to one neighbour only.** A range that fills the gap between
two free blocks is added to the block before it; the block after it stays on its own,
though the two now meet. -/
theorem free_bridge {l t : List Block} {p c : Block} {n : Nat}
    (h₁ : ∀ b ∈ l ++ [p], b.start < p.endAddr) (h₂ : ∀ b ∈ c :: t, p.endAddr < b.start)
    (hc : c.start = p.endAddr + n * PAGE_SIZE_BYTES) :
    free p.endAddr n (l ++ p :: c :: t) = .ok (l ++ { p with endAddr := c.start } :: c :: t) := by
  have hsplit : l ++ p :: c :: t = (l ++ [p]) ++ c :: t := by simp
  rcases free_cases (n := n) h₁ h₂ with ⟨l', p', he, -, hf⟩ | ⟨hne, -⟩ | ⟨hne, -⟩
  · obtain ⟨rfl, hp⟩ := List.append_inj' he rfl
    obtain rfl := List.singleton_inj.mp hp
    rw [hsplit, hf, ← hc]
  · exact absurd (by simp) hne
  · exact absurd (by simp) hne

/-- First fit fails when no block has room for the request. -/
theorem allocate_of_lt {n : Nat} :
    ∀ {blocks : List Block}, (∀ b ∈ blocks, b.sizePages < n) →
      allocate n blocks = .error outOfVirtualMemory
  | [], _ => rfl
  | b :: rest, h => by
    rw [allocate, if_neg (Nat.not_le.mpr (h b List.mem_cons_self)),
      allocate_of_lt fun c hc => h c (List.mem_cons_of_mem b hc)]
    rfl

/-- First fit succeeds when some block has room for the request. -/
theorem allocate_ok_of_le {n : Nat} :
    ∀ {blocks : List Block}, (∃ b ∈ blocks, n ≤ b.sizePages) →
      ∃ blocks' start, allocate n blocks = .ok (blocks', start)
  | [], ⟨_, hb, _⟩ => absurd hb List.not_mem_nil
  | b :: rest, ⟨c, hc, hn⟩ => by
    by_cases hb : n ≤ b.sizePages
    · rw [allocate, if_pos hb]
      split
      · exact ⟨_, _, rfl⟩
      · exact ⟨_, _, rfl⟩
    · -- the block with room comes later
      have hc : c ∈ rest := (List.mem_cons.mp hc).resolve_left fun he => hb (he ▸ hn)
      obtain ⟨blocks', start, h⟩ := allocate_ok_of_le ⟨c, hc, hn⟩
      rw [allocate, if_neg hb, h]
      exact ⟨_, _, rfl⟩

end Allocator

namespace Block

/-- The block from the start of `a` to the end of `b`. -/
def join (a b : Block) : Block := ⟨a.start, b.endAddr⟩

/-- Two adjacent blocks apart from a non-empty range are apart from it together. -/
theorem Apart.join {a b x : Block} (hab : a.endAddr = b.start) (hx : x.start < x.endAddr)
    (ha : a.Apart x) (hb : b.Apart x) : (a.join b).Apart x := by
  unfold Apart at ha hb ⊢
  unfold Block.join
  dsimp only
  omega

theorem Valid.join {a b : Block} (ha : a.Valid) (hb : b.Valid) (hab : a.endAddr = b.start) :
    (a.join b).Valid :=
  ⟨by have := ha.nonempty; have := hb.nonempty; unfold Block.join; dsimp only; omega,
    ha.start_aligned, hb.end_aligned, ha.lower, hb.upper⟩

end Block

theorem Wf.sublist {l l' : List Block} (h : Wf l') (hs : l.Sublist l') : Wf l :=
  ⟨fun b hb => h.valid b (hs.subset hb), h.sorted.sublist hs⟩

/-- A sorted list with one valid block put between its two parts. -/
theorem Wf.middle {l r : List Block} {c : Block} (hl : Wf l) (hr : Wf r) (hc : c.Valid)
    (hlc : ∀ a ∈ l, a.endAddr ≤ c.start) (hcr : ∀ b ∈ r, c.endAddr ≤ b.start)
    (hlr : ∀ a ∈ l, ∀ b ∈ r, a.endAddr ≤ b.start) : Wf (l ++ c :: r) where
  valid b hb := by
    rcases List.mem_append.mp hb with hb | hb
    · exact hl.valid b hb
    · rcases List.mem_cons.mp hb with rfl | hb
      · exact hc
      · exact hr.valid b hb
  sorted := by
    refine List.pairwise_append.mpr ⟨hl.sorted, List.Pairwise.cons hcr hr.sorted, fun a ha b hb => ?_⟩
    rcases List.mem_cons.mp hb with rfl | hb
    · exact hlc a ha
    · exact hlr a ha b hb

/-- A range apart from every block of a sorted list cuts it into the blocks before
the range and the blocks after it. -/
theorem Wf.cut {blocks : List Block} {o : Block} (hw : Wf blocks)
    (hap : ∀ b ∈ blocks, b.Apart o) :
    ∃ l₁ l₂, blocks = l₁ ++ l₂ ∧ (∀ b ∈ l₁, b.endAddr ≤ o.start) ∧
      ∀ b ∈ l₂, o.endAddr ≤ b.start := by
  induction blocks with
  | nil => exact ⟨[], [], rfl, by simp, by simp⟩
  | cons b rest ih =>
    rcases hap b List.mem_cons_self with hb | hb
    · obtain ⟨l₁, l₂, rfl, h₁, h₂⟩ :=
        ih hw.tail fun c hc => hap c (List.mem_cons_of_mem b hc)
      refine ⟨b :: l₁, l₂, rfl, fun c hc => ?_, h₂⟩
      rcases List.mem_cons.mp hc with rfl | hc
      · exact hb
      · exact h₁ c hc
    · refine ⟨[], b :: rest, rfl, by simp, fun c hc => ?_⟩
      rcases List.mem_cons.mp hc with rfl | hc
      · exact hb
      · have := hw.head_le c hc
        have := (hw.valid b List.mem_cons_self).nonempty
        omega

/-- **What `free` does** with a window apart from every free block: it does not
panic, the list keeps its invariant, and a range apart from the old blocks and
from the window is apart from the new ones. -/
theorem free_spec {blocks : List Block} {o : Block} (hw : Wf blocks) (ho : o.Valid)
    (hap : ∀ b ∈ blocks, b.Apart o) :
    ∃ blocks', Allocator.free o.start o.sizePages blocks = .ok blocks' ∧ Wf blocks' ∧
      ∀ x : Block, x.start < x.endAddr → (∀ b ∈ blocks, b.Apart x) → o.Apart x →
        ∀ c ∈ blocks', c.Apart x := by
  have hne := ho.nonempty
  have hend := ho.end_eq
  obtain ⟨l₁, l₂, rfl, hle₁, hge₂⟩ := hw.cut hap
  have hw₁ : Wf l₁ := hw.sublist (List.sublist_append_left l₁ l₂)
  have hw₂ : Wf l₂ := hw.sublist (List.sublist_append_right l₁ l₂)
  have hcross : ∀ a ∈ l₁, ∀ b ∈ l₂, a.endAddr ≤ b.start :=
    (List.pairwise_append.mp hw.sorted).2.2
  have h₁ : ∀ b ∈ l₁, b.start < o.start := fun b hb => by
    have := (hw.valid b (List.mem_append_left l₂ hb)).nonempty
    have := hle₁ b hb
    omega
  have h₂ : ∀ b ∈ l₂, o.start < b.start := fun b hb => by
    have := hge₂ b hb
    omega
  rcases Allocator.free_cases (n := o.sizePages) h₁ h₂ with
    ⟨l, q, rfl, hq, hfree⟩ | ⟨-, c, t, rfl, hc, hfree⟩ | ⟨-, -, hfree⟩
  · -- the window joins the block before it
    have hq' : { q with endAddr := q.endAddr + o.sizePages * PAGE_SIZE_BYTES } = q.join o := by
      unfold Block.join
      rw [hq, ← hend]
    rw [hq'] at hfree
    have hqv := hw₁.valid q (List.mem_append_right l List.mem_cons_self)
    have hwl : Wf l := hw₁.sublist (List.sublist_append_left l [q])
    have hlq : ∀ a ∈ l, a.endAddr ≤ q.start := fun a ha =>
      (List.pairwise_append.mp hw₁.sorted).2.2 a ha q (List.mem_singleton_self q)
    refine ⟨_, hfree, Wf.middle hwl hw₂ (hqv.join ho hq) hlq (fun b hb => hge₂ b hb)
      (fun a ha b hb => hcross a (List.mem_append_left _ ha) b hb), fun x hx hax hox c hc => ?_⟩
    rcases List.mem_append.mp hc with hc | hc
    · exact hax c (List.mem_append_left _ (List.mem_append_left _ hc))
    · rcases List.mem_cons.mp hc with rfl | hc
      · exact Block.Apart.join hq hx (hax q (List.mem_append_left _ (List.mem_append_right l
          List.mem_cons_self))) hox
      · exact hax c (List.mem_append_right _ hc)
  · -- the window joins the block after it
    have hc' : { c with start := o.start } = o.join c := rfl
    rw [hc'] at hfree
    have hcv := hw₂.valid c List.mem_cons_self
    refine ⟨_, hfree, Wf.middle hw₁ hw₂.tail (ho.join hcv (hend.trans hc.symm)) hle₁
      (fun b hb => hw₂.head_le b hb)
      (fun a ha b hb => hcross a ha b (List.mem_cons_of_mem c hb)), fun x hx hax hox d hd => ?_⟩
    rcases List.mem_append.mp hd with hd | hd
    · exact hax d (List.mem_append_left _ hd)
    · rcases List.mem_cons.mp hd with rfl | hd
      · exact Block.Apart.join (hend.trans hc.symm) hx hox
          (hax c (List.mem_append_right _ List.mem_cons_self))
      · exact hax d (List.mem_append_right _ (List.mem_cons_of_mem c hd))
  · -- the window is inserted
    have ho' : (⟨o.start, o.start + o.sizePages * PAGE_SIZE_BYTES⟩ : Block) = o := by
      rw [← hend]
    rw [ho'] at hfree
    refine ⟨_, hfree, Wf.middle hw₁ hw₂ ho hle₁ hge₂ hcross, fun x hx hax hox d hd => ?_⟩
    rcases List.mem_append.mp hd with hd | hd
    · exact hax d (List.mem_append_left _ hd)
    · rcases List.mem_cons.mp hd with rfl | hd
      · exact hox
      · exact hax d (List.mem_append_right _ hd)

/-! ## Windows over a whole run -/

/-- The addresses a window owns. -/
def Allocation.range (a : Allocation) : Block := ⟨a.start, a.endAddr⟩

/-- The allocator with the windows handed out and not dropped yet. -/
structure World where
  freeList : List Block
  windows : List Allocation

namespace World

def boot : World := ⟨Allocator.FREE_LIST, []⟩

/-- One call: `virt::allocate` of at least one page, or the drop of a window. -/
inductive Step : World → World → Prop
  | allocate {w : World} {n : Nat} {blocks : List Block} {a : Allocation} (hn : 0 < n) :
      Virt.allocate n w.freeList = .ok (blocks, a) → Step w ⟨blocks, a :: w.windows⟩
  | drop {w : World} {a : Allocation} {blocks : List Block} :
      a ∈ w.windows → a.drop w.freeList = .ok blocks → Step w ⟨blocks, w.windows.erase a⟩

def Reachable (w : World) : Prop := Relation.ReflTransGen Step boot w

/-- Free blocks and windows are valid, the free list is sorted, and no two of them
share an address. -/
structure Inv (w : World) : Prop where
  free_wf : Wf w.freeList
  windows_valid : ∀ a ∈ w.windows, a.range.Valid
  apart : (w.freeList ++ w.windows.map Allocation.range).Pairwise Block.Apart

theorem inv_boot : Inv boot :=
  ⟨wf_FREE_LIST, by simp [boot], by simpa [boot] using wf_FREE_LIST.apart⟩

variable {w : World}

theorem Inv.window_apart (h : Inv w) {a : Allocation} (ha : a ∈ w.windows) :
    ∀ b ∈ w.freeList, b.Apart a.range :=
  fun b hb => (List.pairwise_append.mp h.apart).2.2 b hb a.range (List.mem_map_of_mem ha)

/-- **A window can always be dropped**: the range it owns is apart from every free
block, so `free` finds no block starting there. -/
theorem Inv.drop_ok (h : Inv w) {a : Allocation} (ha : a ∈ w.windows) :
    ∃ blocks, a.drop w.freeList = .ok blocks :=
  let ⟨blocks, hfree, _⟩ := free_spec h.free_wf (h.windows_valid a ha) (h.window_apart ha)
  ⟨blocks, hfree⟩

theorem allocate_eq {n : Nat} {blocks blocks' : List Block} {a : Allocation}
    (h : Virt.allocate n blocks = .ok (blocks', a)) :
    Allocator.allocate n blocks = .ok (blocks', a.start) ∧ a.range = window a.start n := by
  obtain ⟨⟨blocks'', start⟩, hs, hok⟩ := Except.bind_eq_ok.mp h
  cases hok
  exact ⟨hs, rfl⟩

theorem Inv.allocate (h : Inv w) {n : Nat} {blocks : List Block} {a : Allocation} (hn : 0 < n)
    (hs : Virt.allocate n w.freeList = .ok (blocks, a)) : Inv ⟨blocks, a :: w.windows⟩ := by
  obtain ⟨hs, hrange⟩ := allocate_eq hs
  obtain ⟨hw', hv, ⟨b, hb, hab⟩, hsub, hap⟩ := allocate_spec hn h.free_wf hs
  rw [← hrange] at hv hab hap
  obtain ⟨-, hwin, hcross⟩ := List.pairwise_append.mp h.apart
  refine ⟨hw', fun c hc => ?_, ?_⟩
  · rcases List.mem_cons.mp hc with rfl | hc
    · exact hv
    · exact h.windows_valid c hc
  · simp only [List.map_cons]
    refine List.pairwise_append.mpr ⟨hw'.apart, List.Pairwise.cons (fun o ho => ?_) hwin,
      fun c hc o ho => ?_⟩
    · exact hab.apart (hcross b hb o ho)
    · rcases List.mem_cons.mp ho with rfl | ho
      · exact hap c hc
      · obtain ⟨b', hb', hcb'⟩ := hsub c hc
        exact hcb'.apart (hcross b' hb' o ho)

theorem Inv.drop (h : Inv w) {a : Allocation} {blocks : List Block} (ha : a ∈ w.windows)
    (hs : a.drop w.freeList = .ok blocks) : Inv ⟨blocks, w.windows.erase a⟩ := by
  obtain ⟨blocks', hfree, hw', hkeep⟩ :=
    free_spec h.free_wf (h.windows_valid a ha) (h.window_apart ha)
  obtain rfl : blocks = blocks' := Except.ok.inj (hs.symm.trans hfree)
  obtain ⟨-, hwin, hcross⟩ := List.pairwise_append.mp h.apart
  have hsub : List.Sublist ((w.windows.erase a).map Allocation.range) (w.windows.map Allocation.range) :=
    (List.erase_sublist).map _
  refine ⟨hw', fun c hc => h.windows_valid c (List.mem_of_mem_erase hc), ?_⟩
  refine List.pairwise_append.mpr ⟨hw'.apart, hwin.sublist hsub, fun c hc r hr => ?_⟩
  obtain ⟨o, ho, rfl⟩ := List.mem_map.mp hr
  have hoa : a.range.Apart o.range :=
    ((List.pairwise_map.mp hwin).rel_of_mem_erase ha ho).elim id Block.Apart.symm
  exact hkeep o.range (h.windows_valid o (List.mem_of_mem_erase ho)).nonempty
    (fun b hb => hcross b hb o.range (List.mem_map_of_mem (List.mem_of_mem_erase ho))) hoa c hc

theorem Inv.step {w' : World} (h : Inv w) (hs : Step w w') : Inv w' := by
  cases hs with
  | allocate hn hs => exact h.allocate hn hs
  | drop ha hs => exact h.drop ha hs

/-- **The free list over a whole run.** In every world reached by requests of at
least one page and drops of windows, the free list is sorted, aligned and inside
the range, and no free block or window shares an address with another. -/
theorem Reachable.inv (hw : Reachable w) : Inv w := by
  induction hw with
  | refl => exact inv_boot
  | tail _ hs ih => exact ih.step hs

end World

/-- **The free list over every run.** Every world reached by requests of at least
one page and drops of windows keeps the free list sorted, aligned and inside the
range, and no free block or window shares an address with another. But `free`
joins a range that fills the gap between two free blocks to the block before it
only: three windows that cover the range, dropped first, last, middle, leave it
in two adjacent blocks, and a request for all 2048 pages fails. -/
theorem virt_free_list_fragments :
    (∀ w : World, World.Reachable w → World.Inv w) ∧
    (∀ (l t : List Block) (p c : Block) (n : Nat), (∀ b ∈ l ++ [p], b.start < p.endAddr) →
      (∀ b ∈ c :: t, p.endAddr < b.start) → c.start = p.endAddr + n * PAGE_SIZE_BYTES →
      Allocator.free p.endAddr n (l ++ p :: c :: t) = .ok (l ++ { p with endAddr := c.start } :: c :: t)) ∧
    (do
      let (l, a) ← allocate 1 Allocator.FREE_LIST
      let (l, b) ← allocate 1 l
      let (l, c) ← allocate 2046 l
      let l ← a.drop l
      let l ← c.drop l
      let l ← b.drop l
      allocate 2048 l) = .error Allocator.outOfVirtualMemory :=
  ⟨fun _ hw => hw.inv, fun _ _ _ _ _ h₁ h₂ hc => Allocator.free_bridge h₁ h₂ hc, rfl⟩

end D7os.Virt
