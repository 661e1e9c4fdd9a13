import D7os.Util.ElfParser
import D7os.Ipc.Manager
import D7os.Memory.Phys
import D7os.Lib.Bits
import D7os.Lib.Except

/-!
# Where the InitRD is

The bootloader `d7boot` copies the InitRD to `page_align_up(max_vaddr)`;
`initrd::init` reads it from `page_align_up(ELFData::last_addr())`. d7boot
raises `max_vaddr` to a segment's end only when the segment starts above it, and
wraps its `u64` sums (release mode); the kernel takes the largest end over every
loadable entry, with checked sums, and rounds by a division instead of a mask.

The kernel's value is the end of the image (`lastAddr_isImageEnd`), d7boot's
the end of some loaded segment (`foldl_raiseMaxVaddr_cases`). When each segment
starts past the end of the one before, the two agree
(`initrd_addresses_agree_of_gaps`); segments that meet, as a linker lays them
out, are where they part (`initrd_copied_into_kernel_segment`).
-/

namespace D7os

/-- The end in memory of a segment, `virtual_address + size_in_memory`. -/
def ELFProgramHeader.endAddr (p : ELFProgramHeader) : Nat := p.virtualAddress + p.sizeInMemory

/-! ## The kernel: `ELFData::last_addr` and `page_align_up` -/

def mulOverflow : Panic := "attempt to multiply with overflow"

/-- `cmp::max_by(acc, end, Ord::cmp)`, the step of `Iterator::max`, with no
element before the first. -/
def maxEnd (acc : Option Nat) (e : Nat) : Nat :=
  match acc with
  | none => e
  | some v => if v ≤ e then e else v

/-- `filter_map(|p| Some(p?.virtual_address + p?.size_in_memory)).max()` over the
slots still to visit, with the largest end so far. -/
def lastAddrLoop : List (Option ELFProgramHeader) → Option Nat → Except Panic (Option Nat)
  | [], acc => .ok acc
  | none :: rest, acc => lastAddrLoop rest acc
  | some p :: rest, acc =>
    if UInt64.size ≤ p.endAddr then .error addOverflow
    else lastAddrLoop rest (some (maxEnd acc p.endAddr))

/-- `ELFData::last_addr`: the `max()` of the loop, then `unwrap`. -/
def ELFData.lastAddr (d : ELFData) : Except Panic Nat :=
  match lastAddrLoop d.phTable.toList none with
  | .ok (some v) => .ok v
  | .ok none => .error Ipc.unwrapNone
  | .error e => .error e

/-- `to_pages_round_up(bytes)` of `memory::prelude`. -/
def toPagesRoundUp (bytes : Nat) : Except Panic Nat :=
  if UInt64.size ≤ bytes + (PAGE_SIZE_BYTES - 1) then .error addOverflow
  else .ok ((bytes + (PAGE_SIZE_BYTES - 1)) / PAGE_SIZE_BYTES)

/-- `page_align_up(bytes)` of `memory::prelude`. -/
def pageAlignUp (bytes : Nat) : Except Panic Nat := do
  let pages ← toPagesRoundUp bytes
  if UInt64.size ≤ pages * PAGE_SIZE_BYTES then .error mulOverflow else .ok (pages * PAGE_SIZE_BYTES)

/-- `parse_kernel_elf()` over the kernel image. -/
def parseKernelElf (image : List UInt8) : Except Panic ELFData :=
  match parseElf image with
  | .ok (.ok elf) => .ok elf
  | .ok (.error e) => .error ("Could not receive kernel image data: " ++ e.debug)
  | .error p => .error p

/-- The address `initrd::init` reads the InitRD header from. -/
def initrdStart (image : List UInt8) : Except Panic Nat := do
  let elf ← parseKernelElf image
  pageAlignUp (← elf.lastAddr)

/-! ## The bootloader -/

namespace Boot

def KERNEL_ENTRY_POINT : Nat := 0x100_0000

def PAGE_SIZE_BYTES : Nat := 0x20_0000

/-- `page_align_up(addr)` of d7boot: `(addr + PAGE_SIZE_BYTES - 1) & !(PAGE_SIZE_BYTES - 1)`
in wrapping `u64`. -/
def pageAlignUp (addr : Nat) : Nat :=
  (addr + PAGE_SIZE_BYTES - 1) % UInt64.size &&& (UInt64.size - 1 - (PAGE_SIZE_BYTES - 1))

/-- `check_elf()`: the error character `error` shows before it halts. -/
def checkElf (image : List UInt8) : Except Char Unit :=
  if readLE image 0 4 ≠ ELF_MAGIC then .error 'M'
  else if readLE image 0x18 8 ≠ KERNEL_ENTRY_POINT then .error 'P'
  else .ok ()

/-- The program headers at the standard offsets, `program_header_count` of them. -/
def programHeaders (image : List UInt8) : List ELFProgramHeader :=
  (List.range (readLE image 0x38 2)).map fun i => ELFProgramHeader.read image (0x40 + i * 0x38)

/-- One round of the program-header loop: a `PT_LOAD` header that starts above
`max_vaddr` raises it to the header's end. -/
def raiseMaxVaddr (maxVaddr : Nat) (ph : ELFProgramHeader) : Nat :=
  if ph.headerType = 1 ∧ maxVaddr < ph.virtualAddress then
    (ph.virtualAddress + ph.sizeInMemory) % UInt64.size
  else maxVaddr

/-- `max_vaddr` after the loop. -/
def maxVaddr (image : List UInt8) : Nat := (programHeaders image).foldl raiseMaxVaddr 0

/-- The address d7boot copies the InitRD to, after `check_elf`. -/
def initrdDst (image : List UInt8) : Except Char Nat := do
  checkElf image
  pure (pageAlignUp (maxVaddr image))

end Boot

/-! ## The end of the image -/

/-- `v` is the end of the image made of the segments `L`: the largest end. -/
def IsImageEnd (L : List ELFProgramHeader) (v : Nat) : Prop :=
  (∃ p ∈ L, p.endAddr = v) ∧ ∀ p ∈ L, p.endAddr ≤ v

theorem le_maxEnd (acc : Option Nat) (e : Nat) : e ≤ maxEnd acc e := by
  cases acc with
  | none => exact le_rfl
  | some v =>
    dsimp only [maxEnd]
    split_ifs with h
    · exact le_rfl
    · omega

theorem maxEnd_ge {acc : Option Nat} {u : Nat} (h : acc = some u) (e : Nat) : u ≤ maxEnd acc e := by
  subst h
  dsimp only [maxEnd]
  split_ifs with h
  · exact h
  · exact le_rfl

theorem maxEnd_cases (acc : Option Nat) (e : Nat) : maxEnd acc e = e ∨ acc = some (maxEnd acc e) := by
  cases acc with
  | none => exact .inl rfl
  | some v =>
    dsimp only [maxEnd]
    split_ifs
    · exact .inl rfl
    · exact .inr rfl

/-- **The kernel's loop takes the largest end.** With no end past `u64`, the loop
returns `None` exactly when it saw nothing, and otherwise the largest of the ends
and of the value it started with. -/
theorem lastAddrLoop_ok :
    ∀ (L : List (Option ELFProgramHeader)) (acc : Option Nat),
      (∀ p, some p ∈ L → p.endAddr < UInt64.size) →
      ∃ r, lastAddrLoop L acc = .ok r ∧ (r = none ↔ acc = none ∧ ∀ x ∈ L, x = none) ∧
        ∀ v, r = some v → (acc = some v ∨ ∃ p, some p ∈ L ∧ p.endAddr = v) ∧
          (∀ u, acc = some u → u ≤ v) ∧ ∀ p, some p ∈ L → p.endAddr ≤ v := by
  intro L
  induction L with
  | nil =>
    intro acc _
    refine ⟨acc, rfl, by simp, fun v hv => ⟨.inl hv, fun u hu => ?_, by simp⟩⟩
    rw [hv] at hu
    exact (Option.some.inj hu).ge
  | cons x rest ih =>
    intro acc hfit
    have hrest : ∀ p, some p ∈ rest → p.endAddr < UInt64.size :=
      fun p hp => hfit p (List.mem_cons_of_mem x hp)
    cases x with
    | none =>
      obtain ⟨r, hr, hnone, hsome⟩ := ih acc hrest
      refine ⟨r, hr, by simp [hnone], fun v hv => ?_⟩
      obtain ⟨hin, hacc, hle⟩ := hsome v hv
      refine ⟨hin.imp_right ?_, hacc, fun p hp => hle p ?_⟩
      · rintro ⟨p, hp, he⟩
        exact ⟨p, List.mem_cons_of_mem _ hp, he⟩
      · simpa using hp
    | some q =>
      have hq : ¬UInt64.size ≤ q.endAddr := Nat.not_le.mpr (hfit q List.mem_cons_self)
      obtain ⟨r, hr, hnone, hsome⟩ := ih (some (maxEnd acc q.endAddr)) hrest
      refine ⟨r, by rw [lastAddrLoop, if_neg hq, hr], by simp [hnone], fun v hv => ?_⟩
      obtain ⟨hin, hacc, hle⟩ := hsome v hv
      have hqv : maxEnd acc q.endAddr ≤ v := hacc _ rfl
      refine ⟨?_, fun u hu => (maxEnd_ge hu q.endAddr).trans hqv, fun p hp => ?_⟩
      · rcases hin with hin | ⟨p, hp, he⟩
        · rcases maxEnd_cases acc q.endAddr with h | h
          · exact .inr ⟨q, List.mem_cons_self, by rw [← h, Option.some.inj hin]⟩
          · exact .inl (h.trans hin)
        · exact .inr ⟨p, List.mem_cons_of_mem _ hp, he⟩
      · rcases List.mem_cons.mp hp with h | h
        · cases h
          exact (le_maxEnd acc _).trans hqv
        · exact hle p h

/-- **`last_addr` is the end of the image.** For a table with at least one
loadable entry and no end past `u64`, `last_addr` is the largest end. -/
theorem lastAddr_isImageEnd {d : ELFData}
    (hfit : ∀ p, some p ∈ d.phTable.toList → p.endAddr < UInt64.size)
    (hne : ∃ p, some p ∈ d.phTable.toList) :
    ∃ v, d.lastAddr = .ok v ∧ IsImageEnd (d.phTable.toList.filterMap id) v := by
  obtain ⟨r, hr, hnone, hsome⟩ := lastAddrLoop_ok d.phTable.toList none hfit
  cases r with
  | none =>
    obtain ⟨p, hp⟩ := hne
    exact absurd (hnone.mp rfl).2 fun h => Option.some_ne_none p (h _ hp)
  | some v =>
    obtain ⟨hin, -, hle⟩ := hsome v rfl
    refine ⟨v, by rw [ELFData.lastAddr, hr], ?_, fun p hp => hle p (by simpa using hp)⟩
    obtain ⟨p, hp, he⟩ := hin.resolve_left (by simp)
    exact ⟨p, by simpa using hp, he⟩

/-! ## Rounding up -/

theorem Boot.pageAlignUp_eq {addr : Nat} :
    Boot.pageAlignUp addr =
      (addr + Boot.PAGE_SIZE_BYTES - 1) % UInt64.size / Boot.PAGE_SIZE_BYTES *
        Boot.PAGE_SIZE_BYTES := by
  have hmask : UInt64.size - 1 - (Boot.PAGE_SIZE_BYTES - 1) = (2 ^ 43 - 1) * 2 ^ 21 := by decide
  have hword : UInt64.size = 2 ^ (21 + 43) := rfl
  unfold Boot.pageAlignUp
  rw [hmask, Nat.land_mul_two_pow_sub_one_of_lt (by rw [← hword]; exact Nat.mod_lt _ (by decide))]
  rfl

/-- The kernel's rounding where its sum does not overflow. -/
theorem pageAlignUp_of_lt {addr : Nat} (h : addr + (PAGE_SIZE_BYTES - 1) < UInt64.size) :
    pageAlignUp addr = .ok ((addr + (PAGE_SIZE_BYTES - 1)) / PAGE_SIZE_BYTES * PAGE_SIZE_BYTES) := by
  have hround : (addr + (PAGE_SIZE_BYTES - 1)) / PAGE_SIZE_BYTES * PAGE_SIZE_BYTES < UInt64.size :=
    lt_of_le_of_lt (Nat.div_mul_le_self _ _) h
  rw [pageAlignUp, toPagesRoundUp, if_neg (Nat.not_le.mpr h), Except.ok_bind,
    if_neg (Nat.not_le.mpr hround)]

/-- The kernel's rounding fails only on an overflowing sum. -/
theorem pageAlignUp_eq_ok {addr a : Nat} (h : pageAlignUp addr = .ok a) :
    addr + (PAGE_SIZE_BYTES - 1) < UInt64.size ∧
      a = (addr + (PAGE_SIZE_BYTES - 1)) / PAGE_SIZE_BYTES * PAGE_SIZE_BYTES := by
  by_cases hov : UInt64.size ≤ addr + (PAGE_SIZE_BYTES - 1)
  · have herr : pageAlignUp addr = .error addOverflow := by
      rw [pageAlignUp, toPagesRoundUp, if_pos hov, Except.error_bind]
    rw [herr] at h
    cases h
  · have hlt := Nat.lt_of_not_le hov
    rw [pageAlignUp_of_lt hlt] at h
    exact ⟨hlt, (Except.ok.inj h).symm⟩

/-- **The two helpers round alike** where the kernel's does not overflow. -/
theorem pageAlignUp_eq_boot {addr : Nat} (h : addr + (PAGE_SIZE_BYTES - 1) < UInt64.size) :
    pageAlignUp addr = .ok (Boot.pageAlignUp addr) := by
  have hP : PAGE_SIZE_BYTES = Boot.PAGE_SIZE_BYTES := rfl
  have hsum : addr + Boot.PAGE_SIZE_BYTES - 1 = addr + (PAGE_SIZE_BYTES - 1) := by
    rw [hP]
    unfold Boot.PAGE_SIZE_BYTES
    omega
  rw [Boot.pageAlignUp_eq, hsum, Nat.mod_eq_of_lt h, ← hP]
  exact pageAlignUp_of_lt h

theorem le_pageAlignUp {addr a : Nat} (h : pageAlignUp addr = .ok a) : addr ≤ a := by
  obtain ⟨-, rfl⟩ := pageAlignUp_eq_ok h
  have hP : 0 < PAGE_SIZE_BYTES := by decide
  have := Nat.lt_div_mul_add (a := addr + (PAGE_SIZE_BYTES - 1)) hP
  omega

/-! ## The bootloader's loop -/

namespace Boot

theorem raiseMaxVaddr_of_not_loadable {m : Nat} {ph : ELFProgramHeader} (h : ph.headerType ≠ 1) :
    raiseMaxVaddr m ph = m := by
  unfold raiseMaxVaddr
  rw [if_neg fun h' => h h'.1]

/-- **d7boot ends on the end of a segment it saw.** The loop's value is the one it
started with or the end of a loadable segment. -/
theorem foldl_raiseMaxVaddr_cases :
    ∀ (L : List ELFProgramHeader) (m : Nat), (∀ p ∈ L, p.endAddr < UInt64.size) →
      L.foldl raiseMaxVaddr m = m ∨
        ∃ p ∈ L, p.headerType = 1 ∧ L.foldl raiseMaxVaddr m = p.endAddr := by
  intro L
  induction L with
  | nil => exact fun m _ => .inl rfl
  | cons q rest ih =>
    intro m hfit
    have hrest : ∀ p ∈ rest, p.endAddr < UInt64.size := fun p hp => hfit p (List.mem_cons_of_mem q hp)
    rw [List.foldl_cons]
    rcases ih (raiseMaxVaddr m q) hrest with h | ⟨p, hp, hty, h⟩
    · rw [h]
      unfold raiseMaxVaddr
      split_ifs with hq
      · refine .inr ⟨q, List.mem_cons_self, hq.1, ?_⟩
        exact Nat.mod_eq_of_lt (hfit q List.mem_cons_self)
      · exact .inl rfl
    · exact .inr ⟨p, List.mem_cons_of_mem q hp, hty, h⟩

/-- **With a gap before each segment, d7boot finds the end of the last.** When the
first loadable segment starts above the start value and each starts past the end
of the one before, every segment raises `max_vaddr`, and the loop ends on the
end of the last segment. -/
theorem foldl_raiseMaxVaddr_of_gaps :
    ∀ (L : List ELFProgramHeader) (m : Nat) (hL : L ≠ []), (∀ p ∈ L, p.headerType = 1) →
      (∀ p ∈ L, p.endAddr < UInt64.size) → L.IsChain (fun p q => p.endAddr < q.virtualAddress) →
      m < (L.head hL).virtualAddress → L.foldl raiseMaxVaddr m = (L.getLast hL).endAddr := by
  intro L
  induction L with
  | nil => exact fun m hL => absurd rfl hL
  | cons q rest ih =>
    intro m _ hload hfit hchain hm
    have hraise : raiseMaxVaddr m q = q.endAddr := by
      unfold raiseMaxVaddr
      rw [if_pos ⟨hload q List.mem_cons_self, hm⟩]
      exact Nat.mod_eq_of_lt (hfit q List.mem_cons_self)
    rw [List.foldl_cons, hraise]
    cases rest with
    | nil => rfl
    | cons r t =>
      rw [List.getLast_cons (List.cons_ne_nil r t)]
      exact ih q.endAddr (List.cons_ne_nil r t) (fun p hp => hload p (List.mem_cons_of_mem q hp))
        (fun p hp => hfit p (List.mem_cons_of_mem q hp)) (List.isChain_cons_cons.mp hchain).2
        (List.isChain_cons_cons.mp hchain).1

end Boot

/-- With a gap before each segment the ends grow, so the last is the end of the image. -/
theorem isImageEnd_getLast_of_gaps :
    ∀ (L : List ELFProgramHeader) (hL : L ≠ []),
      L.IsChain (fun p q => p.endAddr < q.virtualAddress) → IsImageEnd L (L.getLast hL).endAddr := by
  intro L
  induction L with
  | nil => exact fun hL => absurd rfl hL
  | cons q rest ih =>
    intro _ hchain
    cases rest with
    | nil => exact ⟨⟨q, List.mem_cons_self, rfl⟩, fun p hp => by rw [List.mem_singleton.mp hp]; rfl⟩
    | cons r t =>
      obtain ⟨hqr, hrest⟩ := List.isChain_cons_cons.mp hchain
      obtain ⟨⟨p, hp, he⟩, hle⟩ := ih (List.cons_ne_nil r t) hrest
      rw [List.getLast_cons (List.cons_ne_nil r t)]
      refine ⟨⟨p, List.mem_cons_of_mem q hp, he⟩, fun p' hp' => ?_⟩
      rcases List.mem_cons.mp hp' with rfl | hp'
      · have hr := hle r List.mem_cons_self
        unfold ELFProgramHeader.endAddr at hqr hr ⊢
        omega
      · exact hle p' hp'

/-! ## Two segments that meet -/

/-- The 56 bytes of a program header as `ELFProgramHeader.read` reads them, with no
physical address and a 4 KiB alignment. -/
def ELFProgramHeader.bytes (p : ELFProgramHeader) : List UInt8 :=
  leBytes 4 p.headerType ++ leBytes 4 p.flags ++ leBytes 8 p.offset ++ leBytes 8 p.virtualAddress ++
    leBytes 8 0 ++ leBytes 8 p.sizeInFile ++ leBytes 8 p.sizeInMemory ++ leBytes 8 0x1000

/-- Code at the kernel entry point, one 4 KiB page in memory. -/
def textSegment : ELFProgramHeader := ⟨1, 5, 0, 0x100_0000, 0, 0x1000⟩

/-- Data right after the code, three 2 MiB pages in memory. -/
def dataSegment : ELFProgramHeader := ⟨1, 6, 0, 0x100_1000, 0, 0x30_0000⟩

/-- A kernel image with the program header table at the standard offset 64 and two
`PT_LOAD` segments sorted by address, the second starting where the first ends. -/
def adjacentImage : List UInt8 :=
  leBytes 4 ELF_MAGIC ++ [2, 1, 1, 0] ++ leBytes 8 0 ++ leBytes 2 2 ++ leBytes 2 ELF_ARCH_X86_64 ++
    leBytes 4 1 ++ leBytes 8 Boot.KERNEL_ENTRY_POINT ++ leBytes 8 64 ++ leBytes 8 0 ++
    leBytes 4 0 ++ leBytes 2 64 ++ leBytes 2 ELF_PH_TABLE_ENTRY_SIZE ++ leBytes 2 2 ++ leBytes 6 0 ++
  textSegment.bytes ++ dataSegment.bytes

/-- **d7boot copies the InitRD into the kernel's data.** For two sorted segments
that meet, the second does not start above `max_vaddr`, so d7boot stops at the end
of the first and copies the InitRD to `0x120_0000`, inside the second segment; the
kernel takes the end of the second and reads the InitRD from `0x140_0000`. -/
theorem initrd_copied_into_kernel_segment :
    Boot.programHeaders adjacentImage = [textSegment, dataSegment] ∧
      textSegment.virtualAddress < dataSegment.virtualAddress ∧
      Boot.initrdDst adjacentImage = .ok 0x120_0000 ∧ initrdStart adjacentImage = .ok 0x140_0000 ∧
      dataSegment.virtualAddress ≤ 0x120_0000 ∧ 0x120_0000 < dataSegment.endAddr := by
  refine ⟨rfl, by decide, rfl, by decide +kernel, by decide, by decide⟩

/-! ## Where the two agree -/

namespace Boot

/-- Headers other than `PT_LOAD` leave `max_vaddr` as it was. -/
theorem foldl_raiseMaxVaddr_filter :
    ∀ (L : List ELFProgramHeader) (m : Nat),
      L.foldl raiseMaxVaddr m = (L.filter ELFProgramHeader.loadable).foldl raiseMaxVaddr m := by
  intro L
  induction L with
  | nil => exact fun m => rfl
  | cons q rest ih =>
    intro m
    by_cases hq : q.headerType = 1
    · rw [List.filter_cons_of_pos (by simp [ELFProgramHeader.loadable, hq]), List.foldl_cons,
        List.foldl_cons, ih]
    · rw [List.filter_cons_of_neg (by simpa [ELFProgramHeader.loadable] using hq), List.foldl_cons,
        raiseMaxVaddr_of_not_loadable hq, ih]

/-- With the table at the standard offset, d7boot reads the headers the kernel reads. -/
theorem programHeaders_eq {image : List UInt8} {elf : ELFData} (hp : parseElf image = .ok (.ok elf))
    (hpos : elf.header.phTablePosition = 0x40) :
    programHeaders image = (List.range elf.header.phTableEntryCount).map fun i =>
      ELFProgramHeader.read image (elf.header.phTablePosition + elf.header.phTableEntrySize * i) := by
  obtain ⟨-, hh, -, -, hsize, -⟩ := parseElf_ok hp
  have hcount : (ELFHeader.read image).phTableEntryCount = readLE image 0x38 2 := rfl
  rw [hpos, hsize, hh, hcount]
  apply List.map_congr_left
  intro i _
  rw [show ELF_PH_TABLE_ENTRY_SIZE = 0x38 from rfl, Nat.mul_comm]

end Boot

theorem IsImageEnd.unique {L : List ELFProgramHeader} {v w : Nat} (hv : IsImageEnd L v)
    (hw : IsImageEnd L w) : v = w := by
  obtain ⟨⟨p, hp, rfl⟩, hle⟩ := hv
  obtain ⟨⟨q, hq, rfl⟩, hle'⟩ := hw
  exact Nat.le_antisymm (hle' p hp) (hle q hq)

/-- **With a gap before each segment, both put the InitRD at one address.** For an
image that d7boot and the kernel both accept, whose program header table is at the
standard offset and whose loadable segments each start past the end of the one
before, above address 0 and far enough below the top of `u64` to round up, d7boot
copies the InitRD where the kernel reads it, at or above the end of every segment. -/
theorem initrd_addresses_agree_of_gaps {image : List UInt8} {elf : ELFData}
    (hcheck : Boot.checkElf image = .ok ()) (hparse : parseElf image = .ok (.ok elf))
    (hpos : elf.header.phTablePosition = 0x40) (hne : elf.phTable.toList.filterMap id ≠ [])
    (hgaps : (elf.phTable.toList.filterMap id).IsChain fun p q => p.endAddr < q.virtualAddress)
    (hfirst : ∀ p ∈ (elf.phTable.toList.filterMap id).head?, 0 < p.virtualAddress)
    (hfit : ∀ p ∈ elf.phTable.toList.filterMap id, p.endAddr + (PAGE_SIZE_BYTES - 1) < UInt64.size) :
    ∃ a, Boot.initrdDst image = .ok a ∧ initrdStart image = .ok a ∧
      ∀ p ∈ elf.phTable.toList.filterMap id, p.endAddr ≤ a := by
  have hmem : ∀ p, some p ∈ elf.phTable.toList → p ∈ elf.phTable.toList.filterMap id :=
    fun p hp => List.mem_filterMap.mpr ⟨some p, hp, rfl⟩
  have hends : ∀ p ∈ elf.phTable.toList.filterMap id, p.endAddr < UInt64.size :=
    fun p hp => lt_of_le_of_lt (Nat.le_add_right _ _) (hfit p hp)
  have hsome : ∃ p, some p ∈ elf.phTable.toList := by
    obtain ⟨p, hp⟩ := List.exists_mem_of_ne_nil _ hne
    exact ⟨p, by simpa using hp⟩
  -- the kernel: `last_addr` is the end of the image, which is the end of the last segment
  obtain ⟨v, hv, hend⟩ := lastAddr_isImageEnd (fun p hp => hends p (hmem p hp)) hsome
  have hlast := isImageEnd_getLast_of_gaps _ hne hgaps
  have hvl : v = ((elf.phTable.toList.filterMap id).getLast hne).endAddr := hend.unique hlast
  have hpk : parseKernelElf image = .ok elf := by rw [parseKernelElf, hparse]
  have hround := pageAlignUp_eq_boot (hfit _ (List.getLast_mem hne))
  have hk : initrdStart image = .ok (Boot.pageAlignUp
      ((elf.phTable.toList.filterMap id).getLast hne).endAddr) := by
    rw [initrdStart, hpk, Except.ok_bind, hv, Except.ok_bind, hvl, hround]
  -- the bootloader: every loadable segment raises `max_vaddr`
  have hloads := parseElf_loads hparse
  have hload : ∀ p ∈ elf.phTable.toList.filterMap id, p.headerType = 1 := by
    intro p hp
    rw [hloads, List.mem_filter] at hp
    simpa [ELFProgramHeader.loadable] using hp.2
  have hmax : Boot.maxVaddr image = ((elf.phTable.toList.filterMap id).getLast hne).endAddr := by
    rw [Boot.maxVaddr, Boot.programHeaders_eq hparse hpos, Boot.foldl_raiseMaxVaddr_filter, ← hloads]
    exact Boot.foldl_raiseMaxVaddr_of_gaps _ 0 hne hload hends hgaps
      (hfirst _ (List.head_mem_head? hne))
  have hboot : Boot.initrdDst image = .ok (Boot.pageAlignUp
      ((elf.phTable.toList.filterMap id).getLast hne).endAddr) := by
    rw [Boot.initrdDst, hcheck, Except.ok_bind, hmax]
    rfl
  refine ⟨_, hboot, hk, fun p hp => ?_⟩
  calc p.endAddr ≤ ((elf.phTable.toList.filterMap id).getLast hne).endAddr := hlast.2 p hp
    _ ≤ _ := le_pageAlignUp hround

/-- Data one 4 KiB page past the end of the code. -/
def gapDataSegment : ELFProgramHeader := ⟨1, 6, 0, 0x100_2000, 0, 0x30_0000⟩

/-- The image of `adjacentImage`'s layout with a page between the two segments. -/
def gapImage : List UInt8 :=
  leBytes 4 ELF_MAGIC ++ [2, 1, 1, 0] ++ leBytes 8 0 ++ leBytes 2 2 ++ leBytes 2 ELF_ARCH_X86_64 ++
    leBytes 4 1 ++ leBytes 8 Boot.KERNEL_ENTRY_POINT ++ leBytes 8 64 ++ leBytes 8 0 ++
    leBytes 4 0 ++ leBytes 2 64 ++ leBytes 2 ELF_PH_TABLE_ENTRY_SIZE ++ leBytes 2 2 ++ leBytes 6 0 ++
  textSegment.bytes ++ gapDataSegment.bytes

/-- What the kernel parses from `gapImage`. -/
def gapElf : ELFData :=
  ⟨ELFHeader.read gapImage, ((Vector.replicate MAX_PH_ENTRY_COUNT none).set 0 (some textSegment)
    (by decide)).set 1 (some gapDataSegment) (by decide)⟩

set_option maxRecDepth 8000 in
theorem parseElf_gapImage : parseElf gapImage = .ok (.ok gapElf) := by
  rfl

theorem initrd_addresses_agree_gapImage :
    Boot.checkElf gapImage = .ok () ∧ parseElf gapImage = .ok (.ok gapElf) ∧
      gapElf.header.phTablePosition = 0x40 ∧ gapElf.phTable.toList.filterMap id ≠ [] ∧
      (gapElf.phTable.toList.filterMap id).IsChain (fun p q => p.endAddr < q.virtualAddress) ∧
      (∀ p ∈ (gapElf.phTable.toList.filterMap id).head?, 0 < p.virtualAddress) ∧
      (∀ p ∈ gapElf.phTable.toList.filterMap id, p.endAddr + (PAGE_SIZE_BYTES - 1) < UInt64.size) ∧
      ∃ a, Boot.initrdDst gapImage = .ok a ∧ initrdStart gapImage = .ok a ∧
        ∀ p ∈ gapElf.phTable.toList.filterMap id, p.endAddr ≤ a := by
  have hcheck : Boot.checkElf gapImage = .ok () := by decide +kernel
  have hne : gapElf.phTable.toList.filterMap id ≠ [] := by decide +kernel
  have hgaps : (gapElf.phTable.toList.filterMap id).IsChain
      (fun p q => p.endAddr < q.virtualAddress) := by decide +kernel
  have hfirst : ∀ p ∈ (gapElf.phTable.toList.filterMap id).head?, 0 < p.virtualAddress := by
    decide +kernel
  have hfit : ∀ p ∈ gapElf.phTable.toList.filterMap id,
      p.endAddr + (PAGE_SIZE_BYTES - 1) < UInt64.size := by decide +kernel
  exact ⟨hcheck, parseElf_gapImage, rfl, hne, hgaps, hfirst, hfit,
    initrd_addresses_agree_of_gaps hcheck parseElf_gapImage rfl hne hgaps hfirst hfit⟩

end D7os
