import D7os.Multitasking.WaitFor
import D7os.Lib.List

/-!
# The ELF parser

`src/util/elf_parser.rs`: `parse_elf` reads the packed 64-byte header with
`read_unaligned`, checks it field by field and then copies the program headers
of type `PT_LOAD` into a table of `MAX_PH_ENTRY_COUNT` slots. The image is a byte
list; a field is the little-endian value of its bytes. Slicing past the end of
the image, an offset that overflows `usize`, and a twenty-first loadable header
all panic, with the messages of `core`.

Only the fields that the kernel reads are kept (see `ELFHeader`).
-/

namespace D7os

/-- The little-endian value of the `n` bytes of `data` from `off`. -/
def readLE (data : List UInt8) (off n : Nat) : Nat :=
  ((data.drop off).take n).foldr (fun b acc => b.toNat + 256 * acc) 0

/-- The `width` little-endian bytes of `value`, the layout `readLE` reads. -/
def leBytes (width value : Nat) : List UInt8 :=
  (List.range width).map fun i => (value / Nat.pow 256 i % 256).toUInt8

@[simp] theorem leBytes_length (w v : Nat) : (leBytes w v).length = w := by
  simp [leBytes]

theorem leBytes_succ (w v : Nat) : leBytes (w + 1) v = (v % 256).toUInt8 :: leBytes w (v / 256) := by
  unfold leBytes
  rw [List.range_succ_eq_map, List.map_cons, List.map_map]
  congr 1
  · simp [Nat.pow_eq]
  · apply List.map_congr_left
    intro i _
    simp only [Function.comp, Nat.pow_eq, Nat.div_div_eq_div_mul, Nat.pow_add_one']

theorem foldr_leBytes (w v : Nat) :
    (leBytes w v).foldr (fun b acc => b.toNat + 256 * acc) 0 = v % Nat.pow 256 w := by
  induction w generalizing v with
  | zero => simp [leBytes, Nat.mod_one]
  | succ w ih =>
    rw [leBytes_succ, List.foldr_cons, ih]
    simp only [Nat.pow_eq]
    rw [Nat.pow_add_one', Nat.mod_mul]
    simp

/-- **A field reads back.** `readLE` of the bytes `leBytes` wrote, wherever they stand. -/
theorem readLE_append_leBytes (pre post : List UInt8) (w v : Nat) :
    readLE (pre ++ (leBytes w v ++ post)) pre.length w = v % Nat.pow 256 w := by
  unfold readLE
  rw [List.drop_left, List.take_left' (leBytes_length w v), foldr_leBytes]

/-- A field at the start reads back. -/
theorem readLE_leBytes_append (post : List UInt8) (w v : Nat) :
    readLE (leBytes w v ++ post) 0 w = v % Nat.pow 256 w :=
  readLE_append_leBytes [] post w v

def MAX_PH_ENTRY_COUNT : Nat := 20

def ELF_MAGIC : Nat := 0x464c457f

def ELF_BITNESS_64 : Nat := 2

def ELF_LITTLE_ENDIAN : Nat := 1

def CURRENT_ELF_VERSION : Nat := 1

def ELF_ARCH_X86_64 : Nat := 0x3E

def ELF_PH_TABLE_ENTRY_SIZE : Nat := 56

/-- `size_of::<ELFHeader>()` and `size_of::<ELFProgramHeader>()`, both packed. -/
def ELF_HEADER_SIZE : Nat := 64

def ELF_PROGRAM_HEADER_SIZE : Nat := 56

/-- The panic of `data[..end]` or `data[start..end]` when `end` is past the length. -/
def sliceEndIndexLenFail (index len : Nat) : Panic :=
  "range end index " ++ toString index ++ " out of range for slice of length " ++ toString len

def addOverflow : Panic := "attempt to add with overflow"

/-- `ELFPermissionFlags`. -/
def ELFPermissionFlags.EXECUTABLE : Nat := 1

def ELFPermissionFlags.WRITABLE : Nat := 2

def ELFPermissionFlags.READABLE : Nat := 4

/-- The fields of `ELFHeader` that `parse_elf` checks or the kernel reads later;
the byte offset of each in the packed header is in `ELFHeader.read`. -/
structure ELFHeader where
  magic : Nat
  bitness : Nat
  endianness : Nat
  elfVersion : Nat
  instrucionSet : Nat
  elfVersion2 : Nat
  programEntryPos : Nat
  phTablePosition : Nat
  phTableEntrySize : Nat
  phTableEntryCount : Nat
  deriving DecidableEq, Repr

/-- `ptr::read_unaligned` of the header at the start of `data`. -/
def ELFHeader.read (data : List UInt8) : ELFHeader where
  magic := readLE data 0 4
  bitness := readLE data 4 1
  endianness := readLE data 5 1
  elfVersion := readLE data 6 1
  instrucionSet := readLE data 18 2
  elfVersion2 := readLE data 20 4
  programEntryPos := readLE data 24 8
  phTablePosition := readLE data 32 8
  phTableEntrySize := readLE data 54 2
  phTableEntryCount := readLE data 56 2

/-- The fields of `ELFProgramHeader` that the kernel reads. -/
structure ELFProgramHeader where
  headerType : Nat
  flags : Nat
  offset : Nat
  virtualAddress : Nat
  sizeInFile : Nat
  sizeInMemory : Nat
  deriving DecidableEq, Repr

/-- `ptr::read_unaligned` of a program header at `off`. -/
def ELFProgramHeader.read (data : List UInt8) (off : Nat) : ELFProgramHeader where
  headerType := readLE data off 4
  flags := readLE data (off + 4) 4
  offset := readLE data (off + 8) 8
  virtualAddress := readLE data (off + 16) 8
  sizeInFile := readLE data (off + 32) 8
  sizeInMemory := readLE data (off + 40) 8

def ELFProgramHeader.loadable (ph : ELFProgramHeader) : Bool := ph.headerType == 1

def ELFProgramHeader.hasFlag (ph : ELFProgramHeader) (flag : Nat) : Bool :=
  ph.flags &&& flag == flag

structure ELFData where
  header : ELFHeader
  phTable : Vector (Option ELFProgramHeader) MAX_PH_ENTRY_COUNT

inductive ELFParsingError
  | NotElf
  | Not64Bit
  | WrongEndianness
  | WrongVersion
  | WrongAbi
  | WrongInstrcutionSet
  | WrongElfVersion
  | InvalidELF
  | FeatureSupportMissing
  | EmptyHeader
  deriving DecidableEq, Repr

/-- The derived `Debug` text of an `ELFParsingError`. -/
def ELFParsingError.debug : ELFParsingError → String
  | .NotElf => "NotElf"
  | .Not64Bit => "Not64Bit"
  | .WrongEndianness => "WrongEndianness"
  | .WrongVersion => "WrongVersion"
  | .WrongAbi => "WrongAbi"
  | .WrongInstrcutionSet => "WrongInstrcutionSet"
  | .WrongElfVersion => "WrongElfVersion"
  | .InvalidELF => "InvalidELF"
  | .FeatureSupportMissing => "FeatureSupportMissing"
  | .EmptyHeader => "EmptyHeader"

/-- The program-header loop of `parse_elf`, over the indices still to read, with
the table and the number of loadable headers stored so far. -/
def readProgramHeaders (data : List UInt8) (h : ELFHeader) :
    List Nat → Vector (Option ELFProgramHeader) MAX_PH_ENTRY_COUNT × Nat →
      Except Panic (Vector (Option ELFProgramHeader) MAX_PH_ENTRY_COUNT × Nat)
  | [], acc => .ok acc
  | index :: rest, (table, phTable) =>
    -- `usize` arithmetic of the kernel crate, which is built with overflow checks
    let offset := h.phTablePosition + h.phTableEntrySize * index
    if UInt64.size ≤ offset then .error addOverflow
    else if UInt64.size ≤ offset + ELF_PROGRAM_HEADER_SIZE then .error addOverflow
    else if data.length < offset + ELF_PROGRAM_HEADER_SIZE then
      .error (sliceEndIndexLenFail (offset + ELF_PROGRAM_HEADER_SIZE) data.length)
    else
      let ph := ELFProgramHeader.read data offset
      match ph.headerType with
      | 1 =>
        if hi : phTable < MAX_PH_ENTRY_COUNT then
          readProgramHeaders data h rest (table.set phTable (some ph) hi, phTable + 1)
        else .error ("index out of bounds: the len is 20 but the index is " ++ toString phTable)
      | _ => readProgramHeaders data h rest (table, phTable)

/-- `parse_elf(data)`. -/
def parseElf (data : List UInt8) : Except Panic (Except ELFParsingError ELFData) :=
  if data.length < ELF_HEADER_SIZE then .error (sliceEndIndexLenFail ELF_HEADER_SIZE data.length)
  else
    let h := ELFHeader.read data
    if h.magic ≠ ELF_MAGIC then .ok (.error .NotElf)
    else if h.bitness ≠ ELF_BITNESS_64 then .ok (.error .Not64Bit)
    else if h.phTableEntrySize ≠ ELF_PH_TABLE_ENTRY_SIZE then .ok (.error .InvalidELF)
    else if h.endianness ≠ ELF_LITTLE_ENDIAN then .ok (.error .WrongEndianness)
    else if h.elfVersion ≠ CURRENT_ELF_VERSION ∨ h.elfVersion2 ≠ CURRENT_ELF_VERSION then
      .ok (.error .WrongVersion)
    else if h.instrucionSet ≠ ELF_ARCH_X86_64 then .ok (.error .WrongInstrcutionSet)
    else do
      let (phTable, _) ←
        readProgramHeaders data h (List.range h.phTableEntryCount) (Vector.replicate _ none, 0)
      pure (.ok ⟨h, phTable⟩)

/-! ## What an accepted image holds -/

/-- Every slot the loop fills holds a `PT_LOAD` header read inside the image, and
slots past the count stay empty. -/
def LoadTable (data : List UInt8) (table : Vector (Option ELFProgramHeader) MAX_PH_ENTRY_COUNT)
    (count : Nat) : Prop :=
  ∀ (i : Nat) (hi : i < MAX_PH_ENTRY_COUNT) (ph : ELFProgramHeader), table[i] = some ph →
    i < count ∧ ph.headerType = 1 ∧
      ∃ off, off + ELF_PROGRAM_HEADER_SIZE ≤ data.length ∧ ph = ELFProgramHeader.read data off

theorem loadTable_empty (data : List UInt8) :
    LoadTable data (Vector.replicate MAX_PH_ENTRY_COUNT none) 0 := by
  intro i hi ph h
  simp at h

theorem readProgramHeaders_loadTable (data : List UInt8) (h : ELFHeader) :
    ∀ (indices : List Nat) (table : Vector (Option ELFProgramHeader) MAX_PH_ENTRY_COUNT)
      (count : Nat) (r : Vector (Option ELFProgramHeader) MAX_PH_ENTRY_COUNT × Nat),
      LoadTable data table count → readProgramHeaders data h indices (table, count) = .ok r →
      LoadTable data r.1 r.2 := by
  intro indices
  induction indices with
  | nil =>
    intro table count r hl hr
    cases hr
    exact hl
  | cons index rest ih =>
    intro table count r hl hr
    simp only [readProgramHeaders] at hr
    split at hr
    · cases hr
    split at hr
    · cases hr
    split at hr
    · cases hr
    rename_i _ _ hlen
    split at hr
    · -- a loadable header goes to slot `count`
      rename_i htype
      split at hr
      · rename_i hc
        refine ih _ _ r ?_ hr
        intro i hi ph hget
        by_cases hic : i = count
        · subst hic
          simp only [Vector.getElem_set_self, Option.some.injEq] at hget
          subst hget
          exact ⟨by omega, htype, _, by omega, rfl⟩
        · rw [Vector.getElem_set_ne _ _ (Ne.symm hic)] at hget
          obtain ⟨hlt, hty, hin⟩ := hl i hi ph hget
          exact ⟨by omega, hty, hin⟩
      · cases hr
    · exact ih table count r hl hr

/-- A table filled from slot 0 with `L`, the rest empty, holds `L` in order. -/
theorem filterMap_id_filled (L : List ELFProgramHeader) (k : Nat) :
    (L.map some ++ List.replicate k none).filterMap id = L := by
  rw [List.filterMap_append, List.filterMap_map]
  simp

/-- **The table holds the loadable headers in order.** The loop appends each
`PT_LOAD` header it reads to the filled slots, in the order of the indices. -/
theorem readProgramHeaders_loads (data : List UInt8) (h : ELFHeader) :
    ∀ (indices : List Nat) (L : List ELFProgramHeader)
      (table : Vector (Option ELFProgramHeader) MAX_PH_ENTRY_COUNT)
      (r : Vector (Option ELFProgramHeader) MAX_PH_ENTRY_COUNT × Nat),
      table.toList = L.map some ++ List.replicate (MAX_PH_ENTRY_COUNT - L.length) none →
      readProgramHeaders data h indices (table, L.length) = .ok r →
      r.1.toList.filterMap id = L ++ (indices.map fun i =>
        ELFProgramHeader.read data (h.phTablePosition + h.phTableEntrySize * i)).filter
          ELFProgramHeader.loadable := by
  intro indices
  induction indices with
  | nil =>
    intro L table r ht hr
    cases hr
    rw [ht, filterMap_id_filled]
    simp
  | cons index rest ih =>
    intro L table r ht hr
    simp only [readProgramHeaders] at hr
    split at hr
    · cases hr
    split at hr
    · cases hr
    split at hr
    · cases hr
    split at hr
    · rename_i htype
      split at hr
      · rename_i hi
        -- the header goes to the first empty slot, `L.length`
        have ht' : (table.set L.length (some (ELFProgramHeader.read data
            (h.phTablePosition + h.phTableEntrySize * index))) hi).toList =
            (L ++ [ELFProgramHeader.read data (h.phTablePosition + h.phTableEntrySize * index)]).map some ++
              List.replicate (MAX_PH_ENTRY_COUNT - (L ++ [ELFProgramHeader.read data
                (h.phTablePosition + h.phTableEntrySize * index)]).length) none := by
          have hk : MAX_PH_ENTRY_COUNT - L.length = MAX_PH_ENTRY_COUNT - (L.length + 1) + 1 := by
            omega
          rw [Vector.toList_set, ht, hk, List.replicate_succ, ← List.length_map (f := some),
            List.set_append_length, List.length_map, List.length_append, List.length_singleton,
            List.map_append, List.map_singleton, List.append_assoc, List.singleton_append]
        have := ih _ _ r ht' (by rw [List.length_append, List.length_singleton]; exact hr)
        rw [this, List.map_cons, List.filter_cons_of_pos (by simp [ELFProgramHeader.loadable, htype]),
          List.append_assoc, List.singleton_append]
      · cases hr
    · rename_i htype
      rw [ih L table r ht hr, List.map_cons,
        List.filter_cons_of_neg (by simpa [ELFProgramHeader.loadable] using htype)]

/-- **What `parse_elf` accepts.** An image it returns `Ok` for is at least a header
long, passes every header check, and its table holds only `PT_LOAD` headers read
from inside the image. -/
theorem parseElf_ok {data : List UInt8} {elf : ELFData} (hp : parseElf data = .ok (.ok elf)) :
    ELF_HEADER_SIZE ≤ data.length ∧ elf.header = ELFHeader.read data ∧
      elf.header.magic = ELF_MAGIC ∧ elf.header.bitness = ELF_BITNESS_64 ∧
      elf.header.phTableEntrySize = ELF_PH_TABLE_ENTRY_SIZE ∧
      elf.header.endianness = ELF_LITTLE_ENDIAN ∧ elf.header.elfVersion = CURRENT_ELF_VERSION ∧
      elf.header.elfVersion2 = CURRENT_ELF_VERSION ∧ elf.header.instrucionSet = ELF_ARCH_X86_64 ∧
      ∃ count, LoadTable data elf.phTable count := by
  unfold parseElf at hp
  dsimp only at hp
  -- every failed check returns before the loop
  split_ifs at hp with hlen hm hb hs he hv hi <;> try cases hp
  cases hr : readProgramHeaders data (ELFHeader.read data)
    (List.range (ELFHeader.read data).phTableEntryCount) (Vector.replicate _ none, 0) with
  | error e => simp [hr, bind, Except.bind] at hp
  | ok r =>
    simp only [hr, bind, Except.bind, pure, Except.pure, Except.ok.injEq] at hp
    subst hp
    simp only [not_or, not_not] at hm hb hs he hv hi
    exact ⟨by omega, rfl, hm, hb, hs, he, hv.1, hv.2, hi, r.2,
      readProgramHeaders_loadTable _ _ _ _ _ r (loadTable_empty data) hr⟩

/-- The table of an accepted image holds its `PT_LOAD` headers in the order of
the program header table. -/
theorem parseElf_loads {data : List UInt8} {elf : ELFData} (hp : parseElf data = .ok (.ok elf)) :
    elf.phTable.toList.filterMap id = ((List.range elf.header.phTableEntryCount).map fun i =>
      ELFProgramHeader.read data (elf.header.phTablePosition + elf.header.phTableEntrySize * i)).filter
        ELFProgramHeader.loadable := by
  unfold parseElf at hp
  dsimp only at hp
  split_ifs at hp <;> try cases hp
  cases hr : readProgramHeaders data (ELFHeader.read data)
    (List.range (ELFHeader.read data).phTableEntryCount) (Vector.replicate _ none, 0) with
  | error e => simp [hr, bind, Except.bind] at hp
  | ok r =>
    simp only [hr, bind, Except.bind, pure, Except.pure, Except.ok.injEq] at hp
    subst hp
    exact (readProgramHeaders_loads data _ _ [] _ r (by simp) hr).trans (List.nil_append _)

end D7os
