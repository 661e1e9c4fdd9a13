import D7os.Driver.Rsdp
import D7os.Initrd.Image
import D7os.Lib.AList

/-!
# The ACPI tables: the root table and the MADT

`src/driver/acpi/tables/mod.rs`: `init_rsdt` follows the descriptor `parse_rsdp`
accepted to the root table, compares its signature with `"RSDT"`, and keeps each
table its `(length - 36) / size` pointers name under that table's signature.
`tables/madt.rs`: `init` walks the entries of the table kept under `"APIC"` (a
type byte, a size byte, a body) to the table's end, keeping the processors, the
I/O APICs and the interrupt source overrides in order.

The signature is compared with `"RSDT"` whatever the descriptor pointed to, so
an ACPI 2.0 descriptor, whose table is signed `"XSDT"`, ends in the assertion.
`length - 36` and `entry_size - 2` panic when they would wrap. Memory is physical
memory; `phys_to_virt` and the `log` calls are left out.
-/

namespace D7os.Acpi

/-! ## Reading memory -/

/-- The little-endian value of the `n` bytes at `p`: `*(p as *const u32)` for
`n = 4`. -/
def readAt (mem : Nat → UInt8) (p n : Nat) : Nat := readLE (bytesAt mem p n) 0 n

/-- Memory holds `bytes` from `p` on. -/
def Stores (mem : Nat → UInt8) (p : Nat) (bytes : List UInt8) : Prop :=
  bytesAt mem p bytes.length = bytes

instance (mem : Nat → UInt8) (p : Nat) (bytes : List UInt8) : Decidable (Stores mem p bytes) :=
  inferInstanceAs (Decidable (bytesAt mem p bytes.length = bytes))

/-- `assert_eq!(left, right)` with no message, the two sides as `Debug` prints them. -/
def assertEqPanic (left right : String) : Panic :=
  "assertion `left == right` failed\n  left: " ++ left ++ "\n right: " ++ right

/-- `assert_eq!(left, right)` on two `usize`. -/
def assertEq (left right : Nat) : Except Panic Unit :=
  if left = right then .ok () else .error (assertEqPanic (toString left) (toString right))

theorem stores_append {mem : Nat → UInt8} {p : Nat} {a b : List UInt8} :
    Stores mem p (a ++ b) ↔ Stores mem p a ∧ Stores mem (p + a.length) b := by
  unfold Stores
  rw [List.length_append, bytesAt_add]
  constructor
  · intro h
    exact List.append_inj h (by simp [bytesAt])
  · rintro ⟨ha, hb⟩
    rw [ha, hb]

theorem stores_cons {mem : Nat → UInt8} {p : Nat} {b : UInt8} {l : List UInt8} :
    Stores mem p (b :: l) ↔ mem p = b ∧ Stores mem (p + 1) l := by
  rw [← List.singleton_append, stores_append]
  simp [Stores, bytesAt]

@[simp] theorem stores_nil (mem : Nat → UInt8) (p : Nat) : Stores mem p [] := by
  simp [Stores, bytesAt]

theorem stores_bytesAt (mem : Nat → UInt8) (p n : Nat) : Stores mem p (bytesAt mem p n) := by
  simp [Stores, bytesAt]

/-- The bytes of a little-endian value are the bytes it was read from. -/
theorem leBytes_readLE : ∀ l : List UInt8, leBytes l.length (readLE l 0 l.length) = l
  | [] => rfl
  | b :: l => by
    have hread : readLE (b :: l) 0 (l.length + 1) = b.toNat + 256 * readLE l 0 l.length := by
      simp [readLE]
    have hb : b.toNat < 256 := b.toNat_lt
    have hback : b.toNat.toUInt8 = b := UInt8.ofNat_toNat
    rw [List.length_cons, hread, leBytes_succ,
      show (b.toNat + 256 * readLE l 0 l.length) % 256 = b.toNat by omega,
      show (b.toNat + 256 * readLE l 0 l.length) / 256 = readLE l 0 l.length by omega,
      hback, leBytes_readLE l]

theorem readAt_of_stores {mem : Nat → UInt8} {p n v : Nat} (h : Stores mem p (leBytes n v)) :
    readAt mem p n = v % Nat.pow 256 n := by
  unfold Stores at h
  rw [leBytes_length] at h
  unfold readAt
  rw [h]
  simpa using readLE_leBytes_append [] n v

theorem stores_readAt (mem : Nat → UInt8) (p n : Nat) : Stores mem p (leBytes n (readAt mem p n)) := by
  have hl : (bytesAt mem p n).length = n := by simp [bytesAt]
  have hback := leBytes_readLE (bytesAt mem p n)
  rw [hl] at hback
  unfold Stores readAt
  rw [leBytes_length, hback]

theorem readAt_lt (mem : Nat → UInt8) (p n : Nat) : readAt mem p n < Nat.pow 256 n := by
  rw [readAt_of_stores (stores_readAt mem p n)]
  exact Nat.mod_lt _ (Nat.pow_pos (by decide))

/-- **A field reads as `v` exactly when memory holds the bytes of `v`.** -/
theorem readAt_eq_iff {mem : Nat → UInt8} {p n v : Nat} (hv : v < Nat.pow 256 n) :
    readAt mem p n = v ↔ Stores mem p (leBytes n v) := by
  constructor
  · rintro rfl
    exact stores_readAt mem p n
  · intro h
    rw [readAt_of_stores h, Nat.mod_eq_of_lt hv]

@[simp] theorem toUInt16_readAt_eq_iff {mem : Nat → UInt8} {p : Nat} {x : UInt16} :
    (readAt mem p 2).toUInt16 = x ↔ Stores mem p (leBytes 2 x.toNat) := by
  rw [← readAt_eq_iff x.toNat_lt_size]
  constructor
  · rintro rfl
    exact (UInt16.toNat_ofNat_of_lt' (readAt_lt mem p 2)).symm
  · intro h
    rw [h]
    exact UInt16.ofNat_toNat

@[simp] theorem toUInt32_readAt_eq_iff {mem : Nat → UInt8} {p : Nat} {x : UInt32} :
    (readAt mem p 4).toUInt32 = x ↔ Stores mem p (leBytes 4 x.toNat) := by
  rw [← readAt_eq_iff x.toNat_lt_size]
  constructor
  · rintro rfl
    exact (UInt32.toNat_ofNat_of_lt' (readAt_lt mem p 4)).symm
  · intro h
    rw [h]
    exact UInt32.ofNat_toNat

@[simp] theorem toUInt64_readAt_eq_iff {mem : Nat → UInt8} {p : Nat} {x : UInt64} :
    (readAt mem p 8).toUInt64 = x ↔ Stores mem p (leBytes 8 x.toNat) := by
  rw [← readAt_eq_iff x.toNat_lt_size]
  constructor
  · rintro rfl
    exact (UInt64.toNat_ofNat_of_lt' (readAt_lt mem p 8)).symm
  · intro h
    rw [h]
    exact UInt64.ofNat_toNat

/-! ## The root table -/

/-- `size_of::<SDTHeader>()`. -/
def SDT_HEADER_SIZE : Nat := 36

/-- The two fields of `SDTHeader` that the code reads. -/
structure SDTHeader where
  signature : List UInt8
  length : Nat
  deriving DecidableEq, Repr

/-- `*(p as *const SDTHeader)`. -/
def SDTHeader.read (mem : Nat → UInt8) (p : Nat) : SDTHeader :=
  ⟨bytesAt mem p 4, readAt mem (p + 4) 4⟩

/-- `b"RSDT"`. -/
def RSDT_SIGNATURE : List UInt8 := [0x52, 0x53, 0x44, 0x54]

/-- `b"APIC"`. -/
def APIC_SIGNATURE : List UInt8 := [0x41, 0x50, 0x49, 0x43]

/-- The signature ACPI gives the root table of revision 2. -/
def XSDT_SIGNATURE : List UInt8 := [0x58, 0x53, 0x44, 0x54]

/-- `{:?}` of an `RSDPParseError`. -/
def RSDPParseError.debug : RSDPParseError → String
  | .NotFound => "NotFound"
  | .UnsupportedVersion => "UnsupportedVersion"
  | .IncorrectChecksum => "IncorrectChecksum"

/-- `header_ptr_u64`. -/
def ParseResult.headerPtr : ParseResult → Nat
  | .RSDT p => p
  | .XSDT p => p

/-- `body_ptr_size`. -/
def ParseResult.bodyPtrSize : ParseResult → Nat
  | .RSDT _ => 4
  | .XSDT _ => 8

/-- `LEGAZY_ACPI`. -/
def ParseResult.legacy : ParseResult → Bool
  | .RSDT _ => true
  | .XSDT _ => false

/-- `RSDT_ENTRIES`: the address of each table under its signature. -/
abbrev RsdtEntries := AList (fun _ : List UInt8 => Nat)

/-- The table pointer at `index` of the root table at `headerPtr`. -/
def bodyPointer (mem : Nat → UInt8) (headerPtr bodyPtrSize index : Nat) : Nat :=
  readAt mem (headerPtr + (SDT_HEADER_SIZE + index * bodyPtrSize)) bodyPtrSize

/-- The loop of `init_rsdt` over the body pointers. -/
def collectTables (mem : Nat → UInt8) (headerPtr bodyPtrSize entryCount : Nat) : RsdtEntries :=
  (List.range entryCount).foldl
    (fun result index =>
      let vptr := bodyPointer mem headerPtr bodyPtrSize index
      result.insert (SDTHeader.read mem vptr).signature vptr)
    ∅

/-- `init_rsdt()`, given what `get_rsdp_and_parse` returned: `LEGAZY_ACPI` and
`RSDT_ENTRIES`. -/
def initRsdt (mem : Nat → UInt8) (parsed : Except RSDPParseError ParseResult) :
    Except Panic (Bool × RsdtEntries) :=
  match parsed with
  | .error error => .error ("RSDT error " ++ error.debug)
  | .ok result =>
    let rootHeader := SDTHeader.read mem result.headerPtr
    if rootHeader.signature ≠ RSDT_SIGNATURE then
      .error (assertEqPanic (toString rootHeader.signature) (toString RSDT_SIGNATURE))
    -- `root_header.length as usize - size_of::<SDTHeader>()`
    else if rootHeader.length < SDT_HEADER_SIZE then .error Initrd.subOverflow
    else
      let entryCount := (rootHeader.length - SDT_HEADER_SIZE) / result.bodyPtrSize
      .ok (result.legacy, collectTables mem result.headerPtr result.bodyPtrSize entryCount)

/-- `rsdt_get(key)`. -/
def rsdtGet (entries : RsdtEntries) (key : List UInt8) : Option Nat := entries.lookup key

/-! ## The entries of the MADT -/

structure ProcessorLocalAPIC where
  processorId : UInt8
  acpiId : UInt8
  flags : UInt32
  deriving DecidableEq, Repr

structure IoAPIC where
  ioAcpiId : UInt8
  reserved : UInt8
  /-- MMIO base address -/
  ioAcpiAddr : UInt32
  /-- Global system interrupt (first IRQ handled by this) -/
  gsib : UInt32
  deriving DecidableEq, Repr

structure InterruptSourceOverride where
  busSource : UInt8
  irqSource : UInt8
  gsi : UInt32
  flags : UInt16
  deriving DecidableEq, Repr

structure NonMaskableInterrupts where
  processorId : UInt8
  flags : UInt16
  lint : UInt8
  deriving DecidableEq, Repr

structure LocalAPICAddressOverride where
  reserved : UInt16
  localApicAddr : UInt64
  deriving DecidableEq, Repr

/-- `*(ptr as *const ProcessorLocalAPIC)`: the packed fields from `p` on. -/
def ProcessorLocalAPIC.read (mem : Nat → UInt8) (p : Nat) : ProcessorLocalAPIC :=
  ⟨mem p, mem (p + 1), (readAt mem (p + 2) 4).toUInt32⟩

def IoAPIC.read (mem : Nat → UInt8) (p : Nat) : IoAPIC :=
  ⟨mem p, mem (p + 1), (readAt mem (p + 2) 4).toUInt32, (readAt mem (p + 6) 4).toUInt32⟩

def InterruptSourceOverride.read (mem : Nat → UInt8) (p : Nat) : InterruptSourceOverride :=
  ⟨mem p, mem (p + 1), (readAt mem (p + 2) 4).toUInt32, (readAt mem (p + 6) 2).toUInt16⟩

def NonMaskableInterrupts.read (mem : Nat → UInt8) (p : Nat) : NonMaskableInterrupts :=
  ⟨mem p, (readAt mem (p + 1) 2).toUInt16, mem (p + 3)⟩

def LocalAPICAddressOverride.read (mem : Nat → UInt8) (p : Nat) : LocalAPICAddressOverride :=
  ⟨(readAt mem p 2).toUInt16, (readAt mem (p + 2) 8).toUInt64⟩

/-! ### The layout of the entries

The body of an entry is its fields in order, little-endian and without padding
(`#[repr(C, packed)]`). Each packed read gives an entry exactly when memory holds
that entry's bytes. -/

def ProcessorLocalAPIC.toBytes (e : ProcessorLocalAPIC) : List UInt8 :=
  e.processorId :: e.acpiId :: leBytes 4 e.flags.toNat

def IoAPIC.toBytes (e : IoAPIC) : List UInt8 :=
  e.ioAcpiId :: e.reserved :: (leBytes 4 e.ioAcpiAddr.toNat ++ leBytes 4 e.gsib.toNat)

def InterruptSourceOverride.toBytes (e : InterruptSourceOverride) : List UInt8 :=
  e.busSource :: e.irqSource :: (leBytes 4 e.gsi.toNat ++ leBytes 2 e.flags.toNat)

def NonMaskableInterrupts.toBytes (e : NonMaskableInterrupts) : List UInt8 :=
  e.processorId :: (leBytes 2 e.flags.toNat ++ [e.lint])

def LocalAPICAddressOverride.toBytes (e : LocalAPICAddressOverride) : List UInt8 :=
  leBytes 2 e.reserved.toNat ++ leBytes 8 e.localApicAddr.toNat

section Packed

variable {mem : Nat → UInt8} {p : Nat}

theorem ProcessorLocalAPIC.read_eq_iff {e : ProcessorLocalAPIC} :
    ProcessorLocalAPIC.read mem p = e ↔ Stores mem p e.toBytes := by
  cases e
  simp only [read, toBytes, mk.injEq, stores_cons, toUInt32_readAt_eq_iff, Nat.add_assoc,
    Nat.reduceAdd]

theorem IoAPIC.read_eq_iff {e : IoAPIC} : IoAPIC.read mem p = e ↔ Stores mem p e.toBytes := by
  cases e
  simp only [read, toBytes, mk.injEq, stores_cons, stores_append, leBytes_length,
    toUInt32_readAt_eq_iff, Nat.add_assoc, Nat.reduceAdd]

theorem InterruptSourceOverride.read_eq_iff {e : InterruptSourceOverride} :
    InterruptSourceOverride.read mem p = e ↔ Stores mem p e.toBytes := by
  cases e
  simp only [read, toBytes, mk.injEq, stores_cons, stores_append, leBytes_length,
    toUInt32_readAt_eq_iff, toUInt16_readAt_eq_iff, Nat.add_assoc, Nat.reduceAdd]

theorem NonMaskableInterrupts.read_eq_iff {e : NonMaskableInterrupts} :
    NonMaskableInterrupts.read mem p = e ↔ Stores mem p e.toBytes := by
  cases e
  simp only [read, toBytes, mk.injEq, stores_cons, stores_append, stores_nil, leBytes_length,
    toUInt16_readAt_eq_iff, Nat.add_assoc, Nat.reduceAdd, and_true]

theorem LocalAPICAddressOverride.read_eq_iff {e : LocalAPICAddressOverride} :
    LocalAPICAddressOverride.read mem p = e ↔ Stores mem p e.toBytes := by
  cases e
  simp only [read, toBytes, mk.injEq, stores_append, leBytes_length, toUInt16_readAt_eq_iff,
    toUInt64_readAt_eq_iff]

end Packed

/-- `ACPIData`: the local APIC address and the entries kept, in table order. -/
structure ACPIData where
  localApicAddr : Nat
  cpus : List ProcessorLocalAPIC
  ioApics : List IoAPIC
  intSourceOverrides : List InterruptSourceOverride
  deriving DecidableEq, Repr

/-- The `match entry_type` in the loop of `init`: the entry whose body of
`entryBodySize` bytes is at `body`, checked against its type's size and kept. -/
def keepEntry (mem : Nat → UInt8) (body entryBodySize : Nat) (data : ACPIData) :
    Nat → Except Panic ACPIData
  | 0 => do
    assertEq entryBodySize 6
    pure { data with cpus := data.cpus ++ [ProcessorLocalAPIC.read mem body] }
  | 1 => do
    assertEq entryBodySize 10
    pure { data with ioApics := data.ioApics ++ [IoAPIC.read mem body] }
  | 2 => do
    assertEq entryBodySize 8
    pure { data with
      intSourceOverrides := data.intSourceOverrides ++ [InterruptSourceOverride.read mem body] }
  -- the non-maskable interrupts and the address override are read for the log only
  | 4 => do
    assertEq entryBodySize 4
    pure data
  | 5 => do
    assertEq entryBodySize 10
    pure data
  | other => .error ("Unknown APIC entry type " ++ toString other)

/-- One pass of the loop of `init` at the entry at `ptr`: the data with the entry
kept, and the size of the entry's body. -/
def madtEntry (mem : Nat → UInt8) (ptr : Nat) (data : ACPIData) : Except Panic (ACPIData × Nat) :=
  -- `entry_size - 2` on a `u8`
  if (mem (ptr + 1)).toNat < 2 then .error Initrd.subOverflow
  else
    let entryBodySize := (mem (ptr + 1)).toNat - 2
    (keepEntry mem (ptr + 2) entryBodySize data (mem ptr).toNat).map fun data => (data, entryBodySize)

/-- The loop of `init`: entries until the pointer lands on `tableEnd`. -/
def madtLoop (mem : Nat → UInt8) (tableEnd ptr : Nat) (data : ACPIData) : Except Panic ACPIData :=
  match madtEntry mem ptr data with
  | .error e => .error e
  | .ok (data, entryBodySize) =>
    if ptr + 2 + entryBodySize = tableEnd then .ok data
    else if ptr + 2 + entryBodySize < tableEnd then madtLoop mem tableEnd (ptr + 2 + entryBodySize) data
    else .error (assertFailed "ptr < table_end")
termination_by tableEnd - ptr

/-- `madt::init()`, given `RSDT_ENTRIES`: `ACPI_DATA`. -/
def madtInit (mem : Nat → UInt8) (entries : RsdtEntries) : Except Panic ACPIData :=
  match rsdtGet entries APIC_SIGNATURE with
  | none => .error "APIC table not found"
  | some apicAddr =>
    let header := SDTHeader.read mem apicAddr
    if header.length ≤ 8 then .error (assertFailed "header.length > 8")
    else
      -- the local APIC address and the flags stand between the header and the entries
      madtLoop mem (apicAddr + header.length) (apicAddr + SDT_HEADER_SIZE + 8)
        ⟨readAt mem (apicAddr + SDT_HEADER_SIZE) 4, [], [], []⟩

/-! ## The entries of a MADT, read back -/

/-- An entry of the MADT, of one of the five types `init` knows. -/
inductive MadtEntry
  | processor (e : ProcessorLocalAPIC)
  | ioApic (e : IoAPIC)
  | sourceOverride (e : InterruptSourceOverride)
  | nmi (e : NonMaskableInterrupts)
  | addressOverride (e : LocalAPICAddressOverride)
  deriving DecidableEq, Repr

namespace MadtEntry

def entryType : MadtEntry → Nat
  | processor _ => 0
  | ioApic _ => 1
  | sourceOverride _ => 2
  | nmi _ => 4
  | addressOverride _ => 5

def body : MadtEntry → List UInt8
  | processor e => e.toBytes
  | ioApic e => e.toBytes
  | sourceOverride e => e.toBytes
  | nmi e => e.toBytes
  | addressOverride e => e.toBytes

/-- The type byte, the size byte (which counts these two), and the body. -/
def toBytes (e : MadtEntry) : List UInt8 :=
  e.entryType.toUInt8 :: (e.body.length + 2).toUInt8 :: e.body

def cpu? : MadtEntry → Option ProcessorLocalAPIC
  | processor e => some e
  | ioApic _ => none
  | sourceOverride _ => none
  | nmi _ => none
  | addressOverride _ => none

def ioApic? : MadtEntry → Option IoAPIC
  | processor _ => none
  | ioApic e => some e
  | sourceOverride _ => none
  | nmi _ => none
  | addressOverride _ => none

def sourceOverride? : MadtEntry → Option InterruptSourceOverride
  | processor _ => none
  | ioApic _ => none
  | sourceOverride e => some e
  | nmi _ => none
  | addressOverride _ => none

theorem entryType_lt (e : MadtEntry) : e.entryType < 6 := by
  cases e <;> simp [entryType]

theorem body_length_le (e : MadtEntry) : e.body.length ≤ 10 := by
  cases e <;> simp [body, ProcessorLocalAPIC.toBytes, IoAPIC.toBytes,
    InterruptSourceOverride.toBytes, NonMaskableInterrupts.toBytes, LocalAPICAddressOverride.toBytes]

theorem toBytes_length (e : MadtEntry) : e.toBytes.length = e.body.length + 2 := by
  simp [toBytes]

end MadtEntry

/-- `data` with the processors, the I/O APICs and the interrupt source overrides
among `entries` added, in order. -/
def ACPIData.append (data : ACPIData) (entries : List MadtEntry) : ACPIData :=
  { data with
    cpus := data.cpus ++ entries.filterMap MadtEntry.cpu?
    ioApics := data.ioApics ++ entries.filterMap MadtEntry.ioApic?
    intSourceOverrides := data.intSourceOverrides ++ entries.filterMap MadtEntry.sourceOverride? }

@[simp] theorem ACPIData.append_append (data : ACPIData) (l₁ l₂ : List MadtEntry) :
    (data.append l₁).append l₂ = data.append (l₁ ++ l₂) := by
  simp [ACPIData.append, List.filterMap_append]

@[simp] theorem ACPIData.append_processor (data : ACPIData) (e : ProcessorLocalAPIC) :
    data.append [.processor e] = { data with cpus := data.cpus ++ [e] } := by
  simp [ACPIData.append, MadtEntry.cpu?, MadtEntry.ioApic?, MadtEntry.sourceOverride?]

@[simp] theorem ACPIData.append_ioApic (data : ACPIData) (e : IoAPIC) :
    data.append [.ioApic e] = { data with ioApics := data.ioApics ++ [e] } := by
  simp [ACPIData.append, MadtEntry.cpu?, MadtEntry.ioApic?, MadtEntry.sourceOverride?]

@[simp] theorem ACPIData.append_sourceOverride (data : ACPIData) (e : InterruptSourceOverride) :
    data.append [.sourceOverride e] =
      { data with intSourceOverrides := data.intSourceOverrides ++ [e] } := by
  simp [ACPIData.append, MadtEntry.cpu?, MadtEntry.ioApic?, MadtEntry.sourceOverride?]

@[simp] theorem ACPIData.append_nmi (data : ACPIData) (e : NonMaskableInterrupts) :
    data.append [.nmi e] = data := by
  cases data
  simp [ACPIData.append, MadtEntry.cpu?, MadtEntry.ioApic?, MadtEntry.sourceOverride?]

@[simp] theorem ACPIData.append_addressOverride (data : ACPIData) (e : LocalAPICAddressOverride) :
    data.append [.addressOverride e] = data := by
  cases data
  simp [ACPIData.append, MadtEntry.cpu?, MadtEntry.ioApic?, MadtEntry.sourceOverride?]

theorem assertEq_then_eq_ok {α : Type} {a b : Nat} {x y : α} :
    (do assertEq a b; pure x : Except Panic α) = .ok y ↔ a = b ∧ x = y := by
  unfold assertEq
  by_cases h : a = b <;> simp [h, bind, Except.bind, pure, Except.pure]

section Entries

variable {mem : Nat → UInt8}

/-- An entry of a known type, checked against its size and kept. -/
theorem keepEntry_entry {body : Nat} (e : MadtEntry) (h : Stores mem body e.body) (data : ACPIData) :
    keepEntry mem body e.body.length data e.entryType = .ok (data.append [e]) := by
  cases e with
  | processor e =>
    have hread := ProcessorLocalAPIC.read_eq_iff.mpr h
    simp [keepEntry, assertEq, MadtEntry.entryType, MadtEntry.body, ProcessorLocalAPIC.toBytes, hread]
  | ioApic e =>
    have hread := IoAPIC.read_eq_iff.mpr h
    simp [keepEntry, assertEq, MadtEntry.entryType, MadtEntry.body, IoAPIC.toBytes, hread]
  | sourceOverride e =>
    have hread := InterruptSourceOverride.read_eq_iff.mpr h
    simp [keepEntry, assertEq, MadtEntry.entryType, MadtEntry.body, InterruptSourceOverride.toBytes,
      hread]
  | nmi e =>
    simp [keepEntry, assertEq, MadtEntry.entryType, MadtEntry.body, NonMaskableInterrupts.toBytes]
  | addressOverride e =>
    simp [keepEntry, assertEq, MadtEntry.entryType, MadtEntry.body, LocalAPICAddressOverride.toBytes]

/-- What `keepEntry` keeps is an entry whose body memory holds. -/
theorem keepEntry_eq_ok {body entryBodySize t : Nat} {data d : ACPIData}
    (h : keepEntry mem body entryBodySize data t = .ok d) :
    ∃ e : MadtEntry, e.entryType = t ∧ e.body.length = entryBodySize ∧ Stores mem body e.body ∧
      d = data.append [e] := by
  -- the five known types, then the others, which panic
  match t, h with
  | 0, h =>
    obtain ⟨rfl, rfl⟩ := assertEq_then_eq_ok.mp h
    exact ⟨.processor (ProcessorLocalAPIC.read mem body), rfl, rfl,
      ProcessorLocalAPIC.read_eq_iff.mp rfl, (ACPIData.append_processor _ _).symm⟩
  | 1, h =>
    obtain ⟨rfl, rfl⟩ := assertEq_then_eq_ok.mp h
    exact ⟨.ioApic (IoAPIC.read mem body), rfl, rfl, IoAPIC.read_eq_iff.mp rfl,
      (ACPIData.append_ioApic _ _).symm⟩
  | 2, h =>
    obtain ⟨rfl, rfl⟩ := assertEq_then_eq_ok.mp h
    exact ⟨.sourceOverride (InterruptSourceOverride.read mem body), rfl, rfl,
      InterruptSourceOverride.read_eq_iff.mp rfl, (ACPIData.append_sourceOverride _ _).symm⟩
  | 4, h =>
    obtain ⟨rfl, rfl⟩ := assertEq_then_eq_ok.mp h
    exact ⟨.nmi (NonMaskableInterrupts.read mem body), rfl, rfl,
      NonMaskableInterrupts.read_eq_iff.mp rfl, (ACPIData.append_nmi _ _).symm⟩
  | 5, h =>
    obtain ⟨rfl, rfl⟩ := assertEq_then_eq_ok.mp h
    exact ⟨.addressOverride (LocalAPICAddressOverride.read mem body), rfl, rfl,
      LocalAPICAddressOverride.read_eq_iff.mp rfl, (ACPIData.append_addressOverride _ _).symm⟩
  | 3, h => simp [keepEntry] at h
  | t + 6, h => simp [keepEntry] at h

/-- One pass of the loop over the bytes of an entry keeps the entry. -/
theorem madtEntry_entry {ptr : Nat} {e : MadtEntry} (h : Stores mem ptr e.toBytes) (data : ACPIData) :
    madtEntry mem ptr data = .ok (data.append [e], e.body.length) := by
  rw [MadtEntry.toBytes, stores_cons, stores_cons] at h
  obtain ⟨htype, hsize, hbody⟩ := h
  have hlen := e.body_length_le
  have hsize8 : UInt8.size = 256 := rfl
  have hs : (mem (ptr + 1)).toNat = e.body.length + 2 := by
    rw [hsize]
    exact UInt8.toNat_ofNat_of_lt' (by omega)
  have ht : (mem ptr).toNat = e.entryType := by
    rw [htype]
    exact UInt8.toNat_ofNat_of_lt' (by have := e.entryType_lt; omega)
  rw [Nat.add_assoc] at hbody
  simp only [madtEntry, hs, ht, Nat.add_sub_cancel, keepEntry_entry e hbody]
  rw [if_neg (by omega)]
  rfl

/-- What one pass of the loop keeps is an entry that memory holds at `ptr`. -/
theorem madtEntry_eq_ok {ptr entryBodySize : Nat} {data d : ACPIData}
    (h : madtEntry mem ptr data = .ok (d, entryBodySize)) :
    ∃ e : MadtEntry, Stores mem ptr e.toBytes ∧ entryBodySize = e.body.length ∧
      d = data.append [e] := by
  unfold madtEntry at h
  split_ifs at h with hsize
  obtain ⟨d', hk, hd⟩ := Except.map_eq_ok.mp h
  cases hd
  obtain ⟨e, ht, hl, hb, rfl⟩ := keepEntry_eq_ok hk
  refine ⟨e, ?_, hl.symm, rfl⟩
  rw [MadtEntry.toBytes, stores_cons, stores_cons, Nat.add_assoc]
  refine ⟨?_, ?_, hb⟩
  · rw [ht]
    exact UInt8.ofNat_toNat.symm
  · rw [hl, Nat.sub_add_cancel (by omega)]
    exact UInt8.ofNat_toNat.symm

theorem madtLoop_of_madtEntry {tableEnd ptr entryBodySize : Nat} {data d : ACPIData}
    (h : madtEntry mem ptr data = .ok (d, entryBodySize)) :
    madtLoop mem tableEnd ptr data =
      if ptr + 2 + entryBodySize = tableEnd then .ok d
      else if ptr + 2 + entryBodySize < tableEnd then madtLoop mem tableEnd (ptr + 2 + entryBodySize) d
      else .error (assertFailed "ptr < table_end") := by
  rw [madtLoop, h]

theorem madtLoop_of_madtEntry_error {tableEnd ptr : Nat} {data : ACPIData} {e : Panic}
    (h : madtEntry mem ptr data = .error e) : madtLoop mem tableEnd ptr data = .error e := by
  rw [madtLoop, h]

/-- **The loop reads a table of entries back.** Over the bytes of a nonempty list
of entries that ends at `tableEnd`, the loop keeps every entry, in order. By
induction on the entries; the pointer lands on the end after the last one. -/
theorem madtLoop_entries : ∀ (entries : List MadtEntry) (ptr : Nat) (data : ACPIData), entries ≠ [] →
    Stores mem ptr (entries.flatMap MadtEntry.toBytes) →
    madtLoop mem (ptr + (entries.flatMap MadtEntry.toBytes).length) ptr data = .ok (data.append entries)
  | [], _, _, hne, _ => absurd rfl hne
  | e :: rest, ptr, data, _, hs => by
    rw [List.flatMap_cons, stores_append] at hs
    have hnext : ptr + 2 + e.body.length = ptr + e.toBytes.length := by
      rw [MadtEntry.toBytes_length]
      omega
    rw [madtLoop_of_madtEntry (madtEntry_entry hs.1 data), hnext, List.flatMap_cons,
      List.length_append]
    cases rest with
    | nil => rw [if_pos (by simp)]
    | cons e' rest' =>
      -- another entry follows, at least two bytes long
      have hpos : 0 < ((e' :: rest').flatMap MadtEntry.toBytes).length := by
        simp [MadtEntry.toBytes]
      rw [if_neg (by omega), if_pos (by omega), ← Nat.add_assoc,
        madtLoop_entries (e' :: rest') _ _ (List.cons_ne_nil _ _) hs.2, ACPIData.append_append]
      rfl

/-- **The loop keeps only what a table of entries holds.** What the loop returns
is read from a nonempty list of entries whose bytes run from `ptr` to `tableEnd`.
By strong induction on the bytes left before `tableEnd`. -/
theorem madtLoop_eq_ok {tableEnd : Nat} :
    ∀ (n ptr : Nat) {data d : ACPIData}, tableEnd - ptr = n → madtLoop mem tableEnd ptr data = .ok d →
      ∃ entries : List MadtEntry, entries ≠ [] ∧ Stores mem ptr (entries.flatMap MadtEntry.toBytes) ∧
        tableEnd = ptr + (entries.flatMap MadtEntry.toBytes).length ∧ d = data.append entries := by
  intro n
  induction n using Nat.strong_induction_on with
  | _ n ih =>
    intro ptr data d hn h
    rcases hE : madtEntry mem ptr data with err | ⟨d', entryBodySize⟩
    · rw [madtLoop_of_madtEntry_error hE] at h
      cases h
    obtain ⟨e, hs, rfl, rfl⟩ := madtEntry_eq_ok hE
    have hlen : e.toBytes.length = e.body.length + 2 := e.toBytes_length
    rw [madtLoop_of_madtEntry hE] at h
    split_ifs at h with hend hlt
    · -- the pointer lands on the end after this entry
      cases h
      exact ⟨[e], List.cons_ne_nil _ _, by simpa using hs, by simp; omega, rfl⟩
    · obtain ⟨entries, hne, hst, htail, rfl⟩ := ih _ (by omega) _ rfl h
      refine ⟨e :: entries, List.cons_ne_nil _ _, ?_, ?_, ACPIData.append_append _ _ _⟩
      · rw [List.flatMap_cons, stores_append]
        exact ⟨hs, by rwa [hlen, show ptr + (e.body.length + 2) = ptr + 2 + e.body.length by omega]⟩
      · rw [List.flatMap_cons, List.length_append]
        omega

end Entries

/-! ## The tables as ACPI lays them out -/

/-- A Multiple APIC Description Table: after the signature and the length, the
28 header bytes the code does not read, the local APIC address, the flags and
the entries. Its length field is its size, so the size fits in a `u32`. -/
structure Madt where
  header : List UInt8
  header_length : header.length = 28
  localApicAddr : UInt32
  flags : UInt32
  entries : List MadtEntry
  length_lt : 44 + (entries.flatMap MadtEntry.toBytes).length < 4294967296

namespace Madt

def length (m : Madt) : Nat := 44 + (m.entries.flatMap MadtEntry.toBytes).length

def toBytes (m : Madt) : List UInt8 :=
  APIC_SIGNATURE ++ (leBytes 4 m.length ++ (m.header ++ (leBytes 4 m.localApicAddr.toNat ++
    (leBytes 4 m.flags.toNat ++ m.entries.flatMap MadtEntry.toBytes))))

/-- What the table says: its local APIC address, and its processors, I/O APICs
and interrupt source overrides in table order. -/
def data (m : Madt) : ACPIData := ACPIData.append ⟨m.localApicAddr.toNat, [], [], []⟩ m.entries

theorem stores_iff {mem : Nat → UInt8} {a : Nat} {m : Madt} :
    Stores mem a m.toBytes ↔
      Stores mem a APIC_SIGNATURE ∧ Stores mem (a + 4) (leBytes 4 m.length) ∧
        Stores mem (a + 8) m.header ∧ Stores mem (a + 36) (leBytes 4 m.localApicAddr.toNat) ∧
        Stores mem (a + 40) (leBytes 4 m.flags.toNat) ∧
        Stores mem (a + 44) (m.entries.flatMap MadtEntry.toBytes) := by
  have h4 : APIC_SIGNATURE.length = 4 := rfl
  simp only [toBytes, stores_append, leBytes_length, h4, m.header_length, Nat.add_assoc,
    Nat.reduceAdd]

end Madt

/-- A Root System Description Table: after the signature and the length, the 28
header bytes the code does not read, and the 4-byte addresses of the tables. -/
structure Rsdt where
  header : List UInt8
  header_length : header.length = 28
  tables : List UInt32
  length_lt : 36 + 4 * tables.length < 4294967296

namespace Rsdt

def toBytes (r : Rsdt) : List UInt8 :=
  RSDT_SIGNATURE ++ (leBytes 4 (36 + 4 * r.tables.length) ++
    (r.header ++ r.tables.flatMap fun a => leBytes 4 a.toNat))

/-- The table `key` should name: the last one listed whose header is signed `key`. -/
def lastTable (r : Rsdt) (mem : Nat → UInt8) (key : List UInt8) : Option Nat :=
  (r.tables.map UInt32.toNat).reverse.find? fun a => (SDTHeader.read mem a).signature = key

theorem stores_iff {mem : Nat → UInt8} {p : Nat} {r : Rsdt} :
    Stores mem p r.toBytes ↔
      Stores mem p RSDT_SIGNATURE ∧ Stores mem (p + 4) (leBytes 4 (36 + 4 * r.tables.length)) ∧
        Stores mem (p + 8) r.header ∧ Stores mem (p + 36) (r.tables.flatMap fun a => leBytes 4 a.toNat) := by
  have h4 : RSDT_SIGNATURE.length = 4 := rfl
  simp only [toBytes, stores_append, leBytes_length, h4, r.header_length, Nat.add_assoc, Nat.reduceAdd]

end Rsdt

section Tables

variable {mem : Nat → UInt8}

/-- The table pointers of a root table read back, the `i`-th from `q + 4 * i`. -/
theorem readAt_of_stores_pointers : ∀ (tables : List UInt32) (q : Nat),
    Stores mem q (tables.flatMap fun a => leBytes 4 a.toNat) →
      ∀ i (hi : i < tables.length), readAt mem (q + i * 4) 4 = tables[i].toNat
  | [], _, _, i, hi => absurd hi (Nat.not_lt_zero i)
  | a :: rest, q, h, i, hi => by
    rw [List.flatMap_cons, stores_append, leBytes_length] at h
    cases i with
    | zero =>
      rw [Nat.zero_mul, Nat.add_zero, readAt_of_stores h.1, Nat.mod_eq_of_lt a.toNat_lt_size]
      rfl
    | succ i =>
      rw [show q + (i + 1) * 4 = q + 4 + i * 4 by omega]
      exact readAt_of_stores_pointers rest (q + 4) h.2 i (by simpa using hi)

theorem bodyPointers_of_stores {p : Nat} {tables : List UInt32}
    (h : Stores mem (p + SDT_HEADER_SIZE) (tables.flatMap fun a => leBytes 4 a.toNat)) :
    (List.range tables.length).map (bodyPointer mem p 4) = tables.map UInt32.toNat := by
  apply List.ext_getElem (by simp)
  intro i hi _
  simp only [List.getElem_map, List.getElem_range, bodyPointer]
  rw [← Nat.add_assoc]
  exact readAt_of_stores_pointers tables _ h i (by simpa using hi)

theorem rsdtGet_collectTables (p size n : Nat) (key : List UInt8) :
    rsdtGet (collectTables mem p size n) key =
      ((List.range n).map (bodyPointer mem p size)).reverse.find?
        fun a => (SDTHeader.read mem a).signature = key := by
  exact (AList.lookup_foldl_insert (fun i => (SDTHeader.read mem (bodyPointer mem p size i)).signature)
    (bodyPointer mem p size) (List.range n) ∅ key).trans
    (by rw [← List.map_reverse, List.find?_map, AList.lookup_empty, Option.or_none]; rfl)

/-- **`init_rsdt` keeps each table under the signature of its header.** -/
theorem initRsdt_signature {parsed : Except RSDPParseError ParseResult} {legacy : Bool}
    {entries : RsdtEntries} (h : initRsdt mem parsed = .ok (legacy, entries)) (key : List UInt8)
    (a : Nat) (ha : rsdtGet entries key = some a) : (SDTHeader.read mem a).signature = key := by
  rcases parsed with error | result
  · cases h
  simp only [initRsdt] at h
  split_ifs at h
  obtain ⟨-, rfl⟩ := Prod.mk.inj (Except.ok.inj h)
  rw [rsdtGet_collectTables] at ha
  simpa using List.find?_some ha

/-- An ACPI 1.0 root table laid out as ACPI says is read back. -/
theorem initRsdt_of_stores {p : Nat} {rsdt : Rsdt} (h : Stores mem p rsdt.toBytes) :
    initRsdt mem (.ok (.RSDT p)) = .ok (true, collectTables mem p 4 rsdt.tables.length) := by
  obtain ⟨hsig, hlen, -, -⟩ := Rsdt.stores_iff.mp h
  replace hlen := (readAt_eq_iff (n := 4) rsdt.length_lt).mpr hlen
  replace hsig : bytesAt mem p 4 = RSDT_SIGNATURE := hsig
  simp only [initRsdt, SDTHeader.read, ParseResult.headerPtr, ParseResult.bodyPtrSize,
    ParseResult.legacy, hsig, hlen, SDT_HEADER_SIZE, ne_eq, not_true_eq_false, if_false]
  rw [if_neg (by omega), show (36 + 4 * rsdt.tables.length - 36) / 4 = rsdt.tables.length by omega]

/-- **Every ACPI 2.0 root table ends in the assertion**: the XSDT is signed
`"XSDT"`, and `init_rsdt` compares the signature with `"RSDT"`. -/
theorem initRsdt_xsdt {p : Nat} (h : Stores mem p XSDT_SIGNATURE) :
    initRsdt mem (.ok (.XSDT p)) =
      .error (assertEqPanic (toString XSDT_SIGNATURE) (toString RSDT_SIGNATURE)) := by
  have hsig : bytesAt mem p 4 = XSDT_SIGNATURE := h
  simp only [initRsdt, SDTHeader.read, ParseResult.headerPtr, hsig]
  rw [if_pos (by decide)]

/-- `init` once `rsdt_get` has found the table under `"APIC"` at `a`. -/
theorem madtInit_of_rsdtGet {entries : RsdtEntries} {a : Nat}
    (hget : rsdtGet entries APIC_SIGNATURE = some a) :
    madtInit mem entries =
      if readAt mem (a + 4) 4 ≤ 8 then .error (assertFailed "header.length > 8")
      else madtLoop mem (a + readAt mem (a + 4) 4) (a + 44) ⟨readAt mem (a + 36) 4, [], [], []⟩ := by
  unfold madtInit
  rw [hget]
  rfl

/-- **`init` reads a MADT back, and accepts nothing else.** With the table kept
under `"APIC"` signed so, `init` returns `data` exactly when memory holds a MADT
with at least one entry there and `data` is what that table says. -/
theorem madtInit_eq_ok_iff {entries : RsdtEntries} {data : ACPIData}
    (hsig : ∀ a, rsdtGet entries APIC_SIGNATURE = some a → Stores mem a APIC_SIGNATURE) :
    madtInit mem entries = .ok data ↔
      ∃ (a : Nat) (madt : Madt), rsdtGet entries APIC_SIGNATURE = some a ∧ Stores mem a madt.toBytes ∧
        madt.entries ≠ [] ∧ data = madt.data := by
  constructor
  · intro h
    rcases hget : rsdtGet entries APIC_SIGNATURE with _ | a
    · unfold madtInit at h
      rw [hget] at h
      cases h
    rw [madtInit_of_rsdtGet hget] at h
    by_cases hlen : readAt mem (a + 4) 4 ≤ 8
    · rw [if_pos hlen] at h
      cases h
    rw [if_neg hlen] at h
    obtain ⟨l, hne, hst, hend, rfl⟩ := madtLoop_eq_ok _ _ rfl h
    -- the table ends where the length field says, after the entries the loop read
    have hlength : readAt mem (a + 4) 4 = 44 + (l.flatMap MadtEntry.toBytes).length := by
      omega
    have hlt : 44 + (l.flatMap MadtEntry.toBytes).length < 4294967296 := by
      rw [← hlength]
      exact readAt_lt mem (a + 4) 4
    let madt : Madt := ⟨bytesAt mem (a + 8) 28, by simp [bytesAt], (readAt mem (a + 36) 4).toUInt32,
      (readAt mem (a + 40) 4).toUInt32, l, hlt⟩
    have hlapic : madt.localApicAddr.toNat = readAt mem (a + 36) 4 :=
      UInt32.toNat_ofNat_of_lt' (readAt_lt mem _ 4)
    refine ⟨a, madt, rfl, Madt.stores_iff.mpr ⟨hsig a hget, (readAt_eq_iff hlt).mp hlength,
      stores_bytesAt mem _ _, toUInt32_readAt_eq_iff.mp rfl, toUInt32_readAt_eq_iff.mp rfl, hst⟩, hne, ?_⟩
    show _ = ACPIData.append ⟨madt.localApicAddr.toNat, [], [], []⟩ l
    rw [hlapic]
  · rintro ⟨a, madt, hget, hst, hne, rfl⟩
    obtain ⟨-, hlength, -, hlapic, -, hentries⟩ := Madt.stores_iff.mp hst
    replace hlength := (readAt_eq_iff madt.length_lt).mpr hlength
    replace hlapic := (readAt_eq_iff (n := 4) madt.localApicAddr.toNat_lt_size).mpr hlapic
    have hend : a + madt.length = a + 44 + (madt.entries.flatMap MadtEntry.toBytes).length := by
      unfold Madt.length
      omega
    rw [madtInit_of_rsdtGet hget, hlength, if_neg (by unfold Madt.length; omega), hend,
      madtLoop_entries _ _ _ hne hentries, hlapic]
    rfl

end Tables

/-- **ACPI table discovery reads the firmware's tables back.** An ACPI 1.0 root
table is read back: `rsdt_get` gives, for each signature, the last listed table
signed so. After `init_rsdt`, `madt::init` succeeds exactly when the table under
`"APIC"` is a MADT with at least one entry, and returns that table's local APIC
address, processors, I/O APICs and interrupt source overrides in table order.
Every ACPI 2.0 root table, signed `"XSDT"`, ends in the assertion of `init_rsdt`. -/
theorem acpi_tables_read_back (mem : Nat → UInt8) :
    (∀ (p : Nat) (rsdt : Rsdt), Stores mem p rsdt.toBytes →
      ∃ entries, initRsdt mem (.ok (.RSDT p)) = .ok (true, entries) ∧
        ∀ key, rsdtGet entries key = rsdt.lastTable mem key) ∧
    (∀ result legacy entries, initRsdt mem (.ok result) = .ok (legacy, entries) →
      ∀ data, madtInit mem entries = .ok data ↔
        ∃ (a : Nat) (madt : Madt), rsdtGet entries APIC_SIGNATURE = some a ∧ Stores mem a madt.toBytes ∧
          madt.entries ≠ [] ∧ data = madt.data) ∧
    (∀ p, Stores mem p XSDT_SIGNATURE →
      initRsdt mem (.ok (.XSDT p)) =
        .error (assertEqPanic (toString XSDT_SIGNATURE) (toString RSDT_SIGNATURE))) := by
  refine ⟨fun p rsdt h => ⟨_, initRsdt_of_stores h, fun key => ?_⟩,
    fun result legacy entries h data => madtInit_eq_ok_iff fun a ha => ?_, fun p h => initRsdt_xsdt h⟩
  · -- the pointers the loop reads are the listed addresses
    rw [rsdtGet_collectTables, bodyPointers_of_stores (Rsdt.stores_iff.mp h).2.2.2, Rsdt.lastTable]
  · -- the table under `"APIC"` is signed so
    have hsig := initRsdt_signature h _ a ha
    unfold Stores
    exact hsig

/-- A root table at 0 listing one table at 40: a MADT with one processor. -/
def sampleRsdt : Rsdt := ⟨List.replicate 28 0, rfl, [40], by decide⟩

def sampleMadt : Madt :=
  ⟨List.replicate 28 0, rfl, 0xFEE00000, 1, [.processor ⟨0, 0, 1⟩], by decide⟩

def sampleMemory : Nat → UInt8 := memOf (sampleRsdt.toBytes ++ sampleMadt.toBytes)

theorem acpi_tables_read_back_sample :
    ∃ entries, initRsdt sampleMemory (.ok (.RSDT 0)) = .ok (true, entries) ∧
      madtInit sampleMemory entries = .ok sampleMadt.data ∧
      initRsdt (memOf XSDT_SIGNATURE) (.ok (.XSDT 0)) =
        .error (assertEqPanic (toString XSDT_SIGNATURE) (toString RSDT_SIGNATURE)) := by
  obtain ⟨entries, hinit, hget⟩ := (acpi_tables_read_back sampleMemory).1 0 sampleRsdt (by decide)
  have hapic : rsdtGet entries APIC_SIGNATURE = some 40 := by
    rw [hget]
    decide
  exact ⟨entries, hinit,
    ((acpi_tables_read_back sampleMemory).2.1 _ _ _ hinit _).mpr
      ⟨40, sampleMadt, hapic, by decide, List.cons_ne_nil _ _, rfl⟩,
    (acpi_tables_read_back (memOf XSDT_SIGNATURE)).2.2 0 (by decide)⟩

end D7os.Acpi
