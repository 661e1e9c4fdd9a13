import D7os.Net.Bytes

/-!
# Validating the RSDP

`src/driver/acpi/tables/rsdt.rs`: `parse_rsdp(p)` reads the Root System
Description Pointer at `p`. The ACPI 1.0 `RSDPDescriptor` is 20 bytes, the ACPI
2.0 `RSDPDescriptor20` extends it to 36 (length, XSDT address, extended
checksum); each checksum makes the bytes of its structure sum to 0 modulo 256.

`parse_rsdp` sums the first 20 bytes for the first checksum, but for the
extended one it sums 64 bytes, the size of the array it copies, not the 36 of
the structure: the 28 bytes after the descriptor decide whether a revision-2
descriptor is accepted. Memory is a function from addresses to bytes.
-/

namespace D7os.Acpi

inductive RSDPParseError
  | NotFound
  | UnsupportedVersion
  | IncorrectChecksum
  deriving DecidableEq, Repr

inductive ParseResult
  | RSDT (address : Nat)
  | XSDT (address : Nat)
  deriving DecidableEq, Repr

/-- `*(p as *const [u8; n])`: the `n` bytes at `p`. -/
def bytesAt (mem : Nat → UInt8) (p n : Nat) : List UInt8 := (List.range n).map fun i => mem (p + i)

/-- `bytes.iter().map(|b| *b as u32).sum()`; at most 64 bytes, so no `u32` overflow. -/
def byteSum (bytes : List UInt8) : Nat := bytes.foldl (fun acc b => acc + b.toNat) 0

/-- `parse_rsdp(p)`. -/
def parseRsdp (mem : Nat → UInt8) (p : Nat) : Except RSDPParseError ParseResult :=
  let revision := (mem (p + 15)).toNat
  -- 0 = "ACPI 1.0", 2 = "ACPI 2.0+"
  if ¬ (revision = 0 ∨ revision = 2) then .error .UnsupportedVersion
  else if byteSum (bytesAt mem p 20) &&& 0xFF ≠ 0 then .error .IncorrectChecksum
  else if revision = 2 then
    -- the extended checksum, over the 64 bytes copied from `p`
    if byteSum (bytesAt mem p 64) &&& 0xFF ≠ 0 then .error .IncorrectChecksum
    else .ok (.XSDT (readLE (bytesAt mem p 36) 24 8))
  else .ok (.RSDT (readLE (bytesAt mem p 20) 16 4))

/-! ## What the specification accepts -/

def RSDP_DESCRIPTOR_SIZE : Nat := 20

def RSDP_DESCRIPTOR20_SIZE : Nat := 36

/-- A valid descriptor at `p`: revision 0 or 2, the bytes of the ACPI 1.0
descriptor summing to 0 modulo 256 and, for revision 2, those of the extended
descriptor too. -/
def ValidRsdp (mem : Nat → UInt8) (p : Nat) : Prop :=
  ((mem (p + 15)).toNat = 0 ∨ (mem (p + 15)).toNat = 2) ∧
    byteSum (bytesAt mem p RSDP_DESCRIPTOR_SIZE) % 256 = 0 ∧
    ((mem (p + 15)).toNat = 2 → byteSum (bytesAt mem p RSDP_DESCRIPTOR20_SIZE) % 256 = 0)

theorem land_0xFF (n : Nat) : n &&& 0xFF = n % 256 := by
  have h : (0xFF : Nat) = 2 ^ 8 - 1 := rfl
  rw [h, Nat.and_two_pow_sub_one_eq_mod]

theorem bytesAt_add (mem : Nat → UInt8) (p m n : Nat) :
    bytesAt mem p (m + n) = bytesAt mem p m ++ bytesAt mem (p + m) n := by
  unfold bytesAt
  rw [List.range_add, List.map_append, List.map_map]
  congr 1
  apply List.map_congr_left
  intro i _
  simp only [Function.comp_apply, Nat.add_assoc]

theorem foldl_add_start (l : List UInt8) (a : Nat) :
    l.foldl (fun acc b => acc + b.toNat) a = a + byteSum l := by
  induction l generalizing a with
  | nil => rfl
  | cons b l ih =>
    rw [List.foldl_cons, ih, byteSum.eq_1 (b :: l), List.foldl_cons, ih]
    omega

theorem byteSum_cons (b : UInt8) (l : List UInt8) : byteSum (b :: l) = b.toNat + byteSum l := by
  rw [byteSum.eq_1 (b :: l), List.foldl_cons, foldl_add_start, Nat.zero_add]

theorem byteSum_append (l₁ l₂ : List UInt8) : byteSum (l₁ ++ l₂) = byteSum l₁ + byteSum l₂ := by
  rw [byteSum, List.foldl_append, foldl_add_start]
  rfl

/-- Writing a byte outside the `n` bytes at `p` leaves them as they were. -/
theorem bytesAt_update_of_outside {mem : Nat → UInt8} {p n q : Nat} (h : q < p ∨ p + n ≤ q) (b : UInt8) :
    bytesAt (Function.update mem q b) p n = bytesAt mem p n := by
  unfold bytesAt
  apply List.map_congr_left
  intro i hi
  have hi : i < n := List.mem_range.mp hi
  rw [Function.update_of_ne (by omega)]

/-- **Every valid ACPI 2.0 descriptor is rejected for some byte after it**: the
descriptor stays valid, but the 64-byte sum `parse_rsdp` checks is 1. -/
theorem rejected_by_next_byte {mem : Nat → UInt8} {p : Nat} (hvalid : ValidRsdp mem p)
    (h2 : (mem (p + 15)).toNat = 2) :
    ∃ b, ValidRsdp (Function.update mem (p + 36) b) p ∧
      parseRsdp (Function.update mem (p + 36) b) p = .error .IncorrectChecksum := by
  -- the 64 bytes are the descriptor, the byte after it, and 27 more
  have hsplit : ∀ m : Nat → UInt8, bytesAt m p 64 = bytesAt m p 36 ++ m (p + 36) :: bytesAt m (p + 37) 27 := by
    intro m
    rw [show 64 = 36 + 1 + 27 from rfl, bytesAt_add, bytesAt_add]
    rfl
  let s := byteSum (bytesAt mem p 36) + byteSum (bytesAt mem (p + 37) 27)
  let b : UInt8 := ((257 - s % 256) % 256).toUInt8
  have hb : b.toNat = (257 - s % 256) % 256 := toNat_toUInt8_of_lt (Nat.mod_lt _ (by decide))
  have hrev : (Function.update mem (p + 36) b (p + 15)).toNat = 2 := by
    rw [Function.update_of_ne (by omega), h2]
  -- the byte written is outside the descriptor and outside the 27 bytes after it
  have h20 : bytesAt (Function.update mem (p + 36) b) p 20 = bytesAt mem p 20 :=
    bytesAt_update_of_outside (.inr (by omega)) b
  have h36 : bytesAt (Function.update mem (p + 36) b) p 36 = bytesAt mem p 36 :=
    bytesAt_update_of_outside (.inr (Nat.le_refl _)) b
  have hrest : bytesAt (Function.update mem (p + 36) b) (p + 37) 27 = bytesAt mem (p + 37) 27 :=
    bytesAt_update_of_outside (.inl (by omega)) b
  have hsum : byteSum (bytesAt (Function.update mem (p + 36) b) p 64) % 256 = 1 := by
    rw [hsplit, byteSum_append, h36, byteSum_cons, hrest, Function.update_self, hb]
    omega
  refine ⟨b, ⟨.inr hrev, ?_, fun _ => ?_⟩, ?_⟩
  · rw [RSDP_DESCRIPTOR_SIZE, h20]
    exact hvalid.2.1
  · rw [RSDP_DESCRIPTOR20_SIZE, h36]
    exact hvalid.2.2 h2
  · have h20sum : byteSum (bytesAt mem p 20) % 256 = 0 := hvalid.2.1
    rw [parseRsdp, if_neg (not_not.mpr (.inr hrev)), land_0xFF, h20, if_neg (not_not.mpr h20sum),
      if_pos hrev, land_0xFF, hsum, if_pos Nat.one_ne_zero]

/-! ## Two descriptors the bytes after them decide -/

/-- Memory holding `bytes` from address 0, and zero after them. -/
def memOf (bytes : List UInt8) : Nat → UInt8 := fun i => bytes.getD i 0

/-- A valid ACPI 2.0 descriptor for an XSDT at `0x1000`: signature `"RSD PTR "`,
checksum 223, revision 2, length 36, extended checksum 204. -/
def acpi2Descriptor : List UInt8 :=
  [0x52, 0x53, 0x44, 0x20, 0x50, 0x54, 0x52, 0x20, 223, 0, 0, 0, 0, 0, 0, 2, 0, 0, 0, 0,
    36, 0, 0, 0, 0x00, 0x10, 0, 0, 0, 0, 0, 0, 204, 0, 0, 0]

/-- **`parse_rsdp` decides by the bytes after the descriptor.** Every valid ACPI
2.0 descriptor is rejected with `IncorrectChecksum` for some value of the byte
after it; a valid descriptor followed by a byte 1 is; and the same descriptor
with its extended checksum off by one, followed by a byte 255, is accepted as
pointing to the XSDT. -/
theorem parse_rsdp_reads_past_descriptor :
    (∀ (mem : Nat → UInt8) (p : Nat), ValidRsdp mem p → (mem (p + 15)).toNat = 2 →
      ∃ b, ValidRsdp (Function.update mem (p + 36) b) p ∧
        parseRsdp (Function.update mem (p + 36) b) p = .error .IncorrectChecksum) ∧
    ValidRsdp (memOf (acpi2Descriptor ++ [1])) 0 ∧
      parseRsdp (memOf (acpi2Descriptor ++ [1])) 0 = .error .IncorrectChecksum ∧
    ¬ ValidRsdp (memOf (acpi2Descriptor.set 32 205 ++ [255])) 0 ∧
      parseRsdp (memOf (acpi2Descriptor.set 32 205 ++ [255])) 0 = .ok (.XSDT 0x1000) := by
  refine ⟨fun _ _ hvalid h2 => rejected_by_next_byte hvalid h2, ⟨.inr rfl, by decide, fun _ => by decide⟩,
    by decide, fun h => ?_, by decide⟩
  -- the extended descriptor sums to 1
  exact absurd (h.2.2 rfl) (by decide)

end D7os.Acpi
