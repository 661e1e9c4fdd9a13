import D7os.Driver.Madt
import D7os.Lib.Except

/-!
# Programming the I/O APIC redirection table

`src/driver/ioapic/io.rs`: `init` takes the data `madt::init` read and, for each
ISA interrupt `src_irq` below 24, applies the bus-0 source overrides (the last
one wins), builds an entry with vector `0x30 + irq`, the override's polarity and
the first processor as destination, and has `set_irq_handler` write it, as two
32-bit registers from `0x10 + 2 * relative_irq`, to the first I/O APIC covering it.

`RedirectEntryFlags::new` shifts every flag of byte 1 one bit too far and drops
the trigger mode: no entry is written active-low or level-triggered, and an
active-low override sets the read-only remote IRR bit instead. The chip is a list
of register writes; its entry count, read by `version`, is a parameter. The
checked `u32` sum of `actual_addr` makes `set_irq_handler` panic at an I/O APIC
within `0x10` of `2^32`.
-/

namespace D7os.IoApic

open D7os.Acpi

/-- How the interrupt will be sent to the CPU(s). -/
inductive DeliveryMode
  | Fixed
  | LowPriority
  | SMI
  | NMI
  | Init
  | ExternalInt
  deriving DecidableEq, Repr

/-- `delivery_mode as u8`. -/
def DeliveryMode.code : DeliveryMode → UInt8
  | .Fixed => 0
  | .LowPriority => 1
  | .SMI => 2
  | .NMI => 4
  | .Init => 5
  | .ExternalInt => 7

/-- `RedirectEntryFlags::new`: byte 1 of the entry. The trigger mode is not used. -/
def RedirectEntryFlags.new (deliveryMode : DeliveryMode)
    (destinationLogical pending pinPolarityLow remoteIrr _triggerModeLevel : Bool) : UInt8 :=
  deliveryMode.code ||| (destinationLogical.toUInt8 <<< 4) ||| (pending.toUInt8 <<< 5) |||
    (pinPolarityLow.toUInt8 <<< 6) ||| (remoteIrr.toUInt8 <<< 7)

/-- `RedirectEntry`; its four reserved bytes are zero. -/
structure RedirectEntry where
  vector : UInt8
  flags : UInt8
  masked : Bool
  destination : UInt8
  deriving DecidableEq, Repr

/-- `mem::transmute::<RedirectEntry, u64>`: the packed bytes, little-endian. -/
def RedirectEntry.bits (redirect : RedirectEntry) : Nat :=
  readLE [redirect.vector, redirect.flags, redirect.masked.toUInt8, 0, 0, 0, 0, redirect.destination] 0 8

/-- A write of `value` to the register `register` of the I/O APIC at `apic`. -/
structure RegisterWrite where
  apic : Nat
  register : Nat
  value : Nat
  deriving DecidableEq, Repr

/-- `write_redirect_entry(entry, relative_irq, redirect)`: the low half, then the
high half. -/
def writeRedirectEntry (entry : IoAPIC) (relativeIrq : Nat) (redirect : RedirectEntry) :
    List RegisterWrite :=
  let req := 0x10 + relativeIrq * 2
  [⟨entry.ioAcpiAddr.toNat, req, redirect.bits % 4294967296⟩,
    ⟨entry.ioAcpiAddr.toNat, req + 1, redirect.bits / 4294967296 % 4294967296⟩]

/-- Whether `apic` handles `irq`: `irq >= gsib` and `irq - gsib <= max`, where
`maxEntry apic` is `version(apic).1`. -/
def handles (maxEntry : IoAPIC → Nat) (irq : Nat) (apic : IoAPIC) : Bool :=
  apic.gsib.toNat ≤ irq ∧ irq - apic.gsib.toNat ≤ maxEntry apic

/-- `actual_addr(entry, offset)`: `io_acpi_addr + offset` in `u32`. -/
def actualAddr (entry : IoAPIC) (offset : Nat) : Except Panic Nat :=
  if entry.ioAcpiAddr.toNat + offset < UInt32.size then .ok (entry.ioAcpiAddr.toNat + offset)
  else .error addOverflow

/-- `set_irq_handler(io_apics, irq, redirect)`: the first I/O APIC that handles
`irq` gets the entry. -/
def setIrqHandler (maxEntry : IoAPIC → Nat) (ioApics : List IoAPIC) (irq : Nat)
    (redirect : RedirectEntry) : Except Panic (List RegisterWrite) :=
  match ioApics with
  | [] => .error ("No I/O APIC handles irq " ++ toString irq)
  | apic :: rest =>
    if apic.gsib.toNat ≤ irq then do
      -- `version(apic)` reads the data window at `actual_addr(apic, 0x10)`
      let _ ← actualAddr apic 0x10
      if irq - apic.gsib.toNat ≤ maxEntry apic then .ok (writeRedirectEntry apic (irq - apic.gsib.toNat) redirect)
      else setIrqHandler maxEntry rest irq redirect
    else setIrqHandler maxEntry rest irq redirect

/-- The override loop of `init` for `src_irq`: `irq`, `pin_polarity_low` and
`trigger_mode_level` after the overrides of bus 0 for `src_irq`, the last one
winning; `gsi as u8` keeps the low byte. -/
def irqRouting (overrides : List InterruptSourceOverride) (srcIrq : Nat) : Nat × Bool × Bool :=
  overrides.foldl
    (fun routing o =>
      if o.busSource = 0 ∧ o.irqSource.toNat = srcIrq then
        (o.gsi.toNat % 256, o.flags &&& 2 != 0, o.flags &&& 8 != 0)
      else routing)
    (srcIrq, false, false)

/-- The body of the loop of `init` for `src_irq`. -/
def routeIrq (maxEntry : IoAPIC → Nat) (data : ACPIData) (handlingCpuId : UInt8) (srcIrq : Nat) :
    Except Panic (List RegisterWrite) :=
  let routing := irqRouting data.intSourceOverrides srcIrq
  -- `0x30 + irq` on a `u8`
  if 256 ≤ 0x30 + routing.1 then .error addOverflow
  else
    setIrqHandler maxEntry data.ioApics srcIrq
      ⟨(0x30 + routing.1).toUInt8,
        RedirectEntryFlags.new .Fixed false false routing.2.1 false routing.2.2, false, handlingCpuId⟩

/-- `io::init()`, given `ACPI_DATA`: the register writes, in order. -/
def ioApicInit (maxEntry : IoAPIC → Nat) (data : ACPIData) : Except Panic (List RegisterWrite) :=
  match data.cpus with
  | [] => .error (indexOutOfBounds 0 0)
  | cpu :: _ =>
    if data.ioApics = [] then .error "No I/O APICs detected, unsupported system"
    else
      (List.range 24).foldlM
        (fun writes srcIrq => (routeIrq maxEntry data cpu.acpiId srcIrq).map (writes ++ ·)) []

/-! ## What one pass writes -/

theorem flags_fixed_toNat (pinPolarityLow triggerModeLevel : Bool) :
    (RedirectEntryFlags.new .Fixed false false pinPolarityLow false triggerModeLevel).toNat =
      if pinPolarityLow then 64 else 0 := by
  cases pinPolarityLow <;> cases triggerModeLevel <;> decide

theorem RedirectEntry.bits_eq (redirect : RedirectEntry) :
    redirect.bits = redirect.vector.toNat + 256 * redirect.flags.toNat +
      65536 * redirect.masked.toUInt8.toNat + 72057594037927936 * redirect.destination.toNat := by
  simp [RedirectEntry.bits, readLE]
  omega

/-- **The two words of an entry.** The low word holds the vector, byte 1 and the
mask; the high word holds the destination in its top byte. -/
theorem writeRedirectEntry_eq (entry : IoAPIC) (relativeIrq : Nat) (redirect : RedirectEntry) :
    writeRedirectEntry entry relativeIrq redirect =
      [⟨entry.ioAcpiAddr.toNat, 0x10 + relativeIrq * 2,
          redirect.vector.toNat + 256 * redirect.flags.toNat + 65536 * redirect.masked.toUInt8.toNat⟩,
        ⟨entry.ioAcpiAddr.toNat, 0x10 + relativeIrq * 2 + 1, 16777216 * redirect.destination.toNat⟩] := by
  have hv : redirect.vector.toNat < 256 := redirect.vector.toNat_lt
  have hf : redirect.flags.toNat < 256 := redirect.flags.toNat_lt
  have hd : redirect.destination.toNat < 256 := redirect.destination.toNat_lt
  have hm : redirect.masked.toUInt8.toNat ≤ 1 := by cases redirect.masked <;> decide
  simp only [writeRedirectEntry, RedirectEntry.bits_eq, List.cons.injEq, RegisterWrite.mk.injEq,
    and_true, true_and]
  omega

/-- A successful `set_irq_handler` wrote to the first I/O APIC that handles `irq`;
the loop passes over the others, whose version it may have read. -/
theorem setIrqHandler_eq_ok {maxEntry : IoAPIC → Nat} {irq : Nat} {redirect : RedirectEntry}
    {ws : List RegisterWrite} : ∀ {ioApics : List IoAPIC},
    setIrqHandler maxEntry ioApics irq redirect = .ok ws →
    ∃ apic, ioApics.find? (handles maxEntry irq) = some apic ∧
      ws = writeRedirectEntry apic (irq - apic.gsib.toNat) redirect
  | [], h => by cases h
  | apic :: rest, h => by
    unfold setIrqHandler at h
    -- an I/O APIC that does not handle `irq` is passed over
    have hskip : ¬ handles maxEntry irq apic → setIrqHandler maxEntry rest irq redirect = .ok ws →
        ∃ a, (apic :: rest).find? (handles maxEntry irq) = some a ∧
          ws = writeRedirectEntry a (irq - a.gsib.toNat) redirect := fun hn h => by
      obtain ⟨a, hf, rfl⟩ := setIrqHandler_eq_ok h
      exact ⟨a, by rw [List.find?_cons_of_neg hn, hf], rfl⟩
    by_cases hg : apic.gsib.toNat ≤ irq
    · rw [if_pos hg] at h
      obtain ⟨_, -, h⟩ := Except.bind_eq_ok.mp h
      by_cases hm : irq - apic.gsib.toNat ≤ maxEntry apic
      · -- this I/O APIC handles `irq` and gets the entry
        rw [if_pos hm] at h
        refine ⟨apic, ?_, (Except.ok.inj h).symm⟩
        simp [handles, hg, hm]
      · rw [if_neg hm] at h
        exact hskip (by simp [handles, hm]) h
    · rw [if_neg hg] at h
      exact hskip (by simp [handles, hg]) h

/-- **What one pass of `init` writes for `src_irq`**: to the first I/O APIC that
handles it, the vector `0x30 + irq` with byte 1 holding only the polarity, in
bit 6, and the first processor in the top byte of the high word. -/
theorem routeIrq_eq_ok {maxEntry : IoAPIC → Nat} {data : ACPIData} {cpuId : UInt8} {srcIrq : Nat}
    {ws : List RegisterWrite} (h : routeIrq maxEntry data cpuId srcIrq = .ok ws) :
    ∃ apic, data.ioApics.find? (handles maxEntry srcIrq) = some apic ∧
      0x30 + (irqRouting data.intSourceOverrides srcIrq).1 < 256 ∧
      ws = [⟨apic.ioAcpiAddr.toNat, 0x10 + (srcIrq - apic.gsib.toNat) * 2,
              0x30 + (irqRouting data.intSourceOverrides srcIrq).1 +
                256 * (if (irqRouting data.intSourceOverrides srcIrq).2.1 then 64 else 0)⟩,
            ⟨apic.ioAcpiAddr.toNat, 0x10 + (srcIrq - apic.gsib.toNat) * 2 + 1, 16777216 * cpuId.toNat⟩] := by
  unfold routeIrq at h
  dsimp only at h
  split_ifs at h with hover
  obtain ⟨apic, hfind, rfl⟩ := setIrqHandler_eq_ok h
  have hvec : (0x30 + (irqRouting data.intSourceOverrides srcIrq).1).toUInt8.toNat =
      0x30 + (irqRouting data.intSourceOverrides srcIrq).1 :=
    UInt8.toNat_ofNat_of_lt' (by have : UInt8.size = 256 := rfl; omega)
  refine ⟨apic, hfind, by omega, ?_⟩
  rw [writeRedirectEntry_eq, flags_fixed_toNat, hvec]
  rfl

/-- The low word of every entry `routeIrq` writes leaves bits 13 (polarity) and
15 (trigger mode) clear. -/
theorem routeIrq_low_words {maxEntry : IoAPIC → Nat} {data : ACPIData} {cpuId : UInt8} {srcIrq : Nat}
    {ws : List RegisterWrite} (h : routeIrq maxEntry data cpuId srcIrq = .ok ws) :
    ∀ w ∈ ws, w.register % 2 = 0 → w.value / 8192 % 2 = 0 ∧ w.value / 32768 % 2 = 0 := by
  obtain ⟨apic, -, hlt, rfl⟩ := routeIrq_eq_ok h
  intro w hw heven
  rcases List.mem_pair.mp hw with rfl | rfl
  · simp only
    split <;> omega
  · -- the high word goes to an odd register
    simp only at heven
    omega

/-! ## The whole table -/

/-- **What `init` programs.** After a successful `init`, each ISA interrupt
`src_irq` below 24 has its entry in the first I/O APIC that handles it: the low
word is the vector `0x30 + irq` (after the overrides) plus 64 in byte 1 when
the override asked for active-low, and the high word names the first processor.
No low word written sets bit 13 (polarity) or bit 15 (trigger mode): every
entry is active-high and edge-triggered, whatever the overrides say. -/
theorem io_apic_redirection_entries (maxEntry : IoAPIC → Nat) (data : ACPIData)
    (writes : List RegisterWrite) (h : ioApicInit maxEntry data = .ok writes) :
    (∀ srcIrq < 24, ∃ (cpu : ProcessorLocalAPIC) (apic : IoAPIC), data.cpus.head? = some cpu ∧
      data.ioApics.find? (handles maxEntry srcIrq) = some apic ∧
      (⟨apic.ioAcpiAddr.toNat, 0x10 + (srcIrq - apic.gsib.toNat) * 2,
          0x30 + (irqRouting data.intSourceOverrides srcIrq).1 +
            256 * (if (irqRouting data.intSourceOverrides srcIrq).2.1 then 64 else 0)⟩ :
        RegisterWrite) ∈ writes ∧
      (⟨apic.ioAcpiAddr.toNat, 0x10 + (srcIrq - apic.gsib.toNat) * 2 + 1, 16777216 * cpu.acpiId.toNat⟩ :
        RegisterWrite) ∈ writes) ∧
    (∀ w ∈ writes, w.register % 2 = 0 → w.value / 8192 % 2 = 0 ∧ w.value / 32768 % 2 = 0) := by
  unfold ioApicInit at h
  rcases hcpus : data.cpus with _ | ⟨cpu, cpus⟩
  · rw [hcpus] at h
    cases h
  rw [hcpus] at h
  dsimp only at h
  split_ifs at h with hempty
  obtain ⟨-, hpieces⟩ := Except.foldlM_append_mem _ _ _ h
  refine ⟨fun srcIrq hsrc => ?_, ?_⟩
  · obtain ⟨ws, hws, hmem⟩ := hpieces srcIrq (List.mem_range.mpr hsrc)
    obtain ⟨apic, hfind, -, rfl⟩ := routeIrq_eq_ok hws
    exact ⟨cpu, apic, rfl, hfind, hmem _ List.mem_cons_self,
      hmem _ (List.mem_cons_of_mem _ List.mem_cons_self)⟩
  · -- every write comes from one pass of the loop
    refine Except.foldlM_invariant (P := fun ws : List RegisterWrite =>
      ∀ w ∈ ws, w.register % 2 = 0 → w.value / 8192 % 2 = 0 ∧ w.value / 32768 % 2 = 0)
      ?_ _ (fun _ hw => absurd hw List.not_mem_nil) h
    intro acc srcIrq b hacc hb
    obtain ⟨ws, hws, rfl⟩ := Except.map_eq_ok.mp hb
    intro w hw
    rcases List.mem_append.mp hw with hw | hw
    · exact hacc w hw
    · exact routeIrq_low_words hws w hw

/-- A machine as QEMU describes it: one processor, one I/O APIC with 24 entries
at `0xFEC00000`, the timer's IRQ 0 routed to GSI 2, and IRQ 9 (the ACPI system
control interrupt) level-triggered, active-high (flags `0xD`). -/
def qemuAcpiData : ACPIData :=
  ⟨0xFEE00000, [⟨0, 0, 1⟩], [⟨0, 0, 0xFEC00000, 0⟩], [⟨0, 0, 2, 0⟩, ⟨0, 9, 9, 0xD⟩]⟩

-- the timer's pin and pin 2 both get vector `0x32`; IRQ 9 asks for level triggering
example : (irqRouting qemuAcpiData.intSourceOverrides 0).1 = 2 ∧
    (irqRouting qemuAcpiData.intSourceOverrides 2).1 = 2 ∧
    (irqRouting qemuAcpiData.intSourceOverrides 9).2.2 = true := by
  decide

theorem io_apic_redirection_entries_qemu :
    ∃ writes, ioApicInit (fun _ => 23) qemuAcpiData = .ok writes ∧
      (∀ srcIrq < 24, ∃ (cpu : ProcessorLocalAPIC) (apic : IoAPIC), qemuAcpiData.cpus.head? = some cpu ∧
        qemuAcpiData.ioApics.find? (handles (fun _ => 23) srcIrq) = some apic ∧
        (⟨apic.ioAcpiAddr.toNat, 0x10 + (srcIrq - apic.gsib.toNat) * 2,
            0x30 + (irqRouting qemuAcpiData.intSourceOverrides srcIrq).1 +
              256 * (if (irqRouting qemuAcpiData.intSourceOverrides srcIrq).2.1 then 64 else 0)⟩ :
          RegisterWrite) ∈ writes ∧
        (⟨apic.ioAcpiAddr.toNat, 0x10 + (srcIrq - apic.gsib.toNat) * 2 + 1, 16777216 * cpu.acpiId.toNat⟩ :
          RegisterWrite) ∈ writes) ∧
      (∀ w ∈ writes, w.register % 2 = 0 → w.value / 8192 % 2 = 0 ∧ w.value / 32768 % 2 = 0) := by
  obtain ⟨writes, hrun⟩ : ∃ writes, ioApicInit (fun _ => 23) qemuAcpiData = .ok writes := ⟨_, rfl⟩
  exact ⟨writes, hrun, io_apic_redirection_entries _ _ _ hrun⟩

end D7os.IoApic
