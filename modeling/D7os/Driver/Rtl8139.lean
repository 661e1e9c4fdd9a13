import D7os.Lib.Bits
import D7os.Multitasking.WaitFor

/-!
# The RTL8139 receive ring

`modules/driver_rtl8139/src/rtl8139.rs`: the card writes each packet into the DMA
ring at `rx_offset`, behind a 4-byte header (status and length). `receive` copies
the packet without its CRC, moves `rx_offset` past it rounded up to 4 bytes
modulo `RX_BUFFER_SIZE`, and writes the read pointer `CAPR`, `0x10` below where
it stopped. The module is built without overflow checks, so its arithmetic
wraps; the card writes past the ring's end instead of wrapping.

The new offset is what the card expects. `CAPR` is not: it is computed from the
offset before the packet, so after every packet the card is told the driver is
one packet behind, and on the first packet after a reset `0 - 0x10` wraps.
-/

namespace D7os.Rtl8139

def PACKET_SIZE_MAX : Nat := 0x600

def PACKET_SIZE_MIN : Nat := 0x16

def RX_BUFFER_SIZE : Nat := 32768

/-- The bits `RxStatus::from_bits_truncate` keeps: every flag of the struct. -/
def RxStatus.ALL_BITS : Nat := 0x8000 ||| 0x4000 ||| 0x2000 ||| 0x20 ||| 0x10 ||| 0x08 ||| 0x04 ||| 0x02 ||| 0x01

def RxStatus.OK : Nat := 0x01

def RxStatus.ALL_ERRORS : Nat := 0x20 ||| 0x04 ||| 0x02

/-- A little-endian `u16` read from the ring. -/
def readU16 (ring : Nat → UInt8) (off : Nat) : Nat := (ring off).toNat + 256 * (ring (off + 1)).toNat

/-- What a `receive` that finds a packet does: the packet it returns, the value it
writes to `CAPR`, and the new `rx_offset`. -/
structure Received where
  packet : List UInt8
  capr : Nat
  rxOffset : Nat
  deriving DecidableEq, Repr

/-- `RTL8139::receive` at the offset `rxOffset`: `none` when the status word is
empty, a panic on the header checks that end in `todo!`. -/
def receive (ring : Nat → UInt8) (rxOffset : Nat) : Except Panic (Option Received) :=
  let status := readU16 ring rxOffset &&& RxStatus.ALL_BITS
  let length := readU16 ring (rxOffset + 2)
  if status = 0 then .ok none
  else if status &&& RxStatus.OK = 0 then .error "not yet implemented: reset?"
  else if length < PACKET_SIZE_MIN ∨ length ≥ PACKET_SIZE_MAX then .error "not yet implemented: reset?"
  else if status &&& RxStatus.ALL_ERRORS ≠ 0 then .error "not yet implemented: reset?"
  else
    let packetLen := length - 4
    -- `(((rx_offset as u16) + length + 4 + 3) & !3) % (RX_BUFFER_SIZE as u16)` in `u16`
    let nicRxOffset := ((rxOffset % 0x1_0000 + length + 4 + 3) % 0x1_0000 &&& 0xFFFC) % RX_BUFFER_SIZE
    .ok (some ⟨(List.range packetLen).map (fun i => ring (rxOffset + 4 + i)),
      -- `(self.buffers.rx_offset - 0x10) as u16`, wrapping in `usize`
      (rxOffset + UInt64.size - 0x10) % UInt64.size % 0x1_0000,
      nicRxOffset % RX_BUFFER_SIZE⟩)

/-! ## One packet -/

/-- The header of a packet the card delivered intact: the `OK` flag, no error
flag, and a length in `[PACKET_SIZE_MIN, PACKET_SIZE_MAX)`. -/
structure GoodHeader (ring : Nat → UInt8) (rxOffset : Nat) : Prop where
  ok : readU16 ring rxOffset &&& RxStatus.ALL_BITS &&& RxStatus.OK ≠ 0
  no_errors : readU16 ring rxOffset &&& RxStatus.ALL_BITS &&& RxStatus.ALL_ERRORS = 0
  length_ge : PACKET_SIZE_MIN ≤ readU16 ring (rxOffset + 2)
  length_lt : readU16 ring (rxOffset + 2) < PACKET_SIZE_MAX

/-- The offset after a packet of `length` bytes at `rxOffset`, as the card sees it:
past the header and the packet, rounded up to 4 bytes, in the ring. -/
def nextOffset (rxOffset length : Nat) : Nat := (rxOffset + length + 4 + 3) / 4 * 4 % RX_BUFFER_SIZE

/-- `x & !3` on a `u16` rounds down to a multiple of 4. -/
theorem land_0xFFFC {x : Nat} (hx : x < 0x1_0000) : x &&& 0xFFFC = x / 4 * 4 := by
  have hmask : (0xFFFC : Nat) = (2 ^ 14 - 1) * 2 ^ 2 := by decide
  rw [hmask, Nat.land_mul_two_pow_sub_one_of_lt (by simpa using hx)]
  rfl

theorem nextOffset_lt (rxOffset length : Nat) : nextOffset rxOffset length < RX_BUFFER_SIZE :=
  Nat.mod_lt _ (by decide)

theorem nextOffset_aligned (rxOffset length : Nat) : nextOffset rxOffset length % 4 = 0 := by
  unfold nextOffset RX_BUFFER_SIZE
  omega

/-- **What `receive` does with a good packet** at an offset inside the ring: it
returns the `length - 4` bytes after the header, moves to `nextOffset`, and writes
to `CAPR` the old offset less `0x10`, wrapped to 16 bits. -/
theorem receive_of_good {ring : Nat → UInt8} {rxOffset : Nat} (hoff : rxOffset < RX_BUFFER_SIZE)
    (h : GoodHeader ring rxOffset) :
    receive ring rxOffset = .ok (some ⟨(List.range (readU16 ring (rxOffset + 2) - 4)).map
        (fun i => ring (rxOffset + 4 + i)),
      (rxOffset + 0x1_0000 - 0x10) % 0x1_0000, nextOffset rxOffset (readU16 ring (rxOffset + 2))⟩) := by
  have hmin := h.length_ge
  have hlen := h.length_lt
  unfold PACKET_SIZE_MIN at hmin
  unfold PACKET_SIZE_MAX at hlen
  unfold RX_BUFFER_SIZE at hoff
  have hstatus : readU16 ring rxOffset &&& RxStatus.ALL_BITS ≠ 0 := by
    intro h0
    exact h.ok (by rw [h0, Nat.zero_and])
  -- the `u16` sum does not wrap: the offset is below 2^15 and the length below 0x600
  have hsum : (rxOffset % 0x1_0000 + readU16 ring (rxOffset + 2) + 4 + 3) % 0x1_0000 =
      rxOffset + readU16 ring (rxOffset + 2) + 4 + 3 := by
    omega
  have hcapr : (rxOffset + UInt64.size - 0x10) % UInt64.size % 0x1_0000 =
      (rxOffset + 0x1_0000 - 0x10) % 0x1_0000 := by
    unfold UInt64.size
    omega
  rw [receive]
  dsimp only
  rw [if_neg hstatus, if_neg h.ok, if_neg (by unfold PACKET_SIZE_MIN PACKET_SIZE_MAX; omega), if_neg (not_not.mpr h.no_errors),
    hsum, land_0xFFFC (by omega), hcapr, Nat.mod_mod]
  rfl

/-! ## A run of packets from a reset -/

/-- `receive` over the ring contents the card has written by each call, from
`rxOffset`: the packets received and the final offset. -/
def receiveRun : Nat → List (Nat → UInt8) → Except Panic (List Received × Nat)
  | rxOffset, [] => .ok ([], rxOffset)
  | rxOffset, ring :: rings =>
    match receive ring rxOffset with
    | .error e => .error e
    | .ok none => receiveRun rxOffset rings
    | .ok (some r) => (receiveRun r.rxOffset rings).map fun (rs, off) => (r :: rs, off)

/-- Every packet of the run was delivered intact at the offset the driver read. -/
def GoodRun : Nat → List (Nat → UInt8) → Prop
  | _, [] => True
  | rxOffset, ring :: rings =>
    GoodHeader ring rxOffset ∧ GoodRun (nextOffset rxOffset (readU16 ring (rxOffset + 2))) rings

/-- What a run of good packets yields, packet by packet, as the card lays them out. -/
def goodPackets : Nat → List (Nat → UInt8) → List Received
  | _, [] => []
  | rxOffset, ring :: rings =>
    ⟨(List.range (readU16 ring (rxOffset + 2) - 4)).map (fun i => ring (rxOffset + 4 + i)),
      (rxOffset + 0x1_0000 - 0x10) % 0x1_0000, nextOffset rxOffset (readU16 ring (rxOffset + 2))⟩ ::
      goodPackets (nextOffset rxOffset (readU16 ring (rxOffset + 2))) rings

/-- **The run lemma**: from an offset inside the ring, a run of good packets
receives each packet as `goodPackets` lays it out. -/
theorem receiveRun_good : ∀ (rings : List (Nat → UInt8)) (rxOffset : Nat), rxOffset < RX_BUFFER_SIZE →
    GoodRun rxOffset rings → ∃ off, receiveRun rxOffset rings = .ok (goodPackets rxOffset rings, off)
  | [], rxOffset, _, _ => ⟨rxOffset, rfl⟩
  | ring :: rings, rxOffset, hoff, ⟨hgood, hrest⟩ => by
    obtain ⟨off, hrun⟩ := receiveRun_good rings _ (nextOffset_lt _ _) hrest
    refine ⟨off, ?_⟩
    rw [receiveRun, receive_of_good hoff hgood]
    dsimp only
    rw [hrun]
    rfl

/-- Each packet of the run moves the offset by the packet from an offset inside
the ring, and writes to `CAPR` the offset it started from. -/
theorem mem_goodPackets : ∀ {rings : List (Nat → UInt8)} {rxOffset : Nat}, rxOffset < RX_BUFFER_SIZE →
    GoodRun rxOffset rings → ∀ r ∈ goodPackets rxOffset rings,
      ∃ p len, p < RX_BUFFER_SIZE ∧ PACKET_SIZE_MIN ≤ len ∧ len < PACKET_SIZE_MAX ∧
        r.rxOffset = nextOffset p len ∧ r.capr = (p + 0x1_0000 - 0x10) % 0x1_0000
  | [], _, _, _, r, hr => absurd hr List.not_mem_nil
  | ring :: rings, rxOffset, hoff, ⟨hgood, hrest⟩, r, hr => by
    rcases List.mem_cons.mp hr with rfl | hr
    · exact ⟨rxOffset, _, hoff, hgood.length_ge, hgood.length_lt, rfl, rfl⟩
    · exact mem_goodPackets (nextOffset_lt _ _) hrest r hr

/-- The read pointer before a packet is never the one after it: the packet moves
the offset by between 28 and 1544 bytes, less than the ring. -/
theorem capr_ne_of_packet {p len : Nat} (hp : p < RX_BUFFER_SIZE) (hmin : PACKET_SIZE_MIN ≤ len)
    (hmax : len < PACKET_SIZE_MAX) :
    (p + 0x1_0000 - 0x10) % 0x1_0000 ≠ (nextOffset p len + 0x1_0000 - 0x10) % 0x1_0000 := by
  unfold nextOffset RX_BUFFER_SIZE at *
  unfold PACKET_SIZE_MIN PACKET_SIZE_MAX at *
  omega

/-- **`CAPR` lags one packet behind, and the first write wraps.** After a reset
`rx_offset` is 0. For every run of packets the card delivers intact, the driver
receives them all, copying the `length - 4` bytes after each header, and keeps
`rx_offset` 4-byte aligned and inside the ring; but every write to `CAPR` is the
offset before the packet less `0x10`, never the new offset less `0x10`, and the
first is `0 - 0x10` wrapped to `0xFFF0`. -/
theorem capr_written_from_old_offset :
    ∀ rings : List (Nat → UInt8), GoodRun 0 rings →
      ∃ off, receiveRun 0 rings = .ok (goodPackets 0 rings, off) ∧
        (∀ r ∈ goodPackets 0 rings, r.rxOffset < RX_BUFFER_SIZE ∧ r.rxOffset % 4 = 0 ∧
          r.capr ≠ (r.rxOffset + 0x1_0000 - 0x10) % 0x1_0000) ∧
        ∀ r ∈ (goodPackets 0 rings).head?, r.capr = 0xFFF0 := by
  intro rings hgood
  obtain ⟨off, hrun⟩ := receiveRun_good rings 0 (by decide) hgood
  refine ⟨off, hrun, fun r hr => ?_, fun r hr => ?_⟩
  · obtain ⟨p, len, hp, hmin, hmax, hoff, hcapr⟩ := mem_goodPackets (by decide) hgood r hr
    rw [hoff, hcapr]
    exact ⟨nextOffset_lt _ _, nextOffset_aligned _ _, capr_ne_of_packet hp hmin hmax⟩
  · -- the first packet starts at the reset offset 0
    cases rings with
    | nil => cases hr
    | cons ring rings =>
      obtain rfl := Option.some.inj hr
      rfl

/-- The ring after a reset with one 64-byte packet at offset 0: status `OK`. -/
def onePacketRing : Nat → UInt8 := fun i => if i = 0 then 0x01 else if i = 2 then 64 else 0

theorem capr_written_from_old_offset_one_packet :
    GoodRun 0 [onePacketRing] ∧
    ∃ off, receiveRun 0 [onePacketRing] = .ok (goodPackets 0 [onePacketRing], off) ∧
      (∀ r ∈ goodPackets 0 [onePacketRing], r.rxOffset < RX_BUFFER_SIZE ∧ r.rxOffset % 4 = 0 ∧
        r.capr ≠ (r.rxOffset + 0x1_0000 - 0x10) % 0x1_0000) ∧
      ∀ r ∈ (goodPackets 0 [onePacketRing]).head?, r.capr = 0xFFF0 := by
  have hgood : GoodRun 0 [onePacketRing] := ⟨⟨by decide, by decide, by decide, by decide⟩, trivial⟩
  exact ⟨hgood, capr_written_from_old_offset _ hgood⟩

end D7os.Rtl8139
