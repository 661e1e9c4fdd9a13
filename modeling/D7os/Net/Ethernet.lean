import D7os.Net.Dhcp

/-!
# Ethernet frames and ARP packets

`libs/d7net/src/ethernet.rs`, `arp.rs` and `ethertype.rs`. A frame is the
14-byte header (two MAC addresses and the big-endian EtherType) and the payload.
An ARP packet for Ethernet and IPv4 is eight bytes of fixed layout and the four
addresses. The decoders panic on data they do not accept, as the crate says of
itself.

`to_bytes` always writes the protocol type `0x0800`, whatever `ptype` the packet
holds, and `from_bytes` takes the field offsets from the lengths it reads; the
round trip therefore holds for IPv4 packets, with any bytes after the packet.
-/

namespace D7os

open Dhcp (MacAddr Ipv4Addr Octets)

/-! ## EtherType -/

inductive EtherType
  | Ipv4
  | ARP
  | WakeOnLan
  | SLPP
  | Ipv6
  | EthernetFlowControl
  | EthernetSlowProtocol
  deriving DecidableEq, Repr

namespace EtherType

/-- The `#[repr(u16)]` discriminant. -/
def code : EtherType → Nat
  | .Ipv4 => 0x0800
  | .ARP => 0x0806
  | .WakeOnLan => 0x0842
  | .SLPP => 0x8102
  | .Ipv6 => 0x86dd
  | .EthernetFlowControl => 0x8808
  | .EthernetSlowProtocol => 0x8809

def all : List EtherType :=
  [.Ipv4, .ARP, .WakeOnLan, .SLPP, .Ipv6, .EthernetFlowControl, .EthernetSlowProtocol]

/-- `EtherType::try_from(n)` of `num_enum`. -/
def tryFrom (n : Nat) : Option EtherType := all.find? fun t => t.code = n

/-- `{:04x}`: lower-case hexadecimal, zero-padded to four digits. -/
def hex04 (n : Nat) : String :=
  let digits := Nat.toDigits 16 n
  String.ofList (List.replicate (4 - digits.length) '0' ++ digits)

/-- `EtherType::from_bytes`. -/
def fromBytes (bytes : List UInt8) : Except Panic EtherType := do
  let n := 256 * (← byteAt bytes 0).toNat + (← byteAt bytes 1).toNat
  match tryFrom n with
  | some t => pure t
  | none => throw ("Unknwn EtherType " ++ hex04 n)

/-- `EtherType::to_bytes`: `u16::to_be_bytes(self as u16)`. -/
def toBytes (t : EtherType) : List UInt8 := beBytes 2 t.code

@[simp] theorem toBytes_length (t : EtherType) : t.toBytes.length = 2 := beBytes_length 2 t.code

/-- Every variant reads back from its two bytes. -/
theorem fromBytes_toBytes (t : EtherType) : fromBytes t.toBytes = .ok t := by
  cases t <;> rfl

end EtherType

/-! ## Ethernet frames -/

namespace Ethernet

structure FrameHeader where
  dstMac : MacAddr
  srcMac : MacAddr
  ethertype : EtherType
  deriving DecidableEq

structure Frame where
  header : FrameHeader
  payload : List UInt8
  deriving DecidableEq

/-- `FrameHeader::from_bytes`. -/
def FrameHeader.fromBytes (input : List UInt8) : Except Panic FrameHeader := do
  let dstMac ← Dhcp.MacAddr.fromBytes (← slice input 0 6)
  let srcMac ← Dhcp.MacAddr.fromBytes (← slice input 6 12)
  let ethertype ← EtherType.fromBytes (← slice input 12 14)
  pure ⟨dstMac, srcMac, ethertype⟩

def FrameHeader.toBytes (h : FrameHeader) : List UInt8 :=
  h.dstMac.bytes ++ h.srcMac.bytes ++ h.ethertype.toBytes

/-- `Frame::from_bytes`: the header from the first 14 bytes, the rest as payload. -/
def Frame.fromBytes (input : List UInt8) : Except Panic Frame := do
  let header ← FrameHeader.fromBytes (← slice input 0 14)
  let payload ← sliceFrom input 14
  pure ⟨header, payload⟩

def Frame.toBytes (f : Frame) : List UInt8 := f.header.toBytes ++ f.payload

theorem FrameHeader.toBytes_length (h : FrameHeader) : h.toBytes.length = 14 := by
  simp [FrameHeader.toBytes, h.dstMac.length_eq, h.srcMac.length_eq]

theorem FrameHeader.fromBytes_toBytes (h : FrameHeader) : FrameHeader.fromBytes h.toBytes = .ok h := by
  have hdst : slice h.toBytes 0 6 = .ok h.dstMac.bytes := by
    rw [FrameHeader.toBytes, List.append_assoc]
    exact slice_prefix h.dstMac.length_eq _
  have hsrc : slice h.toBytes 6 12 = .ok h.srcMac.bytes :=
    slice_append_of_length h.dstMac.length_eq h.srcMac.length_eq
  have htype : slice h.toBytes 12 14 = .ok h.ethertype.toBytes := by
    have h12 : (h.dstMac.bytes ++ h.srcMac.bytes).length = 12 := by
      simp [h.dstMac.length_eq, h.srcMac.length_eq]
    have hs := @slice_append_of_length _ _ [] _ _ h12 h.ethertype.toBytes_length
    rw [List.append_nil] at hs
    exact hs
  rw [FrameHeader.fromBytes, Dhcp.MacAddr.fromBytes, hdst, Except.ok_bind, Octets.fromBytes_bytes,
    Except.ok_bind, hsrc, Except.ok_bind, Octets.fromBytes_bytes, Except.ok_bind, htype, Except.ok_bind,
    EtherType.fromBytes_toBytes, Except.ok_bind]
  rfl

/-- **A frame reads back.** For every header and payload. -/
theorem Frame.fromBytes_toBytes (f : Frame) : Frame.fromBytes f.toBytes = .ok f := by
  rw [Frame.fromBytes, Frame.toBytes, slice_prefix f.header.toBytes_length, Except.ok_bind,
    FrameHeader.fromBytes_toBytes, Except.ok_bind, sliceFrom_append f.header.toBytes_length,
    Except.ok_bind]
  rfl

end Ethernet

/-! ## ARP packets -/

namespace Arp

inductive Operation
  | Request
  | Reply
  deriving DecidableEq, Repr

/-- `Operation::from_bytes`. -/
def Operation.fromBytes (bytes : List UInt8) : Except Panic Operation := do
  assert ((← byteAt bytes 0) == 0) "bytes[0] == 0"
  match (← byteAt bytes 1).toNat with
  | 1 => pure .Request
  | 2 => pure .Reply
  | other => throw ("Unknown ARP operation " ++ toString other)

/-- The operation byte `to_bytes` writes. -/
def Operation.toByte : Operation → UInt8
  | .Request => 1
  | .Reply => 2

structure Packet where
  ptype : EtherType
  operation : Operation
  srcHw : MacAddr
  srcIp : Ipv4Addr
  dstHw : MacAddr
  dstIp : Ipv4Addr
  deriving DecidableEq

namespace Packet

/-- `Packet::from_bytes`: every field at the offset the read lengths give. -/
def fromBytes (input : List UInt8) : Except Panic Packet := do
  -- Ethernet only
  assert ((← slice input 0 2) == [0, 1]) "&input[..2] == [0, 1]"
  let hlen := (← byteAt input 4).toNat
  let plen := (← byteAt input 5).toNat
  -- Mac addresses and IPv4 only
  assert (hlen == 6) "hlen == 6"
  assert (plen == 4) "plen == 4"
  let ptype ← EtherType.fromBytes (← slice input 2 4)
  let operation ← Operation.fromBytes (← slice input 6 8)
  let srcHw ← Dhcp.MacAddr.fromBytes (← slice input 8 (8 + hlen))
  let srcIp ← Dhcp.Ipv4Addr.fromBytes (← slice input (8 + hlen) (8 + hlen + plen))
  let dstHw ← Dhcp.MacAddr.fromBytes (← slice input (8 + hlen + plen) (8 + hlen * 2 + plen))
  let dstIp ← Dhcp.Ipv4Addr.fromBytes (← slice input (8 + hlen * 2 + plen) (8 + hlen * 2 + plen * 2))
  pure ⟨ptype, operation, srcHw, srcIp, dstHw, dstIp⟩

/-- `Packet::to_bytes`: hardware type Ethernet, protocol type IPv4, the two
lengths and the operation, then the four addresses. -/
def toBytes (p : Packet) : List UInt8 :=
  [0, 1, 8, 0, 6, 4, 0, p.operation.toByte] ++ p.srcHw.bytes ++ p.srcIp.bytes ++ p.dstHw.bytes ++
    p.dstIp.bytes

def isRequest (p : Packet) : Bool := p.operation == .Request

/-- `Packet::to_reply`: the answer to a request, from `(mac, ip)` to its sender. -/
def toReply (p : Packet) (mac : MacAddr) (ip : Ipv4Addr) : Except Panic Packet :=
  if !p.isRequest then .error (assertFailed "self.is_request()")
  else .ok { p with operation := .Reply, dstHw := p.srcHw, dstIp := p.srcIp, srcHw := mac, srcIp := ip }

end Packet

theorem Operation.fromBytes_toByte (op : Operation) : Operation.fromBytes [0, op.toByte] = .ok op := by
  cases op <;> rfl

/-- The fields of an encoded packet, in the order `to_bytes` writes them. -/
theorem Packet.toBytes_eq_flatten (p : Packet) :
    p.toBytes = [[0, 1], [8, 0], [6, 4], [0, p.operation.toByte], p.srcHw.bytes, p.srcIp.bytes,
      p.dstHw.bytes, p.dstIp.bytes].flatten := by
  simp only [Packet.toBytes, List.flatten_cons, List.flatten_nil, List.append_nil, List.append_assoc,
    List.cons_append, List.nil_append]

/-- **What `from_bytes` reads from an encoded packet**, whatever follows it: the
fields as written, with the protocol type `to_bytes` always writes. -/
theorem Packet.fromBytes_toBytes_append (p : Packet) (z : List UInt8) :
    Packet.fromBytes (p.toBytes ++ z) = .ok { p with ptype := .Ipv4 } := by
  have hhw : p.srcHw.bytes.length = 6 := p.srcHw.length_eq
  have hip : p.srcIp.bytes.length = 4 := p.srcIp.length_eq
  have hthw : p.dstHw.bytes.length = 6 := p.dstHw.length_eq
  have htip : p.dstIp.bytes.length = 4 := p.dstIp.length_eq
  -- field `k` is the slice past the fields before it
  have hfield := fun k hk => (p.toBytes_eq_flatten ▸ slice_flatten z _ k hk :
    slice (p.toBytes ++ z) _ _ = _)
  have hty : slice (p.toBytes ++ z) 0 2 = .ok [0, 1] := hfield 0 (by simp)
  have hpt : slice (p.toBytes ++ z) 2 4 = .ok [8, 0] := hfield 1 (by simp)
  have hop : slice (p.toBytes ++ z) 6 8 = .ok [0, p.operation.toByte] := hfield 3 (by simp)
  have hshw : slice (p.toBytes ++ z) 8 14 = .ok p.srcHw.bytes := by
    simpa [hhw] using hfield 4 (by simp)
  have hsip : slice (p.toBytes ++ z) 14 18 = .ok p.srcIp.bytes := by
    simpa [hhw, hip] using hfield 5 (by simp)
  have hthw' : slice (p.toBytes ++ z) 18 24 = .ok p.dstHw.bytes := by
    simpa [hhw, hip, hthw] using hfield 6 (by simp)
  have htip' : slice (p.toBytes ++ z) 24 28 = .ok p.dstIp.bytes := by
    simpa [hhw, hip, hthw, htip] using hfield 7 (by simp)
  have hhead : p.toBytes ++ z = 0 :: 1 :: 8 :: 0 :: 6 :: 4 :: 0 :: p.operation.toByte ::
      (p.srcHw.bytes ++ p.srcIp.bytes ++ p.dstHw.bytes ++ p.dstIp.bytes ++ z) := by
    simp only [Packet.toBytes, List.append_assoc, List.cons_append, List.nil_append]
  have h4 : byteAt (p.toBytes ++ z) 4 = .ok 6 := by rw [hhead]; rfl
  have h5 : byteAt (p.toBytes ++ z) 5 = .ok 4 := by rw [hhead]; rfl
  -- each check passes and each field is read where `to_bytes` wrote it
  rw [Packet.fromBytes, hty, Except.ok_bind, beq_self_eq_true, assert_true, Except.ok_bind, h4,
    Except.ok_bind, h5, Except.ok_bind]
  simp only [show (6 : UInt8).toNat = 6 from rfl, show (4 : UInt8).toNat = 4 from rfl, Nat.reduceAdd,
    Nat.reduceMul, beq_self_eq_true, assert_true, Except.ok_bind, hpt, hop, hshw, hsip, hthw', htip',
    show EtherType.fromBytes [8, 0] = .ok .Ipv4 from rfl, Operation.fromBytes_toByte,
    Dhcp.MacAddr.fromBytes, Dhcp.Ipv4Addr.fromBytes, Octets.fromBytes_bytes]
  rfl

/-- The reply to a request swaps in the answering addresses. -/
theorem Packet.toReply_of_request {p : Packet} (hp : p.operation = .Request) (mac : MacAddr)
    (ip : Ipv4Addr) :
    p.toReply mac ip =
      .ok { p with operation := .Reply, dstHw := p.srcHw, dstIp := p.srcIp, srcHw := mac, srcIp := ip } := by
  rw [Packet.toReply, Packet.isRequest, hp]
  rfl

/-- **Ethernet and ARP decode what they encode.** Every frame reads back; every
IPv4 ARP packet reads back, whatever padding follows it; and the reply to every
request reads back as a reply from `(mac, ip)` to the request's sender. -/
theorem ethernet_arp_round_trip :
    (∀ f : Ethernet.Frame, Ethernet.Frame.fromBytes f.toBytes = .ok f) ∧
    (∀ (p : Packet) (z : List UInt8), p.ptype = .Ipv4 → Packet.fromBytes (p.toBytes ++ z) = .ok p) ∧
    ∀ (p : Packet) (mac : MacAddr) (ip : Ipv4Addr) (z : List UInt8), p.operation = .Request →
      ∃ r, p.toReply mac ip = .ok r ∧
        Packet.fromBytes (r.toBytes ++ z) = .ok ⟨.Ipv4, .Reply, mac, ip, p.srcHw, p.srcIp⟩ := by
  refine ⟨Ethernet.Frame.fromBytes_toBytes, fun p z hp => ?_, fun p mac ip z hreq => ?_⟩
  · rw [Packet.fromBytes_toBytes_append, ← hp]
  · exact ⟨_, Packet.toReply_of_request hreq mac ip, Packet.fromBytes_toBytes_append _ z⟩

end Arp

end D7os
