import D7os.Net.Bytes
import D7os.Lib.Except

/-!
# DHCP payloads

`libs/d7net/src/dhcp.rs`. `Payload::to_bytes` writes the 236-byte BOOTP prefix,
the magic cookie, each option and the end option; `Payload::from_bytes` checks
the prefix and reads options until the end option.

The two option functions keep their own tables of codes: `to_bytes` writes a
`RequestedAddress` with code `0x32`, for which `from_bytes` has no arm. It reads
the option as `Unknown`, with the right length, so the options after it still
line up (`fromBytes_toBytes`). Every other option reads back as itself, and a
payload with its options so mapped (`Payload.fromBytes_toBytes`); the client's
request does not (`request_loses_requested_address`). `Ipv4Addr` and `MacAddr`
are lists with their length.
-/

namespace D7os.Dhcp

def MAGIC_COOKIE : Nat := 0x63825363

/-! ## Enumerations -/

/-- `TryFromPrimitive::try_from_primitive`: the variant whose discriminant is the byte. -/
def tryFromPrimitive {α : Type} (all : List α) (code : α → Nat) (b : UInt8) : Option α :=
  all.find? fun x => code x = b.toNat

/-- A discriminant reads back as its variant when the discriminants are distinct. -/
theorem tryFromPrimitive_code {α : Type} {all : List α} {code : α → Nat} (hnd : (all.map code).Nodup)
    {x : α} (hx : x ∈ all) (hlt : code x < 256) : tryFromPrimitive all code (code x).toUInt8 = some x := by
  rw [tryFromPrimitive, toNat_toUInt8_of_lt hlt]
  induction all with
  | nil => exact absurd hx List.not_mem_nil
  | cons y ys ih =>
    rw [List.map_cons, List.nodup_cons] at hnd
    rw [List.find?_cons]
    by_cases hy : code y = code x
    · -- the first variant with the discriminant is `x` itself
      have hxy : y = x := by
        by_contra hne
        have hxs : x ∈ ys := (List.mem_cons.mp hx).resolve_left (Ne.symm hne)
        exact hnd.1 (hy ▸ List.mem_map_of_mem hxs)
      rw [decide_eq_true hy, hxy]
    · have hxs : x ∈ ys := (List.mem_cons.mp hx).resolve_left (fun h => hy (h ▸ rfl))
      rw [decide_eq_false hy]
      exact ih hnd.2 hxs

inductive MsgType
  | QUERY
  | REPLY
  deriving DecidableEq, Repr

def MsgType.code : MsgType → Nat
  | .QUERY => 1
  | .REPLY => 2

def MsgType.tryFrom : UInt8 → Option MsgType := tryFromPrimitive [.QUERY, .REPLY] MsgType.code

inductive Op
  | DISCOVER
  | OFFER
  | REQUEST
  | DECLINE
  | ACK
  | NAK
  | RELEASE
  | INFORM
  | FORCERENEW
  | LEASEQUERY
  | LEASEUNASSIGNED
  | LEASEUNKNOWN
  | LEASEACTIVE
  | BULKLEASEQUERY
  | LEASEQUERYDONE
  | ACTIVELEASEQUERY
  | LEASEQUERYSTATUS
  | TLS
  deriving DecidableEq, Repr

def Op.code : Op → Nat
  | .DISCOVER => 1
  | .OFFER => 2
  | .REQUEST => 3
  | .DECLINE => 4
  | .ACK => 5
  | .NAK => 6
  | .RELEASE => 7
  | .INFORM => 8
  | .FORCERENEW => 9
  | .LEASEQUERY => 10
  | .LEASEUNASSIGNED => 11
  | .LEASEUNKNOWN => 12
  | .LEASEACTIVE => 13
  | .BULKLEASEQUERY => 14
  | .LEASEQUERYDONE => 15
  | .ACTIVELEASEQUERY => 16
  | .LEASEQUERYSTATUS => 17
  | .TLS => 18

def Op.all : List Op :=
  [.DISCOVER, .OFFER, .REQUEST, .DECLINE, .ACK, .NAK, .RELEASE, .INFORM, .FORCERENEW, .LEASEQUERY,
    .LEASEUNASSIGNED, .LEASEUNKNOWN, .LEASEACTIVE, .BULKLEASEQUERY, .LEASEQUERYDONE,
    .ACTIVELEASEQUERY, .LEASEQUERYSTATUS, .TLS]

def Op.tryFrom : UInt8 → Option Op := tryFromPrimitive Op.all Op.code

inductive ParamReq
  | SubnetMask
  | Router
  | DNSServer
  | DomainName
  deriving DecidableEq, Repr

def ParamReq.code : ParamReq → Nat
  | .SubnetMask => 0x01
  | .Router => 0x03
  | .DNSServer => 0x06
  | .DomainName => 0x0f

def ParamReq.tryFrom : UInt8 → Option ParamReq :=
  tryFromPrimitive [.SubnetMask, .Router, .DNSServer, .DomainName] ParamReq.code

theorem MsgType.tryFrom_code (m : MsgType) : MsgType.tryFrom m.code.toUInt8 = some m :=
  tryFromPrimitive_code (by decide) (by cases m <;> decide) (by cases m <;> decide)

theorem Op.tryFrom_code (op : Op) : Op.tryFrom op.code.toUInt8 = some op :=
  tryFromPrimitive_code (by decide) (by cases op <;> decide) (by cases op <;> decide)

theorem ParamReq.tryFrom_code (r : ParamReq) : ParamReq.tryFrom r.code.toUInt8 = some r :=
  tryFromPrimitive_code (by decide) (by cases r <;> decide) (by cases r <;> decide)

/-! ## Addresses -/

/-- A byte array `[u8; n]`. -/
structure Octets (n : Nat) where
  bytes : List UInt8
  length_eq : bytes.length = n
  deriving DecidableEq

/-- `from_bytes` of an array type: `assert!(bytes.len() == n)`, then the copy. -/
def Octets.fromBytes (n : Nat) (bytes : List UInt8) : Except Panic (Octets n) :=
  if h : bytes.length = n then .ok ⟨bytes, h⟩ else .error (assertFailed ("bytes.len() == " ++ toString n))

abbrev Ipv4Addr := Octets 4

abbrev MacAddr := Octets 6

def Ipv4Addr.ZERO : Ipv4Addr := ⟨[0, 0, 0, 0], rfl⟩

def Ipv4Addr.fromBytes : List UInt8 → Except Panic Ipv4Addr := Octets.fromBytes 4

def MacAddr.fromBytes : List UInt8 → Except Panic MacAddr := Octets.fromBytes 6

/-- `{:?}` of an `Ipv4Addr`, its `Display` in `Ipv4Addr(…)`. -/
def Ipv4Addr.debug (a : Ipv4Addr) : String :=
  "Ipv4Addr(" ++ ".".intercalate (a.bytes.map fun b => toString b.toNat) ++ ")"

def debugAddrs (addrs : List Ipv4Addr) : String :=
  "[" ++ ", ".intercalate (addrs.map Ipv4Addr.debug) ++ "]"

theorem Octets.fromBytes_bytes {n : Nat} (a : Octets n) : Octets.fromBytes n a.bytes = .ok a := by
  rw [Octets.fromBytes, dif_pos a.length_eq]

/-! ## Options -/

inductive DhcpOption
  | Pad
  | Op (op : Op)
  | SubnetMask (addr : Ipv4Addr)
  | Routers (addrs : List Ipv4Addr)
  | DnsServers (addrs : List Ipv4Addr)
  | LeaseTime (seconds : Nat)
  | RequestedAddress (addr : Ipv4Addr)
  | ServerId (addr : Ipv4Addr)
  | ParamReqList (items : List ParamReq)
  | End
  | Unknown
  deriving DecidableEq

/-- The panic of `expect(msg)` on a failed `try_from`. -/
def expectFailed (msg : String) (number : Nat) : Panic :=
  msg ++ ": TryFromPrimitiveError \x7b number: " ++ toString number ++ " \x7d"

/-- `Ipv4Addr::from_bytes(&bytes[start..start + 4])`. -/
def ipv4At (bytes : List UInt8) (start : Nat) : Except Panic Ipv4Addr := do
  Ipv4Addr.fromBytes (← slice bytes start (start + 4))

/-- The loop of `Routers` and `DnsServers`: `count` addresses from offset 2. -/
def ipv4List (bytes : List UInt8) (count : Nat) : Except Panic (List Ipv4Addr) :=
  (List.range count).mapM fun i => ipv4At bytes (2 + i * 4)

/-- `ParamReq::try_from(b).expect("Uknown paramreq")`. -/
def paramReqOf (b : UInt8) : Except Panic ParamReq :=
  match ParamReq.tryFrom b with
  | some r => .ok r
  | none => .error (expectFailed "Uknown paramreq" b.toNat)

/-- The `match code` of `DhcpOption::from_bytes`, after the length byte. -/
def optionItem (bytes : List UInt8) (code length : Nat) : Except Panic DhcpOption :=
  match code with
  | 0x01 =>
    if length = 4 then DhcpOption.SubnetMask <$> ipv4At bytes 2 else .error (assertFailed "length == 4")
  | 0x03 =>
    if length % 4 = 0 then DhcpOption.Routers <$> ipv4List bytes (length / 4)
    else .error (assertFailed "length % 4 == 0")
  | 0x06 =>
    if length % 4 = 0 then DhcpOption.DnsServers <$> ipv4List bytes (length / 4)
    else .error (assertFailed "length % 4 == 0")
  | 0x33 =>
    if length = 4 then (fun buf => DhcpOption.LeaseTime (readBE buf 0 4)) <$> slice bytes 2 6
    else .error (assertFailed "length == 4")
  | 0x35 =>
    if length = 1 then do
      let b ← byteAt bytes 2
      match Op.tryFrom b with
      | some op => pure (DhcpOption.Op op)
      | none => .error (expectFailed "Unknown DHCP op" b.toNat)
    else .error (assertFailed "length == 1")
  | 0x36 =>
    if length = 4 then DhcpOption.ServerId <$> ipv4At bytes 2 else .error (assertFailed "length == 4")
  | 0x37 => do
    let items ← slice bytes 2 (2 + length)
    DhcpOption.ParamReqList <$> items.mapM paramReqOf
  | _ => pure DhcpOption.Unknown

/-- `DhcpOption::from_bytes`: the option at the start of `bytes` and the bytes it takes. -/
def DhcpOption.fromBytes (bytes : List UInt8) : Except Panic (DhcpOption × Nat) := do
  let code ← byteAt bytes 0
  if code = 0x00 then pure (.Pad, 1)
  else if code = 0xff then pure (.End, 1)
  else do
    let length ← byteAt bytes 1
    let item ← optionItem bytes code.toNat length.toNat
    pure (item, 2 + length.toNat)

/-- The panic of `todo!` for an option `to_bytes` has no encoding for. -/
def unsupported (debug : String) : Panic := "not yet implemented: Serialization unsupported for " ++ debug

/-- `DhcpOption::to_bytes`. -/
def DhcpOption.toBytes : DhcpOption → Except Panic (List UInt8)
  | .Pad => .ok [0x00]
  | .End => .ok [0xff]
  | .Op op => .ok [0x35, 0x01, op.code.toUInt8]
  | .RequestedAddress addr => .ok ([0x32, 0x04] ++ addr.bytes)
  | .ServerId id => .ok ([0x36, 0x04] ++ id.bytes)
  | .ParamReqList items => .ok ([0x37, items.length.toUInt8] ++ items.map fun v => v.code.toUInt8)
  | .SubnetMask addr => .error (unsupported ("SubnetMask(" ++ addr.debug ++ ")"))
  | .Routers addrs => .error (unsupported ("Routers(" ++ debugAddrs addrs ++ ")"))
  | .DnsServers addrs => .error (unsupported ("DnsServers(" ++ debugAddrs addrs ++ ")"))
  | .LeaseTime seconds => .error (unsupported ("LeaseTime \x7b seconds: " ++ toString seconds ++ " \x7d"))
  | .Unknown => .error (unsupported "Unknown")

theorem DhcpOption.fromBytes_length_pos {bytes : List UInt8} {o : DhcpOption} {len : Nat}
    (h : DhcpOption.fromBytes bytes = .ok (o, len)) : 1 ≤ len := by
  obtain ⟨code, -, h⟩ := Except.bind_eq_ok.mp h
  split_ifs at h
  · cases h
    exact le_rfl
  · cases h
    exact le_rfl
  · obtain ⟨length, -, h⟩ := Except.bind_eq_ok.mp h
    obtain ⟨item, -, h⟩ := Except.bind_eq_ok.mp h
    cases h
    omega

/-! ## Payloads -/

structure Payload where
  op : MsgType
  xid : UInt32
  clientIp : Ipv4Addr
  yourIp : Ipv4Addr
  serverIp : Ipv4Addr
  gatewayIp : Ipv4Addr
  macAddr : MacAddr
  options : List DhcpOption
  deriving DecidableEq

def Payload.discover (xid : UInt32) (macAddr : MacAddr) : Payload :=
  ⟨.QUERY, xid, Ipv4Addr.ZERO, Ipv4Addr.ZERO, Ipv4Addr.ZERO, Ipv4Addr.ZERO, macAddr, [.Op .DISCOVER]⟩

def Payload.request (xid : UInt32) (macAddr : MacAddr) (clientIp serverIp : Ipv4Addr) : Payload :=
  ⟨.QUERY, xid, clientIp, Ipv4Addr.ZERO, serverIp, Ipv4Addr.ZERO, macAddr,
    [.Op .REQUEST, .RequestedAddress clientIp, .ServerId serverIp,
      .ParamReqList [.SubnetMask, .Router, .DNSServer]]⟩

/-- The 240 bytes before the options, field by field. -/
def Payload.fields (p : Payload) : List (List UInt8) :=
  [[p.op.code.toUInt8, 0x01, 0x06, 0x00], beBytes 4 p.xid.toNat, [0x00, 0x00, 0x00, 0x00],
    p.clientIp.bytes, p.yourIp.bytes, p.serverIp.bytes, p.gatewayIp.bytes, p.macAddr.bytes,
    List.replicate 10 0, List.replicate 64 0, List.replicate 128 0, beBytes 4 MAGIC_COOKIE]

/-- `Payload::to_bytes`. -/
def Payload.toBytes (p : Payload) : Except Panic (List UInt8) := do
  let opts ← p.options.mapM DhcpOption.toBytes
  pure (p.fields.flatten ++ opts.flatten ++ [0xff])

/-- `assert!(bytes[i] == value, msg)`. -/
def assertByte (bytes : List UInt8) (i : Nat) (value : UInt8) (msg : String) : Except Panic Unit := do
  let b ← byteAt bytes i
  if b = value then pure () else .error msg

def magicMismatch (magic : Nat) : Panic :=
  "assertion `left == right` failed\n  left: " ++ toString magic ++ "\n right: " ++ toString MAGIC_COOKIE

/-- The option loop of `Payload::from_bytes` from offset `i`: `&bytes[i..]` panics
past the end, and every option but the end one is pushed. -/
def optionsLoop (bytes : List UInt8) (i : Nat) : Except Panic (List DhcpOption) :=
  -- the two hypotheses are the facts of the termination proof
  if _hi : bytes.length < i then .error (sliceStartIndexLenFail i bytes.length)
  else
    match _h : DhcpOption.fromBytes (bytes.drop i) with
    | .error e => .error e
    | .ok (opt, len) =>
      if opt = .End then .ok []
      else (optionsLoop bytes (i + len)).map (opt :: ·)
termination_by bytes.length + 1 - i
decreasing_by
  have := DhcpOption.fromBytes_length_pos _h
  omega

/-- `Payload::from_bytes`. -/
def Payload.fromBytes (bytes : List UInt8) : Except Panic Payload := do
  let b0 ← byteAt bytes 0
  let op ← match MsgType.tryFrom b0 with
    | some op => pure op
    | none => .error (expectFailed "Unknown DHCP MsgType" b0.toNat)
  assertByte bytes 1 0x01 "HTYPE != MAC"
  assertByte bytes 2 0x06 "HLEN != 6"
  assertByte bytes 3 0x00 "HOPS != 0"
  let xid ← slice bytes 4 8
  let clientIp ← ipv4At bytes 12
  let yourIp ← ipv4At bytes 16
  let serverIp ← ipv4At bytes 20
  let gatewayIp ← ipv4At bytes 24
  let macAddr ← MacAddr.fromBytes (← slice bytes 28 34)
  let magic ← slice bytes 236 240
  if readBE magic 0 4 ≠ MAGIC_COOKIE then .error (magicMismatch (readBE magic 0 4))
  else do
    let options ← optionsLoop bytes 240
    pure ⟨op, UInt32.ofNat (readBE xid 0 4), clientIp, yourIp, serverIp, gatewayIp, macAddr, options⟩

/-! ## Reading back what `to_bytes` writes -/

/-- The options `DhcpOption::to_bytes` writes, other than the end option, with a
request list whose length fits its byte. -/
def DhcpOption.Writable : DhcpOption → Prop
  | .Pad | .Op _ | .RequestedAddress _ | .ServerId _ => True
  | .ParamReqList items => items.length ≤ 255
  | _ => False

/-- What `from_bytes` reads for an option `to_bytes` wrote: the option itself, but
`Unknown` for a `RequestedAddress`, whose code `0x32` it has no arm for. -/
def DhcpOption.readBack : DhcpOption → DhcpOption
  | .RequestedAddress _ => .Unknown
  | o => o

theorem ipv4At_append (pre post : List UInt8) (a : Ipv4Addr) : ipv4At (pre ++ a.bytes ++ post) pre.length = .ok a := by
  have hslice := slice_append pre a.bytes post
  rw [a.length_eq] at hslice
  rw [ipv4At, hslice, Except.ok_bind]
  exact Octets.fromBytes_bytes a

theorem mapM_paramReqOf : ∀ items : List ParamReq,
    (items.map fun v => v.code.toUInt8).mapM paramReqOf = .ok items
  | [] => rfl
  | r :: rs => by
    have hr : paramReqOf r.code.toUInt8 = .ok r := by
      rw [paramReqOf, ParamReq.tryFrom_code]
    rw [List.map_cons, List.mapM_cons, hr, Except.ok_bind, mapM_paramReqOf rs, Except.ok_bind]
    rfl

/-- An option with a length byte: `from_bytes` reads its item and takes the two
bytes and the length. -/
theorem fromBytes_of_code {code len : UInt8} {body : List UInt8} {item : DhcpOption}
    (hc0 : code ≠ 0x00) (hcf : code ≠ 0xff)
    (hitem : optionItem (code :: len :: body) code.toNat len.toNat = .ok item) :
    DhcpOption.fromBytes (code :: len :: body) = .ok (item, 2 + len.toNat) := by
  rw [DhcpOption.fromBytes, show byteAt (code :: len :: body) 0 = .ok code from rfl, Except.ok_bind,
    if_neg hc0, if_neg hcf, show byteAt (code :: len :: body) 1 = .ok len from rfl, Except.ok_bind,
    hitem, Except.ok_bind]
  rfl

/-- **Each option `to_bytes` writes reads back**, as `readBack` says, taking the
bytes written, whatever follows it. -/
theorem fromBytes_toBytes {o : DhcpOption} (ho : o.Writable) :
    ∃ b, o.toBytes = .ok b ∧ o.readBack ≠ .End ∧
      ∀ rest, DhcpOption.fromBytes (b ++ rest) = .ok (o.readBack, b.length) := by
  cases o with
  | Pad => exact ⟨[0x00], rfl, by decide, fun rest => rfl⟩
  | Op op =>
    refine ⟨[0x35, 0x01, op.code.toUInt8], rfl, by simp [DhcpOption.readBack], fun rest => ?_⟩
    have hitem : optionItem (0x35 :: 0x01 :: op.code.toUInt8 :: rest) 0x35 1 = .ok (.Op op) := by
      simp only [optionItem, if_pos]
      rw [show byteAt (0x35 :: 0x01 :: op.code.toUInt8 :: rest) 2 = .ok op.code.toUInt8 from rfl,
        Except.ok_bind, Op.tryFrom_code]
      rfl
    exact fromBytes_of_code (by decide) (by decide) hitem
  | RequestedAddress addr =>
    refine ⟨[0x32, 0x04] ++ addr.bytes, rfl, by simp [DhcpOption.readBack], fun rest => ?_⟩
    have hlen : ([0x32, 0x04] ++ addr.bytes).length = 2 + (0x04 : UInt8).toNat := by
      simp [addr.length_eq]
    rw [hlen]
    -- code 0x32 falls to the last arm of the decoder
    exact fromBytes_of_code (by decide) (by decide)
      (show optionItem (0x32 :: 0x04 :: (addr.bytes ++ rest)) 0x32 4 = .ok .Unknown from rfl)
  | ServerId addr =>
    refine ⟨[0x36, 0x04] ++ addr.bytes, rfl, by simp [DhcpOption.readBack], fun rest => ?_⟩
    have hlen : ([0x36, 0x04] ++ addr.bytes).length = 2 + (0x04 : UInt8).toNat := by
      simp [addr.length_eq]
    have hitem : optionItem (0x36 :: 0x04 :: (addr.bytes ++ rest)) 0x36 4 = .ok (.ServerId addr) := by
      simp only [optionItem, if_pos]
      rw [show ipv4At (0x36 :: 0x04 :: (addr.bytes ++ rest)) 2 = .ok addr from
        ipv4At_append [0x36, 0x04] rest addr]
      rfl
    rw [hlen, List.append_assoc]
    exact fromBytes_of_code (by decide) (by decide) hitem
  | ParamReqList items =>
    have hn : items.length.toUInt8.toNat = items.length := toNat_toUInt8_of_lt (by simp [DhcpOption.Writable] at ho; omega)
    refine ⟨[0x37, items.length.toUInt8] ++ items.map fun v => v.code.toUInt8, rfl,
      by simp [DhcpOption.readBack], fun rest => ?_⟩
    have hslice := slice_append [0x37, items.length.toUInt8] (items.map fun v => v.code.toUInt8) rest
    rw [List.length_map] at hslice
    have hitem : optionItem (0x37 :: items.length.toUInt8 :: ((items.map fun v => v.code.toUInt8) ++ rest))
        0x37 items.length.toUInt8.toNat = .ok (.ParamReqList items) := by
      simp only [optionItem]
      rw [hn, show slice (0x37 :: items.length.toUInt8 :: ((items.map fun v => v.code.toUInt8) ++ rest)) 2
          (2 + items.length) = .ok (items.map fun v => v.code.toUInt8) from hslice,
        Except.ok_bind, mapM_paramReqOf]
      rfl
    have hlen : ([0x37, items.length.toUInt8] ++ items.map fun v => v.code.toUInt8).length =
        2 + items.length.toUInt8.toNat := by
      simp only [List.length_append, List.length_cons, List.length_nil, List.length_map, hn]
    rw [hlen, List.append_assoc]
    exact fromBytes_of_code (by decide) (by decide) hitem
  | SubnetMask _ | Routers _ | DnsServers _ | LeaseTime _ | End | Unknown =>
    exact absurd ho id

/-- One pass of the option loop, where the option there reads. -/
theorem optionsLoop_of_fromBytes {bytes : List UInt8} {i len : Nat} {opt : DhcpOption}
    (hi : i ≤ bytes.length) (h : DhcpOption.fromBytes (bytes.drop i) = .ok (opt, len)) :
    optionsLoop bytes i = if opt = .End then .ok [] else (optionsLoop bytes (i + len)).map (opt :: ·) := by
  rw [optionsLoop, dif_neg (Nat.not_lt.mpr hi)]
  split
  · rename_i e he
    rw [h] at he
    cases he
  · rename_i opt' len' he
    rw [h] at he
    cases he
    rfl

theorem mapM_toBytes_ok : ∀ opts : List DhcpOption, (∀ o ∈ opts, o.Writable) →
    ∃ bs, opts.mapM DhcpOption.toBytes = .ok bs
  | [], _ => ⟨[], rfl⟩
  | o :: os, h => by
    obtain ⟨b, hb, -, -⟩ := fromBytes_toBytes (h o List.mem_cons_self)
    obtain ⟨bs, hbs⟩ := mapM_toBytes_ok os (fun x hx => h x (List.mem_cons_of_mem _ hx))
    exact ⟨b :: bs, by rw [List.mapM_cons, hb, Except.ok_bind, hbs, Except.ok_bind]; rfl⟩

/-- **The option loop reads the options back**, each as `readBack` says, and stops
at the end option after them. -/
theorem optionsLoop_toBytes (post : List UInt8) :
    ∀ (opts : List DhcpOption) (bs : List (List UInt8)) (pre : List UInt8),
      (∀ o ∈ opts, o.Writable) → opts.mapM DhcpOption.toBytes = .ok bs →
      optionsLoop (pre ++ bs.flatten ++ 0xff :: post) pre.length = .ok (opts.map DhcpOption.readBack)
  | [], bs, pre, _, hbs => by
    obtain rfl : bs = [] := (Except.ok.inj hbs).symm
    have hend : DhcpOption.fromBytes ((pre ++ ([] : List (List UInt8)).flatten ++ 0xff :: post).drop pre.length) =
        .ok (.End, 1) := by
      rw [show (pre ++ ([] : List (List UInt8)).flatten ++ 0xff :: post).drop pre.length = 0xff :: post by simp]
      rfl
    rw [optionsLoop_of_fromBytes (by simp) hend, if_pos rfl]
    rfl
  | o :: os, bs, pre, h, hbs => by
    rw [List.mapM_cons] at hbs
    obtain ⟨b, hb, hbs⟩ := Except.bind_eq_ok.mp hbs
    obtain ⟨bs', hbs', hcons⟩ := Except.bind_eq_ok.mp hbs
    obtain rfl : bs = b :: bs' := (Except.ok.inj hcons).symm
    obtain ⟨b', hb', hne, hread⟩ := fromBytes_toBytes (h o List.mem_cons_self)
    obtain rfl : b = b' := Except.ok.inj (hb.symm.trans hb')
    have hopt : DhcpOption.fromBytes ((pre ++ (b :: bs').flatten ++ 0xff :: post).drop pre.length) =
        .ok (o.readBack, b.length) := by
      rw [show (pre ++ (b :: bs').flatten ++ 0xff :: post).drop pre.length =
        b ++ (bs'.flatten ++ 0xff :: post) by simp]
      exact hread _
    have ih := optionsLoop_toBytes post os bs' (pre ++ b) (fun x hx => h x (List.mem_cons_of_mem _ hx)) hbs'
    rw [show pre ++ b ++ bs'.flatten ++ 0xff :: post = pre ++ (b :: bs').flatten ++ 0xff :: post by simp,
      List.length_append] at ih
    rw [optionsLoop_of_fromBytes (by simp) hopt, if_neg hne, ih]
    rfl

theorem readBE_beBytes_four {v : Nat} (hv : v < 0x1_0000_0000) : readBE (beBytes 4 v) 0 4 = v := by
  have h := readBE_beBytes_append [] 4 v
  rw [List.append_nil] at h
  rw [h]
  exact Nat.mod_eq_of_lt hv

/-- **A payload reads back.** The payload `to_bytes` writes, when its options are
ones it can write, is read by `from_bytes` with every field as it was and each
option as `readBack` says. -/
theorem Payload.fromBytes_toBytes (p : Payload) (hp : ∀ o ∈ p.options, o.Writable) :
    ∃ b, p.toBytes = .ok b ∧
      Payload.fromBytes b = .ok { p with options := p.options.map DhcpOption.readBack } := by
  obtain ⟨bs, hbs⟩ := mapM_toBytes_ok p.options hp
  refine ⟨p.fields.flatten ++ bs.flatten ++ [0xff], by rw [Payload.toBytes, hbs, Except.ok_bind]; rfl, ?_⟩
  -- each field of the prefix is the slice `from_bytes` takes of it, at the sum of
  -- the lengths before it
  have hlens : p.fields.map List.length = [4, 4, 4, 4, 4, 4, 4, 6, 10, 64, 128, 4] := by
    simp only [Payload.fields, List.map_cons, List.map_nil, List.length_cons, List.length_nil,
      beBytes_length, Octets.length_eq, List.length_replicate]
  have hcount : p.fields.length = 12 := rfl
  have hfield : ∀ (k : Nat) (hk : k < p.fields.length),
      slice (p.fields.flatten ++ bs.flatten ++ [0xff])
        (([4, 4, 4, 4, 4, 4, 4, 6, 10, 64, 128, 4] : List Nat).take k).sum
        (([4, 4, 4, 4, 4, 4, 4, 6, 10, 64, 128, 4] : List Nat).take (k + 1)).sum = .ok p.fields[k] := by
    intro k hk
    have h := slice_flatten (bs.flatten ++ [0xff]) p.fields k hk
    have hstop : (p.fields.take k).flatten.length + p.fields[k].length =
        (p.fields.take (k + 1)).flatten.length := by
      rw [List.take_add_one, List.getElem?_eq_getElem hk, Option.toList_some]
      simp only [List.flatten_append, List.flatten_cons, List.flatten_nil, List.append_nil, List.length_append]
    rw [← List.append_assoc, hstop] at h
    simpa only [List.length_flatten, List.map_take, hlens] using h
  have hxid : slice (p.fields.flatten ++ bs.flatten ++ [0xff]) 4 8 = .ok (beBytes 4 p.xid.toNat) :=
    hfield 1 (by omega)
  have hclient : ipv4At (p.fields.flatten ++ bs.flatten ++ [0xff]) 12 = .ok p.clientIp := by
    have hslice : slice (p.fields.flatten ++ bs.flatten ++ [0xff]) 12 (12 + 4) = .ok p.clientIp.bytes :=
      hfield 3 (by omega)
    rw [ipv4At, hslice, Except.ok_bind]
    exact Octets.fromBytes_bytes _
  have hyour : ipv4At (p.fields.flatten ++ bs.flatten ++ [0xff]) 16 = .ok p.yourIp := by
    have hslice : slice (p.fields.flatten ++ bs.flatten ++ [0xff]) 16 (16 + 4) = .ok p.yourIp.bytes :=
      hfield 4 (by omega)
    rw [ipv4At, hslice, Except.ok_bind]
    exact Octets.fromBytes_bytes _
  have hserver : ipv4At (p.fields.flatten ++ bs.flatten ++ [0xff]) 20 = .ok p.serverIp := by
    have hslice : slice (p.fields.flatten ++ bs.flatten ++ [0xff]) 20 (20 + 4) = .ok p.serverIp.bytes :=
      hfield 5 (by omega)
    rw [ipv4At, hslice, Except.ok_bind]
    exact Octets.fromBytes_bytes _
  have hgateway : ipv4At (p.fields.flatten ++ bs.flatten ++ [0xff]) 24 = .ok p.gatewayIp := by
    have hslice : slice (p.fields.flatten ++ bs.flatten ++ [0xff]) 24 (24 + 4) = .ok p.gatewayIp.bytes :=
      hfield 6 (by omega)
    rw [ipv4At, hslice, Except.ok_bind]
    exact Octets.fromBytes_bytes _
  have hmac : slice (p.fields.flatten ++ bs.flatten ++ [0xff]) 28 34 = .ok p.macAddr.bytes :=
    hfield 7 (by omega)
  have hmagic : slice (p.fields.flatten ++ bs.flatten ++ [0xff]) 236 240 = .ok (beBytes 4 MAGIC_COOKIE) :=
    hfield 11 (by omega)
  have hloop := optionsLoop_toBytes [] p.options bs p.fields.flatten hp hbs
  rw [show p.fields.flatten.length = 240 by rw [List.length_flatten, hlens]; rfl] at hloop
  have hM : readBE (beBytes 4 MAGIC_COOKIE) 0 4 = MAGIC_COOKIE := readBE_beBytes_four (by decide)
  have hX : UInt32.ofNat (readBE (beBytes 4 p.xid.toNat) 0 4) = p.xid := by
    rw [readBE_beBytes_four p.xid.toNat_lt, UInt32.ofNat_toNat]
  rw [Payload.fromBytes, show byteAt (p.fields.flatten ++ bs.flatten ++ [0xff]) 0 = .ok p.op.code.toUInt8 from rfl,
    Except.ok_bind, MsgType.tryFrom_code]
  -- the join point of the `match` on the message type is inlined, then each field read
  dsimp only
  have hbyte : ∀ (i : Nat) (value : UInt8) (msg : String), (p.fields.flatten ++ bs.flatten ++ [0xff])[i]? = some value →
      assertByte (p.fields.flatten ++ bs.flatten ++ [0xff]) i value msg = .ok () := by
    intro i value msg h
    rw [assertByte, byteAt, h]
    dsimp only
    rw [Except.ok_bind, if_pos rfl]
    rfl
  rw [pure_bind, hbyte 1 0x01 _ rfl, Except.ok_bind, hbyte 2 0x06 _ rfl, Except.ok_bind, hbyte 3 0x00 _ rfl,
    Except.ok_bind, hxid, Except.ok_bind, hclient, Except.ok_bind, hyour, Except.ok_bind, hserver,
    Except.ok_bind, hgateway, Except.ok_bind, hmac, Except.ok_bind, MacAddr.fromBytes, Octets.fromBytes_bytes,
    Except.ok_bind, hmagic, Except.ok_bind, hM, if_neg (not_not.mpr rfl), hloop, Except.ok_bind, hX]
  rfl

/-- **The request does not read back.** The request a client sends, with its
`RequestedAddress`, reads back with `Unknown` in that option's place. -/
theorem request_loses_requested_address (xid : UInt32) (macAddr : MacAddr) (clientIp serverIp : Ipv4Addr) :
    ∃ b q, (Payload.request xid macAddr clientIp serverIp).toBytes = .ok b ∧ Payload.fromBytes b = .ok q ∧
      q.options = [.Op .REQUEST, .Unknown, .ServerId serverIp, .ParamReqList [.SubnetMask, .Router, .DNSServer]] ∧
      q.options ≠ (Payload.request xid macAddr clientIp serverIp).options := by
  have hw : ∀ o ∈ (Payload.request xid macAddr clientIp serverIp).options, o.Writable := by
    simp [Payload.request, DhcpOption.Writable]
  obtain ⟨b, hb, hread⟩ := Payload.fromBytes_toBytes _ hw
  refine ⟨b, _, hb, hread, rfl, ?_⟩
  simp [Payload.request, DhcpOption.readBack]

end D7os.Dhcp
