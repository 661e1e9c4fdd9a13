import D7os.Net.Dhcp

/-!
# The DHCP client of netd

`modules/daemon_net/src/dhcp_client.rs`: the client broadcasts a DISCOVER with its
transaction id and MAC address, answers the first OFFER it reads with a REQUEST
for the offered address at the offer's server id, and adopts the settings of the
first ACK after that. What it publishes is kept here as the DHCP payload inside
the broadcast frame; the transaction id comes from `random::fast_arr` and is a
parameter.

The order holds: settings are adopted only after the client sent its DISCOVER
and then a REQUEST. Nothing else about the reply is checked. `on_packet` reads
neither the transaction id nor the client hardware address nor the server id of
a reply, so any host's OFFER moves the client to its REQUEST, any ACK is
adopted with whatever address it gives, and a NAK stops netd at its `todo!`.
-/

namespace D7os.Dhcp

def MacAddr.ZERO : MacAddr := ⟨[0, 0, 0, 0, 0, 0], rfl⟩

inductive ClientState
  | Initial
  | Discover
  | Request
  | Operational
  deriving DecidableEq

structure Client where
  /-- Transaction id, `XID` in some DHCP docs -/
  id : UInt32
  macAddr : MacAddr
  state : ClientState

structure InterfaceSettings where
  ipv4 : Option Ipv4Addr
  netmask : Option Ipv4Addr
  routers : List Ipv4Addr
  dnsServers : List Ipv4Addr

/-- The `find_map` arms of `on_packet`, one per option it looks for. -/
def opOf : DhcpOption → Option Op
  | .Op op => some op
  | _ => none

def serverIdOf : DhcpOption → Option Ipv4Addr
  | .ServerId sid => some sid
  | _ => none

def subnetMaskOf : DhcpOption → Option Ipv4Addr
  | .SubnetMask m => some m
  | _ => none

def routersOf : DhcpOption → Option (List Ipv4Addr)
  | .Routers m => some m
  | _ => none

def dnsServersOf : DhcpOption → Option (List Ipv4Addr)
  | .DnsServers m => some m
  | _ => none

/-- The settings `on_packet` returns for an ACK. -/
def ackSettings (payload : Payload) : InterfaceSettings :=
  ⟨some payload.yourIp, payload.options.findSome? subnetMaskOf,
    (payload.options.findSome? routersOf).getD [], (payload.options.findSome? dnsServersOf).getD []⟩

namespace Client

def new (macAddr : MacAddr) (id : UInt32) : Client := ⟨id, macAddr, .Initial⟩

/-- `send_discover`: the client after it, and the payload it broadcasts. -/
def sendDiscover (c : Client) : Except Panic (Client × Payload) :=
  if c.macAddr ≠ MacAddr.ZERO then .ok ({ c with state := .Discover }, Payload.discover c.id c.macAddr)
  else .error "assertion failed: self.mac_addr != MacAddr::ZERO"

def acceptOffer (c : Client) (clientIp serverIp : Ipv4Addr) : Client × Payload :=
  ({ c with state := .Request }, Payload.request c.id c.macAddr clientIp serverIp)

/-- `on_packet` after `Payload::from_bytes`: the client after it, the settings it
returns and the payloads it broadcasts. -/
def onPayload (c : Client) (payload : Payload) :
    Except Panic (Client × Option InterfaceSettings × List Payload) :=
  if payload.op ≠ .REPLY then .ok (c, none, [])
  else
    match payload.options.findSome? opOf with
    | none => .ok (c, none, [])
    | some op =>
      match c.state with
      | .Initial => .ok (c, none, [])
      | .Discover =>
        if op = .OFFER then
          match payload.options.findSome? serverIdOf with
          | none => .ok (c, none, [])
          | some sid =>
            match c.acceptOffer payload.yourIp sid with
            | (c, sent) => .ok (c, none, [sent])
        else .ok (c, none, [])
      | .Request =>
        if op = .ACK then .ok ({ c with state := .Operational }, some (ackSettings payload), [])
        else if op = .NAK then .error "not yet implemented: DHCP: failed"
        else .ok (c, none, [])
      | .Operational => .ok (c, none, [])

def onPacket (c : Client) (packet : List UInt8) :
    Except Panic (Client × Option InterfaceSettings × List Payload) := do
  c.onPayload (← Payload.fromBytes packet)

end Client

/-- What reaches the client: the call of `send_discover`, or the UDP payload of a
packet `on_dhcp_packet` passes on. -/
inductive Event
  | sendDiscover
  | packet (bytes : List UInt8)

/-- What the client does that others see: a payload broadcast, or settings the
interface adopts. -/
inductive Output
  | sent (payload : Payload)
  | adopted (settings : InterfaceSettings)

namespace Client

def handle (c : Client) : Event → Except Panic (Client × List Output)
  | .sendDiscover => (c.sendDiscover).map fun (c, sent) => (c, [.sent sent])
  | .packet bytes =>
    (c.onPacket bytes).map fun (c, settings, sent) => (c, sent.map .sent ++ settings.toList.map .adopted)

def run : Client → List Event → Except Panic (Client × List Output)
  | c, [] => .ok (c, [])
  | c, ev :: evs => do
    let (c, out) ← c.handle ev
    let (c, out') ← run c evs
    pure (c, out ++ out')

/-! ## What one payload does -/

variable {c c' : Client} {payload : Payload} {settings : Option InterfaceSettings} {sent : List Payload}

/-- **The cases of `on_packet`**: a packet is ignored, or in `Discover` an OFFER
with a server id is answered by a REQUEST, or in `Request` an ACK is adopted.
No case reads the transaction id or the hardware address of the reply. -/
theorem onPayload_cases (h : c.onPayload payload = .ok (c', settings, sent)) :
    (c' = c ∧ settings = none ∧ sent = []) ∨
    (c.state = .Discover ∧ payload.op = .REPLY ∧ payload.options.findSome? opOf = some .OFFER ∧
      ∃ sid, payload.options.findSome? serverIdOf = some sid ∧ c' = { c with state := .Request } ∧
        settings = none ∧ sent = [Payload.request c.id c.macAddr payload.yourIp sid]) ∨
    (c.state = .Request ∧ payload.op = .REPLY ∧ payload.options.findSome? opOf = some .ACK ∧
      c' = { c with state := .Operational } ∧ settings = some (ackSettings payload) ∧ sent = []) := by
  unfold onPayload at h
  split at h
  · cases h
    exact .inl ⟨rfl, rfl, rfl⟩
  · rename_i hop
    have hop : payload.op = .REPLY := not_not.mp hop
    split at h
    · cases h
      exact .inl ⟨rfl, rfl, rfl⟩
    · rename_i op hfind
      split at h
      · cases h
        exact .inl ⟨rfl, rfl, rfl⟩
      · rename_i hstate
        split at h
        · rename_i hoffer
          subst hoffer
          split at h
          · cases h
            exact .inl ⟨rfl, rfl, rfl⟩
          · rename_i sid hsid
            cases h
            exact .inr (.inl ⟨hstate, hop, hfind, sid, hsid, rfl, rfl, rfl⟩)
        · cases h
          exact .inl ⟨rfl, rfl, rfl⟩
      · rename_i hstate
        split at h
        · rename_i hack
          subst hack
          cases h
          exact .inr (.inr ⟨hstate, hop, hfind, rfl, rfl, rfl⟩)
        · split at h
          · cases h
          · cases h
            exact .inl ⟨rfl, rfl, rfl⟩
      · cases h
        exact .inl ⟨rfl, rfl, rfl⟩

/-- A payload read back from what `to_bytes` wrote reaches `on_packet` as it was,
whatever its transaction id and hardware address. -/
theorem onPacket_toBytes (payload : Payload) (hw : ∀ o ∈ payload.options, o.Writable)
    (hread : payload.options.map DhcpOption.readBack = payload.options) :
    ∃ b, payload.toBytes = .ok b ∧ c.onPacket b = c.onPayload payload := by
  obtain ⟨b, hb, hfrom⟩ := Payload.fromBytes_toBytes payload hw
  refine ⟨b, hb, ?_⟩
  rw [onPacket, hfrom, Except.ok_bind, hread]

/-! ## The order of a run -/

variable (id : UInt32) (mac : MacAddr)

/-- The client's own DISCOVER and a REQUEST after it, in the log. -/
def Requested (log : List Output) : Prop :=
  ∃ ip sid, [Output.sent (Payload.discover id mac), .sent (Payload.request id mac ip sid)].Sublist log

/-- The trace invariant of a client with id `id` and address `mac`: a client past
`Discover` has sent its DISCOVER, one past `Request` a REQUEST after it, and
every adoption in the log came after both. -/
structure Inv (c : Client) (log : List Output) : Prop where
  id_eq : c.id = id
  mac_eq : c.macAddr = mac
  discovered : c.state = .Discover → [Output.sent (Payload.discover id mac)].Sublist log
  requested : c.state = .Request ∨ c.state = .Operational → Requested id mac log
  adopted : ∀ pre s post, log = pre ++ .adopted s :: post → Requested id mac pre

variable {id mac}

theorem Requested.append {log : List Output} (h : Requested id mac log) (out : List Output) :
    Requested id mac (log ++ out) := by
  obtain ⟨ip, sid, hs⟩ := h
  exact ⟨ip, sid, hs.trans (List.sublist_append_left _ _)⟩

theorem inv_new : (Client.new mac id).Inv id mac [] :=
  ⟨rfl, rfl, (fun h => by cases h), (fun h => by rcases h with h | h <;> cases h),
    (fun pre s post h => by simp at h)⟩

/-- An output appended after the log is an adoption in the log, or it is the
one appended. -/
theorem adopted_of_append_singleton {log pre post : List Output} {x : Output} {s : InterfaceSettings}
    (h : log ++ [x] = pre ++ .adopted s :: post) : (∃ post', log = pre ++ .adopted s :: post') ∨ (pre = log ∧ x = .adopted s) := by
  rcases List.append_eq_append_iff.mp h with ⟨a, rfl, ha⟩ | ⟨c, hlog, hc⟩
  · -- the adoption is the element appended
    cases a with
    | nil =>
      simp only [List.nil_append, List.cons.injEq] at ha
      exact .inr ⟨by simp, ha.1⟩
    | cons y a =>
      simp only [List.cons_append, List.cons.injEq] at ha
      exact absurd ha.2.symm (by simp)
  · cases c with
    | nil =>
      simp only [List.nil_append, List.cons.injEq] at hc
      exact .inr ⟨by simpa using hlog.symm, hc.1.symm⟩
    | cons y c =>
      simp only [List.cons_append, List.cons.injEq] at hc
      obtain ⟨rfl, -⟩ := hc
      exact .inl ⟨c, hlog⟩

theorem Inv.adopted_of_sent (hinv : c.Inv id mac log) {x : Payload} {pre post : List Output} {s : InterfaceSettings}
    (h : log ++ [.sent x] = pre ++ .adopted s :: post) : Requested id mac pre := by
  rcases adopted_of_append_singleton h with ⟨post', hlog⟩ | ⟨-, hx⟩
  · exact hinv.adopted pre s post' hlog
  · cases hx

/-- **One event keeps the trace invariant.** -/
theorem handle_inv {log out : List Output} {ev : Event} (hinv : c.Inv id mac log)
    (h : c.handle ev = .ok (c', out)) : c'.Inv id mac (log ++ out) := by
  cases ev with
  | sendDiscover =>
    obtain ⟨⟨c₁, sent₁⟩, hs, h⟩ := Except.map_eq_ok.mp h
    cases h
    unfold sendDiscover at hs
    split at hs
    · cases hs
      rw [hinv.id_eq, hinv.mac_eq]
      exact ⟨rfl, rfl, fun _ => List.sublist_append_right _ _,
        (fun h => by rcases h with h | h <;> cases h), fun pre s post h => hinv.adopted_of_sent h⟩
    · cases hs
  | packet bytes =>
    obtain ⟨⟨c₁, settings₁, sent₁⟩, hs, h⟩ := Except.map_eq_ok.mp h
    cases h
    unfold onPacket at hs
    obtain ⟨payload, -, hs⟩ := Except.bind_eq_ok.mp hs
    rcases onPayload_cases hs with ⟨rfl, rfl, rfl⟩ | ⟨hstate, -, -, sid, -, rfl, rfl, rfl⟩ |
      ⟨hstate, -, -, rfl, rfl, rfl⟩
    · simpa using hinv
    · -- the REQUEST goes after the DISCOVER sent in `Discover`
      have hdisc := hinv.discovered hstate
      rw [hinv.id_eq, hinv.mac_eq]
      refine ⟨rfl, rfl, (fun h => by cases h), fun _ => ⟨payload.yourIp, sid, ?_⟩,
        fun pre s post h => hinv.adopted_of_sent (by simpa using h)⟩
      simpa using hdisc.append (List.Sublist.refl [Output.sent (Payload.request id mac payload.yourIp sid)])
    · -- the adoption goes after the REQUEST sent in `Request`
      have hreq := hinv.requested (.inl hstate)
      refine ⟨hinv.id_eq, hinv.mac_eq, (fun h => by cases h), fun _ => hreq.append _, fun pre s post h => ?_⟩
      rcases adopted_of_append_singleton (by simpa using h) with ⟨post', hlog⟩ | ⟨rfl, -⟩
      · exact hinv.adopted pre s post' hlog
      · exact hreq

theorem run_inv : ∀ {evs : List Event} {c c' : Client} {log out : List Output}, c.Inv id mac log →
    c.run evs = .ok (c', out) → c'.Inv id mac (log ++ out)
  | [], c, c', log, out, hinv, h => by
    cases h
    simpa using hinv
  | ev :: evs, c, c', log, out, hinv, h => by
    rw [run] at h
    obtain ⟨⟨c₁, out₁⟩, h₁, h⟩ := Except.bind_eq_ok.mp h
    obtain ⟨⟨c₂, out₂⟩, h₂, h⟩ := Except.bind_eq_ok.mp h
    cases h
    rw [← List.append_assoc]
    exact run_inv (handle_inv hinv h₁) h₂

end Client

/-! ## Replies from other transactions -/

section Foreign

variable {c : Client}

/-- In `Discover`, any host's OFFER with a server id is answered with a REQUEST
for the address it offers. -/
theorem onPacket_foreign_offer (hstate : c.state = .Discover) (xid : UInt32) (macAddr : MacAddr)
    (yourIp sid : Ipv4Addr) :
    ∃ b, (⟨.REPLY, xid, Ipv4Addr.ZERO, yourIp, sid, Ipv4Addr.ZERO, macAddr, [.Op .OFFER, .ServerId sid]⟩ :
        Payload).toBytes = .ok b ∧
      c.onPacket b = .ok ({ c with state := .Request }, none, [Payload.request c.id c.macAddr yourIp sid]) := by
  obtain ⟨b, hb, hpacket⟩ := Client.onPacket_toBytes (c := c)
    ⟨.REPLY, xid, Ipv4Addr.ZERO, yourIp, sid, Ipv4Addr.ZERO, macAddr, [.Op .OFFER, .ServerId sid]⟩
    (by simp [DhcpOption.Writable]) rfl
  refine ⟨b, hb, ?_⟩
  rw [hpacket, Client.onPayload, if_neg (not_not.mpr rfl)]
  simp only [List.findSome?, opOf, serverIdOf, hstate]
  rfl

/-- In `Request`, any host's ACK is adopted, with the address it gives. -/
theorem onPacket_foreign_ack (hstate : c.state = .Request) (xid : UInt32) (macAddr : MacAddr)
    (yourIp : Ipv4Addr) :
    ∃ b, (⟨.REPLY, xid, Ipv4Addr.ZERO, yourIp, Ipv4Addr.ZERO, Ipv4Addr.ZERO, macAddr, [.Op .ACK]⟩ :
        Payload).toBytes = .ok b ∧
      c.onPacket b = .ok ({ c with state := .Operational }, some ⟨some yourIp, none, [], []⟩, []) := by
  obtain ⟨b, hb, hpacket⟩ := Client.onPacket_toBytes (c := c)
    ⟨.REPLY, xid, Ipv4Addr.ZERO, yourIp, Ipv4Addr.ZERO, Ipv4Addr.ZERO, macAddr, [.Op .ACK]⟩
    (by simp [DhcpOption.Writable]) rfl
  refine ⟨b, hb, ?_⟩
  rw [hpacket, Client.onPayload, if_neg (not_not.mpr rfl)]
  simp only [List.findSome?, opOf, hstate]
  rfl

end Foreign

/-- **The DHCP client adopts settings from any transaction.** Over every run from
`Client::new`, settings are adopted only after the client sent its DISCOVER and
then a REQUEST. But in `Discover` an OFFER of any transaction id, hardware
address and server moves the client to `Request`, with a REQUEST for the address
it offers, and in `Request` an ACK of any transaction id and hardware address,
with no server id, is adopted with the address it gives. -/
theorem dhcp_client_accepts_foreign_replies :
    (∀ mac id evs c log, (Client.new mac id).run evs = .ok (c, log) →
      ∀ pre s post, log = pre ++ .adopted s :: post → Client.Requested id mac pre) ∧
    (∀ (c : Client) xid macAddr yourIp sid, c.state = .Discover →
      ∃ b, (⟨.REPLY, xid, Ipv4Addr.ZERO, yourIp, sid, Ipv4Addr.ZERO, macAddr, [.Op .OFFER, .ServerId sid]⟩ :
          Payload).toBytes = .ok b ∧
        c.onPacket b = .ok ({ c with state := .Request }, none, [Payload.request c.id c.macAddr yourIp sid])) ∧
    (∀ (c : Client) xid macAddr yourIp, c.state = .Request →
      ∃ b, (⟨.REPLY, xid, Ipv4Addr.ZERO, yourIp, Ipv4Addr.ZERO, Ipv4Addr.ZERO, macAddr, [.Op .ACK]⟩ :
          Payload).toBytes = .ok b ∧
        c.onPacket b = .ok ({ c with state := .Operational }, some ⟨some yourIp, none, [], []⟩, [])) := by
  refine ⟨fun mac id evs c log h pre s post hlog => ?_, fun c xid macAddr yourIp sid hstate =>
    onPacket_foreign_offer hstate xid macAddr yourIp sid, fun c xid macAddr yourIp hstate =>
    onPacket_foreign_ack hstate xid macAddr yourIp⟩
  exact (Client.run_inv Client.inv_new h).adopted pre s post (by simpa using hlog)

end D7os.Dhcp
