import Mathlib.Data.List.Basic
import D7os.Net.TcpHandler

/-!
# Addresses as text

`libs/d7net/src/ip_addr.rs`. An `Ipv4Addr` is displayed as its four bytes in
decimal, joined by dots, and parsed back by `TryFrom<&str>`: the text is split at
its dots, four pieces are parsed as `u8` with `core`'s `from_str`, and no fifth
piece may follow. A `SocketAddr` is parsed from `host:port`, split at the last
colon, with the host optionally in brackets.

`from_str` of an unsigned type takes an optional `+` and then decimal digits,
with every step of the accumulation checked against overflow. Text is its list of
characters; `libd7` uses `IpAddr::try_from` to tell a literal address from a host
name that must go to the resolver.
-/

namespace D7os.Netd

open Dhcp

structure InvalidIpv4Addr where
  deriving DecidableEq, Repr

structure InvalidIpAddr where
  deriving DecidableEq, Repr

structure InvalidSocketAddr where
  deriving DecidableEq, Repr

/-! ## `from_str` of an unsigned integer -/

/-- The digit loop of `from_str_radix` at radix 10: `checked_mul`, `to_digit`,
`checked_add`, each failing the parse. -/
def digitsLoop (max : Nat) : List Char → Nat → Option Nat
  | [], result => some result
  | c :: cs, result =>
    if c.isDigit ∧ 10 * result ≤ max ∧ 10 * result + (c.toNat - '0'.toNat) ≤ max then
      digitsLoop max cs (10 * result + (c.toNat - '0'.toNat))
    else none

/-- `u8::from_str` (`max = 255`) and `u16::from_str` (`max = 65535`). -/
def fromStr (max : Nat) (src : List Char) : Option Nat :=
  match src with
  | [] => none
  | ['+'] => none
  | ['-'] => none
  | '+' :: digits => digitsLoop max digits 0
  | digits => digitsLoop max digits 0

/-! ## `Ipv4Addr` -/

/-- `Display for Ipv4Addr`. -/
def Ipv4Addr.display (a : Ipv4Addr) : List Char :=
  ['.'].intercalate (a.bytes.map fun b => Nat.toDigits 10 b.toNat)

def parseOctet (a : List Char) : Except InvalidIpv4Addr UInt8 :=
  match fromStr 255 a with
  | some v => .ok v.toUInt8
  | none => .error ⟨⟩

/-- `TryFrom<&str> for Ipv4Addr`: the loop takes four pieces of the split and
parses each, and then asks that no fifth piece follows. -/
def Ipv4Addr.tryFrom (value : List Char) : Except InvalidIpv4Addr Ipv4Addr :=
  match value.splitOn '.' with
  | [p₀, p₁, p₂, p₃] => do
    let b₀ ← parseOctet p₀
    let b₁ ← parseOctet p₁
    let b₂ ← parseOctet p₂
    let b₃ ← parseOctet p₃
    pure ⟨[b₀, b₁, b₂, b₃], rfl⟩
  | _ => .error ⟨⟩

example : Ipv4Addr.tryFrom "256.2.3.1".toList = .error ⟨⟩ := by decide

/-- `from_str` takes a sign and leading zeros, so one address has many texts. -/
example : Ipv4Addr.tryFrom "+1.2.3.04".toList = .ok ⟨[1, 2, 3, 4], rfl⟩ := by decide

/-- `TryFrom<&str> for IpAddr`: IPv6 is not parsed. -/
def IpAddr.tryFrom (value : List Char) : Except InvalidIpAddr IpAddr :=
  match Ipv4Addr.tryFrom value with
  | .ok a => .ok (.V4 a)
  | .error _ => .error ⟨⟩

/-- `TryFrom<(&str, u16)> for SocketAddr`. -/
def SocketAddr.tryFromPair (hostStr : List Char) (port : Nat) : Except InvalidSocketAddr SocketAddr :=
  match IpAddr.tryFrom hostStr with
  | .ok host => .ok ⟨host, port⟩
  | .error _ => .error ⟨⟩

/-- `TryFrom<&str> for SocketAddr`; `rsplit(":")` gives the pieces of the split
from the last. -/
def SocketAddr.tryFrom (value : List Char) : Except InvalidSocketAddr SocketAddr :=
  let it := (value.splitOn ':').reverse
  match it.head?.bind (fromStr 65535) with
  | none => .error ⟨⟩
  | some port =>
    match it.drop 1 with
    | [] => .error ⟨⟩
    | hostStr :: more =>
      if more ≠ [] then .error ⟨⟩
      else
        -- Accept form [::1]:80 and even [127.0.0.1]:80
        let hostStr := ((hostStr.dropPrefix? ['[']).bind (·.dropSuffix? [']'])).getD hostStr
        tryFromPair hostStr port

/-! ## Parsing what is displayed -/

theorem digitsLoop_append (max : Nat) (l m : List Char) (result : Nat) :
    digitsLoop max (l ++ m) result = (digitsLoop max l result).bind (digitsLoop max m) := by
  induction l generalizing result with
  | nil => rfl
  | cons c cs ih =>
    rw [List.cons_append, digitsLoop, digitsLoop]
    split
    · exact ih _
    · rfl

theorem digitsLoop_digitChar {max d result : Nat} (hd : d < 10) (h : 10 * result + d ≤ max) :
    digitsLoop max [d.digitChar] result = some (10 * result + d) := by
  have hc : d.digitChar.toNat - '0'.toNat = d := Nat.toNat_digitChar_sub_48_of_lt_ten hd
  rw [digitsLoop, hc, if_pos ⟨by simpa [Nat.isDigit_digitChar] using hd, by omega, h⟩]
  rfl

/-- The digit loop reads a decimal numeral back, its prefixes never above the
numeral's value; by induction on the digits, last digit first. -/
theorem digitsLoop_toDigits {max n : Nat} (h : n ≤ max) : digitsLoop max (Nat.toDigits 10 n) 0 = some n := by
  induction n using Nat.base_induction 10 (by decide) with
  | single m hm =>
    rw [Nat.toDigits_of_lt_base hm, digitsLoop_digitChar hm (by omega), Nat.mul_zero, Nat.zero_add]
  | digit m k hk hm ih =>
    rw [← Nat.toDigits_append_toDigits (by decide) hm hk, digitsLoop_append, ih (by omega),
      Option.bind_some, Nat.toDigits_of_lt_base hk, digitsLoop_digitChar hk h]

theorem fromStr_of_isDigit {max : Nat} {c : Char} (hc : c.isDigit) (cs : List Char) :
    fromStr max (c :: cs) = digitsLoop max (c :: cs) 0 := by
  have hplus : c ≠ '+' := by
    rintro rfl
    exact absurd hc (by decide)
  have hminus : c ≠ '-' := by
    rintro rfl
    exact absurd hc (by decide)
  unfold fromStr
  split <;> simp_all

theorem fromStr_toDigits {max n : Nat} (h : n ≤ max) : fromStr max (Nat.toDigits 10 n) = some n := by
  obtain ⟨c, cs, hcs⟩ := List.exists_cons_of_ne_nil (Nat.toDigits_ne_nil (n := n) (b := 10))
  have hc : c.isDigit := Nat.isDigit_of_mem_toDigits (by decide) (by decide) (hcs ▸ List.mem_cons_self)
  rw [hcs, fromStr_of_isDigit hc, ← hcs, digitsLoop_toDigits h]

theorem not_mem_toDigits {c : Char} (hc : c.isDigit = false) (n : Nat) : c ∉ Nat.toDigits 10 n := by
  intro hmem
  rw [Nat.isDigit_of_mem_toDigits (by decide) (by decide) hmem] at hc
  cases hc

theorem splitOn_display (a : Ipv4Addr) :
    (Ipv4Addr.display a).splitOn '.' = a.bytes.map fun b => Nat.toDigits 10 b.toNat := by
  apply List.splitOn_intercalate
  · intro l hl
    obtain ⟨b, -, rfl⟩ := List.mem_map.mp hl
    exact not_mem_toDigits (by decide) _
  · intro h
    have := congrArg List.length h
    rw [List.length_map, a.length_eq] at this
    cases this

theorem parseOctet_toDigits (b : UInt8) : parseOctet (Nat.toDigits 10 b.toNat) = .ok b := by
  rw [parseOctet, fromStr_toDigits (Nat.le_of_lt_succ b.toNat_lt)]
  simp

/-- **An address parses back from its display.** -/
theorem tryFrom_display (a : Ipv4Addr) : Ipv4Addr.tryFrom (Ipv4Addr.display a) = .ok a := by
  obtain ⟨bytes, hlen⟩ := a
  match bytes, hlen with
  | [b₀, b₁, b₂, b₃], _ =>
    rw [Ipv4Addr.tryFrom, splitOn_display]
    simp only [List.map_cons, List.map_nil, parseOctet_toDigits, Except.ok_bind]
    rfl

theorem mem_intercalate_singleton {α : Type} {sep c : α} :
    ∀ {L : List (List α)}, c ∈ [sep].intercalate L → c = sep ∨ ∃ l ∈ L, c ∈ l
  | [], h => by simp at h
  | [l], h => .inr ⟨l, List.mem_singleton_self l, by simpa using h⟩
  | l :: l' :: L, h => by
    rw [List.intercalate_cons_cons, List.mem_append, List.mem_append, List.mem_singleton] at h
    rcases h with (h | h) | h
    · exact .inr ⟨l, List.mem_cons_self, h⟩
    · exact .inl h
    · rcases mem_intercalate_singleton h with h | ⟨l'', hl'', h⟩
      · exact .inl h
      · exact .inr ⟨l'', List.mem_cons_of_mem l hl'', h⟩

/-- The display holds decimal digits and dots only. -/
theorem mem_display {a : Ipv4Addr} {c : Char} (hc : c ∈ Ipv4Addr.display a) : c.isDigit ∨ c = '.' := by
  rcases mem_intercalate_singleton hc with rfl | ⟨l, hl, hcl⟩
  · exact .inr rfl
  · obtain ⟨b, -, rfl⟩ := List.mem_map.mp hl
    exact .inl (Nat.isDigit_of_mem_toDigits (by decide) (by decide) hcl)

theorem display_ne_nil (a : Ipv4Addr) : Ipv4Addr.display a ≠ [] := by
  intro h
  have hlen := congrArg List.length (splitOn_display a)
  rw [h, List.splitOn_nil, List.length_map, a.length_eq] at hlen
  cases hlen

theorem dropPrefix?_display (a : Ipv4Addr) : (Ipv4Addr.display a).dropPrefix? ['['] = none := by
  obtain ⟨c, cs, hcs⟩ := List.exists_cons_of_ne_nil (display_ne_nil a)
  have hc : c ≠ '[' := by
    rintro rfl
    rcases mem_display (hcs ▸ List.mem_cons_self) with h | h
    · exact absurd h (by decide)
    · exact absurd h (by decide)
  rw [hcs, List.dropPrefix?, if_neg (by simpa using hc)]

/-- A host and a port after the one colon: the port is parsed, and the host with
its brackets dropped. -/
theorem SocketAddr.tryFrom_host_port {host : List Char} (hhost : ':' ∉ host) {port : Nat} (hport : port < 65536) :
    SocketAddr.tryFrom (host ++ ':' :: Nat.toDigits 10 port) =
      SocketAddr.tryFromPair (((host.dropPrefix? ['[']).bind (·.dropSuffix? [']'])).getD host) port := by
  have hsplit : (host ++ ':' :: Nat.toDigits 10 port).splitOn ':' = [host, Nat.toDigits 10 port] := by
    have h : ([':'].intercalate [host, Nat.toDigits 10 port]).splitOn ':' = [host, Nat.toDigits 10 port] :=
      List.splitOn_intercalate ':' (by simpa using ⟨hhost, not_mem_toDigits (by decide) port⟩) (by simp)
    simpa using h
  rw [SocketAddr.tryFrom, hsplit]
  simp only [List.reverse_cons, List.reverse_nil, List.nil_append, List.cons_append, List.head?_cons,
    Option.bind_some, fromStr_toDigits (Nat.le_of_lt_succ hport), List.drop_one, List.tail_cons]
  rfl

theorem SocketAddr.tryFromPair_display (a : Ipv4Addr) (port : Nat) :
    SocketAddr.tryFromPair (Ipv4Addr.display a) port = .ok ⟨.V4 a, port⟩ := by
  rw [SocketAddr.tryFromPair, IpAddr.tryFrom, tryFrom_display]

theorem not_colon_mem_display (a : Ipv4Addr) : ':' ∉ Ipv4Addr.display a := by
  intro h
  rcases mem_display h with h | h
  · exact absurd h (by decide)
  · exact absurd h (by decide)

/-- **Addresses parse back from their text.** An `Ipv4Addr` parses back from its
display, and a socket address from the display of its host, a colon and its port
in decimal, with or without brackets around the host. -/
theorem socket_addr_parses_display (a : Ipv4Addr) (port : Nat) (hport : port < 65536) :
    Ipv4Addr.tryFrom (Ipv4Addr.display a) = .ok a ∧
      SocketAddr.tryFrom (Ipv4Addr.display a ++ ':' :: Nat.toDigits 10 port) = .ok ⟨.V4 a, port⟩ ∧
      SocketAddr.tryFrom (('[' :: Ipv4Addr.display a ++ [']']) ++ ':' :: Nat.toDigits 10 port) =
        .ok ⟨.V4 a, port⟩ := by
  refine ⟨tryFrom_display a, ?_, ?_⟩
  · rw [SocketAddr.tryFrom_host_port (not_colon_mem_display a) hport, dropPrefix?_display, Option.bind_none,
      Option.getD_none, SocketAddr.tryFromPair_display]
  · have hhost : ':' ∉ '[' :: Ipv4Addr.display a ++ [']'] := by
      simpa using not_colon_mem_display a
    have hsuffix : (Ipv4Addr.display a ++ [']']).dropSuffix? [']'] = some (Ipv4Addr.display a) :=
      List.dropSuffix?_eq_some_iff.mpr ⟨[']'], rfl, by decide⟩
    rw [SocketAddr.tryFrom_host_port hhost hport, List.cons_append, List.dropPrefix?, if_pos (by decide), List.dropPrefix?_nil,
      Option.bind_some, hsuffix, Option.getD_some, SocketAddr.tryFromPair_display]

/-- The loopback address and a port, as text. -/
theorem socket_addr_parses_loopback :
    SocketAddr.tryFrom "127.0.0.1:8080".toList = .ok ⟨.V4 ⟨[127, 0, 0, 1], rfl⟩, 8080⟩ := by
  have h := (socket_addr_parses_display ⟨[127, 0, 0, 1], rfl⟩ 8080 (by decide)).2.1
  rwa [show Ipv4Addr.display ⟨[127, 0, 0, 1], rfl⟩ ++ ':' :: Nat.toDigits 10 8080 = "127.0.0.1:8080".toList by
    decide] at h

end D7os.Netd
