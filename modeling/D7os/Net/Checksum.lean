import D7os.Net.Bytes

/-!
# The Internet checksum

`d7net::checksum::inet_checksum`: the one's complement of the one's complement
sum of the big-endian 16-bit words of the data, a last odd byte padded with a
zero low byte (RFC 1071). The loop keeps a `u16` and adds each word with
`overflowing_add`, adding the carry back in at once, where the RFC sums in a wide
register and folds the carries at the end.

The running value is the end-around fold of the partial sum. Both are zero only
on a zero sum, and otherwise they agree modulo `0xFFFF` and lie in `1 .. 0xFFFF`,
which fixes them.
-/

namespace D7os

/-- `u16::from_be_bytes([hi, lo])`. -/
def u16FromBeBytes (hi lo : UInt8) : UInt16 := UInt16.ofNat (256 * hi.toNat + lo.toNat)

/-- `u16::overflowing_add`: the wrapped sum and whether it wrapped. -/
def overflowingAdd (a b : UInt16) : UInt16 × Bool := (a + b, decide (UInt16.size ≤ a.toNat + b.toNat))

/-- One chunk of `inet_checksum`: add the word, and on a carry add 1, and 1 again
on a second carry. -/
def addWithCarry (result v : UInt16) : UInt16 :=
  let (r, c) := overflowingAdd result v
  if c then
    let (r, c) := overflowingAdd r 1
    if c then r + 1 else r
  else r

/-- The loop of `inet_checksum` over `data.chunks(2)`. -/
def checksumLoop : UInt16 → List UInt8 → UInt16
  | result, [] => result
  | result, [b] => addWithCarry result (u16FromBeBytes b 0)
  | result, b₀ :: b₁ :: rest => checksumLoop (addWithCarry result (u16FromBeBytes b₀ b₁)) rest

/-- `inet_checksum(data)`. -/
def inetChecksum (data : List UInt8) : UInt16 := ~~~(checksumLoop 0 data)

/-! ## The RFC's sum -/

/-- The sum of the big-endian 16-bit words of `data`, a last odd byte padded with
a zero low byte. -/
def wordSum : List UInt8 → Nat
  | [] => 0
  | [b] => 256 * b.toNat
  | b₀ :: b₁ :: rest => (256 * b₀.toNat + b₁.toNat) + wordSum rest

/-- Adding the carry above bit 15 back into the low 16 bits until none is left. -/
def foldCarries (s : Nat) : Nat :=
  if h : s < 0x1_0000 then s else foldCarries (s % 0x1_0000 + s / 0x1_0000)
termination_by s
decreasing_by omega

/-- **The fold in closed form**: zero for a zero sum, and otherwise the value in
`1 .. 0xFFFF` congruent to the sum modulo `0xFFFF`. -/
theorem foldCarries_eq (s : Nat) : foldCarries s = if s = 0 then 0 else (s - 1) % 0xFFFF + 1 := by
  induction s using Nat.strong_induction_on with
  | _ s ih =>
    rw [foldCarries]
    split
    case isTrue h => split_ifs <;> omega
    case isFalse h =>
      -- `2 ^ 16 ≡ 1`, so moving the carry down keeps the residue, and a carry is never zero
      rw [ih _ (by omega)]
      split_ifs <;> omega

theorem foldCarries_of_lt {s : Nat} (h : s < 0x1_0000) : foldCarries s = s := by
  rw [foldCarries_eq]
  split_ifs <;> omega

theorem foldCarries_lt (s : Nat) : foldCarries s < 0x1_0000 := by
  rw [foldCarries_eq]
  split_ifs <;> omega

/-- Folding a partial sum first changes nothing: the loop may fold as it goes. -/
theorem foldCarries_foldCarries_add (x y : Nat) : foldCarries (foldCarries x + y) = foldCarries (x + y) := by
  rw [foldCarries_eq x, foldCarries_eq, foldCarries_eq (x + y)]
  split_ifs <;> omega

/-- The sum with the complement of its fold folds to `0xFFFF`, the one's complement zero. -/
theorem foldCarries_add_complement (s : Nat) : foldCarries (s + (0xFFFF - foldCarries s)) = 0xFFFF := by
  rw [foldCarries_eq s, foldCarries_eq]
  split_ifs <;> omega

/-! ## The loop is the fold -/

theorem u16FromBeBytes_toNat (hi lo : UInt8) : (u16FromBeBytes hi lo).toNat = 256 * hi.toNat + lo.toNat := by
  have hhi : hi.toNat < 256 := hi.toNat_lt
  have hlo : lo.toNat < 256 := lo.toNat_lt
  rw [u16FromBeBytes, UInt16.toNat_ofNat', Nat.mod_eq_of_lt (by omega)]

theorem overflowingAdd_of_lt {a b : UInt16} (h : a.toNat + b.toNat < UInt16.size) :
    overflowingAdd a b = (a + b, false) := by
  rw [overflowingAdd, decide_eq_false (Nat.not_le.mpr h)]

theorem overflowingAdd_of_le {a b : UInt16} (h : UInt16.size ≤ a.toNat + b.toNat) :
    overflowingAdd a b = (a + b, true) := by
  rw [overflowingAdd, decide_eq_true h]

/-- **One chunk is one fold.** The second carry never happens: after a carry the
wrapped sum is at most `0xFFFE`. -/
theorem addWithCarry_toNat (r v : UInt16) : (addWithCarry r v).toNat = foldCarries (r.toNat + v.toNat) := by
  have hr : r.toNat < 65536 := r.toNat_lt
  have hv : v.toNat < 65536 := v.toNat_lt
  by_cases hc : 65536 ≤ r.toNat + v.toNat
  case pos =>
    have hwrap : (r + v).toNat = r.toNat + v.toNat - 65536 := by
      rw [UInt16.toNat_add]
      omega
    have hsecond : (r + v).toNat + (1 : UInt16).toNat < 65536 := by
      rw [hwrap, UInt16.toNat_one]
      omega
    simp only [addWithCarry, overflowingAdd_of_le hc, overflowingAdd_of_lt hsecond, if_true,
      Bool.false_eq_true, if_false]
    rw [UInt16.toNat_add, hwrap, UInt16.toNat_one, foldCarries_eq]
    split_ifs <;> omega
  case neg =>
    simp only [addWithCarry, overflowingAdd_of_lt (Nat.lt_of_not_le hc), Bool.false_eq_true, if_false]
    rw [UInt16.toNat_add, Nat.mod_eq_of_lt (by omega), foldCarries_of_lt (by omega)]

/-- **The loop invariant**: the running value is the fold of what it started
from plus the words read. -/
theorem checksumLoop_toNat : ∀ (r : UInt16) (data : List UInt8),
    (checksumLoop r data).toNat = foldCarries (r.toNat + wordSum data)
  | r, [] => by
    rw [checksumLoop, wordSum, Nat.add_zero, foldCarries_of_lt r.toNat_lt]
  | r, [b] => by
    rw [checksumLoop, addWithCarry_toNat, u16FromBeBytes_toNat, wordSum]
    rfl
  | r, b₀ :: b₁ :: rest => by
    rw [checksumLoop, checksumLoop_toNat _ rest, addWithCarry_toNat, foldCarries_foldCarries_add,
      u16FromBeBytes_toNat, wordSum, Nat.add_assoc]

theorem inetChecksum_toNat (data : List UInt8) :
    (inetChecksum data).toNat = 0xFFFF - foldCarries (wordSum data) := by
  rw [inetChecksum, UInt16.toNat_not, checksumLoop_toNat, UInt16.toNat_zero, Nat.zero_add]
  rfl

/-! ## A checksum written into its field -/

theorem wordSum_append : ∀ {pre : List UInt8}, pre.length % 2 = 0 → ∀ post : List UInt8,
    wordSum (pre ++ post) = wordSum pre + wordSum post
  | [], _, post => by rw [List.nil_append, wordSum, Nat.zero_add]
  | [_], h, _ => by simp at h
  | b₀ :: b₁ :: rest, h, post => by
    have hrest : rest.length % 2 = 0 := by
      simp only [List.length_cons] at h
      omega
    rw [List.cons_append, List.cons_append, wordSum, wordSum, wordSum_append hrest post]
    omega

/-- A 16-bit field written big-endian adds its value to the sum. -/
theorem wordSum_beBytes_two {v : Nat} (hv : v < 0x1_0000) (post : List UInt8) :
    wordSum (beBytes 2 v ++ post) = v + wordSum post := by
  have hbytes : beBytes 2 v = [(v / 256 % 256).toUInt8, (v % 256).toUInt8] := by
    rw [beBytes, leBytes_succ, leBytes_succ]
    rfl
  rw [hbytes, List.cons_append, List.cons_append, List.nil_append, wordSum,
    toNat_toUInt8_of_lt (Nat.mod_lt _ (by decide)), toNat_toUInt8_of_lt (Nat.mod_lt _ (by decide))]
  omega

/-- **A header checks to zero.** The checksum of data with a zeroed field at an
even offset, written big-endian into that field, makes the checksum of the
result zero. -/
theorem inetChecksum_insert_eq_zero {pre post : List UInt8} (hpre : pre.length % 2 = 0) :
    inetChecksum (pre ++ beBytes 2 (inetChecksum (pre ++ [0, 0] ++ post)).toNat ++ post) = 0 := by
  have hzero : wordSum (pre ++ [0, 0] ++ post) = wordSum pre + wordSum post := by
    rw [List.append_assoc, wordSum_append hpre, List.cons_append, List.cons_append, List.nil_append,
      wordSum, UInt8.toNat_zero, Nat.mul_zero, Nat.zero_add]
  have hc := inetChecksum_toNat (pre ++ [0, 0] ++ post)
  rw [hzero] at hc
  have hfield : (inetChecksum (pre ++ [0, 0] ++ post)).toNat < 0x1_0000 :=
    (inetChecksum (pre ++ [0, 0] ++ post)).toNat_lt
  apply UInt16.toNat_inj.mp
  rw [inetChecksum_toNat, List.append_assoc, wordSum_append hpre, wordSum_beBytes_two hfield, hc,
    show wordSum pre + (0xFFFF - foldCarries (wordSum pre + wordSum post) + wordSum post) =
      wordSum pre + wordSum post + (0xFFFF - foldCarries (wordSum pre + wordSum post)) by omega,
    foldCarries_add_complement]
  rfl

/-- **`inet_checksum` is the RFC 1071 checksum.** For every byte sequence it is the
complement of the folded sum of its big-endian words; and for every sequence
with a zeroed 16-bit field at an even offset, writing the checksum into that
field gives a sequence whose checksum is zero. -/
theorem inet_checksum_rfc1071 :
    (∀ data : List UInt8, inetChecksum data = ~~~(foldCarries (wordSum data)).toUInt16) ∧
    ∀ pre post : List UInt8, pre.length % 2 = 0 →
      inetChecksum (pre ++ beBytes 2 (inetChecksum (pre ++ [0, 0] ++ post)).toNat ++ post) = 0 := by
  refine ⟨fun data => UInt16.toNat_inj.mp ?_, fun _ _ hpre => inetChecksum_insert_eq_zero hpre⟩
  rw [inetChecksum_toNat, UInt16.toNat_not, Nat.toUInt16_eq, UInt16.toNat_ofNat',
    Nat.mod_eq_of_lt (foldCarries_lt _)]
  rfl

/-- The IPv4 header of the crate's own test. -/
example : inetChecksum [0x45, 0x00, 0x00, 0x73, 0x00, 0x00, 0x40, 0x00, 0x40, 0x11, 0x00, 0x00,
    0xc0, 0xa8, 0x00, 0x01, 0xc0, 0xa8, 0x00, 0xc7] = 0xb861 := by
  decide

end D7os
