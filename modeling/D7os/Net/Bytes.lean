import D7os.Util.ElfParser

/-!
# Network byte order

`d7net` writes its multi-byte fields with `to_be_bytes` and reads them back with
`from_be_bytes`, most significant byte first: the mirror of the little-endian
fields of the ELF parser. A field is read from a byte list at an offset, and
`data[i]` past the end panics with the message of `core`.
-/

namespace D7os

/-- The `width` big-endian bytes of `value`, `to_be_bytes` of a `width`-byte word. -/
def beBytes (width value : Nat) : List UInt8 := (leBytes width value).reverse

/-- The big-endian value of the `n` bytes of `data` from `off`. -/
def readBE (data : List UInt8) (off n : Nat) : Nat :=
  ((data.drop off).take n).foldl (fun acc b => 256 * acc + b.toNat) 0

/-- The panic of `data[index]` past the end. -/
def indexOutOfBounds (len index : Nat) : Panic :=
  "index out of bounds: the len is " ++ toString len ++ " but the index is " ++ toString index

/-- The panic of `assert!(cond)`. -/
def assertFailed (cond : String) : Panic := "assertion failed: " ++ cond

/-- `assert!(cond)`, the condition written out as `cond`. -/
def assert (c : Bool) (cond : String) : Except Panic Unit :=
  if c then .ok () else .error (assertFailed cond)

theorem assert_true (cond : String) : assert true cond = .ok () := rfl

/-- The panic of `&data[start..]` when `start` is past the length. -/
def sliceStartIndexLenFail (index len : Nat) : Panic :=
  "range start index " ++ toString index ++ " out of range for slice of length " ++ toString len

/-- `&data[start..stop]`, at the ranges `d7net` slices, where `start ≤ stop`. -/
def slice (data : List UInt8) (start stop : Nat) : Except Panic (List UInt8) :=
  if data.length < stop then .error (sliceEndIndexLenFail stop data.length)
  else .ok ((data.drop start).take (stop - start))

/-- `&data[start..]`. -/
def sliceFrom (data : List UInt8) (start : Nat) : Except Panic (List UInt8) :=
  if data.length < start then .error (sliceStartIndexLenFail start data.length) else .ok (data.drop start)

/-- `data[i]`. -/
def byteAt (data : List UInt8) (i : Nat) : Except Panic UInt8 :=
  match data[i]? with
  | some b => .ok b
  | none => .error (indexOutOfBounds data.length i)

@[simp] theorem beBytes_length (w v : Nat) : (beBytes w v).length = w := by
  simp [beBytes]

theorem foldl_beBytes (w v : Nat) :
    (beBytes w v).foldl (fun acc b => 256 * acc + b.toNat) 0 = v % Nat.pow 256 w := by
  rw [beBytes, List.foldl_reverse]
  have hswap : (fun (b : UInt8) (acc : Nat) => 256 * acc + b.toNat) =
      fun b acc => b.toNat + 256 * acc := by
    funext b acc
    omega
  rw [hswap, foldr_leBytes]

/-- **A field reads back.** `readBE` of the bytes `beBytes` wrote, wherever they stand. -/
theorem readBE_append_beBytes (pre post : List UInt8) (w v : Nat) :
    readBE (pre ++ (beBytes w v ++ post)) pre.length w = v % Nat.pow 256 w := by
  unfold readBE
  rw [List.drop_left, List.take_left' (beBytes_length w v), foldl_beBytes]

/-- A field at the start reads back. -/
theorem readBE_beBytes_append (post : List UInt8) (w v : Nat) :
    readBE (beBytes w v ++ post) 0 w = v % Nat.pow 256 w :=
  readBE_append_beBytes [] post w v

/-- A 16-bit field reads back as the value it holds. -/
theorem readBE_append_beBytes_two (pre post : List UInt8) {v : Nat} (hv : v < 0x1_0000) :
    readBE (pre ++ (beBytes 2 v ++ post)) pre.length 2 = v := by
  rw [readBE_append_beBytes]
  exact Nat.mod_eq_of_lt hv

/-- **A run of 16-bit words reads back**, the `i`-th at `2 * i` past its start. -/
theorem readBE_flatMap_beBytes_two (post : List UInt8) :
    ∀ (ws : List Nat) (pre : List UInt8) (i : Nat) (hi : i < ws.length), (∀ w ∈ ws, w < 0x1_0000) →
      readBE (pre ++ (ws.flatMap (beBytes 2) ++ post)) (pre.length + 2 * i) 2 = ws[i]
  | [], _, _, hi, _ => absurd hi (Nat.not_lt_zero _)
  | w :: ws, pre, 0, _, hw => by
    rw [List.flatMap_cons, List.append_assoc, Nat.mul_zero, Nat.add_zero,
      readBE_append_beBytes_two _ _ (hw w List.mem_cons_self)]
    rfl
  | w :: ws, pre, i + 1, hi, hw => by
    have ih := readBE_flatMap_beBytes_two post ws (pre ++ beBytes 2 w) i (by simpa using hi)
      (fun x hx => hw x (List.mem_cons_of_mem _ hx))
    rw [List.length_append, beBytes_length, List.append_assoc] at ih
    rw [List.flatMap_cons, List.append_assoc, show pre.length + 2 * (i + 1) = pre.length + 2 + 2 * i by omega,
      ih]
    rfl

/-- A run of 16-bit words at the start reads back. -/
theorem readBE_flatMap_beBytes_two_start (post : List UInt8) (ws : List Nat) (i : Nat) (hi : i < ws.length)
    (hw : ∀ w ∈ ws, w < 0x1_0000) : readBE (ws.flatMap (beBytes 2) ++ post) (2 * i) 2 = ws[i] := by
  simpa using readBE_flatMap_beBytes_two post ws [] i hi hw

theorem toNat_toUInt8_of_lt {n : Nat} (h : n < 256) : n.toUInt8.toNat = n := by
  rw [Nat.toUInt8_eq, UInt8.toNat_ofNat', Nat.mod_eq_of_lt (lt_of_lt_of_eq h rfl)]

theorem slice_append (pre mid post : List UInt8) :
    slice (pre ++ mid ++ post) pre.length (pre.length + mid.length) = .ok mid := by
  rw [slice, if_neg (by simp), List.append_assoc, List.drop_left, Nat.add_sub_cancel_left,
    List.take_left' rfl]

/-- The slice from the start is the field there. -/
theorem slice_prefix {mid : List UInt8} {n : Nat} (hn : mid.length = n) (post : List UInt8) :
    slice (mid ++ post) 0 n = .ok mid := by
  have h := slice_append [] mid post
  rw [List.nil_append, List.length_nil, Nat.zero_add, hn] at h
  exact h

theorem sliceFrom_append {pre : List UInt8} {n : Nat} (hn : pre.length = n) (post : List UInt8) :
    sliceFrom (pre ++ post) n = .ok post := by
  rw [sliceFrom, if_neg (by simp [hn]), ← hn, List.drop_left]

/-- The slice after a prefix of length `a` is the field that follows it. -/
theorem slice_append_of_length {pre mid post : List UInt8} {a n : Nat} (ha : pre.length = a)
    (hn : mid.length = n) : slice (pre ++ mid ++ post) a (a + n) = .ok mid := by
  subst ha hn
  exact slice_append pre mid post

/-- A slice of a concatenation of fields is the `k`-th field. -/
theorem slice_flatten (post : List UInt8) (ls : List (List UInt8)) (k : Nat) (hk : k < ls.length) :
    slice (ls.flatten ++ post) (ls.take k).flatten.length
      ((ls.take k).flatten.length + ls[k].length) = .ok ls[k] := by
  have hsplit : ls.flatten ++ post = (ls.take k).flatten ++ ls[k] ++ ((ls.drop (k + 1)).flatten ++ post) := by
    conv_lhs => rw [← List.take_append_drop k ls, List.drop_eq_getElem_cons hk]
    simp only [List.flatten_append, List.flatten_cons, List.append_assoc]
  rw [hsplit, slice_append]

theorem byteAt_append_cons (pre post : List UInt8) (b : UInt8) :
    byteAt (pre ++ b :: post) pre.length = .ok b := by
  simp [byteAt]

theorem byteAt_of_lt {data : List UInt8} {i : Nat} (h : i < data.length) :
    byteAt data i = .ok (data.get ⟨i, h⟩) := by
  simp [byteAt, List.getElem?_eq_getElem h]

end D7os
