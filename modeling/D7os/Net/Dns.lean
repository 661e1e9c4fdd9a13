import D7os.Net.Bytes
import D7os.Lib.Bits
import D7os.Lib.Except

/-!
# DNS questions and names

`libs/d7net/src/dns.rs`. `make_question` writes the 12-byte header, the domain as
length-prefixed labels and a zero byte, the query type and the class.
`read_name` reads a name back, following compression pointers (a byte with a top
bit set, whose low 14 bits with the next byte are an offset), and returns the
labels joined by `.` with the bytes the name takes.

Its loop keeps no set of visited offsets and no hop limit; it is modelled with
fuel, one pass per unit. `make_question` asserts each label is ASCII, so a
label's byte length is its character count. A question reads back
(`read_name_make_question`); a name whose pointer leads back to one of its own
labels makes the loop run for every amount of fuel (`read_name_pointer_cycle`).
-/

namespace D7os.Dns

inductive QueryType
  | A
  | NS
  | CNAME
  | MX
  | AAAA
  deriving DecidableEq, Repr

/-- The `#[repr(u16)]` value of a `QueryType`. -/
def QueryType.code : QueryType → Nat
  | .A => 0x0001
  | .NS => 0x0002
  | .CNAME => 0x0005
  | .MX => 0x000f
  | .AAAA => 0x001c

/-! ## `make_question` -/

/-- The label loop of `make_question` over `domain.split('.')`: each segment is
checked, then written as its length byte and its bytes. -/
def encodeLabels : List (List Char) → Except Panic (List UInt8)
  | [] => .ok []
  | seg :: rest =>
    if seg.isEmpty then .error (assertFailed "!seg.is_empty()")
    else if !seg.all Char.isAscii then .error (assertFailed "seg.is_ascii()")
    else if ¬seg.length < 64 then .error (assertFailed "seg.len() < 64")
    else do
      let bytes ← encodeLabels rest
      pure (seg.length.toUInt8 :: seg.map (fun c => c.toNat.toUInt8) ++ bytes)

/-- `make_question(reg_id, domain, qtype)`. -/
def makeQuestion (regId : UInt16) (domain : List Char) (qtype : QueryType) :
    Except Panic (List UInt8) := do
  let labels ← encodeLabels (domain.splitOn '.')
  pure (beBytes 2 regId.toNat ++ beBytes 2 (1 <<< 8) ++ beBytes 2 1 ++ beBytes 2 0 ++
    beBytes 2 0 ++ beBytes 2 0 ++ labels ++ [0] ++ beBytes 2 qtype.code ++ beBytes 2 1)

/-! ## `read_name` -/

/-- The variables of the `loop` of `read_name`. -/
structure ReadName where
  index : Nat
  name : List Char
  nonCompressedLen : Nat
  inCompressed : Bool
  deriving DecidableEq, Repr

/-- `!0x3f` as a `usize`. -/
def NOT_0X3F : Nat := UInt64.size - 1 - 0x3f

/-- The head of a pass: a byte with a top bit set is a pointer, whose target
becomes the index; the first pointer adds its two bytes to the length. -/
def followPointer (data : List UInt8) (s : ReadName) : Except Panic ReadName := do
  let b ← byteAt data s.index
  if b &&& 0xc0 ≠ 0 then
    let hi ← byteAt data s.index
    let lo ← byteAt data (s.index + 1)
    let start := hi.toNat * 256 + lo.toNat
    pure { index := start &&& 0x3fff, name := s.name, inCompressed := true
           nonCompressedLen := if s.inCompressed then s.nonCompressedLen else s.nonCompressedLen + 2 }
  else pure s

/-- `for offset in 0..seg_len { name.push(data[index + offset] as char) }`: the
characters of the label, or the panic at its first byte past the end. -/
def labelChars (data : List UInt8) (index : Nat) : Nat → Except Panic (List Char)
  | 0 => .ok []
  | n + 1 => do
    let b ← byteAt data index
    let rest ← labelChars data (index + 1) n
    pure (Char.ofNat b.toNat :: rest)

/-- The rest of a pass: the length byte at the index, then the label. A zero
length ends the name with its length. -/
def readLabel (data : List UInt8) (s : ReadName) : Except Panic ((List Char × Nat) ⊕ ReadName) := do
  let b ← byteAt data s.index
  let segLen := b.toNat
  if segLen &&& NOT_0X3F ≠ 0 then .error (assertFailed "seg_len & !0x3f == 0")
  else
    let index := s.index + 1
    let len := if s.inCompressed then s.nonCompressedLen else s.nonCompressedLen + 1
    if segLen = 0 then pure (.inl (s.name, len))
    else
      let name := if s.name.isEmpty then s.name else s.name ++ ['.']
      let label ← labelChars data index segLen
      pure (.inr { index := index + segLen, name := name ++ label, inCompressed := s.inCompressed
                   nonCompressedLen := if s.inCompressed then len else len + segLen })

/-- One pass of the loop. -/
def readNameStep (data : List UInt8) (s : ReadName) : Except Panic ((List Char × Nat) ⊕ ReadName) := do
  readLabel data (← followPointer data s)

/-- The loop of `read_name` with `fuel` passes left. -/
def readNameLoop (data : List UInt8) : Nat → ReadName → Option (Except Panic (List Char × Nat))
  | 0, _ => none
  | fuel + 1, s =>
    match readNameStep data s with
    | .error e => some (.error e)
    | .ok (.inl r) => some (.ok r)
    | .ok (.inr s') => readNameLoop data fuel s'

/-- `read_name(index, data)` with `fuel` passes of its loop. -/
def readName (index : Nat) (data : List UInt8) (fuel : Nat) : Option (Except Panic (List Char × Nat)) :=
  readNameLoop data fuel ⟨index, [], 0, false⟩

@[simp] theorem readNameLoop_zero (data : List UInt8) (s : ReadName) : readNameLoop data 0 s = none :=
  rfl

theorem readNameLoop_succ_next {data : List UInt8} {s s' : ReadName} (fuel : Nat)
    (h : readNameStep data s = .ok (.inr s')) :
    readNameLoop data (fuel + 1) s = readNameLoop data fuel s' := by
  rw [readNameLoop, h]

theorem readNameLoop_succ_done {data : List UInt8} {s : ReadName} {r : List Char × Nat} (fuel : Nat)
    (h : readNameStep data s = .ok (.inl r)) :
    readNameLoop data (fuel + 1) s = some (.ok r) := by
  rw [readNameLoop, h]

/-- More fuel does not change a result. -/
theorem readNameLoop_mono {data : List UInt8} :
    ∀ {fuel : Nat} {s : ReadName} {r : Except Panic (List Char × Nat)},
      readNameLoop data fuel s = some r → ∀ k, readNameLoop data (fuel + k) s = some r := by
  intro fuel
  induction fuel with
  | zero => intro s r h; cases h
  | succ n ih =>
    intro s r h k
    rw [Nat.add_right_comm, readNameLoop]
    rw [readNameLoop] at h
    split
    · rename_i e he
      rw [he] at h
      exact h
    · rename_i r' he
      rw [he] at h
      exact h
    · rename_i s' he
      rw [he] at h
      exact ih h k

/-! ## What one pass does -/

/-- A length byte below 64 passes the assertion on `!0x3f`. -/
theorem land_NOT_0X3F_of_lt {n : Nat} (h : n < 64) : n &&& NOT_0X3F = 0 := by
  have hmask : NOT_0X3F = (2 ^ 58 - 1) * 2 ^ 6 := by decide
  rw [hmask, Nat.land_mul_two_pow_sub_one_of_lt (by omega), Nat.div_eq_of_lt (by omega)]
  rfl

/-- A length byte below 64 is not a pointer. -/
theorem land_0xc0_of_lt {b : UInt8} (h : b.toNat < 64) : b &&& 0xc0 = 0 := by
  apply UInt8.toNat_inj.mp
  have hmask : (0xc0 : UInt8).toNat = (2 ^ 2 - 1) * 2 ^ 6 := rfl
  rw [UInt8.toNat_and, hmask, Nat.land_mul_two_pow_sub_one_of_lt (by omega),
    Nat.div_eq_of_lt (by omega)]
  rfl

theorem followPointer_of_pointer {data : List UInt8} {s : ReadName} {hi lo : UInt8}
    (hhi : byteAt data s.index = .ok hi) (hp : hi &&& 0xc0 ≠ 0)
    (hlo : byteAt data (s.index + 1) = .ok lo) :
    followPointer data s = .ok ⟨(hi.toNat * 256 + lo.toNat) &&& 0x3fff, s.name,
      if s.inCompressed then s.nonCompressedLen else s.nonCompressedLen + 2, true⟩ := by
  rw [followPointer, hhi, Except.ok_bind, if_pos hp, Except.ok_bind, hlo, Except.ok_bind]
  rfl

theorem followPointer_of_label {data : List UInt8} {s : ReadName} {b : UInt8}
    (hb : byteAt data s.index = .ok b) (hl : b.toNat < 64) : followPointer data s = .ok s := by
  rw [followPointer, hb, Except.ok_bind, if_neg (not_not.mpr (land_0xc0_of_lt hl))]
  rfl

/-- A zero length byte ends the name. -/
theorem readLabel_of_zero {data : List UInt8} {s : ReadName} (hb : byteAt data s.index = .ok 0) :
    readLabel data s =
      .ok (.inl (s.name, if s.inCompressed then s.nonCompressedLen else s.nonCompressedLen + 1)) := by
  rw [readLabel, hb, Except.ok_bind]
  rfl

/-- A label is appended to the name, after a `.` unless the name is empty. -/
theorem readLabel_of_label {data : List UInt8} {s : ReadName} {b : UInt8} {label : List Char}
    (hb : byteAt data s.index = .ok b) (hl : b.toNat < 64) (hne : b.toNat ≠ 0)
    (hlabel : labelChars data (s.index + 1) b.toNat = .ok label) :
    readLabel data s = .ok (.inr ⟨s.index + 1 + b.toNat,
      (if s.name.isEmpty then s.name else s.name ++ ['.']) ++ label,
      if s.inCompressed then s.nonCompressedLen else s.nonCompressedLen + 1 + b.toNat,
      s.inCompressed⟩) := by
  rw [readLabel, hb, Except.ok_bind]
  dsimp only
  rw [if_neg (not_not.mpr (land_NOT_0X3F_of_lt hl)), if_neg hne, hlabel, Except.ok_bind]
  cases s.inCompressed <;> rfl

theorem readNameStep_eq {data : List UInt8} {s s' : ReadName} (h : followPointer data s = .ok s') :
    readNameStep data s = readLabel data s' := by
  rw [readNameStep, h, Except.ok_bind]

/-! ## A question reads back -/

/-- A segment that passes the three assertions of `make_question`. -/
def IsLabel (seg : List Char) : Prop := seg ≠ [] ∧ (∀ c ∈ seg, c.isAscii) ∧ seg.length < 64

instance : DecidablePred IsLabel := fun _ => inferInstanceAs (Decidable (_ ∧ _ ∧ _))

/-- The bytes `make_question` writes for one label. -/
def labelBytes (seg : List Char) : List UInt8 := seg.length.toUInt8 :: seg.map (fun c => c.toNat.toUInt8)

/-- The name `read_name` builds from plain labels, starting from `name`. -/
def joinLabels (name : List Char) (segs : List (List Char)) : List Char :=
  segs.foldl (fun acc seg => (if acc.isEmpty then acc else acc ++ ['.']) ++ seg) name

theorem encodeLabels_ok :
    ∀ segs : List (List Char), (∀ seg ∈ segs, IsLabel seg) → encodeLabels segs = .ok (segs.flatMap labelBytes)
  | [], _ => rfl
  | seg :: rest, h => by
    obtain ⟨hne, hascii, hlen⟩ := h seg List.mem_cons_self
    have hempty : seg.isEmpty = false := List.isEmpty_eq_false_iff.mpr hne
    have hall : seg.all Char.isAscii = true := List.all_eq_true.mpr hascii
    have ih := encodeLabels_ok rest (fun s hs => h s (List.mem_cons_of_mem _ hs))
    rw [encodeLabels, hempty, hall, if_neg Bool.false_ne_true, if_neg (by decide), if_neg (not_not.mpr hlen),
      ih, Except.ok_bind]
    rfl

/-- An ASCII character is the byte `make_question` writes for it, `as char`. -/
theorem ofNat_toUInt8_of_isAscii {c : Char} (h : c.isAscii) : Char.ofNat c.toNat.toUInt8.toNat = c := by
  have hc : c.toNat < 128 := of_decide_eq_true h
  rw [toNat_toUInt8_of_lt (by omega), Char.ofNat_toNat]

/-- The bytes of an ASCII label read back as its characters. -/
theorem labelChars_ascii (post : List UInt8) :
    ∀ (seg : List Char) (pre : List UInt8), (∀ c ∈ seg, c.isAscii) →
      labelChars (pre ++ seg.map (fun c => c.toNat.toUInt8) ++ post) pre.length seg.length = .ok seg
  | [], _, _ => rfl
  | c :: cs, pre, h => by
    have ih := labelChars_ascii post cs (pre ++ [c.toNat.toUInt8]) (fun x hx => h x (List.mem_cons_of_mem _ hx))
    rw [List.length_append, List.length_singleton] at ih
    have hdata : pre ++ (c :: cs).map (fun c => c.toNat.toUInt8) ++ post =
        pre ++ [c.toNat.toUInt8] ++ cs.map (fun c => c.toNat.toUInt8) ++ post := by
      simp
    have hb : byteAt (pre ++ [c.toNat.toUInt8] ++ cs.map (fun c => c.toNat.toUInt8) ++ post) pre.length =
        .ok c.toNat.toUInt8 := by
      simp [byteAt]
    rw [List.length_cons, labelChars, hdata, hb, Except.ok_bind, ih, Except.ok_bind,
      ofNat_toUInt8_of_isAscii (h c List.mem_cons_self)]
    rfl

/-- **Plain labels read back.** From the length byte of the first of them, the
loop appends each label to the name and stops at the zero byte after the last,
with the bytes it read added to the length. -/
theorem readNameLoop_labels (post : List UInt8) :
    ∀ (segs : List (List Char)) (pre : List UInt8) (name : List Char) (len fuel : Nat),
      (∀ seg ∈ segs, IsLabel seg) → segs.length < fuel →
      readNameLoop (pre ++ segs.flatMap labelBytes ++ 0 :: post) fuel ⟨pre.length, name, len, false⟩ =
        some (.ok (joinLabels name segs, len + (segs.flatMap labelBytes).length + 1))
  | [], pre, name, len, fuel + 1, _, _ => by
    have hb : byteAt (pre ++ [].flatMap labelBytes ++ 0 :: post) pre.length = .ok 0 := by
      simp [byteAt]
    have hstep := readNameStep_eq (followPointer_of_label (s := ⟨pre.length, name, len, false⟩) hb (by decide))
    rw [readLabel_of_zero hb] at hstep
    rw [readNameLoop_succ_done fuel hstep]
    rfl
  | seg :: rest, pre, name, len, fuel + 1, h, hfuel => by
    obtain ⟨hne, hascii, hlen⟩ := h seg List.mem_cons_self
    have hbyte : seg.length.toUInt8.toNat = seg.length := toNat_toUInt8_of_lt (by omega)
    have hpos : 0 < seg.length := List.length_pos_of_ne_nil hne
    -- the label's bytes, then the labels after it
    have hdata : pre ++ (seg :: rest).flatMap labelBytes ++ 0 :: post =
        pre ++ [seg.length.toUInt8] ++ seg.map (fun c => c.toNat.toUInt8) ++
          (rest.flatMap labelBytes ++ 0 :: post) := by
      simp [labelBytes]
    have hb : byteAt (pre ++ (seg :: rest).flatMap labelBytes ++ 0 :: post) pre.length =
        .ok seg.length.toUInt8 := by
      rw [hdata]
      simp [byteAt]
    have hlabel : labelChars (pre ++ (seg :: rest).flatMap labelBytes ++ 0 :: post) (pre.length + 1)
        seg.length.toUInt8.toNat = .ok seg := by
      have hchars := labelChars_ascii (rest.flatMap labelBytes ++ 0 :: post) seg
        (pre ++ [seg.length.toUInt8]) hascii
      rw [List.length_append, List.length_singleton] at hchars
      rw [hdata, hbyte, hchars]
    have hstep := readNameStep_eq (followPointer_of_label (s := ⟨pre.length, name, len, false⟩) hb
      (by omega))
    rw [readLabel_of_label hb (by omega) (by omega) hlabel] at hstep
    rw [readNameLoop_succ_next fuel hstep]
    dsimp only
    rw [if_neg Bool.false_ne_true]
    have hnext : pre ++ (seg :: rest).flatMap labelBytes ++ 0 :: post =
        pre ++ labelBytes seg ++ rest.flatMap labelBytes ++ 0 :: post := by
      simp
    have hindex : pre.length + 1 + seg.length.toUInt8.toNat = (pre ++ labelBytes seg).length := by
      simp [labelBytes, hbyte]
      omega
    have ih := readNameLoop_labels post rest (pre ++ labelBytes seg)
      ((if name.isEmpty then name else name ++ ['.']) ++ seg) (len + 1 + seg.length.toUInt8.toNat) fuel
      (fun s hs => h s (List.mem_cons_of_mem _ hs)) (by rw [List.length_cons] at hfuel; omega)
    rw [hnext, hindex, ih]
    simp only [joinLabels, List.foldl_cons, List.flatMap_cons, List.length_append, labelBytes,
      List.length_cons, List.length_map, hbyte]
    congr 3
    omega

/-- After a non-empty name, each label follows a `.`. -/
theorem joinLabels_of_ne_nil :
    ∀ (segs : List (List Char)) {name : List Char}, name ≠ [] →
      joinLabels name segs = name ++ segs.flatMap (['.'] ++ ·)
  | [], name, _ => by simp [joinLabels]
  | seg :: rest, name, h => by
    have hempty : name.isEmpty = false := List.isEmpty_eq_false_iff.mpr h
    show joinLabels ((if name.isEmpty then name else name ++ ['.']) ++ seg) rest = _
    rw [hempty, if_neg Bool.false_ne_true, joinLabels_of_ne_nil rest (by simp), List.flatMap_cons]
    simp

/-- From an empty name, non-empty labels are joined by `.`. -/
theorem joinLabels_nil (segs : List (List Char)) (h : ∀ seg ∈ segs, seg ≠ []) :
    joinLabels [] segs = ['.'].intercalate segs := by
  cases segs with
  | nil => rfl
  | cons seg rest =>
    show joinLabels seg rest = _
    rw [joinLabels_of_ne_nil rest (h seg List.mem_cons_self), List.intercalate_cons_eq_flatMap]

/-- Each label takes one byte more than its characters, as it does with its `.`. -/
theorem length_flatMap_labelBytes :
    ∀ segs : List (List Char), (segs.flatMap labelBytes).length = (segs.flatMap (['.'] ++ ·)).length
  | [] => rfl
  | seg :: rest => by
    simp only [List.flatMap_cons, List.length_append, labelBytes, List.length_cons, List.length_map,
      List.length_nil, length_flatMap_labelBytes rest]
    omega

/-- The bytes of a question, the header and the type and class as runs of words. -/
theorem makeQuestion_eq {regId : UInt16} {domain : List Char} {qtype : QueryType} {labels : List UInt8}
    (h : encodeLabels (domain.splitOn '.') = .ok labels) :
    makeQuestion regId domain qtype =
      .ok ([regId.toNat, 1 <<< 8, 1, 0, 0, 0].flatMap (beBytes 2) ++
        (labels ++ 0 :: [qtype.code, 1].flatMap (beBytes 2))) := by
  rw [makeQuestion, h, Except.ok_bind]
  simp only [List.flatMap_cons, List.flatMap_nil, List.append_nil, List.append_assoc, List.cons_append,
    List.nil_append]
  rfl

theorem QueryType.code_lt (q : QueryType) : q.code < 0x1_0000 := by
  cases q <;> decide

/-- **A question reads back.** For a domain of labels that `make_question`
accepts, the bytes it writes hold the domain at offset 12, which `read_name` reads
back with its length plus two (the length bytes and the zero), then the query
type and class 1; the header holds the id, the recursion-desired flag alone, one
question and no other records. -/
theorem read_name_make_question (regId : UInt16) (domain : List Char) (qtype : QueryType)
    (hdomain : ∀ seg ∈ domain.splitOn '.', IsLabel seg) :
    ∃ b, makeQuestion regId domain qtype = .ok b ∧
      (∀ fuel, (domain.splitOn '.').length < fuel →
        readName 12 b fuel = some (.ok (domain, domain.length + 2))) ∧
      readBE b (12 + domain.length + 2) 2 = qtype.code ∧ readBE b (12 + domain.length + 4) 2 = 1 ∧
      readBE b 0 2 = regId.toNat ∧ readBE b 2 2 = 0x0100 ∧ readBE b 4 2 = 1 ∧
      readBE b 6 2 = 0 ∧ readBE b 8 2 = 0 ∧ readBE b 10 2 = 0 := by
  obtain ⟨hsegs, hdomainLen⟩ : joinLabels [] (domain.splitOn '.') = domain ∧
      ((domain.splitOn '.').flatMap labelBytes).length = domain.length + 1 := by
    have hjoin := joinLabels_nil (domain.splitOn '.') (fun seg hs => (hdomain seg hs).1)
    rw [List.intercalate_splitOn] at hjoin
    refine ⟨hjoin, ?_⟩
    -- the first label has no `.` before it
    cases hs : domain.splitOn '.' with
    | nil => exact absurd hs (by simp)
    | cons seg rest =>
      have hlen := congrArg List.length (@List.intercalate_splitOn Char domain _ _ '.')
      rw [hs, List.intercalate_cons_eq_flatMap, List.length_append] at hlen
      rw [length_flatMap_labelBytes, List.flatMap_cons, List.length_append, ← hlen]
      simp
      omega
  set labels := (domain.splitOn '.').flatMap labelBytes
  set header : List Nat := [regId.toNat, 1 <<< 8, 1, 0, 0, 0]
  set trailer : List Nat := [qtype.code, 1]
  have hheader : ∀ w ∈ header, w < 0x1_0000 := by
    have := regId.toNat_lt
    simp [header]
    omega
  have htrailer : ∀ w ∈ trailer, w < 0x1_0000 := by
    simpa [trailer] using qtype.code_lt
  have hlenH : (header.flatMap (beBytes 2)).length = 12 := by simp [header]
  refine ⟨_, makeQuestion_eq (encodeLabels_ok _ hdomain), fun fuel hfuel => ?_, ?_, ?_,
    readBE_flatMap_beBytes_two_start _ header 0 (by simp [header]) hheader,
    readBE_flatMap_beBytes_two_start _ header 1 (by simp [header]) hheader,
    readBE_flatMap_beBytes_two_start _ header 2 (by simp [header]) hheader,
    readBE_flatMap_beBytes_two_start _ header 3 (by simp [header]) hheader,
    readBE_flatMap_beBytes_two_start _ header 4 (by simp [header]) hheader,
    readBE_flatMap_beBytes_two_start _ header 5 (by simp [header]) hheader⟩
  · have hread := readNameLoop_labels (trailer.flatMap (beBytes 2)) (domain.splitOn '.')
      (header.flatMap (beBytes 2)) [] 0 fuel hdomain hfuel
    rw [hlenH, hsegs, hdomainLen, List.append_assoc] at hread
    rw [readName, hread]
    congr 3
    omega
  · have hpre : (header.flatMap (beBytes 2) ++ (labels ++ [0])).length + 2 * 0 = 12 + domain.length + 2 := by
      simp [hlenH, labels, hdomainLen]
      omega
    have hq := readBE_flatMap_beBytes_two [] trailer (header.flatMap (beBytes 2) ++ (labels ++ [0])) 0
      (by simp [trailer]) htrailer
    rw [hpre, List.append_assoc, List.append_assoc, List.singleton_append, List.append_nil] at hq
    exact hq
  · have hpre : (header.flatMap (beBytes 2) ++ (labels ++ [0])).length + 2 * 1 = 12 + domain.length + 4 := by
      simp [hlenH, labels, hdomainLen]
      omega
    have hc := readBE_flatMap_beBytes_two [] trailer (header.flatMap (beBytes 2) ++ (labels ++ [0])) 1
      (by simp [trailer]) htrailer
    rw [hpre, List.append_assoc, List.append_assoc, List.singleton_append, List.append_nil] at hc
    exact hc

/-- The domain of the repository's DNS test, `wikipedia.org`, as characters. -/
def wikipediaOrg : List Char := ['w', 'i', 'k', 'i', 'p', 'e', 'd', 'i', 'a', '.', 'o', 'r', 'g']

theorem read_name_make_question_wikipedia :
    (∀ seg ∈ wikipediaOrg.splitOn '.', IsLabel seg) ∧
      ∃ b, makeQuestion 1 wikipediaOrg .A = .ok b ∧
        (∀ fuel, (wikipediaOrg.splitOn '.').length < fuel →
          readName 12 b fuel = some (.ok (wikipediaOrg, wikipediaOrg.length + 2))) ∧
        readBE b (12 + wikipediaOrg.length + 2) 2 = QueryType.A.code ∧
        readBE b (12 + wikipediaOrg.length + 4) 2 = 1 ∧
        readBE b 0 2 = (1 : UInt16).toNat ∧ readBE b 2 2 = 0x0100 ∧ readBE b 4 2 = 1 ∧
        readBE b 6 2 = 0 ∧ readBE b 8 2 = 0 ∧ readBE b 10 2 = 0 := by
  have hsplit : wikipediaOrg.splitOn '.' = [['w', 'i', 'k', 'i', 'p', 'e', 'd', 'i', 'a'], ['o', 'r', 'g']] :=
    rfl
  have hdomain : ∀ seg ∈ wikipediaOrg.splitOn '.', IsLabel seg := by
    rw [hsplit]
    intro seg hseg
    simp only [List.mem_cons, List.not_mem_nil, or_false] at hseg
    rcases hseg with rfl | rfl
    · exact ⟨List.cons_ne_nil _ _, List.all_eq_true.mp rfl, by decide⟩
    · exact ⟨List.cons_ne_nil _ _, List.all_eq_true.mp rfl, by decide⟩
  exact ⟨hdomain, read_name_make_question 1 _ .A hdomain⟩

/-! ## A pointer back into the name -/

/-- The label `A` and then a pointer to offset 0, where that label stands. -/
def cyclicName : List UInt8 := [1, 0x41, 0xc0, 0x00]

theorem labelChars_cyclicName : labelChars cyclicName 1 1 = .ok ['A'] := rfl

/-- Each pass from the pointer reads the label again and returns to the pointer. -/
theorem readNameStep_cyclicName (c : Char) (cs : List Char) :
    readNameStep cyclicName ⟨2, c :: cs, 4, true⟩ =
      .ok (.inr ⟨2, c :: cs ++ ['.'] ++ ['A'], 4, true⟩) := by
  have htarget : ((0xc0 : UInt8).toNat * 256 + (0 : UInt8).toNat) &&& 0x3fff = 0 := by decide
  rw [readNameStep_eq (followPointer_of_pointer rfl (by decide) (show byteAt cyclicName 3 = .ok 0 from rfl)), htarget]
  exact readLabel_of_label (b := 1) rfl (by decide) (by decide) labelChars_cyclicName

theorem readNameLoop_cyclicName :
    ∀ (fuel : Nat) (c : Char) (cs : List Char), readNameLoop cyclicName fuel ⟨2, c :: cs, 4, true⟩ = none := by
  intro fuel
  induction fuel with
  | zero => intro c cs; rfl
  | succ n ih =>
    intro c cs
    rw [readNameLoop_succ_next n (readNameStep_cyclicName c cs)]
    exact ih c (cs ++ ['.'] ++ ['A'])

/-- **The loop never ends on a pointer cycle.** From offset 0 of `cyclicName`,
`read_name` reads `A`, follows the pointer back to it and reads it again, with no
amount of fuel enough to return. -/
theorem read_name_pointer_cycle (fuel : Nat) : readName 0 cyclicName fuel = none := by
  have hstart : readNameStep cyclicName ⟨0, [], 0, false⟩ = .ok (.inr ⟨2, ['A'], 2, false⟩) := by
    rw [readNameStep_eq (followPointer_of_label (b := 1) rfl (by decide))]
    exact readLabel_of_label (b := 1) rfl (by decide) (by decide) labelChars_cyclicName
  have hfirst : readNameStep cyclicName ⟨2, ['A'], 2, false⟩ =
      .ok (.inr ⟨2, ['A', '.', 'A'], 4, true⟩) := by
    have htarget : ((0xc0 : UInt8).toNat * 256 + (0 : UInt8).toNat) &&& 0x3fff = 0 := by decide
    rw [readNameStep_eq (followPointer_of_pointer rfl (by decide) (show byteAt cyclicName 3 = .ok 0 from rfl)), htarget]
    exact readLabel_of_label (b := 1) rfl (by decide) (by decide) labelChars_cyclicName
  match fuel with
  | 0 => rfl
  | 1 => rw [readName, readNameLoop_succ_next 0 hstart]; rfl
  | n + 2 =>
    rw [readName, readNameLoop_succ_next (n + 1) hstart, readNameLoop_succ_next n hfirst]
    exact readNameLoop_cyclicName n 'A' ['.', 'A']

end D7os.Dns
