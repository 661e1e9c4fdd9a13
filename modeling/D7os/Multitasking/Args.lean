import D7os.Multitasking.Process
import D7os.Net.Bytes
import D7os.Memory.Map
import D7os.Smp.Sleep
import D7os.Initrd.Image
import D7os.Driver.Rsdp
import D7os.Lib.Utf8

/-!
# Process arguments passed to `exec`

`libd7::syscall::exec` passes the arguments of a new process as one buffer: the
count, the length of each argument, then their bytes, the count and the lengths
little-endian `u64`s. The `exec` system call (`src/syscall/mod.rs`) reads the
buffer back and checks each argument with `try_str!`: bytes that are not UTF-8
give `invalid_utf8`, and a string of 10000 bytes or more fails its sanity check,
which panics.

`exec_reads_back_libd7_args`: the kernel reads back exactly the bytes of the
strings `libd7` was given, in order, unless one of them has 10000 bytes or more,
however small the buffer. Strings are their UTF-8 bytes.
-/

namespace D7os

/-- The bytes of a `str`. -/
def strBytes (s : String) : List UInt8 := s.toUTF8.data.toList

/-- `core::str::from_utf8(bytes).is_ok()`. -/
def isUtf8 (bytes : List UInt8) : Bool := ByteArray.validateUTF8 ⟨bytes.toArray⟩

namespace Libd7

/-- The buffer `libd7::syscall::exec` builds from `args`. -/
def execArgsRaw (args : List String) : List UInt8 :=
  leBytes 8 args.length ++ args.flatMap (fun arg => leBytes 8 (strBytes arg).length) ++
    args.flatMap strBytes

end Libd7

/-! ## The `exec` system call -/

namespace Exec

/-- `try_str!(slice)`: the string, or the `invalid_utf8` error the system call
returns. -/
def tryStr (data : List UInt8) : Except Panic (Except SyscallErrorCode (List UInt8)) :=
  -- Sanity check
  if ¬ data.length < 10000 then .error "String length sanity check"
  else if isUtf8 data then .ok (.ok data)
  else .ok (.error .invalidUtf8)

/-- `u64::from_le_bytes` of `&slice[offset..][..8]`. -/
def readU64At (data : List UInt8) (offset : Nat) : Except Panic Nat := do
  let rest ← sliceFrom data offset
  let buf ← slice rest 0 8
  pure (readLE buf 0 8)

/-- The loop of `exec` over the arguments `i, …, i + n - 1`, the bytes of the next
one at `cursor`. `(1 + i) * 8` does not overflow: `(1 + argc) * 8` did not. -/
def parseArgsLoop (data : List UInt8) : Nat → Nat → Nat → Except Panic (Except SyscallErrorCode (List (List UInt8)))
  | 0, _, _ => .ok (.ok [])
  | n + 1, i, cursor => do
    let len ← readU64At data ((1 + i) * 8)
    let rest ← sliceFrom data cursor
    let bytes ← slice rest 0 len
    match ← tryStr bytes with
    | .error e => .ok (.error e)
    | .ok arg =>
      let cursor ← addU64 cursor len
      match ← parseArgsLoop data n (i + 1) cursor with
      | .error e => .ok (.error e)
      | .ok args => .ok (.ok (arg :: args))

/-- The arguments of the `exec` system call, read from the caller's buffer. -/
def parseExecArgs (data : List UInt8) : Except Panic (Except SyscallErrorCode (List (List UInt8))) := do
  let buf ← slice data 0 8
  let argc := readLE buf 0 8
  let cursor ← mulU64 (← addU64 1 argc) 8
  parseArgsLoop data argc 0 cursor

/-- `try_str!` on each argument in turn, up to the first that fails. -/
def tryStrEach : List (List UInt8) → Except Panic (Except SyscallErrorCode (List (List UInt8)))
  | [] => .ok (.ok [])
  | a :: rest => do
    match ← tryStr a with
    | .error e => .ok (.error e)
    | .ok a =>
      match ← tryStrEach rest with
      | .error e => .ok (.error e)
      | .ok rest => .ok (.ok (a :: rest))

/-! ### The buffer of `libd7` read back -/

section Parse

/-- The lengths of the arguments, as the buffer holds them. -/
theorem length_flatMap_leBytes (args : List (List UInt8)) :
    (args.flatMap fun a => leBytes 8 a.length).length = 8 * args.length := by
  induction args with
  | nil => rfl
  | cons a args ih =>
    rw [List.flatMap_cons, List.length_append, leBytes_length, ih, List.length_cons]
    omega

theorem readLE_leBytes_eight {v : Nat} (hv : v < UInt64.size) : readLE (leBytes 8 v) 0 8 = v := by
  rw [← List.append_nil (leBytes 8 v), readLE_leBytes_append]
  exact Nat.mod_eq_of_lt hv

theorem readU64At_of_eq (pre post : List UInt8) {data : List UInt8} {v : Nat}
    (h : data = pre ++ leBytes 8 v ++ post) (hv : v < UInt64.size) : readU64At data pre.length = .ok v := by
  subst h
  have hlen : pre.length ≤ (pre ++ leBytes 8 v ++ post).length := by simp
  rw [readU64At, sliceFrom, if_neg (Nat.not_lt.mpr hlen), Except.ok_bind, List.append_assoc, List.drop_left,
    slice, if_neg (by simp), Except.ok_bind, List.drop_zero, Nat.sub_zero, List.take_left' (leBytes_length 8 v)]
  exact congrArg Except.ok (readLE_leBytes_eight hv)

/-- The slice of an argument's bytes, at the cursor. -/
theorem sliceFrom_slice_bind (pre a post data : List UInt8) (h : data = pre ++ (a ++ post)) {cursor : Nat}
    (hc : pre.length = cursor) {β : Type} (k : List UInt8 → Except Panic β) :
    (sliceFrom data cursor >>= fun rest => slice rest 0 a.length >>= k) = k a := by
  subst h hc
  have hlen : pre.length ≤ (pre ++ (a ++ post)).length := by simp
  rw [sliceFrom, if_neg (Nat.not_lt.mpr hlen), Except.ok_bind, List.drop_left, slice, if_neg (by simp),
    Except.ok_bind, List.drop_zero, Nat.sub_zero, List.take_left' rfl]

variable {B : List (List UInt8)}

/-- **The loop reads the arguments back.** In the buffer of the arguments `B`, with
the arguments `done` read, the rest of the loop is `try_str!` on each of the
others in turn. -/
theorem parseArgsLoop_raw
    (hfit : 8 * (1 + B.length) + B.flatten.length < UInt64.size) :
    ∀ (rest done : List (List UInt8)), done ++ rest = B →
      parseArgsLoop (leBytes 8 B.length ++ B.flatMap (fun a => leBytes 8 a.length) ++ B.flatten) rest.length
        done.length (8 * (1 + B.length) + done.flatten.length) = tryStrEach rest := by
  intro rest
  induction rest with
  | nil => intro done _; rfl
  | cons a rest ih =>
    intro done hsplit
    have hflat : B.flatten = done.flatten ++ (a ++ rest.flatten) := by
      rw [← hsplit]
      simp
    have hlens : (B.flatMap fun a => leBytes 8 a.length) = (done.flatMap fun a => leBytes 8 a.length) ++
        (leBytes 8 a.length ++ rest.flatMap fun a => leBytes 8 a.length) := by
      rw [← hsplit]
      simp
    have hfit' : 8 * (1 + B.length) + done.flatten.length + a.length + rest.flatten.length < UInt64.size := by
      rw [hflat] at hfit
      simp only [List.length_append] at hfit
      omega
    -- the length of `a`, `1 + i` words in
    have hlen : readU64At (leBytes 8 B.length ++ B.flatMap (fun a => leBytes 8 a.length) ++ B.flatten)
        ((1 + done.length) * 8) = .ok a.length := by
      have hpre : (1 + done.length) * 8 =
          (leBytes 8 B.length ++ done.flatMap fun a => leBytes 8 a.length).length := by
        rw [List.length_append, leBytes_length, length_flatMap_leBytes]
        omega
      rw [hpre]
      refine readU64At_of_eq _ ((rest.flatMap fun a => leBytes 8 a.length) ++ B.flatten) ?_ (by omega)
      rw [hlens]
      simp only [List.append_assoc]
    -- the bytes of `a`, at the cursor
    have hcursor : (leBytes 8 B.length ++ B.flatMap (fun a => leBytes 8 a.length) ++ done.flatten).length =
        8 * (1 + B.length) + done.flatten.length := by
      rw [List.length_append, List.length_append, leBytes_length, length_flatMap_leBytes]
      omega
    rw [List.length_cons, parseArgsLoop, hlen, Except.ok_bind,
      sliceFrom_slice_bind (leBytes 8 B.length ++ B.flatMap (fun a => leBytes 8 a.length) ++ done.flatten) a
        rest.flatten (leBytes 8 B.length ++ B.flatMap (fun a => leBytes 8 a.length) ++ B.flatten)
        (by rw [hflat]; simp only [List.append_assoc]) hcursor,
      tryStrEach]
    cases tryStr a with
    | error e => rfl
    | ok r =>
      cases r with
      | error e => rfl
      | ok arg =>
        rw [Except.ok_bind, Except.ok_bind]
        dsimp only
        rw [addU64_of_lt (by omega), Except.ok_bind]
        have hrest := ih (done ++ [a]) (by rw [List.append_assoc]; exact hsplit)
        simp only [List.length_append, List.length_singleton, List.flatten_append, List.flatten_singleton]
          at hrest
        rw [Nat.add_assoc, hrest]

/-- **`exec` reads back the buffer of `libd7`**: the arguments, each through
`try_str!`, when the buffer's offsets fit in a `u64`. -/
theorem parseExecArgs_raw (hfit : 8 * (1 + B.length) + B.flatten.length < UInt64.size) :
    parseExecArgs (leBytes 8 B.length ++ B.flatMap (fun a => leBytes 8 a.length) ++ B.flatten) =
      tryStrEach B := by
  have hhead : slice (leBytes 8 B.length ++ B.flatMap (fun a => leBytes 8 a.length) ++ B.flatten) 0 8 =
      .ok (leBytes 8 B.length) := by
    rw [List.append_assoc]
    exact slice_prefix (leBytes_length 8 B.length) _
  have hargc : readLE (leBytes 8 B.length) 0 8 = B.length := readLE_leBytes_eight (by omega)
  have hloop := parseArgsLoop_raw hfit B [] rfl
  rw [List.flatten_nil, List.length_nil, List.length_nil, Nat.add_zero] at hloop
  rw [parseExecArgs, hhead, Except.ok_bind]
  dsimp only
  rw [hargc, addU64_of_lt (by omega), Except.ok_bind,
    mulU64_of_lt (by omega), Except.ok_bind, Nat.mul_comm, hloop]

/-- The bytes of a `str` are valid UTF-8. -/
theorem isUtf8_strBytes (s : String) : isUtf8 (strBytes s) = true := by
  rw [isUtf8, strBytes, Array.toArray_toList]
  exact ByteArray.validateUTF8_eq_true_iff.mpr s.isValidUTF8

/-- `try_str!` on strings of valid UTF-8 keeps them all, unless one has 10000
bytes or more: the sanity check of the first such panics. -/
theorem tryStrEach_of_isUtf8 : ∀ (B : List (List UInt8)), (∀ a ∈ B, isUtf8 a = true) →
    tryStrEach B = if ∀ a ∈ B, a.length < 10000 then .ok (.ok B) else .error "String length sanity check"
  | [], _ => by simp [tryStrEach]
  | a :: rest, hutf => by
    have hrest := tryStrEach_of_isUtf8 rest fun b hb => hutf b (List.mem_cons_of_mem a hb)
    rw [tryStrEach, tryStr]
    by_cases ha : a.length < 10000
    · rw [if_neg (not_not.mpr ha), if_pos (hutf a List.mem_cons_self), Except.ok_bind]
      dsimp only
      rw [hrest]
      by_cases hall : ∀ b ∈ rest, b.length < 10000
      · have hcons : ∀ b ∈ a :: rest, b.length < 10000 := by
          simp only [List.mem_cons, forall_eq_or_imp]
          exact ⟨ha, hall⟩
        rw [if_pos hall, if_pos hcons]
        rfl
      · rw [if_neg hall, if_neg fun h => hall fun b hb => h b (List.mem_cons_of_mem a hb)]
        rfl
    · rw [if_pos ha, if_neg fun h => ha (h a List.mem_cons_self)]
      rfl

/-- The buffer of `libd7` is the layout `parseExecArgs_raw` reads, over the bytes
of the strings. -/
theorem parseExecArgs_execArgsRaw (args : List String)
    (hfit : 8 * (1 + args.length) + (args.flatMap strBytes).length < UInt64.size) :
    parseExecArgs (Libd7.execArgsRaw args) = tryStrEach (args.map strBytes) := by
  have hraw : Libd7.execArgsRaw args = leBytes 8 (args.map strBytes).length ++
      (args.map strBytes).flatMap (fun a => leBytes 8 a.length) ++ (args.map strBytes).flatten := by
    rw [Libd7.execArgsRaw, List.length_map, List.flatMap_map, ← List.flatMap_def]
  have hfit' : 8 * (1 + (args.map strBytes).length) + (args.map strBytes).flatten.length < UInt64.size := by
    rw [List.length_map, ← List.flatMap_def]
    exact hfit
  rw [hraw, parseExecArgs_raw hfit']

theorem isUtf8_map_strBytes (args : List String) : ∀ a ∈ args.map strBytes, isUtf8 a = true := by
  intro a ha
  obtain ⟨s, -, rfl⟩ := List.mem_map.mp ha
  exact isUtf8_strBytes s

/-- A string of `n` ASCII letters has `n` bytes. -/
theorem length_strBytes_replicate (n : Nat) : (strBytes (String.ofList (List.replicate n 'a'))).length = n := by
  rw [strBytes, Utf8.toUTF8_data_toList, String.toList_ofList]
  simp [Utf8.encode, show 'a'.utf8Size = 1 from rfl]

end Parse

/-- **`exec` reads back the arguments of `libd7`.** From the buffer
`libd7::syscall::exec` builds of strings whose offsets fit in a `u64`, the kernel
reads exactly their bytes, in order, unless one of them has 10000 bytes or more:
then the sanity check of `try_str!` panics. -/
theorem exec_reads_back_libd7_args (args : List String)
    (hfit : 8 * (1 + args.length) + (args.flatMap strBytes).length < UInt64.size) :
    parseExecArgs (Libd7.execArgsRaw args) =
      if ∀ a ∈ args, (strBytes a).length < 10000 then .ok (.ok (args.map strBytes))
      else .error "String length sanity check" := by
  rw [parseExecArgs_execArgsRaw args hfit, tryStrEach_of_isUtf8 _ (isUtf8_map_strBytes args)]
  simp only [List.forall_mem_map]

/-- Two arguments, the second empty. -/
theorem exec_reads_back_libd7_args_two :
    8 * (1 + ["init", ""].length) + (["init", ""].flatMap strBytes).length < UInt64.size ∧
      parseExecArgs (Libd7.execArgsRaw ["init", ""]) =
        if ∀ a ∈ ["init", ""], (strBytes a).length < 10000 then .ok (.ok (["init", ""].map strBytes))
        else .error "String length sanity check" :=
  ⟨by decide, exec_reads_back_libd7_args ["init", ""] (by decide)⟩

/-- **A long argument stops the kernel.** One argument of 10000 bytes takes
`8 + 8 + 10000` bytes of the 4 MiB process stack, but the `exec` system call
panics on it before the process is created. -/
theorem exec_panics_on_long_argument :
    8 + 8 * 1 + (strBytes (String.ofList (List.replicate 10000 'a'))).length ≤
        PROCESS_STACK_SIZE_PAGES * PAGE_SIZE_BYTES ∧
      parseExecArgs (Libd7.execArgsRaw [String.ofList (List.replicate 10000 'a')]) =
        .error "String length sanity check" := by
  have hlen : (strBytes (String.ofList (List.replicate 10000 'a'))).length = 10000 :=
    length_strBytes_replicate 10000
  have hfit : 8 * (1 + [String.ofList (List.replicate 10000 'a')].length) +
      ([String.ofList (List.replicate 10000 'a')].flatMap strBytes).length < UInt64.size := by
    rw [List.flatMap_singleton, hlen]
    decide
  refine ⟨by rw [hlen]; decide, ?_⟩
  -- the one argument has 10000 bytes
  rw [parseExecArgs_execArgsRaw _ hfit, tryStrEach_of_isUtf8 _ (isUtf8_map_strBytes _), List.map_singleton,
    if_neg fun h => absurd (h _ List.mem_cons_self) (by rw [hlen]; decide)]

end Exec

end D7os
