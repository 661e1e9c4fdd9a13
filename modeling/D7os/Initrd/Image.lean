import D7os.Util.ElfParser
import D7os.Ipc.Manager
import D7os.Memory.Phys
import D7os.Lib.AList
import D7os.Lib.Except

/-!
# The InitRD image

`mkimg`, the host tool of `libs/d7initrd`, writes a 16-byte header
(`HEADER_MAGIC`, the length of the file list, the total length), the file list
serialized by `pinecone::to_vec`, each `FileEntry` holding a file's size and its
offset from the end of the list, and then the files in list order. `initrd::init`
checks the header and deserializes the list with `pinecone::from_bytes` into a
map by name; `initrd::read` slices a file out. The two pinecone functions are
parameters. Both programs panic on an overflowing sum; `init` is given the
memory from the image's address on, the image and whatever lies after it.

`initrd_round_trip`: when `fromBytes` reads back the list `toVec` wrote and it
fits the kernel's limit, every file of distinct names reads back as its contents
and every other name reads as `None`.
-/

namespace D7os.Initrd

def HEADER_MAGIC : Nat := 0xd7_ca_fe_d7

def HEADER_SIZE_BYTES : Nat := 16

structure FileEntry where
  name : String
  size : Nat
  offset : Nat
  deriving DecidableEq, Repr

/-! ## `mkimg` -/

/-- The file loop of `mkimg` from the running offset: each entry gets the offset,
which then grows by the file's size (`cumulative_offset += meta.len()`). -/
def fileEntries : List (String × List UInt8) → Nat → Except Panic (List FileEntry)
  | [], _ => .ok []
  | (name, contents) :: rest, offset =>
    if UInt64.size ≤ offset + contents.length then .error addOverflow
    else do
      let entries ← fileEntries rest (offset + contents.length)
      pure (⟨name, contents.length, offset⟩ :: entries)

/-- The bytes `mkimg` writes from the InitRD's first sector: the three header
fields, the serialized file list, then the files. `files_size` cannot overflow:
its partial sums are offsets the file loop checked. -/
def mkimg (toVec : List FileEntry → List UInt8) (files : List (String × List UInt8)) :
    Except Panic (List UInt8) := do
  let entries ← fileEntries files 0
  let headerBody := toVec entries
  let headerSize := HEADER_SIZE_BYTES + headerBody.length
  let filesSize := entries.foldl (fun acc e => acc + e.size) 0
  if UInt64.size ≤ headerSize + filesSize then .error addOverflow
  else .ok (leBytes 4 HEADER_MAGIC ++ leBytes 4 (headerBody.length % UInt32.size) ++
    leBytes 8 (headerSize + filesSize) ++ headerBody ++ files.flatMap Prod.snd)

/-! ## `initrd::init` and `initrd::read` -/

/-- The panic of `assert_eq!(left, right, msg)`. -/
def assertEqFailed (msg : String) (left right : Nat) : Panic :=
  "assertion `left == right` failed: " ++ msg ++ "\n  left: " ++ toString left ++
    "\n right: " ++ toString right

def subOverflow : Panic := "attempt to subtract with overflow"

structure InitRD where
  files : HashMap String FileEntry
  slice : List UInt8

/-- `file_list.into_iter().map(|f| (f.name.clone(), f)).collect()`: each entry is
inserted under its name, a later one replacing an earlier. -/
def collectFiles (fileList : List FileEntry) : HashMap String FileEntry :=
  fileList.foldl (fun m f => m.insert f.name f) ∅

/-- `initrd::init`, over the memory from the InitRD's start address on. -/
def init (fromBytes : List UInt8 → Option (List FileEntry)) (mem : List UInt8) :
    Except Panic InitRD :=
  let magic := readLE mem 0 4
  let sizeFlist := readLE mem 4 4
  let sizeTotal := readLE mem 8 8
  if magic ≠ HEADER_MAGIC then .error (assertEqFailed "InitRD magic mismatch" magic HEADER_MAGIC)
  else if ¬0 < sizeFlist then .error "InitRD header empty"
  else if ¬sizeFlist + 8 < PAGE_SIZE_BYTES then .error "InitRD header too large"
  else
    match fromBytes ((mem.drop HEADER_SIZE_BYTES).take sizeFlist) with
    | none => .error "Could not deserialize staticfs file list"
    | some fileList =>
      let filesOffset := HEADER_SIZE_BYTES + sizeFlist
      if sizeTotal < filesOffset then .error subOverflow
      else .ok ⟨collectFiles fileList, (mem.drop filesOffset).take (sizeTotal - filesOffset)⟩

/-- `&rd.slice[start..start + len]` for a file's entry. -/
def sliceFile (slice : List UInt8) (entry : FileEntry) : Except Panic (List UInt8) :=
  if UInt64.size ≤ entry.offset + entry.size then .error addOverflow
  else if slice.length < entry.offset + entry.size then
    .error (sliceEndIndexLenFail (entry.offset + entry.size) slice.length)
  else .ok ((slice.drop entry.offset).take entry.size)

/-- `initrd::read(name)`. -/
def InitRD.read (rd : InitRD) (name : String) : Except Panic (Option (List UInt8)) :=
  match rd.files.lookup name with
  | none => .ok none
  | some entry => (sliceFile rd.slice entry).map some

/-! ## What `mkimg` writes -/

/-- Every file has an entry under its name with its size, at the place of its
contents among the concatenated files, and the entries are in the files' order. -/
theorem fileEntries_ok :
    ∀ (files : List (String × List UInt8)) (off : Nat) (entries : List FileEntry),
      fileEntries files off = .ok entries →
      entries.map FileEntry.name = files.map Prod.fst ∧
        entries.foldl (fun acc e => acc + e.size) 0 = (files.flatMap Prod.snd).length ∧
        ∀ name contents, (name, contents) ∈ files → ∃ e ∈ entries, e.name = name ∧
          e.size = contents.length ∧ off ≤ e.offset ∧ e.offset + e.size < UInt64.size ∧
          e.offset - off + e.size ≤ (files.flatMap Prod.snd).length ∧
          (((files.flatMap Prod.snd).drop (e.offset - off)).take e.size = contents) := by
  intro files
  induction files with
  | nil =>
    intro off entries h
    cases h
    exact ⟨rfl, rfl, fun _ _ h => absurd h List.not_mem_nil⟩
  | cons f rest ih =>
    intro off entries h
    obtain ⟨name, contents⟩ := f
    unfold fileEntries at h
    split_ifs at h with hov
    obtain ⟨es, hes, hok⟩ := Except.bind_eq_ok.mp h
    obtain rfl : entries = ⟨name, contents.length, off⟩ :: es := (Except.ok.inj hok).symm
    obtain ⟨hnames, hsize, hmem⟩ := ih _ es hes
    have hfold : ∀ (a : Nat) (l : List FileEntry),
        l.foldl (fun acc e => acc + e.size) a = a + l.foldl (fun acc e => acc + e.size) 0 := by
      intro a l
      induction l generalizing a with
      | nil => rfl
      | cons x xs ihl => rw [List.foldl_cons, List.foldl_cons, ihl, ihl (0 + x.size)]; omega
    refine ⟨by simp [hnames], ?_, fun n c hnc => ?_⟩
    · rw [List.foldl_cons, hfold, hsize, List.flatMap_cons, List.length_append]
      dsimp only
      omega
    rcases List.mem_cons.mp hnc with h | h
    · -- the file at the head: its entry has the running offset
      obtain ⟨rfl, rfl⟩ := Prod.mk.inj h
      refine ⟨⟨n, c.length, off⟩, List.mem_cons_self, rfl, rfl, le_rfl, Nat.lt_of_not_le hov, ?_, ?_⟩
      · simp
      · simp [List.flatMap_cons]
    · -- a later file: its place is past the head's contents
      obtain ⟨e, he, hn, hs, hoff, hfit, hlen, hslice⟩ := hmem n c h
      have hsplit : e.offset - off = contents.length + (e.offset - (off + contents.length)) := by
        omega
      refine ⟨e, List.mem_cons_of_mem _ he, hn, hs, by omega, hfit, ?_, ?_⟩
      · simp only [List.flatMap_cons, List.length_append]
        omega
      · simp only [List.flatMap_cons]
        rw [hsplit, List.drop_append_length_add, hslice]

/-- The layout of an image `mkimg` writes. -/
theorem mkimg_eq_ok {toVec : List FileEntry → List UInt8} {files : List (String × List UInt8)}
    {image : List UInt8} (h : mkimg toVec files = .ok image) :
    ∃ entries, fileEntries files 0 = .ok entries ∧
      HEADER_SIZE_BYTES + (toVec entries).length + (files.flatMap Prod.snd).length < UInt64.size ∧
      image = leBytes 4 HEADER_MAGIC ++ leBytes 4 ((toVec entries).length % UInt32.size) ++
        leBytes 8 (HEADER_SIZE_BYTES + (toVec entries).length + (files.flatMap Prod.snd).length) ++
        toVec entries ++ files.flatMap Prod.snd := by
  obtain ⟨entries, hent, himg⟩ := Except.bind_eq_ok.mp h
  obtain ⟨-, hsize, -⟩ := fileEntries_ok files 0 entries hent
  dsimp only at himg
  rw [hsize] at himg
  split_ifs at himg with hov
  cases himg
  exact ⟨entries, hent, Nat.lt_of_not_le hov, rfl⟩

/-! ## Reading it back -/

theorem lookup_collectFiles {fileList : List FileEntry} (hnd : (fileList.map FileEntry.name).Nodup)
    {e : FileEntry} (he : e ∈ fileList) : (collectFiles fileList).lookup e.name = some e :=
  AList.lookup_foldl_insert_of_mem FileEntry.name id fileList ∅ hnd he

theorem lookup_collectFiles_none {fileList : List FileEntry} {name : String}
    (hn : name ∉ fileList.map FileEntry.name) : (collectFiles fileList).lookup name = none :=
  (AList.lookup_foldl_insert_of_not_mem FileEntry.name id fileList ∅ hn).trans rfl

/-- `init` on memory whose header passes its checks: the file list `fromBytes`
reads after the header, and the contents from the end of the list to the total
length. -/
theorem init_of_header {fromBytes : List UInt8 → Option (List FileEntry)} {mem : List UInt8}
    {b t : Nat} {l : List FileEntry} (h0 : readLE mem 0 4 = HEADER_MAGIC)
    (h4 : readLE mem 4 4 = b) (h8 : readLE mem 8 8 = t) (hb : 0 < b ∧ b + 8 < PAGE_SIZE_BYTES)
    (hdec : fromBytes ((mem.drop HEADER_SIZE_BYTES).take b) = some l)
    (ht : HEADER_SIZE_BYTES + b ≤ t) :
    init fromBytes mem =
      .ok ⟨collectFiles l, (mem.drop (HEADER_SIZE_BYTES + b)).take (t - (HEADER_SIZE_BYTES + b))⟩ := by
  unfold init
  dsimp only
  rw [h0, h4, h8, if_neg (not_not.mpr rfl), if_neg (not_not.mpr hb.1), if_neg (not_not.mpr hb.2),
    hdec]
  dsimp only
  rw [if_neg (Nat.not_lt.mpr ht)]

/-- **`init` reads back what `mkimg` wrote.** The kernel takes the file list and
the concatenated contents from the image, whatever memory follows it. -/
theorem init_mkimg {toVec : List FileEntry → List UInt8}
    {fromBytes : List UInt8 → Option (List FileEntry)} {files : List (String × List UInt8)}
    {entries : List FileEntry} {image : List UInt8} (hent : fileEntries files 0 = .ok entries)
    (hdec : fromBytes (toVec entries) = some entries)
    (hfit : 0 < (toVec entries).length ∧ (toVec entries).length + 8 < PAGE_SIZE_BYTES)
    (himg : mkimg toVec files = .ok image) (rest : List UInt8) :
    init fromBytes (image ++ rest) = .ok ⟨collectFiles entries, files.flatMap Prod.snd⟩ := by
  obtain ⟨entries', hent', hov, rfl⟩ := mkimg_eq_ok himg
  rw [hent] at hent'
  cases hent'
  generalize toVec entries = body at hdec hfit hov ⊢
  generalize files.flatMap Prod.snd = flat at hov ⊢
  have hP : PAGE_SIZE_BYTES < UInt32.size := by decide
  rw [Nat.mod_eq_of_lt (show body.length < UInt32.size by omega)]
  simp only [List.append_assoc]
  -- the three header fields read back at 0, 4 and 8
  have h0 := readLE_leBytes_append (leBytes 4 body.length ++
    (leBytes 8 (HEADER_SIZE_BYTES + body.length + flat.length) ++ (body ++ (flat ++ rest))))
    4 HEADER_MAGIC
  have h4 := readLE_append_leBytes (leBytes 4 HEADER_MAGIC)
    (leBytes 8 (HEADER_SIZE_BYTES + body.length + flat.length) ++ (body ++ (flat ++ rest)))
    4 body.length
  have h8 := readLE_append_leBytes (leBytes 4 HEADER_MAGIC ++ leBytes 4 body.length)
    (body ++ (flat ++ rest)) 8 (HEADER_SIZE_BYTES + body.length + flat.length)
  simp only [leBytes_length, List.length_append, List.append_assoc, Nat.reduceAdd] at h4 h8
  generalize hT : HEADER_SIZE_BYTES + body.length + flat.length = T at hov h0 h4 h8 ⊢
  have hP : PAGE_SIZE_BYTES = 0x20_0000 := rfl
  have hM : HEADER_MAGIC % Nat.pow 256 4 = HEADER_MAGIC := by decide
  have hB : body.length % Nat.pow 256 4 = body.length :=
    Nat.mod_eq_of_lt (by rw [show Nat.pow 256 4 = 0x1_0000_0000 from rfl]; omega)
  have hT' : T % Nat.pow 256 8 = T := Nat.mod_eq_of_lt hov
  -- the file list at 16, the contents right after it
  have hsplit : leBytes 4 HEADER_MAGIC ++ (leBytes 4 body.length ++ (leBytes 8 T ++
      (body ++ (flat ++ rest)))) =
      (leBytes 4 HEADER_MAGIC ++ leBytes 4 body.length ++ leBytes 8 T) ++ (body ++ (flat ++ rest)) := by
    simp only [List.append_assoc]
  have hhead : HEADER_SIZE_BYTES =
      (leBytes 4 HEADER_MAGIC ++ leBytes 4 body.length ++ leBytes 8 T).length := by
    simp [HEADER_SIZE_BYTES]
  have hbody : ((leBytes 4 HEADER_MAGIC ++ (leBytes 4 body.length ++ (leBytes 8 T ++
      (body ++ (flat ++ rest))))).drop HEADER_SIZE_BYTES).take body.length = body := by
    rw [hsplit, hhead, List.drop_left, List.take_left' rfl]
  have hlen : T - (HEADER_SIZE_BYTES + body.length) = flat.length := by omega
  have hfiles : ((leBytes 4 HEADER_MAGIC ++ (leBytes 4 body.length ++ (leBytes 8 T ++
      (body ++ (flat ++ rest))))).drop (HEADER_SIZE_BYTES + body.length)).take
        (T - (HEADER_SIZE_BYTES + body.length)) = flat := by
    rw [hlen, hsplit, hhead, List.drop_append_length_add, List.drop_left, List.take_left' rfl]
  -- the header is read over the image as one term: a rewrite of `readLE` in a goal
  -- holding the image's bytes would unfold them
  have hdec' : fromBytes (((leBytes 4 HEADER_MAGIC ++ (leBytes 4 body.length ++ (leBytes 8 T ++
      (body ++ (flat ++ rest))))).drop HEADER_SIZE_BYTES).take body.length) = some entries := by
    rw [hbody]
    exact hdec
  rw [init_of_header (h0.trans hM) (h4.trans hB) (h8.trans hT') hfit hdec' (by omega), hfiles]

/-- **Every file reads back.** For files of distinct names, whose file list
`fromBytes` reads back from what `toVec` wrote and fits the kernel's limit, the
InitRD `mkimg` writes, read by `init` from memory starting with it, gives each
listed file's contents and `None` for every other name. -/
theorem initrd_round_trip {toVec : List FileEntry → List UInt8}
    {fromBytes : List UInt8 → Option (List FileEntry)} {files : List (String × List UInt8)}
    {entries : List FileEntry} {image : List UInt8} (hnames : (files.map Prod.fst).Nodup)
    (hent : fileEntries files 0 = .ok entries) (hdec : fromBytes (toVec entries) = some entries)
    (hfit : 0 < (toVec entries).length ∧ (toVec entries).length + 8 < PAGE_SIZE_BYTES)
    (himg : mkimg toVec files = .ok image) (rest : List UInt8) :
    ∃ rd, init fromBytes (image ++ rest) = .ok rd ∧
      (∀ name contents, (name, contents) ∈ files → rd.read name = .ok (some contents)) ∧
      ∀ name, name ∉ files.map Prod.fst → rd.read name = .ok none := by
  obtain ⟨hnames', -, hmem⟩ := fileEntries_ok files 0 entries hent
  rw [← hnames'] at hnames
  refine ⟨_, init_mkimg hent hdec hfit himg rest, fun name contents h => ?_, fun name hn => ?_⟩
  · obtain ⟨e, he, rfl, -, -, hov, hle, hslice⟩ := hmem name contents h
    rw [Nat.sub_zero] at hle hslice
    unfold InitRD.read
    dsimp only
    rw [lookup_collectFiles hnames he]
    dsimp only
    rw [sliceFile, if_neg (Nat.not_le.mpr hov), if_neg (Nat.not_lt.mpr hle), hslice]
    rfl
  · rw [← hnames'] at hn
    unfold InitRD.read
    dsimp only
    rw [lookup_collectFiles_none hn]

/-! ## pinecone's encoding of the file list

pinecone writes a sequence as its length and then its elements, a `String` as its
length and then its UTF-8 bytes, a length as a base-128 varint (seven bits a
byte, the low group first, bit 7 set on every byte but the last) and a `u64` as
eight little-endian bytes. `pineconeToVec` and `pineconeFromBytes` are that
encoding of a `Vec<FileEntry>` and its reader, the two parameters of the round
trip at the example below. -/

/-- The varint of `n`, in at most `fuel` bytes; `n + 1` is enough. -/
def varint : Nat → Nat → List UInt8
  | 0, _ => []
  | fuel + 1, n => if n < 0x80 then [n.toUInt8] else (n % 0x80 + 0x80).toUInt8 :: varint fuel (n / 0x80)

def FileEntry.toPinecone (e : FileEntry) : List UInt8 :=
  varint (e.name.utf8ByteSize + 1) e.name.utf8ByteSize ++ e.name.toUTF8.data.toList ++
    leBytes 8 e.size ++ leBytes 8 e.offset

def pineconeToVec (entries : List FileEntry) : List UInt8 :=
  varint (entries.length + 1) entries.length ++ entries.flatMap FileEntry.toPinecone

/-- Reads a varint: the bytes up to the first without bit 7. -/
def readVarint : List UInt8 → Option (Nat × List UInt8)
  | [] => none
  | b :: rest =>
    if b < 0x80 then some (b.toNat, rest)
    else (readVarint rest).map fun (n, rest) => (b.toNat - 0x80 + 0x80 * n, rest)

/-- Reads one `FileEntry`: a name of valid UTF-8, then `size` and `offset`. -/
def readFileEntry (bytes : List UInt8) : Option (FileEntry × List UInt8) := do
  let (len, rest) ← readVarint bytes
  if rest.length < len + 16 then none
  else do
    let name ← String.fromUTF8? ⟨(rest.take len).toArray⟩
    let fields := rest.drop len
    pure (⟨name, readLE fields 0 8, readLE fields 8 8⟩, fields.drop 16)

def readFileEntries : Nat → List UInt8 → Option (List FileEntry × List UInt8)
  | 0, bytes => some ([], bytes)
  | n + 1, bytes => do
    let (e, rest) ← readFileEntry bytes
    let (es, rest) ← readFileEntries n rest
    pure (e :: es, rest)

def pineconeFromBytes (bytes : List UInt8) : Option (List FileEntry) := do
  let (count, rest) ← readVarint bytes
  let (entries, _) ← readFileEntries count rest
  pure entries

/-- Two files, the second empty. -/
def twoFiles : List (String × List UInt8) := [("init", [1, 2, 3]), ("README", [])]

def twoEntries : List FileEntry := [⟨"init", 3, 0⟩, ⟨"README", 0, 3⟩]

/-- The image of `twoFiles`: a header for a 45-byte file list and 64 bytes in
all, the list (the count 2; the length 4, `init`, size 3, offset 0; the length 6,
`README`, size 0, offset 3), then the three bytes of `init`. -/
def twoFilesImage : List UInt8 :=
  leBytes 4 HEADER_MAGIC ++ leBytes 4 45 ++ leBytes 8 64 ++
    [2, 4, 105, 110, 105, 116] ++ leBytes 8 3 ++ leBytes 8 0 ++
    [6, 82, 69, 65, 68, 77, 69] ++ leBytes 8 0 ++ leBytes 8 3 ++ [1, 2, 3]

theorem initrd_round_trip_two_files :
    (twoFiles.map Prod.fst).Nodup ∧ fileEntries twoFiles 0 = .ok twoEntries ∧
      pineconeFromBytes (pineconeToVec twoEntries) = some twoEntries ∧
      (0 < (pineconeToVec twoEntries).length ∧ (pineconeToVec twoEntries).length + 8 < PAGE_SIZE_BYTES) ∧
      mkimg pineconeToVec twoFiles = .ok twoFilesImage ∧
      ∃ rd, init pineconeFromBytes (twoFilesImage ++ []) = .ok rd ∧
        (∀ name contents, (name, contents) ∈ twoFiles → rd.read name = .ok (some contents)) ∧
        ∀ name, name ∉ twoFiles.map Prod.fst → rd.read name = .ok none := by
  have hnames : (twoFiles.map Prod.fst).Nodup := by decide
  have hent : fileEntries twoFiles 0 = .ok twoEntries := by decide
  have hdec : pineconeFromBytes (pineconeToVec twoEntries) = some twoEntries := by decide
  have hfit : 0 < (pineconeToVec twoEntries).length ∧ (pineconeToVec twoEntries).length + 8 < PAGE_SIZE_BYTES := by
    decide
  have himg : mkimg pineconeToVec twoFiles = .ok twoFilesImage := by decide +kernel
  exact ⟨hnames, hent, hdec, hfit, himg, initrd_round_trip hnames hent hdec hfit himg []⟩

end D7os.Initrd
