import D7os.Lib.Except
import D7os.Lib.Rows
import D7os.Net.Bytes

/-!
# The text of a virtual console

`modules/daemon_console/src/virtual_console.rs`: an `Output` is a deque of at
most `height = 25` lines of at most `width = 80` bytes. `write_byte` drops a
carriage return, starts a line at a newline, and otherwise appends the byte,
first starting a line if the last one is full; a line past the height pushes the
oldest out, and a zero byte fails the assertion and stops the daemon.

The lines are the text without carriage returns, cut at its newlines, each line
cut into rows of `width` bytes, the last `height` of them; a text that starts with
a newline has no row for the empty line before it, as the first line starts
lazily. Strings are their UTF-8 bytes. The keyboard input's Unicode normalization
and segmentation are left out.
-/

namespace D7os

namespace Console

/-- `CellColor::new(Color::White, Color::Black)`: `(0 << 4) | 15`. -/
def WHITE_ON_BLACK : UInt8 := 0x0F

/-- `Output`: screen and scrollback history, the oldest line first. -/
structure Output where
  lines : List (List UInt8)
  height : Nat
  width : Nat
  deriving DecidableEq, Repr

namespace Output

def new : Output := ⟨[], 25, 80⟩

/-- `new_line`: an empty last line; past `height` lines the oldest goes. -/
def newLine (o : Output) : Output :=
  let lines := o.lines ++ [[]]
  if o.height < lines.length then { o with lines := lines.tail } else { o with lines }

/-- `self.lines.back_mut().unwrap().push(byte)`. -/
def pushLast (lines : List (List UInt8)) (byte : UInt8) : Except Panic (List (List UInt8)) :=
  match lines.getLast? with
  | some last => .ok (lines.dropLast ++ [last ++ [byte]])
  | none => .error "called `Option::unwrap()` on a `None` value"

/-- `write_byte`; `13` is `b'\r'` and `10` is `b'\n'`. -/
def writeByte (o : Output) (byte : UInt8) : Except Panic Output := do
  assert (byte != 0) "byte != 0"
  if byte = 13 then pure o
  else if byte = 10 then pure o.newLine
  else
    -- a last line with space for one byte
    let o := match o.lines.getLast? with
      | some lastLine => if lastLine.length = o.width then o.newLine else o
      | none => { o with lines := o.lines ++ [[]] }
    let lines ← pushLast o.lines byte
    pure { o with lines }

def writeStr (o : Output) (text : List UInt8) : Except Panic Output := text.foldlM writeByte o

/-- `render`: the cells of the VGA buffer, line by line. The last 25 lines are
shown from the top; a missing line or column is a space. -/
def render (o : Output) : List (List (UInt8 × UInt8)) :=
  let shown := o.lines.rtake 25
  (List.range o.height).map fun line =>
    (List.range o.width).map fun column => (((shown[line]?).getD [])[column]?.getD 32, WHITE_ON_BLACK)

end Output

/-- `VirtualConsole::render`: the output with the pending input written after it. -/
def renderConsole (output : Output) (inputBuffer : List UInt8) : Except Panic (List (List (UInt8 × UInt8))) := do
  let s ← output.writeStr inputBuffer
  pure s.render

/-! ## The rows of a text -/

/-- The rows of `text` at `width` columns with no limit on their number: carriage
returns dropped, the text cut into lines at its newlines, each line into rows of
`width` bytes; the first line has no row while it is empty. -/
def layout (width : Nat) (text : List UInt8) : List (List UInt8) :=
  match (text.filter (· != 13)).splitOn 10 with
  | first :: rest => (if first = [] then [] else first.wrapRows width) ++ rest.flatMap (·.wrapRows width)
  | [] => []

/-- The rows after one more byte, as `write_byte` makes them with no height limit. -/
def stepRows (width : Nat) (rows : List (List UInt8)) (byte : UInt8) : List (List UInt8) :=
  if byte = 13 then rows
  else if byte = 10 then rows ++ [[]]
  else match rows.getLast? with
    | some last => if last.length = width then rows ++ [[byte]] else rows.dropLast ++ [last ++ [byte]]
    | none => [[byte]]

section Layout

variable {width : Nat}

theorem layout_nil (width : Nat) : layout width [] = [] := rfl

theorem stepRows_append_singleton {byte : UInt8} (h13 : byte ≠ 13) (h10 : byte ≠ 10)
    (pre : List (List UInt8)) (last : List UInt8) :
    stepRows width (pre ++ [last]) byte =
      if last.length = width then pre ++ [last, [byte]] else pre ++ [last ++ [byte]] := by
  rw [stepRows, if_neg h13, if_neg h10, List.getLast?_concat]
  dsimp only
  split
  · rw [List.append_assoc]
    rfl
  · rw [List.dropLast_concat]

/-- A byte that is neither a newline nor a carriage return extends the rows of the
last line, through `wrapRows_append_singleton`. -/
theorem stepRows_wrapRows (hw : 0 < width) {byte : UInt8} (h13 : byte ≠ 13) (h10 : byte ≠ 10)
    (pre : List (List UInt8)) (line : List UInt8) :
    stepRows width (pre ++ line.wrapRows width) byte = pre ++ (line ++ [byte]).wrapRows width := by
  obtain ⟨init, last, h₁, -, h₂⟩ := List.wrapRows_append_singleton hw byte line
  rw [h₁, h₂, ← List.append_assoc, stepRows_append_singleton h13 h10]
  split <;> simp only [List.append_assoc]

/-- **`write_byte`'s rows, one byte at a time**: the rows of a text and one more
byte are the rows of the text after that byte. -/
theorem layout_append_singleton (hw : 0 < width) (text : List UInt8) (byte : UInt8) :
    layout width (text ++ [byte]) = stepRows width (layout width text) byte := by
  by_cases h13 : byte = 13
  · subst h13
    have hf : (text ++ [13]).filter (· != 13) = text.filter (· != 13) := by simp
    rw [stepRows, if_pos rfl]
    unfold layout
    rw [hf]
  have hf : (text ++ [byte]).filter (· != 13) = text.filter (· != 13) ++ [byte] := by
    simp [h13]
  obtain ⟨first, rest, hs⟩ := List.exists_cons_of_ne_nil (List.splitOn_ne_nil 10 (text.filter (· != 13)))
  by_cases h10 : byte = 10
  · subst h10
    rw [layout, layout, hf, List.splitOn_append_singleton_self, hs, List.cons_append, stepRows,
      if_neg h13, if_pos rfl]
    dsimp only
    rw [List.flatMap_append, List.flatMap_singleton, List.wrapRows_of_length_le (l := []) (Nat.zero_le _),
      List.append_assoc]
  obtain ⟨init, last, h₁, h₂⟩ := List.splitOn_append_singleton_of_ne h10 (text.filter (· != 13))
  rw [layout, layout, hf, h₁, h₂]
  cases init with
  | nil =>
    rw [List.nil_append, List.nil_append]
    dsimp only
    rw [if_neg (by simp), List.flatMap_nil, List.append_nil, List.append_nil]
    by_cases hl : last = []
    · subst hl
      rw [if_pos rfl, List.nil_append, List.wrapRows_of_length_le (by simp only [List.length_singleton]; omega), stepRows,
        if_neg h13, if_neg h10]
      rfl
    · rw [if_neg hl]
      simpa using (stepRows_wrapRows hw h13 h10 [] last).symm
  | cons first' mid =>
    rw [List.cons_append, List.cons_append]
    dsimp only
    rw [List.flatMap_append, List.flatMap_append, List.flatMap_singleton, List.flatMap_singleton,
      ← List.append_assoc, ← List.append_assoc, stepRows_wrapRows hw h13 h10]

theorem length_le_of_mem_layout (hw : 0 < width) {text : List UInt8} {row : List UInt8}
    (hr : row ∈ layout width text) : row.length ≤ width := by
  unfold layout at hr
  split at hr
  · rcases List.mem_append.mp hr with hr | hr
    · split at hr
      · cases hr
      · exact List.length_le_of_mem_wrapRows hw hr
    · obtain ⟨line, -, hr⟩ := List.mem_flatMap.mp hr
      exact List.length_le_of_mem_wrapRows hw hr
  · cases hr

end Layout

/-! ## The window of `height` lines -/

namespace Output

variable {height width : Nat}

theorem pushLast_append (pre : List (List UInt8)) (last : List UInt8) (byte : UInt8) :
    pushLast (pre ++ [last]) byte = .ok (pre ++ [last ++ [byte]]) := by
  rw [pushLast, List.getLast?_concat, List.dropLast_concat]

theorem newLine_rtake (hh : 0 < height) (rows : List (List UInt8)) :
    (⟨rows.rtake height, height, width⟩ : Output).newLine = ⟨(rows ++ [[]]).rtake height, height, width⟩ := by
  rw [newLine, List.rtake_append_singleton hh]
  dsimp only
  split <;> rfl

/-- **The deque keeps the last `height` rows**: `write_byte` on the last `height`
rows of `rows` leaves the last `height` rows of `stepRows`. -/
theorem writeByte_rtake (hh : 0 < height) {byte : UInt8} (hb : byte ≠ 0) (rows : List (List UInt8)) :
    writeByte ⟨rows.rtake height, height, width⟩ byte = .ok ⟨(stepRows width rows byte).rtake height, height, width⟩ := by
  obtain ⟨m, rfl⟩ : ∃ m, height = m + 1 := ⟨height - 1, by omega⟩
  rw [writeByte, show (byte != 0) = true by simpa using hb, assert_true, Except.ok_bind]
  by_cases h13 : byte = 13
  · rw [if_pos h13, stepRows, if_pos h13]
    rfl
  by_cases h10 : byte = 10
  · rw [if_neg h13, if_pos h10, stepRows, if_neg h13, if_pos h10, newLine_rtake hh]
    rfl
  rw [if_neg h13, if_neg h10]
  dsimp only
  rw [List.getLast?_rtake hh]
  rcases List.eq_nil_or_concat' rows with rfl | ⟨pre, last, rfl⟩
  · rw [show (stepRows width [] byte) = [[byte]] by simp [stepRows, h13, h10], List.rtake_nil,
      List.getLast?_nil]
    dsimp only
    rw [pushLast_append, Except.ok_bind, List.rtake_of_length_le (by simp)]
    rfl
  · rw [List.getLast?_concat, stepRows_append_singleton h13 h10]
    dsimp only
    split
    · rw [newLine_rtake hh]
      dsimp only
      rw [List.rtake_concat_succ, pushLast_append, Except.ok_bind,
        show pre ++ [last, [byte]] = (pre ++ [last]) ++ [[byte]] by simp, List.rtake_concat_succ]
      rfl
    · dsimp only
      rw [List.rtake_concat_succ, pushLast_append, Except.ok_bind, List.rtake_concat_succ]
      rfl

theorem writeStr_append_singleton (o : Output) (text : List UInt8) (byte : UInt8) :
    o.writeStr (text ++ [byte]) = o.writeStr text >>= fun o => o.writeByte byte := by
  simp only [writeStr, List.foldlM_append, List.foldlM_cons, List.foldlM_nil, bind_pure]

/-- Writing more text without zero bytes after the rows of a text leaves the rows
of the two texts together. -/
theorem writeStr_layout_append (hh : 0 < height) (hw : 0 < width) (text : List UInt8) :
    ∀ more : List UInt8, (0 : UInt8) ∉ more →
      writeStr ⟨(layout width text).rtake height, height, width⟩ more =
        .ok ⟨(layout width (text ++ more)).rtake height, height, width⟩ := by
  intro more
  induction more using List.reverseRecOn with
  | nil =>
    intro _
    rw [List.append_nil]
    rfl
  | append_singleton more byte ih =>
    intro hz
    have hb : byte ≠ 0 := fun h => hz (h ▸ List.mem_append_right _ (List.mem_singleton_self byte))
    rw [writeStr_append_singleton, ih (fun h => hz (List.mem_append_left _ h)), Except.ok_bind,
      writeByte_rtake hh hb, ← List.append_assoc, layout_append_singleton hw]

/-- Writing a text without zero bytes to empty lines leaves the last `height`
rows of its layout. -/
theorem writeStr_layout (hh : 0 < height) (hw : 0 < width) (text : List UInt8) (hz : (0 : UInt8) ∉ text) :
    writeStr ⟨[], height, width⟩ text = .ok ⟨(layout width text).rtake height, height, width⟩ := by
  have h := writeStr_layout_append hh hw [] text hz
  rwa [layout_nil, List.rtake_nil, List.nil_append] at h

theorem writeByte_zero (o : Output) : o.writeByte 0 = .error (assertFailed "byte != 0") := rfl

/-- A zero byte stops the writer at the assertion, whatever follows it. -/
theorem writeStr_layout_zero (hh : 0 < height) (hw : 0 < width) (text : List UInt8) :
    ∀ more : List UInt8, (0 : UInt8) ∈ more →
      writeStr ⟨(layout width text).rtake height, height, width⟩ more = .error (assertFailed "byte != 0") := by
  intro more
  induction more using List.reverseRecOn with
  | nil => intro h; cases h
  | append_singleton more byte ih =>
    intro hz
    rw [writeStr_append_singleton]
    by_cases hm : (0 : UInt8) ∈ more
    · rw [ih hm]
      rfl
    · have hb : byte = 0 := by
        simp only [List.mem_append, hm, List.mem_singleton, false_or] at hz
        exact hz.symm
      rw [writeStr_layout_append hh hw text more hm, Except.ok_bind, hb, writeByte_zero]

/-- **What writing does to the rows of a text**: the rows of both texts, or the
assertion when a zero byte comes. -/
theorem writeStr_layout_eq (hh : 0 < height) (hw : 0 < width) (text more : List UInt8) :
    writeStr ⟨(layout width text).rtake height, height, width⟩ more =
      if (0 : UInt8) ∈ more then .error (assertFailed "byte != 0")
      else .ok ⟨(layout width (text ++ more)).rtake height, height, width⟩ := by
  split
  · exact writeStr_layout_zero hh hw text more (by assumption)
  · exact writeStr_layout_append hh hw text more (by assumption)

theorem writeStr_zero (hh : 0 < height) (hw : 0 < width) (text : List UInt8) (hz : (0 : UInt8) ∈ text) :
    writeStr ⟨[], height, width⟩ text = .error (assertFailed "byte != 0") := by
  have h := writeStr_layout_zero hh hw [] text hz
  rwa [layout_nil, List.rtake_nil] at h

end Output

/-- **What a console shows.** Written to a new console, a text without zero bytes
leaves the last 25 rows of its layout, no row longer than the 80 columns of the
screen; a zero byte anywhere in it stops the daemon at the assertion of
`write_byte`. -/
theorem console_output_last_rows (text : List UInt8) :
    ((0 : UInt8) ∉ text →
      Output.new.writeStr text = .ok { Output.new with lines := (layout 80 text).rtake 25 } ∧
        ∀ row ∈ layout 80 text, row.length ≤ 80) ∧
    ((0 : UInt8) ∈ text → Output.new.writeStr text = .error (assertFailed "byte != 0")) := by
  constructor
  · intro hz
    exact ⟨Output.writeStr_layout (by decide) (by decide) text hz,
      fun _ hr => length_le_of_mem_layout (by decide) hr⟩
  · exact Output.writeStr_zero (by decide) (by decide) text

/-- A line of 81 bytes wraps after the 80th; the carriage return before the
newline leaves no trace. -/
theorem console_output_wraps_long_line :
    Output.new.writeStr (List.replicate 81 97 ++ [13, 10, 98]) =
      .ok { Output.new with lines := [List.replicate 80 97, [97], [98]] } := by
  have h := ((console_output_last_rows (List.replicate 81 97 ++ [13, 10, 98])).1 (by decide)).1
  rwa [show (layout 80 (List.replicate 81 97 ++ [13, 10, 98])).rtake 25 =
    [List.replicate 80 97, [97], [98]] by decide +kernel] at h

end Console

end D7os
