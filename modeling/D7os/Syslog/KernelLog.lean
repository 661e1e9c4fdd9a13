import Mathlib.Data.List.Infix
import D7os.Lib.Utf8
import D7os.Console.Output

/-!
# The kernel log, from the kernel to the console

The kernel's logger (`src/syslog.rs`) appends the UTF-8 bytes of each record to
the write-ahead log, which `kernel_log_read` drains; the syslog daemon
(`modules/daemon_syslog`) reads it into a 64 KiB buffer, collects lines, decodes
each complete line as UTF-8 and sends the lines of one pass on
`console/kernel_log`; the console daemon writes them to console 0.

The three run as atomic steps in any interleaving. The invariant: every byte
logged is, in order and once, on the console, in flight, in the daemon's line
buffer or still in the log, and the buffer and the log hold whole characters, so
decoding never fails. A run fails in one way only: a line that a read cuts after
its 999th byte overflows the line buffer. Port E9, the UART and VGA are left out.
-/

namespace D7os.Syslog

open Console

/-- `log::Level`, the most severe first. -/
inductive Level
  | Error
  | Warn
  | Info
  | Debug
  | Trace
  deriving DecidableEq, Repr

namespace Level

def toNat : Level → Nat
  | Error => 1
  | Warn => 2
  | Info => 3
  | Debug => 4
  | Trace => 5

instance : LE Level := ⟨fun a b => a.toNat ≤ b.toNat⟩

instance (a b : Level) : Decidable (a ≤ b) := inferInstanceAs (Decidable (a.toNat ≤ b.toNat))

/-- `{:5}` of a level: its name, padded to five columns. -/
def pad5 : Level → String
  | Error => "ERROR"
  | Warn => "WARN "
  | Info => "INFO "
  | Debug => "DEBUG"
  | Trace => "TRACE"

end Level

def LEVEL_SCREEN : Level := .Debug

/-- A `log::Record`, its arguments formatted. -/
structure Record where
  level : Level
  target : String
  modulePath : Option String
  args : String

/-- The bytes `SystemLogger::log` appends to `WRITE_AHEAD_LOG` for a record. -/
def SystemLogger.log (canAllocate : Bool) (record : Record) : List UInt8 :=
  if record.modulePath = some "aml::parser" ∧ record.level = .Trace then []
  else
    let target := if record.target = "d7os::syscall::PROCESS_OUTPUT" then "PROCESS_OUTPUT" else record.target
    -- Filter out stuff that occur during allocation
    if (record.modulePath.map fun p => decide ("::memory::".toList <:+: p.toList) ||
        decide ("allogator::".toList <+: p.toList)).getD true then []
    else if record.level ≤ LEVEL_SCREEN ∧ canAllocate = true then
      (record.level.pad5 ++ " " ++ target ++ " - " ++ record.args ++ "\n").toUTF8.data.toList
    else []

/-- `syslog::syscall_read`: the first `buffer.len()` bytes of the log, or all of
it, are read and leave the log. -/
def syscallRead (wal : List UInt8) (bufferLen : Nat) : List UInt8 × List UInt8 :=
  let count := min wal.length bufferLen
  (wal.take count, wal.drop count)

/-- The length of the daemon's `read_buffer`. -/
def READ_BUFFER_LEN : Nat := 0x1_0000

/-- `core::str::from_utf8(&line_buffer).unwrap()` on bytes that are not UTF-8;
the position fields of the `Utf8Error` are left out. -/
def UTF8_PANIC : Panic := "called `Result::unwrap()` on an `Err` value: Utf8Error"

/-- One byte of the daemon's loop over what it read: a newline completes the
line, which is decoded and moved to the send buffer. -/
def takeByte (buffers : List UInt8 × List UInt8) (byte : UInt8) : Except Panic (List UInt8 × List UInt8) :=
  let (sendBuffer, lineBuffer) := buffers
  if byte = 10 then
    if ByteArray.IsValidUTF8 ⟨lineBuffer.toArray⟩ then .ok (sendBuffer ++ lineBuffer ++ [10], [])
    else .error UTF8_PANIC
  else .ok (sendBuffer, lineBuffer ++ [byte])

/-- One pass of the daemon's loop: the log left, the line buffer, and the message
delivered on `console/kernel_log`, if any. -/
def syslogdPass (wal lineBuffer : List UInt8) :
    Except Panic (List UInt8 × List UInt8 × Option (List UInt8)) :=
  let (read, wal) := syscallRead wal READ_BUFFER_LEN
  if read.length ≠ 0 then do
    let (sendBuffer, lineBuffer) ← read.foldlM takeByte ([], lineBuffer)
    let message := if sendBuffer.length > 0 then some sendBuffer else none
    if lineBuffer.length < 1000 then pure (wal, lineBuffer, message) else .error "Line buffer overflow"
  else pure (wal, lineBuffer, none)

/-- The kernel log, the syslog daemon, the topic between the daemons, and the
output of console 0. -/
structure LogSystem where
  wal : List UInt8
  lineBuffer : List UInt8
  inFlight : List (List UInt8)
  console : Output

def LogSystem.new : LogSystem := ⟨[], [], [], Output.new⟩

inductive LogStep
  | log (canAllocate : Bool) (record : Record)
  | syslogd
  | consoled

namespace LogSystem

/-- A step of one party; the console daemon waits while nothing is in flight. -/
def step (s : LogSystem) : LogStep → Except Panic LogSystem
  | .log canAllocate record => .ok { s with wal := s.wal ++ SystemLogger.log canAllocate record }
  | .syslogd => do
    let (wal, lineBuffer, message) ← syslogdPass s.wal s.lineBuffer
    pure { s with wal, lineBuffer, inFlight := s.inFlight ++ message.toList }
  | .consoled =>
    match s.inFlight with
    | [] => .ok s
    | message :: rest => do
      let console ← s.console.writeStr message
      pure { s with inFlight := rest, console }

end LogSystem

def runLog (s : LogSystem) (steps : List LogStep) : Except Panic LogSystem := steps.foldlM LogSystem.step s

/-- The bytes a step adds to the kernel log. -/
def LogStep.logged : LogStep → List UInt8
  | .log canAllocate record => SystemLogger.log canAllocate record
  | _ => []

def loggedBytes (steps : List LogStep) : List UInt8 := steps.flatMap LogStep.logged

/-! ## The daemon keeps lines and characters whole -/

open Utf8

/-- The kernel logs whole characters. -/
theorem SystemLogger.log_encode (canAllocate : Bool) (record : Record) :
    ∃ cs, SystemLogger.log canAllocate record = encode cs := by
  unfold SystemLogger.log
  dsimp only
  split_ifs
  all_goals first
    | exact ⟨[], rfl⟩
    | exact ⟨_, toUTF8_data_toList _⟩

theorem takeByte_newline (sendBuffer : List UInt8) (a : List Char) :
    takeByte (sendBuffer, encode a) 10 = .ok (sendBuffer ++ encode a ++ [10], []) := by
  rw [takeByte, if_pos rfl, if_pos (isValidUTF8_encode a)]

theorem takeByte_of_ne {byte : UInt8} (hb : byte ≠ 10) (sendBuffer lineBuffer : List UInt8) :
    takeByte (sendBuffer, lineBuffer) byte = .ok (sendBuffer, lineBuffer ++ [byte]) := by
  rw [takeByte, if_neg hb]

theorem getLast?_append_of_getLast? {l l' : List UInt8} (h : l' = [] ∨ l'.getLast? = some 10)
    (hl : l.getLast? = some 10) : (l ++ l').getLast? = some 10 := by
  rcases h with rfl | h
  · rwa [List.append_nil]
  · rw [List.getLast?_append, h]
    rfl

/-- **The daemon's loop over what it read**, by induction on the bytes read: the
bytes move from the line buffer to the send buffer at each newline, every line it
decodes is the encoding of characters, and what is left in the line buffer,
followed by what is left of the log, still encodes characters. -/
theorem foldlM_takeByte {rest : List UInt8} :
    ∀ (chunk sendBuffer lineBuffer : List UInt8) (cs : List Char), (10 : UInt8) ∉ lineBuffer →
      lineBuffer ++ chunk ++ rest = encode cs →
      ∃ sent lineBuffer', chunk.foldlM takeByte (sendBuffer, lineBuffer) = .ok (sendBuffer ++ sent, lineBuffer') ∧
        sent ++ lineBuffer' = lineBuffer ++ chunk ∧ (sent = [] ∨ sent.getLast? = some 10) ∧
        (10 : UInt8) ∉ lineBuffer' ∧ ∃ cs', lineBuffer' ++ rest = encode cs' := by
  intro chunk
  induction chunk with
  | nil =>
    intro sendBuffer lineBuffer cs hline h
    refine ⟨[], lineBuffer, by rw [List.append_nil]; rfl, by simp, .inl rfl, hline, cs, ?_⟩
    rwa [List.append_nil] at h
  | cons byte chunk ih =>
    intro sendBuffer lineBuffer cs hline h
    rw [List.foldlM_cons]
    by_cases hb : byte = 10
    · -- a newline: the line is whole characters, and so is what follows it
      subst hb
      obtain ⟨a, b, -, rfl, hb⟩ := eq_encode_of_append_ten hline (by simpa using h)
      rw [takeByte_newline, Except.ok_bind]
      obtain ⟨sent, lineBuffer', hrun, hsum, hlast, hline', hcs⟩ :=
        ih (sendBuffer ++ encode a ++ [10]) [] b List.not_mem_nil (by simpa using hb)
      refine ⟨encode a ++ [10] ++ sent, lineBuffer', by rw [hrun]; simp, ?_, ?_, hline', hcs⟩
      · rw [List.append_assoc, hsum]
        simp
      · exact .inr (getLast?_append_of_getLast? hlast (by simp))
    · rw [takeByte_of_ne hb, Except.ok_bind]
      have hline₁ : (10 : UInt8) ∉ lineBuffer ++ [byte] := by
        simp only [List.mem_append, List.mem_singleton, not_or]
        exact ⟨hline, fun h => hb h.symm⟩
      obtain ⟨sent, lineBuffer', hrun, hsum, hlast, hline', hcs⟩ :=
        ih sendBuffer (lineBuffer ++ [byte]) cs hline₁ (by simpa using h)
      exact ⟨sent, lineBuffer', hrun, by rw [hsum]; simp, hlast, hline', hcs⟩

theorem toList_flatten_message (sent : List UInt8) :
    (if sent.length > 0 then some sent else none).toList.flatten = sent := by
  split
  · simp
  · rename_i h
    have hnil : sent = [] := List.eq_nil_of_length_eq_zero (by omega)
    subst hnil
    rfl

/-- One pass of the daemon either fails on a line too long for its buffer, or
moves whole lines from the log into its message, keeping the rest whole
characters. -/
theorem syslogdPass_spec {wal lineBuffer : List UInt8} {cs : List Char} (hline : (10 : UInt8) ∉ lineBuffer)
    (hcs : lineBuffer ++ wal = encode cs) :
    syslogdPass wal lineBuffer = .error "Line buffer overflow" ∨
      ∃ wal' lineBuffer' message, syslogdPass wal lineBuffer = .ok (wal', lineBuffer', message) ∧
        message.toList.flatten ++ lineBuffer' ++ wal' = lineBuffer ++ wal ∧
        (∀ m ∈ message.toList, m.getLast? = some 10) ∧ (10 : UInt8) ∉ lineBuffer' ∧
        ∃ cs', lineBuffer' ++ wal' = encode cs' := by
  unfold syslogdPass syscallRead
  dsimp only
  generalize min wal.length READ_BUFFER_LEN = n
  split
  · obtain ⟨sent, lineBuffer', hrun, hsum, hlast, hline', hcs'⟩ :=
      foldlM_takeByte (wal.take n) [] lineBuffer cs hline (by rw [List.append_assoc, List.take_append_drop]; exact hcs)
    rw [hrun, Except.ok_bind]
    dsimp only
    split
    · refine .inr ⟨_, _, _, rfl, ?_, ?_, hline', hcs'⟩
      · rw [List.nil_append, toList_flatten_message, hsum, List.append_assoc, List.take_append_drop]
      · intro m hm
        split at hm
        · simp only [Option.toList_some, List.mem_singleton] at hm
          subst hm
          rcases hlast with rfl | h
          · simp at *
          · simpa using h
        · cases hm
    · exact .inl rfl
  · rename_i hread
    have hnil : wal.take n = [] := List.eq_nil_of_length_eq_zero (by omega)
    have hdrop : wal.drop n = wal := by
      have h := List.take_append_drop n wal
      rwa [hnil, List.nil_append] at h
    refine .inr ⟨_, _, none, rfl, by rw [hdrop]; rfl, by simp, hline, cs, by rw [hdrop]; exact hcs⟩

/-! ## The pipeline over whole runs -/

/-- What a reachable state keeps of the bytes `logged` so far: every byte is, in
order and once, written to the console, in flight, in the daemon's line buffer or
still in the log; the console and the topic have whole lines; the daemon and the
log hold whole characters. -/
structure Inv (s : LogSystem) (logged : List UInt8) : Prop where
  shown : ∃ written, s.console = ⟨(layout 80 written).rtake 25, 25, 80⟩ ∧
    (written = [] ∨ written.getLast? = some 10) ∧ written ++ s.inFlight.flatten ++ s.lineBuffer ++ s.wal = logged
  inFlight_lines : ∀ m ∈ s.inFlight, m.getLast? = some 10
  lineBuffer_ten : (10 : UInt8) ∉ s.lineBuffer
  chars : ∃ cs, s.lineBuffer ++ s.wal = encode cs

theorem inv_new : Inv LogSystem.new [] :=
  ⟨⟨[], rfl, .inl rfl, rfl⟩, (fun _ h => by cases h), List.not_mem_nil, [], rfl⟩

section Steps

variable {s : LogSystem} {logged : List UInt8}

theorem Inv.log (h : Inv s logged) (canAllocate : Bool) (record : Record) :
    Inv { s with wal := s.wal ++ SystemLogger.log canAllocate record }
      (logged ++ SystemLogger.log canAllocate record) := by
  obtain ⟨⟨written, hconsole, hwritten, hsum⟩, hlines, hten, cs, hcs⟩ := h
  obtain ⟨cs', hcs'⟩ := SystemLogger.log_encode canAllocate record
  refine ⟨⟨written, hconsole, hwritten, ?_⟩, hlines, hten, cs ++ cs', ?_⟩
  · simp only [← hsum, List.append_assoc]
  · simp only [← List.append_assoc, hcs, hcs', encode_append]

theorem Inv.syslogd (h : Inv s logged) :
    s.step .syslogd = .error "Line buffer overflow" ∨ ∃ s', s.step .syslogd = .ok s' ∧ Inv s' logged := by
  obtain ⟨⟨written, hconsole, hwritten, hsum⟩, hlines, hten, cs, hcs⟩ := h
  rcases syslogdPass_spec hten hcs with herr | ⟨wal', lineBuffer', message, hpass, hmoved, hmessage, hten', hcs'⟩
  · left
    rw [LogSystem.step, herr]
    rfl
  · right
    refine ⟨{ s with wal := wal', lineBuffer := lineBuffer', inFlight := s.inFlight ++ message.toList },
      by rw [LogSystem.step, hpass]; rfl, ⟨written, hconsole, hwritten, ?_⟩, ?_, hten', hcs'⟩
    · rw [← hsum, List.flatten_append]
      simp only [List.append_assoc] at hmoved ⊢
      rw [hmoved]
    · intro m hm
      rcases List.mem_append.mp hm with hm | hm
      · exact hlines m hm
      · exact hmessage m hm

theorem Inv.consoled (h : Inv s logged) (hz : (0 : UInt8) ∉ logged) :
    ∃ s', s.step .consoled = .ok s' ∧ Inv s' logged := by
  obtain ⟨⟨written, hconsole, hwritten, hsum⟩, hlines, hten, hcs⟩ := h
  cases hflight : s.inFlight with
  | nil => exact ⟨s, by rw [LogSystem.step, hflight], ⟨⟨written, hconsole, hwritten, hsum⟩, hlines, hten, hcs⟩⟩
  | cons message rest =>
    rw [hflight] at hsum hlines
    have hm : (0 : UInt8) ∉ message := fun h0 => hz (hsum ▸ by simp [h0])
    have hwrite : Output.writeStr ⟨(layout 80 written).rtake 25, 25, 80⟩ message =
        .ok ⟨(layout 80 (written ++ message)).rtake 25, 25, 80⟩ :=
      Output.writeStr_layout_append (by decide) (by decide) written message hm
    refine ⟨{ s with inFlight := rest, console := ⟨(layout 80 (written ++ message)).rtake 25, 25, 80⟩ },
      by rw [LogSystem.step, hflight, hconsole]; dsimp only; rw [hwrite]; rfl, ⟨written ++ message, rfl, ?_, ?_⟩,
      fun m hm' => hlines m (List.mem_cons_of_mem _ hm'), hten, hcs⟩
    · right
      rw [List.getLast?_append, hlines message List.mem_cons_self]
      rfl
    · rw [← hsum, List.flatten_cons]
      simp only [List.append_assoc]

/-- **One step of any party** keeps the invariant, or is the daemon failing on an
overlong line. -/
theorem Inv.step (h : Inv s logged) (step : LogStep) (hz : (0 : UInt8) ∉ logged ++ step.logged) :
    s.step step = .error "Line buffer overflow" ∨ ∃ s', s.step step = .ok s' ∧ Inv s' (logged ++ step.logged) := by
  cases step with
  | log canAllocate record => exact .inr ⟨_, rfl, h.log canAllocate record⟩
  | syslogd => simpa [LogStep.logged] using h.syslogd
  | consoled =>
    right
    simpa [LogStep.logged] using h.consoled (by simpa [LogStep.logged] using hz)

end Steps

/-- Over a whole run, by induction on the steps. -/
theorem runLog_inv : ∀ (steps : List LogStep) (s : LogSystem) (logged : List UInt8), Inv s logged →
    (0 : UInt8) ∉ logged ++ loggedBytes steps →
    runLog s steps = .error "Line buffer overflow" ∨
      ∃ s', runLog s steps = .ok s' ∧ Inv s' (logged ++ loggedBytes steps)
  | [], s, logged, h, _ => .inr ⟨s, rfl, by simpa [loggedBytes] using h⟩
  | step :: steps, s, logged, h, hz => by
    have hsplit : logged ++ loggedBytes (step :: steps) = (logged ++ step.logged) ++ loggedBytes steps := by
      simp [loggedBytes]
    rw [hsplit] at hz ⊢
    rcases h.step step (fun h0 => hz (List.mem_append_left _ h0)) with herr | ⟨s', hs', h'⟩
    · left
      rw [runLog, List.foldlM_cons, herr]
      rfl
    · rw [runLog, List.foldlM_cons, hs', Except.ok_bind]
      exact runLog_inv steps s' _ h' hz

/-- **The kernel log reaches the console.** In every interleaving of the kernel
logging records, the syslog daemon's passes and the console daemon's receives,
from the start and with no zero byte logged, the run fails only on a line too
long for the daemon's line buffer: never on decoding a line as UTF-8, never on
the console's assertion. Otherwise every byte logged is, in order and exactly
once, written to the console, in flight, in the daemon's line buffer or still in
the log; the console has been written whole lines only, and shows the last 25
rows of their layout. -/
theorem kernel_log_reaches_console (steps : List LogStep) (hz : (0 : UInt8) ∉ loggedBytes steps) :
    runLog LogSystem.new steps = .error "Line buffer overflow" ∨
      ∃ s written, runLog LogSystem.new steps = .ok s ∧
        s.console = ⟨(layout 80 written).rtake 25, 25, 80⟩ ∧ (written = [] ∨ written.getLast? = some 10) ∧
        written ++ s.inFlight.flatten ++ s.lineBuffer ++ s.wal = loggedBytes steps := by
  rcases runLog_inv steps LogSystem.new [] inv_new (by simpa using hz) with herr | ⟨s, hrun, h⟩
  · exact .inl herr
  · obtain ⟨written, hconsole, hwritten, hsum⟩ := h.shown
    exact .inr ⟨s, written, hrun, hconsole, hwritten, by simpa using hsum⟩

/-- A boot message logged, passed on by the daemon and received by the console. -/
theorem kernel_log_reaches_console_at_boot :
    let steps := [LogStep.log true ⟨.Info, "d7os::main", some "d7os::main", "Kernel booted"⟩, .syslogd, .consoled]
    runLog LogSystem.new steps = .error "Line buffer overflow" ∨
      ∃ s written, runLog LogSystem.new steps = .ok s ∧
        s.console = ⟨(layout 80 written).rtake 25, 25, 80⟩ ∧ (written = [] ∨ written.getLast? = some 10) ∧
        written ++ s.inFlight.flatten ++ s.lineBuffer ++ s.wal = loggedBytes steps := by
  intro steps
  exact kernel_log_reaches_console steps (by decide)

end D7os.Syslog
