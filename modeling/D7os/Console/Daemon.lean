import D7os.Lib.Except
import D7os.Console.Output
import D7os.Console.Keyboard
import D7os.Net.IpAddr

/-!
# The console daemon

`modules/daemon_console/src/lib.rs` and the keyboard input of
`virtual_console.rs`: ten virtual consoles, the kernel log in the first, one of
them on the VGA screen. The loop takes a message printed to a console, or a key
event, which may switch the active console and is otherwise handed to the active
console's input unless that is the kernel log.

Over every run, in any interleaving: the screen shows the last 25 rows of the
text printed to the active console followed by its pending input; the kernel log
takes no input; the pressed modifiers are those last pressed; and with numeric
key symbols below 10 the active console's index stays in the vector. The daemon
stops only at a zero byte and at a key whose chain of remaps never ends. A run
is what the loop received; Unicode normalization and segmentation are parameters.
-/

namespace D7os

namespace Console

/-- How the daemon stops. -/
inductive Failure
  | panic (message : Panic)
  /-- The stack runs out in a chain of remaps that never ends; the kernel
  terminates the process at the page fault. -/
  | pageFault
  deriving DecidableEq

/-- `str::parse::<usize>`, up to `usize::MAX`. -/
def parseUsize (s : String) : Option Nat := Netd.fromStr 18446744073709551615 s.toList

/-- The message of an index past the end of a slice. -/
def indexPanic (len index : Nat) : Panic :=
  "index out of bounds: the len is " ++ toString len ++ " but the index is " ++ toString index

/-- `unreachable!()`. -/
def UNREACHABLE : Panic := "internal error: entered unreachable code"

/-- `virtual_console::Input`. -/
structure Input where
  deadKeyBuffer : String
  inputBuffer : String
  deriving DecidableEq

def Input.new : Input := ⟨"", ""⟩

/-- The bytes of the input buffer, as `render` writes them. -/
def Input.bytes (i : Input) : List UInt8 := i.inputBuffer.toUTF8.data.toList

/-- `Input::keyboard_event`; `nfc` is `UnicodeNormalization::nfc` and `graphemes`
is `UnicodeSegmentation::graphemes(_, true)`. -/
def Input.keyboardEvent (nfc : String → String) (graphemes : String → List String) (i : Input) :
    EventAction → Except Panic Input
  | .keyAction (.text text) =>
    -- the dead-key buffer is drained into the input first
    pure ⟨"", nfc (i.inputBuffer ++ i.deadKeyBuffer ++ text)⟩
  | .keyAction (.buffer text) => pure { i with deadKeyBuffer := i.deadKeyBuffer ++ text }
  | .keyAction (.remap _) => throw UNREACHABLE
  | .keyAction .ignore => pure i
  | .unmatched symbol modifiers =>
    if symbol = "Enter" ∧ modifiers = ∅ then pure { i with inputBuffer := i.inputBuffer.push '\n' }
    else if symbol = "Backspace" ∧ modifiers = ∅ then
      pure ⟨"", String.join (graphemes i.inputBuffer).dropLast⟩
    else pure i
  | .ignore | .noSuchSymbol => pure i

/-- The cells of the VGA buffer. -/
abbrev Screen := List (List (UInt8 × UInt8))

/-- `virtual_console::VirtualConsole`. -/
structure VirtualConsole where
  output : Output
  input : Input

def VirtualConsole.new : VirtualConsole := ⟨Output.new, Input.new⟩

/-- `VirtualConsole::render`: the output with the input written after it. -/
def VirtualConsole.render (c : VirtualConsole) : Except Panic Screen :=
  renderConsole c.output c.input.bytes

/-- `Console::receive_print`, with the message received. -/
def VirtualConsole.receivePrint (c : VirtualConsole) (message : String) : Except Panic VirtualConsole := do
  let output ← c.output.writeStr message.toUTF8.data.toList
  pure { c with output }

/-- The state of `main` of the daemon. -/
structure Consoled where
  activeIndex : Nat
  consoles : Vector VirtualConsole 10
  keyboard : Keyboard
  vgaBuffer : Screen

/-- What the loop's `select!` hands over. -/
inductive ConsoledEvent
  /-- A message printed to console `c`; `select!` gives an index of `c_sub_ids`. -/
  | print (c : Fin 10) (message : String)
  /-- An event of `keyboard/event`. -/
  | key (event : Ps2.KeyboardEvent)

/-- The console a key event switches to: an unmatched key pressed with
`LeftCtrl` alone held, whose symbol parses as a `usize`. -/
def switchTo (action : EventAction) (activeIndex : Nat) : Nat :=
  match action with
  | .unmatched k mods => if mods = {"LeftCtrl"} then (parseUsize k).getD activeIndex else activeIndex
  | _ => activeIndex

/-- `main` up to its loop: ten new consoles, the keyboard, the kernel log active
and shown. -/
def Consoled.start (keycodes : KeyCodes) (keymap : KeyMap) : Except Failure Consoled := do
  let vgaBuffer ← VirtualConsole.new.render.mapError .panic
  pure ⟨0, Vector.replicate 10 VirtualConsole.new, Keyboard.new keycodes keymap, vgaBuffer⟩

/-- `consoles[active_index].device.input.keyboard_event(action)`, unless the
kernel log is the active console. -/
def handInput (nfc : String → String) (graphemes : String → List String)
    (consoles : Vector VirtualConsole 10) (activeIndex : Nat) (h : activeIndex < 10) (action : EventAction) :
    Except Panic (Vector VirtualConsole 10) :=
  if activeIndex ≠ 0 then do
    let input ← consoles[activeIndex].input.keyboardEvent nfc graphemes action
    pure (consoles.set activeIndex { consoles[activeIndex] with input })
  else pure consoles

/-- One pass of the loop of `main`. -/
def Consoled.step (nfc : String → String) (graphemes : String → List String) (st : Consoled) :
    ConsoledEvent → Except Failure Consoled
  | .print c message => do
    let console ← (st.consoles[c.val].receivePrint message).mapError .panic
    let consoles := st.consoles.set c.val console
    if c.val = st.activeIndex then
      let vgaBuffer ← console.render.mapError .panic
      pure { st with consoles, vgaBuffer }
    else pure { st with consoles }
  | .key event =>
    match st.keyboard.processEvent event with
    | none => throw .pageFault
    | some (action, keyboard) =>
      let activeIndex := switchTo action st.activeIndex
      if h : activeIndex < 10 then do
        let consoles ← (handInput nfc graphemes st.consoles activeIndex h action).mapError .panic
        let vgaBuffer ← consoles[activeIndex].render.mapError .panic
        pure ⟨activeIndex, consoles, keyboard, vgaBuffer⟩
      else throw (.panic (indexPanic 10 activeIndex))

/-- The daemon from its start through the events its loop receives. -/
def runConsoled (nfc : String → String) (graphemes : String → List String) (keycodes : KeyCodes)
    (keymap : KeyMap) (events : List ConsoledEvent) : Except Failure Consoled :=
  Consoled.start keycodes keymap >>= fun st => events.foldlM (Consoled.step nfc graphemes) st

/-! ## What a run has received -/

/-- The bytes of the messages printed to console `c`. -/
def printed (events : List ConsoledEvent) (c : Nat) : List UInt8 :=
  events.flatMap fun
    | .print c' message => if c'.val = c then message.toUTF8.data.toList else []
    | .key _ => []

/-- The keyboard events received. -/
def keyEvents (events : List ConsoledEvent) : List Ps2.KeyboardEvent :=
  events.filterMap fun
    | .key event => some event
    | .print _ _ => none

/-- The screen showing the last 25 rows of `text`. -/
def screenOf (text : List UInt8) : Screen :=
  Output.render ⟨(layout 80 text).rtake 25, 25, 80⟩

/-- **What the daemon shows after `events`**, with the key maps it started with. -/
structure Shows (keycodes : KeyCodes) (keymap : KeyMap) (events : List ConsoledEvent) (st : Consoled) :
    Prop where
  active_lt : st.activeIndex < 10
  /-- the screen: the text printed to the active console, then its pending input -/
  screen : (0 : UInt8) ∉ st.consoles[st.activeIndex].input.bytes ∧
    st.vgaBuffer = screenOf (printed events st.activeIndex ++ st.consoles[st.activeIndex].input.bytes)
  outputs : ∀ (c : Nat) (hc : c < 10),
    st.consoles[c].output = ⟨(layout 80 (printed events c)).rtake 25, 25, 80⟩
  kernel_log_input : st.consoles[0].input = Input.new
  keycodes_eq : st.keyboard.keycodes = keycodes
  keymap_eq : st.keyboard.keymap = keymap
  pressed : ∀ s, s ∈ st.keyboard.pressedModifiers ↔ HeldAfter keycodes keymap.modifiers (keyEvents events) s

/-! ## One console -/

section OneConsole

variable {text : List UInt8}

/-- A console whose output holds the last rows of `text` shows them with its
input after them, or stops at a zero byte of the input. -/
theorem render_layout (c : VirtualConsole) (hout : c.output = ⟨(layout 80 text).rtake 25, 25, 80⟩) :
    c.render = if (0 : UInt8) ∈ c.input.bytes then .error (assertFailed "byte != 0")
      else .ok (screenOf (text ++ c.input.bytes)) := by
  rw [VirtualConsole.render, renderConsole, hout, Output.writeStr_layout_eq (by decide) (by decide)]
  split <;> rfl

theorem screen_of_render {c : VirtualConsole} (hout : c.output = ⟨(layout 80 text).rtake 25, 25, 80⟩)
    {screen : Screen} (h : c.render = .ok screen) :
    (0 : UInt8) ∉ c.input.bytes ∧ screen = screenOf (text ++ c.input.bytes) := by
  rw [render_layout c hout] at h
  split at h
  · cases h
  · exact ⟨by assumption, (Except.ok.inj h).symm⟩

theorem receivePrint_layout (c : VirtualConsole) (hout : c.output = ⟨(layout 80 text).rtake 25, 25, 80⟩)
    (message : String) :
    c.receivePrint message =
      if (0 : UInt8) ∈ message.toUTF8.data.toList then .error (assertFailed "byte != 0")
      else .ok { c with output := ⟨(layout 80 (text ++ message.toUTF8.data.toList)).rtake 25, 25, 80⟩ } := by
  rw [VirtualConsole.receivePrint, hout, Output.writeStr_layout_eq (by decide) (by decide)]
  split <;> rfl

/-- The input fails only at the `unreachable!()` of a `Remap`. -/
theorem keyboardEvent_eq_error {nfc : String → String} {graphemes : String → List String} {i : Input}
    {action : EventAction} {e : Panic} (h : i.keyboardEvent nfc graphemes action = .error e) :
    ∃ target, action = .keyAction (.remap target) := by
  rcases action with (_ | _ | target | _) | ⟨symbol, modifiers⟩ | _ | _
  · cases h
  · cases h
  · exact ⟨target, rfl⟩
  · cases h
  · simp only [Input.keyboardEvent] at h
    split_ifs at h <;> cases h
  · cases h
  · cases h

section HandInput

variable {nfc : String → String} {graphemes : String → List String} {consoles consoles' : Vector VirtualConsole 10}
  {activeIndex : Nat} {hlt : activeIndex < 10} {action : EventAction}

/-- Handing the input on leaves every output as it was. -/
theorem handInput_output (h : handInput nfc graphemes consoles activeIndex hlt action = .ok consoles')
    (c : Nat) (hc : c < 10) : consoles'[c].output = consoles[c].output := by
  unfold handInput at h
  split at h
  · obtain ⟨input, -, hset⟩ := Except.bind_eq_ok.mp h
    cases hset
    rw [Vector.getElem_set]
    split
    · subst_vars
      rfl
    · rfl
  · cases h
    rfl

/-- The kernel log takes no input. -/
theorem handInput_kernel_log (h : handInput nfc graphemes consoles activeIndex hlt action = .ok consoles') :
    consoles'[0].input = consoles[0].input := by
  unfold handInput at h
  split at h
  · rename_i hne
    obtain ⟨input, -, hset⟩ := Except.bind_eq_ok.mp h
    cases hset
    rw [Vector.getElem_set_ne hlt (by decide) hne]
  · cases h
    rfl

/-- Handing the input on fails only at the `unreachable!()` of a `Remap`. -/
theorem handInput_eq_error {e : Panic} (h : handInput nfc graphemes consoles activeIndex hlt action = .error e) :
    ∃ target, action = .keyAction (.remap target) := by
  unfold handInput at h
  split at h
  · cases hi : consoles[activeIndex].input.keyboardEvent nfc graphemes action with
    | error e' => exact keyboardEvent_eq_error hi
    | ok input =>
      rw [hi] at h
      cases h
  · cases h

end HandInput

end OneConsole

/-! ## What a run has received, event by event -/

section Received

variable (events : List ConsoledEvent)

@[simp] theorem printed_nil (c : Nat) : printed [] c = [] := rfl

theorem printed_append_print (c : Fin 10) (message : String) (c' : Nat) :
    printed (events ++ [.print c message]) c' =
      printed events c' ++ if c.val = c' then message.toUTF8.data.toList else [] := by
  simp [printed]

theorem printed_append_key (event : Ps2.KeyboardEvent) (c' : Nat) :
    printed (events ++ [.key event]) c' = printed events c' := by
  simp [printed]

@[simp] theorem keyEvents_nil : keyEvents [] = [] := rfl

theorem keyEvents_append_print (c : Fin 10) (message : String) :
    keyEvents (events ++ [.print c message]) = keyEvents events := by
  simp [keyEvents]

theorem keyEvents_append_key (event : Ps2.KeyboardEvent) :
    keyEvents (events ++ [.key event]) = keyEvents events ++ [event] := by
  simp [keyEvents]

end Received

/-! ## The loop -/

section Run

variable {nfc : String → String} {graphemes : String → List String} {keycodes : KeyCodes}
  {keymap : KeyMap} {events : List ConsoledEvent} {st st' : Consoled}

/-- The switch keeps an index below 10 when the key codes name no console past
the ninth. -/
theorem switchTo_lt (hcodes : ∀ e ∈ keycodes.entries, ∀ n ∈ parseUsize e.2, n < 10)
    {kb kb' : Keyboard} {event : Ps2.KeyboardEvent} {action : EventAction}
    (hkb : kb.keycodes = keycodes) (h : kb.processEvent event = some (action, kb')) {active : Nat}
    (hactive : active < 10) : switchTo action active < 10 := by
  unfold switchTo
  split
  · rename_i k mods
    split
    · cases hp : parseUsize k with
      | none => exact hactive
      | some n =>
        have hl := processEvent_unmatched h
        rw [hkb] at hl
        exact hcodes _ (AList.mem_lookup_iff.mp hl) n hp
    · exact hactive
  · exact hactive

theorem shows_start (h : Consoled.start keycodes keymap = .ok st) : Shows keycodes keymap [] st := by
  obtain ⟨vgaBuffer, hv, hst⟩ := Except.bind_eq_ok.mp h
  cases hst
  rw [Except.mapError_eq_ok] at hv
  have hout : VirtualConsole.new.output = ⟨(layout 80 []).rtake 25, 25, 80⟩ := rfl
  obtain ⟨hz, hscreen⟩ := screen_of_render hout hv
  refine ⟨Nat.succ_pos 9, ⟨?_, ?_⟩, ?_, rfl, rfl, rfl, ?_⟩
  · simpa using hz
  · simpa using hscreen
  · intro c hc
    simp [hout]
  · intro s
    simp only [keyEvents_nil, Keyboard.new, Finset.notMem_empty, false_iff]
    exact not_heldAfter_nil

/-- A print writes the message to its console and shows it when the console is
the active one. -/
theorem Shows.print (hs : Shows keycodes keymap events st) {c : Fin 10} {message : String}
    (h : st.step nfc graphemes (.print c message) = .ok st') :
    Shows keycodes keymap (events ++ [.print c message]) st' := by
  obtain ⟨console, hc, hrest⟩ := Except.bind_eq_ok.mp h
  rw [Except.mapError_eq_ok, receivePrint_layout _ (hs.outputs c.val c.isLt)] at hc
  split at hc
  · cases hc
  have hcon := (Except.ok.inj hc).symm
  -- the console written to holds its text and the message; the others are as they were
  have houts : ∀ (c' : Nat) (hc' : c' < 10), (st.consoles.set c.val console c.isLt)[c'].output =
      ⟨(layout 80 (printed (events ++ [.print c message]) c')).rtake 25, 25, 80⟩ := by
    intro c' hc'
    rw [Vector.getElem_set, printed_append_print]
    split
    · subst_vars
      rfl
    · rw [List.append_nil, hs.outputs c' hc']
  have hinput : ∀ (c' : Nat) (hc' : c' < 10), (st.consoles.set c.val console c.isLt)[c'].input =
      st.consoles[c'].input := by
    intro c' hc'
    rw [Vector.getElem_set]
    split
    · subst_vars
      rfl
    · rfl
  dsimp only at hrest
  split at hrest
  · rename_i hactive
    obtain ⟨vgaBuffer, hv, hst⟩ := Except.bind_eq_ok.mp hrest
    cases hst
    rw [Except.mapError_eq_ok] at hv
    have hlt := hs.active_lt
    have hsame : (st.consoles.set c.val console c.isLt)[st.activeIndex] = console := by
      simp only [← hactive, Vector.getElem_set_self]
    refine ⟨hs.active_lt, ?_, houts, (hinput 0 (by decide)).trans hs.kernel_log_input, hs.keycodes_eq,
      hs.keymap_eq, ?_⟩
    · rw [hsame]
      exact screen_of_render (by rw [← hsame]; exact houts _ hs.active_lt) hv
    · rw [keyEvents_append_print]
      exact hs.pressed
  · rename_i hactive
    cases hrest
    refine ⟨hs.active_lt, ?_, houts, (hinput 0 (by decide)).trans hs.kernel_log_input, hs.keycodes_eq,
      hs.keymap_eq, ?_⟩
    · dsimp only
      rw [hinput _ hs.active_lt, printed_append_print, if_neg hactive, List.append_nil]
      exact hs.screen
    · rw [keyEvents_append_print]
      exact hs.pressed

/-- A key event goes through the keyboard, may switch consoles, reaches the
active console's input unless that is the kernel log, and shows the active
console. -/
theorem Shows.key (hs : Shows keycodes keymap events st) {event : Ps2.KeyboardEvent}
    (h : st.step nfc graphemes (.key event) = .ok st') :
    Shows keycodes keymap (events ++ [.key event]) st' := by
  simp only [Consoled.step] at h
  split at h
  · cases h
  rename_i action keyboard hpe
  obtain ⟨hkc, hkm, hpressed⟩ := processEvent_keyboard hpe
  split at h
  · rename_i hlt
    obtain ⟨consoles, hcons, h⟩ := Except.bind_eq_ok.mp h
    obtain ⟨vgaBuffer, hv, hst⟩ := Except.bind_eq_ok.mp h
    cases hst
    rw [Except.mapError_eq_ok] at hcons hv
    have houts : ∀ (c : Nat) (hc : c < 10),
        consoles[c].output = ⟨(layout 80 (printed (events ++ [.key event]) c)).rtake 25, 25, 80⟩ := by
      intro c hc
      rw [handInput_output hcons c hc, printed_append_key]
      exact hs.outputs c hc
    refine ⟨hlt, screen_of_render (houts _ hlt) hv, houts,
      (handInput_kernel_log hcons).trans hs.kernel_log_input, hkc.trans hs.keycodes_eq,
      hkm.trans hs.keymap_eq, fun s => ?_⟩
    rw [keyEvents_append_key, heldAfter_append_singleton, hpressed, ← hs.keycodes_eq, ← hs.keymap_eq]
    by_cases hl : st.keyboard.keycodes.lookup event.keycode = some s
    · by_cases hm : s ∈ st.keyboard.keymap.modifiers
      · simp [hl, hm]
      · -- a symbol that is no modifier is never held
        have hnot : s ∉ st.keyboard.pressedModifiers := fun hp =>
          hm (hs.keymap_eq ▸ ((hs.pressed s).mp hp).mem)
        simp [hl, hm, hnot]
    · simp only [hl, false_and, if_false]
      rw [hs.keycodes_eq, hs.keymap_eq]
      exact hs.pressed s
  · cases h

theorem Shows.step (hs : Shows keycodes keymap events st) {ev : ConsoledEvent}
    (h : st.step nfc graphemes ev = .ok st') : Shows keycodes keymap (events ++ [ev]) st' := by
  cases ev with
  | print c message => exact hs.print h
  | key event => exact hs.key h

/-- **How the loop stops**: at a zero byte, printed or typed, or at a key whose
remaps never end; never at an index, when the key codes name no console past the
ninth, and never at the `unreachable!()` of the input. -/
theorem Shows.step_error (hcodes : ∀ e ∈ keycodes.entries, ∀ n ∈ parseUsize e.2, n < 10)
    (hs : Shows keycodes keymap events st) {ev : ConsoledEvent} {e : Failure}
    (h : st.step nfc graphemes ev = .error e) :
    e = .panic (assertFailed "byte != 0") ∨ e = .pageFault := by
  cases ev with
  | print c message =>
    simp only [Consoled.step] at h
    rw [receivePrint_layout _ (hs.outputs c.val c.isLt)] at h
    split at h
    · cases h
      exact .inl rfl
    · rw [Except.mapError_ok, Except.ok_bind] at h
      split at h
      · rw [render_layout _ rfl] at h
        split at h
        · cases h
          exact .inl rfl
        · cases h
      · cases h
  | key event =>
    simp only [Consoled.step] at h
    split at h
    · cases h
      exact .inr rfl
    rename_i action keyboard hpe
    split at h
    · rename_i hlt
      cases hcons : handInput nfc graphemes st.consoles (switchTo action st.activeIndex) hlt action with
      | error e' =>
        obtain ⟨target, rfl⟩ := handInput_eq_error hcons
        exact absurd rfl (processEvent_ne_remap hpe target)
      | ok consoles =>
        rw [hcons, Except.mapError_ok, Except.ok_bind] at h
        rw [render_layout _ ((handInput_output hcons _ hlt).trans (hs.outputs _ hlt))] at h
        split at h
        · cases h
          exact .inl rfl
        · cases h
    · rename_i hge
      exact absurd (switchTo_lt hcodes hs.keycodes_eq hpe hs.active_lt) hge

theorem runConsoled_append (ev : ConsoledEvent) :
    runConsoled nfc graphemes keycodes keymap (events ++ [ev]) =
      runConsoled nfc graphemes keycodes keymap events >>= fun st => st.step nfc graphemes ev := by
  simp only [runConsoled, List.foldlM_append, List.foldlM_cons, List.foldlM_nil, bind_pure, bind_assoc]

end Run

/-- **The screen shows the active console.** Over every run of the daemon, in
any interleaving of prints and key events: the screen shows the last 25 rows of
all the text printed to the active console followed by its pending input, every
console holds the last rows of the text printed to it, the kernel log takes no
input, and the pressed modifiers are those whose last event was a press. With
key codes that name no console past the ninth (as `keycodes.json` does), the
daemon stops only at a zero byte, printed or typed, or at a key whose chain of
remaps never ends. -/
theorem consoled_shows_active_console (nfc : String → String) (graphemes : String → List String)
    (keycodes : KeyCodes) (keymap : KeyMap) (hcodes : ∀ e ∈ keycodes.entries, ∀ n ∈ parseUsize e.2, n < 10)
    (events : List ConsoledEvent) :
    (∀ st, runConsoled nfc graphemes keycodes keymap events = .ok st → Shows keycodes keymap events st) ∧
    (∀ e, runConsoled nfc graphemes keycodes keymap events = .error e →
      e = .panic (assertFailed "byte != 0") ∨ e = .pageFault) := by
  induction events using List.reverseRecOn with
  | nil =>
    refine ⟨fun st h => shows_start ?_, fun e h => ?_⟩
    · simpa [runConsoled] using h
    · -- the start renders an empty console
      have hstart : Consoled.start keycodes keymap =
          .ok ⟨0, Vector.replicate 10 VirtualConsole.new, Keyboard.new keycodes keymap, screenOf []⟩ := rfl
      simp [runConsoled, hstart] at h
  | append_singleton events ev ih =>
    rw [runConsoled_append]
    cases hrun : runConsoled nfc graphemes keycodes keymap events with
    | error e' =>
      rw [Except.error_bind]
      refine ⟨fun st h => ?_, fun e h => ?_⟩
      · cases h
      · cases h
        exact ih.2 e' hrun
    | ok st =>
      rw [Except.ok_bind]
      have hs := ih.1 st hrun
      exact ⟨fun st' h => hs.step h, fun e h => hs.step_error hcodes h⟩

/-! ## The shipped key codes -/

/-- `build_config/files/keycodes.json`, as `serde_json` reads it into the map (its
keys are distinct). -/
def keycodesJson : KeyCodes :=
  List.toAList [
    ⟨5, "F1"⟩, ⟨6, "F2"⟩, ⟨4, "F3"⟩, ⟨12, "F4"⟩, ⟨3, "F5"⟩,
    ⟨11, "F6"⟩, ⟨10, "F8"⟩, ⟨1, "F9"⟩, ⟨9, "F10"⟩, ⟨120, "F11"⟩,
    ⟨7, "F12"⟩, ⟨13, "Tab"⟩, ⟨14, "Acute"⟩, ⟨17, "LeftAlt"⟩, ⟨18, "LeftShift"⟩,
    ⟨20, "LeftCtrl"⟩, ⟨69, "0"⟩, ⟨22, "1"⟩, ⟨30, "2"⟩, ⟨38, "3"⟩,
    ⟨37, "4"⟩, ⟨46, "5"⟩, ⟨54, "6"⟩, ⟨61, "7"⟩, ⟨62, "8"⟩,
    ⟨70, "9"⟩, ⟨28, "A"⟩, ⟨50, "B"⟩, ⟨33, "C"⟩, ⟨35, "D"⟩,
    ⟨36, "E"⟩, ⟨43, "F"⟩, ⟨52, "G"⟩, ⟨51, "H"⟩, ⟨67, "I"⟩,
    ⟨59, "J"⟩, ⟨66, "K"⟩, ⟨75, "L"⟩, ⟨58, "M"⟩, ⟨49, "N"⟩,
    ⟨68, "O"⟩, ⟨77, "P"⟩, ⟨21, "Q"⟩, ⟨45, "R"⟩, ⟨27, "S"⟩,
    ⟨44, "T"⟩, ⟨60, "U"⟩, ⟨42, "V"⟩, ⟨29, "W"⟩, ⟨34, "X"⟩,
    ⟨53, "Y"⟩, ⟨26, "Z"⟩, ⟨41, "Space"⟩, ⟨65, "Comma"⟩, ⟨73, "Period"⟩,
    ⟨74, "Slash"⟩, ⟨76, "Semicolon"⟩, ⟨78, "Minus"⟩, ⟨82, "Singlequote"⟩, ⟨84, "LeftBracket"⟩,
    ⟨85, "Equals"⟩, ⟨88, "CapsLock"⟩, ⟨89, "RightShift"⟩, ⟨90, "Enter"⟩, ⟨91, "RightBracket"⟩,
    ⟨93, "Backslash"⟩, ⟨102, "Backspace"⟩, ⟨105, "Keypad_1"⟩, ⟨107, "Keypad_4"⟩, ⟨108, "Keypad_7"⟩,
    ⟨112, "Keypad_0"⟩, ⟨113, "Keypad_Period"⟩, ⟨114, "Keypad_2"⟩, ⟨115, "Keypad_5"⟩, ⟨116, "Keypad_6"⟩,
    ⟨117, "Keypad_8"⟩, ⟨118, "Escape"⟩, ⟨119, "NumberLock"⟩, ⟨121, "Keypad_Plus"⟩, ⟨122, "Keypad_3"⟩,
    ⟨123, "Keypad_Minus"⟩, ⟨124, "Keypad_Multiply"⟩, ⟨125, "Keypad_9"⟩, ⟨126, "ScrollLock"⟩, ⟨131, "F7"⟩,
    ⟨272, "Multimedia_WWW_Search"⟩, ⟨273, "RightAlt"⟩, ⟨276, "RightCtrl"⟩, ⟨277, "Multimedia_PreviousTrack"⟩, ⟨280, "Multimedia_WWW_Favourites"⟩,
    ⟨287, "GUI_Left"⟩, ⟨288, "Multimedia_WWW_Refresh"⟩, ⟨289, "Multimedia_VolumeDown"⟩, ⟨291, "Multimedia_Mute"⟩, ⟨295, "GUI_Right"⟩,
    ⟨296, "Multimedia_WWW_Stop"⟩, ⟨299, "Multimedia_Calculator"⟩, ⟨303, "Apps"⟩, ⟨304, "Multimedia_WWW_Forward"⟩, ⟨306, "Multimedia_VolumeUp"⟩,
    ⟨308, "Multimedia_PlayPause"⟩, ⟨311, "ACPI_Power"⟩, ⟨312, "Multimedia_WWW_Back"⟩, ⟨314, "Multimedia_WWW_Home"⟩, ⟨315, "Multimedia_Stop"⟩,
    ⟨319, "ACPI_Sleep"⟩, ⟨320, "Multimedia_My_Computer"⟩, ⟨328, "Multimedia_Email"⟩, ⟨330, "Keypad_Divide"⟩, ⟨333, "Multimedia_NextTrack"⟩,
    ⟨336, "Multimedia_MediaSelect"⟩, ⟨346, "Keypad_Enter"⟩, ⟨350, "ACPI_Wake"⟩, ⟨361, "End"⟩, ⟨363, "CursorLeft"⟩,
    ⟨364, "Home"⟩, ⟨368, "Insert"⟩, ⟨369, "Delete"⟩, ⟨370, "CursorDown"⟩, ⟨372, "CursorRight"⟩,
    ⟨373, "CursorUp"⟩, ⟨378, "PageDown"⟩, ⟨381, "PageUp"⟩]

/-- With the key codes of `keycodes.json`, whose numeric symbols are `0` to `9`:
`LeftCtrl` held, then `3` pressed, then a print to console 3. -/
theorem consoled_shows_active_console_shipped :
    (∀ e ∈ keycodesJson.entries, ∀ n ∈ parseUsize e.2, n < 10) ∧
      let keymap : KeyMap := ⟨{"LeftCtrl"}, ∅⟩
      let events := [ConsoledEvent.key ⟨false, 20⟩, .key ⟨false, 38⟩, .print 3 "hi"]
      (∀ st, runConsoled id (fun s => s.toList.map toString) keycodesJson keymap events = .ok st →
        Shows keycodesJson keymap events st) ∧
      (∀ e, runConsoled id (fun s => s.toList.map toString) keycodesJson keymap events = .error e →
        e = .panic (assertFailed "byte != 0") ∨ e = .pageFault) := by
  have hcodes : ∀ e ∈ keycodesJson.entries, ∀ n ∈ parseUsize e.2, n < 10 := by decide +kernel
  exact ⟨hcodes, consoled_shows_active_console _ _ _ _ hcodes _⟩

end Console

end D7os
