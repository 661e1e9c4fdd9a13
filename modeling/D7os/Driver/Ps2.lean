import Mathlib.Data.List.Basic

/-!
# The PS/2 keyboard decoder

`modules/driver_ps2/src/state.rs` and `keyboard.rs`. In scan code set 2 a key
transition is its make code, preceded by `E0` for a key of the extended set and
by `F0` for a release. The driver keeps two flags, one per prefix; a make code
takes both into a `KeyboardEvent` and clears them, and an error byte (`00` or
`FF`) clears them as well. Acknowledgements (`FA`) and echoes (`EE`) of the
controller are no key data and are dropped before the decoder.

The keyboard's side is `ScanCode`: a transition whose make code is none of the
bytes the protocol reserves, with the bytes it is sent as. The driver publishes
exactly the events of the transitions it is sent, and after an error byte it
is back in step whatever came before.
-/

namespace D7os

namespace Ps2

def RELEASED : UInt8 := 0xf0
def ALTERNATIVE : UInt8 := 0xe0
def ERROR_0 : UInt8 := 0x00
def ERROR_1 : UInt8 := 0xff

/-- `KeyboardEvent` of the keyboard protocol; the key code is the make code,
plus `0x100` for the extended set. -/
structure KeyboardEvent where
  release : Bool
  keycode : UInt16
  deriving DecidableEq, Repr

structure KeyboardState where
  /-- Next keypress is a release -/
  nextIsRelease : Bool
  /-- Next keypress from alternative set -/
  nextIsAlternative : Bool
  deriving DecidableEq, Repr

namespace KeyboardState

def new : KeyboardState := ⟨false, false⟩

def apply (s : KeyboardState) (byte : UInt8) : KeyboardState × Option KeyboardEvent :=
  if byte = RELEASED then ({ s with nextIsRelease := true }, none)
  else if byte = ALTERNATIVE then ({ s with nextIsAlternative := true }, none)
  else if byte = ERROR_0 ∨ byte = ERROR_1 then (⟨false, false⟩, none)
  else
    let keycode := byte.toUInt16 ||| ((if s.nextIsAlternative then 1 else 0 : UInt16) <<< 8)
    (⟨false, false⟩, some ⟨s.nextIsRelease, keycode⟩)

end KeyboardState

/-- `Keyboard::notify`. -/
def notify (state : KeyboardState) (byte : UInt8) : KeyboardState × Option KeyboardEvent :=
  if byte = 0xFA ∨ byte = 0xEE then (state, none) else state.apply byte

/-- The driver's main loop: every byte of `irq/keyboard` goes through `notify`,
and every event it returns is published on `keyboard/event`. -/
def publishEvents (state : KeyboardState) : List UInt8 → KeyboardState × List KeyboardEvent
  | [] => (state, [])
  | byte :: bytes =>
    let (state, event) := notify state byte
    let (state, events) := publishEvents state bytes
    (state, event.toList ++ events)

/-! ## Scan code set 2 -/

/-- The bytes a key code may not be: the two prefixes, the two error bytes, and
the controller's acknowledgement and echo. -/
def reservedBytes : List UInt8 := [RELEASED, ALTERNATIVE, ERROR_0, ERROR_1, 0xFA, 0xEE]

/-- A key transition as a keyboard sends it. -/
structure ScanCode where
  release : Bool
  extended : Bool
  code : UInt8
  code_ok : code ∉ reservedBytes

namespace ScanCode

/-- The bytes on the wire: `E0` for the extended set, `F0` for a release, then the make code. -/
def bytes (k : ScanCode) : List UInt8 :=
  (if k.extended then [ALTERNATIVE] else []) ++ (if k.release then [RELEASED] else []) ++ [k.code]

def event (k : ScanCode) : KeyboardEvent :=
  ⟨k.release, k.code.toUInt16 + if k.extended then 0x100 else 0⟩

end ScanCode

def encodeKeys (keys : List ScanCode) : List UInt8 := keys.flatMap ScanCode.bytes

@[simp] theorem encodeKeys_nil : encodeKeys [] = [] := rfl

@[simp] theorem encodeKeys_cons (k : ScanCode) (keys : List ScanCode) :
    encodeKeys (k :: keys) = k.bytes ++ encodeKeys keys := rfl

/-! ## The decoder -/

section Decoder

variable (state : KeyboardState)

theorem notify_released : notify state RELEASED = ({ state with nextIsRelease := true }, none) := rfl

theorem notify_alternative : notify state ALTERNATIVE = ({ state with nextIsAlternative := true }, none) := rfl

theorem notify_error_0 : notify state ERROR_0 = (KeyboardState.new, none) := rfl

theorem notify_error_1 : notify state ERROR_1 = (KeyboardState.new, none) := rfl

theorem toUInt16_or_alternative (b : UInt8) (alt : Bool) :
    b.toUInt16 ||| ((if alt then 1 else 0 : UInt16) <<< 8) = b.toUInt16 + if alt then 0x100 else 0 := by
  cases alt
  · simp
  · apply UInt16.toNat_inj.mp
    have hb : b.toNat < 2 ^ 8 := b.toNat_lt
    rw [UInt16.toNat_or, UInt16.toNat_add]
    simp only [UInt8.toNat_toUInt16, if_true]
    rw [show (((1 : UInt16) <<< 8).toNat) = 2 ^ 8 from rfl, Nat.or_two_pow_eq_add_of_lt hb]
    simp only [UInt16.reduceToNat]
    omega

/-- A make code takes the flags into its event and leaves the decoder reset. -/
theorem notify_code {byte : UInt8} (h : byte ∉ reservedBytes) :
    notify state byte = (KeyboardState.new,
      some ⟨state.nextIsRelease, byte.toUInt16 + if state.nextIsAlternative then 0x100 else 0⟩) := by
  simp only [reservedBytes, List.mem_cons, List.not_mem_nil, or_false, not_or] at h
  obtain ⟨h₁, h₂, h₃, h₄, h₅, h₆⟩ := h
  rw [notify, if_neg (by tauto), KeyboardState.apply, if_neg h₁, if_neg h₂, if_neg (by tauto),
    toUInt16_or_alternative]
  rfl

theorem publishEvents_append (bytes more : List UInt8) :
    publishEvents state (bytes ++ more) =
      ((publishEvents (publishEvents state bytes).1 more).1,
        (publishEvents state bytes).2 ++ (publishEvents (publishEvents state bytes).1 more).2) := by
  induction bytes generalizing state with
  | nil => rfl
  | cons byte bytes ih =>
    simp only [List.cons_append, publishEvents, ih, List.append_assoc]

end Decoder

/-- One key transition, sent to a reset decoder, is published as its event. -/
theorem publishEvents_bytes (k : ScanCode) :
    publishEvents KeyboardState.new k.bytes = (KeyboardState.new, [k.event]) := by
  obtain ⟨release, extended, code, hcode⟩ := k
  cases release <;> cases extended <;>
    simp only [ScanCode.bytes, ScanCode.event, Bool.false_eq_true, if_true, if_false, List.nil_append,
      List.cons_append, publishEvents, notify_alternative, notify_released, notify_code _ hcode] <;> rfl

/-- A reset decoder publishes the events of the transitions it is sent, and is
reset again after them. -/
theorem publishEvents_encodeKeys (keys : List ScanCode) :
    publishEvents KeyboardState.new (encodeKeys keys) = (KeyboardState.new, keys.map ScanCode.event) := by
  induction keys with
  | nil => rfl
  | cons k keys ih =>
    rw [encodeKeys_cons, publishEvents_append, publishEvents_bytes]
    dsimp only
    rw [ih]
    rfl

/-- **The driver decodes scan code set 2.** The transitions a keyboard sends are
published as their events, in order, with no event more or less; and after an
error byte the driver publishes the events of what follows, whatever bytes came
before it. -/
theorem ps2_driver_decodes_scan_codes (state : KeyboardState) (noise : List UInt8) (keys : List ScanCode)
    {err : UInt8} (herr : err = ERROR_0 ∨ err = ERROR_1) :
    (publishEvents KeyboardState.new (encodeKeys keys)).2 = keys.map ScanCode.event ∧
      (publishEvents state (noise ++ err :: encodeKeys keys)).2 =
        (publishEvents state noise).2 ++ keys.map ScanCode.event := by
  have hreset : notify (publishEvents state noise).1 err = (KeyboardState.new, none) := by
    rcases herr with rfl | rfl
    · exact notify_error_0 _
    · exact notify_error_1 _
  constructor
  · rw [publishEvents_encodeKeys]
  · rw [publishEvents_append, publishEvents, hreset]
    dsimp only
    rw [publishEvents_encodeKeys]
    rfl

/-- Print Screen (`E0 12 E0 7C`) after a dangling release prefix and a buffer
overrun byte `FF`: the prefix is forgotten, and both extended presses come out. -/
theorem ps2_driver_resyncs_print_screen :
    (publishEvents KeyboardState.new
        ([ALTERNATIVE, RELEASED] ++ ERROR_1 :: encodeKeys [⟨false, true, 0x12, by decide⟩, ⟨false, true, 0x7C, by decide⟩])).2 =
      [⟨false, 0x112⟩, ⟨false, 0x17C⟩] := by
  rw [(ps2_driver_decodes_scan_codes KeyboardState.new [ALTERNATIVE, RELEASED]
    [⟨false, true, 0x12, by decide⟩, ⟨false, true, 0x7C, by decide⟩] (Or.inr rfl)).2]
  decide

end Ps2

end D7os
