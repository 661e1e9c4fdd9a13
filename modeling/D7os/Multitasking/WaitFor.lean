import Mathlib.Data.List.AList

/-!
# Identifiers and wait conditions

`src/multitasking/waitfor.rs`, with the identifier types it shares with the IPC
code: `ProcessId` (`d7abi::process`), `ExplicitEventId` and the TSC timestamp
`BSPInstant` (`src/time.rs`). Counters that would need 2^64 increments to
overflow are natural numbers here.

`WaitFor` is the scheduling condition a process blocks on; `reduce` merges the
time conditions of a `FirstOf` into the earliest one and panics on the two shapes
the scheduler rejects (`None` or a nested `FirstOf` inside `FirstOf`). Panics are
modelled as `Except.error` with the message of the code.
-/

namespace D7os

/-- A kernel panic, with its message. -/
abbrev Panic := String

/-- `hashbrown::HashMap<K, V>`, iterated in the order of its entries. -/
abbrev HashMap (K V : Type) := AList (fun _ : K => V)

/-- `ProcessId(NonZeroU64)`. -/
structure ProcessId where
  val : Nat
  deriving DecidableEq, Repr

/-- `ProcessId::first`. -/
def ProcessId.first : ProcessId := ⟨1⟩

/-- `ProcessId::next`. -/
def ProcessId.next (p : ProcessId) : ProcessId := ⟨p.val + 1⟩

/-- `ExplicitEventId(u64)`, drawn from the global counter `NEXT_EVENT`. -/
structure ExplicitEventId where
  val : Nat
  deriving DecidableEq, Repr

/-- `WaitFor::new_event_id`: the value of `NEXT_EVENT` before the increment. -/
def newEventId (nextEvent : Nat) : ExplicitEventId × Nat :=
  (⟨nextEvent⟩, nextEvent + 1)

/-- `BSPInstant(u64)`, a TSC timestamp of the bootstrap core. -/
structure BSPInstant where
  tsc : Nat
  deriving DecidableEq, Repr

instance : LT BSPInstant := ⟨fun a b => a.tsc < b.tsc⟩
instance : LE BSPInstant := ⟨fun a b => a.tsc ≤ b.tsc⟩
instance (a b : BSPInstant) : Decidable (a < b) := inferInstanceAs (Decidable (a.tsc < b.tsc))
instance (a b : BSPInstant) : Decidable (a ≤ b) := inferInstanceAs (Decidable (a.tsc ≤ b.tsc))

theorem BSPInstant.le_refl (a : BSPInstant) : a ≤ a := Nat.le_refl a.tsc

theorem BSPInstant.le_trans {a b c : BSPInstant} (hab : a ≤ b) (hbc : b ≤ c) : a ≤ c := Nat.le_trans hab hbc

theorem BSPInstant.not_lt {a b : BSPInstant} : ¬ a < b ↔ b ≤ a := Nat.not_lt

theorem BSPInstant.not_le {a b : BSPInstant} : ¬ a ≤ b ↔ b < a := Nat.not_le

/-- `enum WaitFor`. -/
inductive WaitFor
  | None
  | Time (instant : BSPInstant)
  | Process (pid : ProcessId)
  | Event (event : ExplicitEventId)
  | FirstOf (targets : List WaitFor)
  deriving Repr

/-- `w == WaitFor::None`. -/
def WaitFor.isNone : WaitFor → Bool
  | .None => true
  | _ => false

/-- The loop of `WaitFor::reduce` over the members of a `FirstOf`: the non-time
members in order, and the earliest time seen. -/
def reduceLoop : List WaitFor → List WaitFor → Option BSPInstant →
    Except Panic (List WaitFor × Option BSPInstant)
  | [], acc, earliest => .ok (acc, earliest)
  | .None :: _, _, _ => .error "None in FirstOf"
  | .Time instant :: rest, acc, earliest =>
    reduceLoop rest acc (match earliest with
      | some e => if instant < e then some instant else some e
      | none => some instant)
  | .FirstOf _ :: _, _, _ => .error "NESTED FirstOf in reduce"
  | other :: rest, acc, earliest => reduceLoop rest (acc ++ [other]) earliest

/-- `WaitFor::reduce`. -/
def WaitFor.reduce : WaitFor → Except Panic WaitFor
  | .FirstOf subevents => do
    let (newSe, earliest) ← reduceLoop subevents [] none
    let newSe := match earliest with
      | some e => newSe ++ [.Time e]
      | none => newSe
    pure (match newSe with
      | [] => .None
      | [w] => w
      | _ => .FirstOf newSe)
  | other => .ok other

end D7os
