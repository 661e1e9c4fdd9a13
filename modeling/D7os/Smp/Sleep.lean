import D7os.Boot.InitrdAddress
import D7os.Multitasking.WaitFor

/-!
# Nanoseconds to ticks

`src/smp/sleep.rs`: `ns_to_ticks` turns a duration into ticks at the rate
`freq_hz()`, and `BSPInstant::add_ns` (`src/time.rs`) adds it to a timestamp. It
picks the precision by the duration: full up to 1 ms, microseconds up to 1 s,
above that milliseconds times the rate in kHz; a product past `u64::MAX` panics.

Below one year and up to 10 GHz no product overflows (`nsToTicks_ok`), and within
a branch the result grows with the duration (`nsToTicks_mono_of_le`). Across 1 s
it does not: the top branch drops the rate's last three digits, so one more
nanosecond than a second gives fewer ticks than the second, and `add_ns` an
earlier deadline (`addNs_second_boundary`).
-/

namespace D7os

/-- One year in nanoseconds, the bound `ns_to_ticks` asserts. -/
def YEAR_NS : Nat := 365 * 24 * 60 * 60 * 1_000_000_000

/-- `a * b` in `u64` with overflow checks. -/
def mulU64 (a b : Nat) : Except Panic Nat :=
  if UInt64.size ≤ a * b then .error mulOverflow else .ok (a * b)

/-- `ns_to_ticks(ns)` at the rate `freq_hz()`. -/
def nsToTicks (freqHz ns : Nat) : Except Panic Nat :=
  if ¬ ns < YEAR_NS then .error "Deadlines beyond one year are not allowed"
  else if ns > 1_000_000_000 then
    -- over one second: millisecond accuracy
    mulU64 (ns / 1_000_000) (freqHz / 1_000)
  else if ns > 1_000_000 then
    -- over one millisecond: microsecond accuracy
    (mulU64 (ns / 1_000) freqHz).map (· / 1_000_000)
  else (mulU64 ns freqHz).map (· / 1_000_000_000)

/-- `ticks_to_ns(ticks)` at the rate `freq_hz()`. -/
def ticksToNs (freqHz ticks : Nat) : Except Panic Nat :=
  if ¬ ticks < (UInt64.size - 1) / 1_000_000 then .error "assertion failed: ticks < u64::MAX / 1_000_000"
  else if freqHz / 1_000 = 0 then .error "attempt to divide by zero"
  else .ok (ticks * 1_000_000 / (freqHz / 1_000))

/-- `BSPInstant::add_ns`: the deadline `ns` after `self`. -/
def BSPInstant.addNs (self : BSPInstant) (freqHz ns : Nat) : Except Panic BSPInstant := do
  let ticks ← nsToTicks freqHz ns
  if UInt64.size ≤ self.tsc + ticks then throw addOverflow
  pure ⟨self.tsc + ticks⟩

/-! ## The three branches -/

section Branches

variable {freqHz ns : Nat}

theorem mulU64_of_lt {a b : Nat} (h : a * b < UInt64.size) : mulU64 a b = .ok (a * b) := by
  rw [mulU64, if_neg (Nat.not_le.mpr h)]

/-- Over one second: milliseconds times kilohertz. -/
theorem nsToTicks_of_gt_second (hf : freqHz ≤ 10_000_000_000) (hns : ns < YEAR_NS)
    (h : ns > 1_000_000_000) : nsToTicks freqHz ns = .ok (ns / 1_000_000 * (freqHz / 1_000)) := by
  have hprod : ns / 1_000_000 * (freqHz / 1_000) < UInt64.size := by
    have hms : ns / 1_000_000 ≤ YEAR_NS / 1_000_000 := Nat.div_le_div_right hns.le
    have hkhz : freqHz / 1_000 ≤ 10_000_000 := by omega
    calc ns / 1_000_000 * (freqHz / 1_000) ≤ YEAR_NS / 1_000_000 * 10_000_000 :=
          Nat.mul_le_mul hms hkhz
      _ < UInt64.size := by decide
  rw [nsToTicks, if_neg (not_not.mpr hns), if_pos h, mulU64_of_lt hprod]

/-- Over one millisecond up to one second: microseconds times the rate, in millionths. -/
theorem nsToTicks_of_gt_milli (hf : freqHz ≤ 10_000_000_000) (hns : ns < YEAR_NS)
    (h₁ : ¬ ns > 1_000_000_000) (h₂ : ns > 1_000_000) :
    nsToTicks freqHz ns = .ok (ns / 1_000 * freqHz / 1_000_000) := by
  have hprod : ns / 1_000 * freqHz < UInt64.size := by
    have hus : ns / 1_000 ≤ 1_000_000 := by omega
    calc ns / 1_000 * freqHz ≤ 1_000_000 * 10_000_000_000 := Nat.mul_le_mul hus hf
      _ < UInt64.size := by decide
  rw [nsToTicks, if_neg (not_not.mpr hns), if_neg h₁, if_pos h₂, mulU64_of_lt hprod]
  rfl

/-- Up to one millisecond: full precision. -/
theorem nsToTicks_of_le_milli (hf : freqHz ≤ 10_000_000_000) (h : ¬ ns > 1_000_000) :
    nsToTicks freqHz ns = .ok (ns * freqHz / 1_000_000_000) := by
  have hns : ns < YEAR_NS := lt_of_le_of_lt (Nat.le_of_not_gt h) (by decide)
  have hprod : ns * freqHz < UInt64.size :=
    calc ns * freqHz ≤ 1_000_000 * 10_000_000_000 := Nat.mul_le_mul (Nat.le_of_not_gt h) hf
      _ < UInt64.size := by decide
  rw [nsToTicks, if_neg (not_not.mpr hns), if_neg (by omega), if_neg h, mulU64_of_lt hprod]
  rfl

/-- **No overflow.** Below one year and up to 10 GHz `ns_to_ticks` returns. -/
theorem nsToTicks_ok (hf : freqHz ≤ 10_000_000_000) (hns : ns < YEAR_NS) :
    ∃ ticks, nsToTicks freqHz ns = .ok ticks := by
  by_cases h₁ : ns > 1_000_000_000
  · exact ⟨_, nsToTicks_of_gt_second hf hns h₁⟩
  · by_cases h₂ : ns > 1_000_000
    · exact ⟨_, nsToTicks_of_gt_milli hf hns h₁ h₂⟩
    · exact ⟨_, nsToTicks_of_le_milli hf h₂⟩

/-- Which precision `ns_to_ticks` uses for a duration. -/
def branch (ns : Nat) : Nat :=
  if ns > 1_000_000_000 then 2 else if ns > 1_000_000 then 1 else 0

/-- **Each branch is monotone**: of two durations in the same branch, the longer
gets at least as many ticks. -/
theorem nsToTicks_mono_of_le {ns' t t' : Nat} (hle : ns ≤ ns') (hb : branch ns = branch ns')
    (hf : freqHz ≤ 10_000_000_000) (hns' : ns' < YEAR_NS) (ht : nsToTicks freqHz ns = .ok t)
    (ht' : nsToTicks freqHz ns' = .ok t') : t ≤ t' := by
  have hns : ns < YEAR_NS := lt_of_le_of_lt hle hns'
  unfold branch at hb
  by_cases h₁ : ns > 1_000_000_000
  case pos =>
    have h₁' : ns' > 1_000_000_000 := by omega
    rw [nsToTicks_of_gt_second hf hns h₁] at ht
    rw [nsToTicks_of_gt_second hf hns' h₁'] at ht'
    cases ht
    cases ht'
    exact Nat.mul_le_mul_right _ (Nat.div_le_div_right hle)
  case neg =>
    by_cases h₂ : ns > 1_000_000
    case pos =>
      have h₁' : ¬ ns' > 1_000_000_000 := by
        intro h'
        rw [if_neg h₁, if_pos h₂, if_pos h'] at hb
        cases hb
      have h₂' : ns' > 1_000_000 := by omega
      rw [nsToTicks_of_gt_milli hf hns h₁ h₂] at ht
      rw [nsToTicks_of_gt_milli hf hns' h₁' h₂'] at ht'
      cases ht
      cases ht'
      exact Nat.div_le_div_right (Nat.mul_le_mul_right _ (Nat.div_le_div_right hle))
    case neg =>
      have h₂' : ¬ ns' > 1_000_000 := by
        intro h'
        rw [if_neg h₁, if_neg h₂] at hb
        split_ifs at hb
      rw [nsToTicks_of_le_milli hf h₂] at ht
      rw [nsToTicks_of_le_milli hf h₂'] at ht'
      cases ht
      cases ht'
      exact Nat.div_le_div_right (Nat.mul_le_mul_right _ hle)

end Branches

/-! ## Across the second -/

/-- **One nanosecond more than a second gives fewer ticks**, at every rate that
is no multiple of 1 kHz: the second itself counts the full rate, the next
nanosecond only its whole kilohertz. -/
theorem nsToTicks_second_boundary {freqHz : Nat} (hf : freqHz ≤ 10_000_000_000)
    (hk : freqHz % 1_000 ≠ 0) :
    nsToTicks freqHz 1_000_000_000 = .ok freqHz ∧
      nsToTicks freqHz 1_000_000_001 = .ok (1_000 * (freqHz / 1_000)) ∧
      1_000 * (freqHz / 1_000) < freqHz := by
  refine ⟨?_, ?_, by omega⟩
  · rw [nsToTicks_of_gt_milli hf (by decide) (by decide) (by decide)]
    congr 1
    omega
  · exact nsToTicks_of_gt_second hf (by decide) (by decide)

/-- **Long durations lose the rate's last digits per millisecond.** Ten million
seconds at a rate that is no multiple of 1 kHz come out at least ten million
ticks short of the exact count, more than a thousandth of any rate up to 10 GHz. -/
theorem nsToTicks_error_ten_million_seconds {freqHz : Nat} (hf : freqHz ≤ 10_000_000_000)
    (hk : freqHz % 1_000 ≠ 0) :
    ∃ ticks, nsToTicks freqHz 10_000_000_000_000_000 = .ok ticks ∧
      freqHz / 1_000 < 10_000_000_000_000_000 * freqHz / 1_000_000_000 - ticks := by
  refine ⟨_, nsToTicks_of_gt_second hf (by decide) (by decide), ?_⟩
  omega

/-- **`ns_to_ticks` is not monotone, and its error is not within a millisecond of
ticks.** It never overflows below one year and 10 GHz, but at every rate up to
10 GHz that is no multiple of 1 kHz a duration of one second and one
nanosecond gets fewer ticks than one second, and ten million seconds miss the
exact tick count by more than `freq_hz / 1000`. -/
theorem ns_to_ticks_not_monotone :
    (∀ freqHz ns : Nat, freqHz ≤ 10_000_000_000 → ns < YEAR_NS → ∃ ticks, nsToTicks freqHz ns = .ok ticks) ∧
    ∀ freqHz : Nat, freqHz ≤ 10_000_000_000 → freqHz % 1_000 ≠ 0 →
      (∃ a b, nsToTicks freqHz 1_000_000_000 = .ok a ∧ nsToTicks freqHz 1_000_000_001 = .ok b ∧ b < a) ∧
      ∃ ticks, nsToTicks freqHz 10_000_000_000_000_000 = .ok ticks ∧
        freqHz / 1_000 < 10_000_000_000_000_000 * freqHz / 1_000_000_000 - ticks := by
  refine ⟨fun _ _ hf hns => nsToTicks_ok hf hns, fun freqHz hf hk => ⟨?_, nsToTicks_error_ten_million_seconds hf hk⟩⟩
  obtain ⟨ha, hb, hlt⟩ := nsToTicks_second_boundary hf hk
  exact ⟨_, _, ha, hb, hlt⟩

/-- A sleep one nanosecond longer than a second gets the earlier deadline. -/
theorem addNs_second_boundary {freqHz : Nat} (hf : freqHz ≤ 10_000_000_000) (hk : freqHz % 1_000 ≠ 0)
    (now : BSPInstant) (hnow : now.tsc + freqHz < UInt64.size) :
    ∃ d d', now.addNs freqHz 1_000_000_000 = .ok d ∧ now.addNs freqHz 1_000_000_001 = .ok d' ∧ d' < d := by
  obtain ⟨ha, hb, hlt⟩ := nsToTicks_second_boundary hf hk
  refine ⟨⟨now.tsc + freqHz⟩, ⟨now.tsc + 1_000 * (freqHz / 1_000)⟩, ?_, ?_, ?_⟩
  · rw [BSPInstant.addNs, ha, Except.ok_bind, if_neg (Nat.not_le.mpr hnow)]
    rfl
  · rw [BSPInstant.addNs, hb, Except.ok_bind, if_neg (by omega)]
    rfl
  · show now.tsc + 1_000 * (freqHz / 1_000) < now.tsc + freqHz
    omega

/-- At 1 000 999 Hz from time 0: the second's sleep ends at tick 1 000 999, the
longer one at tick 1 000 000. -/
theorem addNs_second_boundary_at_1000999_hz :
    1_000_999 ≤ 10_000_000_000 ∧ 1_000_999 % 1_000 ≠ 0 ∧ (⟨0⟩ : BSPInstant).tsc + 1_000_999 < UInt64.size ∧
      ∃ d d', (⟨0⟩ : BSPInstant).addNs 1_000_999 1_000_000_000 = .ok d ∧
        (⟨0⟩ : BSPInstant).addNs 1_000_999 1_000_000_001 = .ok d' ∧ d' < d :=
  ⟨by decide, by decide, by decide, addNs_second_boundary (by decide) (by decide) ⟨0⟩ (by decide)⟩

end D7os
