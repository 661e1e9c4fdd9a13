import Mathlib.Data.Nat.Bitwise

/-!
# Rounding down by a mask

Aligning an address down to a power of two `2 ^ n` is written in machine code as
`x & !(2 ^ n - 1)`. In a word of `n + k` bits the complement of `2 ^ n - 1` is
`(2 ^ k - 1) * 2 ^ n`: its low `n` bits clear and the next `k` set. The mask keeps
the bits of `x` from `n` to `n + k`, which is the word's value of `x` rounded down
to a multiple of `2 ^ n`.
-/

namespace Nat

/-- **A mask of high bits rounds down.** -/
theorem land_mul_two_pow_sub_one (x n k : ℕ) :
    x &&& (2 ^ k - 1) * 2 ^ n = x % 2 ^ (n + k) / 2 ^ n * 2 ^ n := by
  apply Nat.eq_of_testBit_eq
  intro i
  rw [testBit_and, testBit_mul_two_pow, testBit_mul_two_pow, testBit_two_pow_sub_one,
    testBit_div_two_pow, testBit_mod_two_pow]
  by_cases hi : n ≤ i
  · have hin : i - n + n = i := Nat.sub_add_cancel hi
    simp only [hi, hin, decide_true, Bool.true_and]
    cases x.testBit i <;> simp
    omega
  · simp [hi]

/-- A value below the word rounded down by the mask of its high bits. -/
theorem land_mul_two_pow_sub_one_of_lt {x n k : ℕ} (hx : x < 2 ^ (n + k)) :
    x &&& (2 ^ k - 1) * 2 ^ n = x / 2 ^ n * 2 ^ n := by
  rw [land_mul_two_pow_sub_one, Nat.mod_eq_of_lt hx]

end Nat
