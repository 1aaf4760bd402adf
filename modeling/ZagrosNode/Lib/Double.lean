import Mathlib.Data.Nat.Log
import Mathlib.Algebra.Order.Field.Basic
import Mathlib.Tactic.Linarith
import Mathlib.Tactic.Ring

/-!
# ZagrosNode — quotients as doubles

A quotient of integers as a double is the nearest number with 53 significant
bits, the even one of two that are equally near. For a quotient `a / b` of at
least one and below `2 ^ 53` the last of these bits stands for the fraction
`1 / 2 ^ (52 - e)`, where `2 ^ e` is the largest power of two within it.

The code divides two integers with `/`, multiplies, and takes the integer part of
what it has, so the question is by how much `int(a / b * c)` may differ from the
integer that exact arithmetic gives. Rounding to the nearest double can lift a
quotient over the integer above it, and never takes it below the one under it.

`roundDiv` is division to the nearest, ties to even, on natural numbers, and
`doubleScale` the power of two that turns the quotient into a number with 53 bits;
a double is never formed. All lemmas are then about natural numbers. Two bounds
carry everything: the rounded quotient is at least the truncated one, and at most
one more.

Main results:

* `le_truncDouble`, `truncDouble_le` — the integer part of the double is that of
  the quotient or the integer after it.
* `truncDouble_eq` — it is that of the quotient where half of the last bit is
  less than what is missing to the integer after it.
* `truncDouble_mono` — it does not decrease with the dividend.
-/

namespace ZagrosNode.Lib

/-- `a / b` rounded to the nearest integer, halves to the even one. -/
def roundDiv (a b : Nat) : Nat :=
  a / b + if b < 2 * (a % b) ∨ 2 * (a % b) = b ∧ (a / b) % 2 = 1 then 1 else 0

/-- The number of parts a unit of `a / b` has in the double. -/
def doubleScale (a b : Nat) : Nat := 2 ^ (52 - Nat.log 2 (a / b))

/-- The integer part of `a / b` as a double. Below one the scale is that of
one, which leaves all quotients whose divisor is below `2 ^ 53` below one. -/
def truncDouble (a b : Nat) : Nat := roundDiv (a * doubleScale a b) b / doubleScale a b

section Rounding

variable {a b : Nat}

theorem doubleScale_pos (a b : Nat) : 0 < doubleScale a b := Nat.two_pow_pos _

theorem div_le_roundDiv (a b : Nat) : a / b ≤ roundDiv a b := Nat.le_add_right _ _

theorem roundDiv_le_succ (a b : Nat) : roundDiv a b ≤ a / b + 1 := by
  unfold roundDiv
  split
  · exact Nat.le_refl _
  · exact Nat.le_succ _

/-- Rounding does not pass an integer that is not below the quotient. -/
theorem roundDiv_le {n : Nat} (hb : 0 < b) (h : a ≤ n * b) : roundDiv a b ≤ n := by
  have hSplit := Nat.div_add_mod a b
  have hSucc := roundDiv_le_succ a b
  have hDiv : a / b ≤ n := Nat.div_le_of_le_mul (by rwa [Nat.mul_comm])
  by_cases hEq : a / b = n
  · -- the quotient is the integer itself, and nothing remains
    have hMul : b * (a / b) = n * b := by rw [hEq, Nat.mul_comm]
    have hZero : a % b = 0 := by omega
    rw [roundDiv, if_neg (by omega), hEq, Nat.add_zero]
  · omega

/-- Nor does it reach one that is more than half a unit away. -/
theorem roundDiv_lt {n : Nat} (hb : 0 < b) (h : 2 * a + b < 2 * (n * b)) : roundDiv a b < n := by
  have hSplit := Nat.div_add_mod a b
  have hSucc := roundDiv_le_succ a b
  have hLt : a / b < n := by
    rw [Nat.div_lt_iff_lt_mul hb]
    omega
  by_cases hNext : n = a / b + 1
  · have hMul : n * b = b * (a / b) + b := by
      rw [hNext, Nat.add_mul, Nat.one_mul, Nat.mul_comm]
    rw [roundDiv, if_neg (by omega), Nat.add_zero]
    exact hLt
  · omega

theorem roundDiv_mono {a' : Nat} (h : a ≤ a') : roundDiv a b ≤ roundDiv a' b := by
  have hDiv : a / b ≤ a' / b := Nat.div_le_div_right h
  by_cases hEq : a / b = a' / b
  · have hSplit := Nat.div_add_mod a b
    have hSplit' := Nat.div_add_mod a' b
    have hMod : a % b ≤ a' % b := by
      rw [hEq] at hSplit
      omega
    unfold roundDiv
    rw [hEq]
    split
    · rw [if_pos (by omega)]
    · exact Nat.le_add_right _ _
  · have hSucc := roundDiv_le_succ a b
    have hGe := div_le_roundDiv a' b
    omega

/-- The double is not below the integer part of the quotient. -/
theorem le_truncDouble (a b : Nat) : a / b ≤ truncDouble a b := by
  have hScale := doubleScale_pos a b
  rw [truncDouble, Nat.le_div_iff_mul_le hScale]
  have hMul : a / b * doubleScale a b ≤ a * doubleScale a b / b := by
    by_cases hb : b = 0
    · simp [hb]
    · rw [Nat.le_div_iff_mul_le (Nat.pos_of_ne_zero hb)]
      calc a / b * doubleScale a b * b
          = a / b * b * doubleScale a b := by ring
        _ ≤ a * doubleScale a b := Nat.mul_le_mul_right _ (Nat.div_mul_le_self a b)
  calc a / b * doubleScale a b
      ≤ a * doubleScale a b / b := hMul
    _ ≤ roundDiv (a * doubleScale a b) b := div_le_roundDiv _ _

/-- The double is not above the integer after the quotient. -/
theorem truncDouble_le (hb : 0 < b) : truncDouble a b ≤ a / b + 1 := by
  have hScale := doubleScale_pos a b
  have hNext : a ≤ (a / b + 1) * b := by
    have hSplit := Nat.div_add_mod a b
    have hMod := Nat.mod_lt a hb
    rw [Nat.add_mul, Nat.one_mul, Nat.mul_comm (a / b) b]
    omega
  have hRound : roundDiv (a * doubleScale a b) b ≤ (a / b + 1) * doubleScale a b := by
    apply roundDiv_le hb
    calc a * doubleScale a b
        ≤ (a / b + 1) * b * doubleScale a b := Nat.mul_le_mul_right _ hNext
      _ = (a / b + 1) * doubleScale a b * b := by ring
  calc truncDouble a b
      ≤ (a / b + 1) * doubleScale a b / doubleScale a b := Nat.div_le_div_right hRound
    _ = a / b + 1 := Nat.mul_div_cancel _ hScale

/-- **Exact integer parts.** What is missing to the next integer is at least one
part of `b`; where that is more than half of the last bit, it is not rounded
away. -/
theorem truncDouble_eq (hb : 0 < b) (h : b < 2 * doubleScale a b) : truncDouble a b = a / b := by
  have hScale := doubleScale_pos a b
  have hSplit := Nat.div_add_mod a b
  have hMod := Nat.mod_lt a hb
  refine Nat.le_antisymm ?_ (le_truncDouble a b)
  have hRound : roundDiv (a * doubleScale a b) b < (a / b + 1) * doubleScale a b := by
    apply roundDiv_lt hb
    have hNext : a + 1 ≤ (a / b + 1) * b := by
      rw [Nat.add_mul, Nat.one_mul, Nat.mul_comm (a / b) b]
      omega
    calc 2 * (a * doubleScale a b) + b
        < 2 * (a * doubleScale a b) + 2 * doubleScale a b := by omega
      _ = 2 * ((a + 1) * doubleScale a b) := by ring
      _ ≤ 2 * ((a / b + 1) * b * doubleScale a b) :=
        Nat.mul_le_mul_left 2 (Nat.mul_le_mul_right _ hNext)
      _ = 2 * ((a / b + 1) * doubleScale a b * b) := by ring
  have hLt : truncDouble a b < a / b + 1 := by
    rw [truncDouble, Nat.div_lt_iff_lt_mul hScale]
    exact hRound
  omega

theorem truncDouble_mono {a' : Nat} (hb : 0 < b) (h : a ≤ a') :
    truncDouble a b ≤ truncDouble a' b := by
  have hDiv : a / b ≤ a' / b := Nat.div_le_div_right h
  by_cases hEq : a / b = a' / b
  · -- one scale for both
    have hScale : doubleScale a b = doubleScale a' b := by rw [doubleScale, doubleScale, hEq]
    rw [truncDouble, truncDouble, hScale]
    exact Nat.div_le_div_right (roundDiv_mono (Nat.mul_le_mul_right _ h))
  · have hUpper := truncDouble_le (a := a) hb
    have hLower := le_truncDouble a' b
    omega

end Rounding

end ZagrosNode.Lib
