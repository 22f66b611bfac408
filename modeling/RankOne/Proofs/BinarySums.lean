import Mathlib.Algebra.BigOperators.Intervals
import Mathlib.Algebra.BigOperators.Ring.Finset
import Mathlib.Tactic.Ring

namespace RankOne

theorem sum_bits_succ (n : Nat) (b : Nat → Int) :
    ∑ i ∈ Finset.range (n + 1), 2 ^ i * b i =
      b 0 + 2 * ∑ i ∈ Finset.range n, 2 ^ i * b (i + 1) := by
  rw [Finset.sum_range_succ', Finset.mul_sum, pow_zero, one_mul, add_comm]
  congr 1
  exact Finset.sum_congr rfl fun i _ => by ring

/-- The lowest digits of a number, also of a negative one, sum up to its residue. -/
theorem sum_digits (v : Int) (n : Nat) :
    ∑ i ∈ Finset.range n, 2 ^ i * (v / 2 ^ i % 2) = v % 2 ^ n := by
  induction n generalizing v with
  | zero => simp
  | succ n ih =>
    have hhalf : ∀ i, v / 2 ^ (i + 1) = v / 2 / 2 ^ i := fun i => by
      rw [pow_succ', Int.ediv_ediv_of_nonneg (by omega)]
    have hrest : ∑ i ∈ Finset.range n, 2 ^ i * (v / 2 ^ (i + 1) % 2) = v / 2 % 2 ^ n := by
      simp only [hhalf]
      exact ih (v / 2)
    rw [sum_bits_succ, hrest, pow_zero, Int.ediv_one, Int.emod_def v 2, Int.emod_def (v / 2),
      Int.emod_def v, hhalf]
    ring

section
variable {n : Nat} {b : Nat → Int}

theorem sum_bits_range (hb : ∀ i < n, b i = 0 ∨ b i = 1) :
    0 ≤ ∑ i ∈ Finset.range n, 2 ^ i * b i ∧ ∑ i ∈ Finset.range n, 2 ^ i * b i < 2 ^ n := by
  induction n generalizing b with
  | zero => simp
  | succ n ih =>
    have hrest := ih fun i hi => hb (i + 1) (Nat.succ_lt_succ hi)
    rw [sum_bits_succ, pow_succ']
    rcases hb 0 (Nat.succ_pos n) with h | h <;> omega

/-- A bit is the digit at its place in the sum. -/
theorem digit_of_sum_bits (hb : ∀ i < n, b i = 0 ∨ b i = 1) {j : Nat} (hj : j < n) :
    (∑ i ∈ Finset.range n, 2 ^ i * b i) / 2 ^ j % 2 = b j := by
  induction n generalizing b j with
  | zero => omega
  | succ n ih =>
    rw [sum_bits_succ]
    have hfirst := hb 0 (Nat.succ_pos n)
    cases j with
    | zero =>
      rw [pow_zero, Int.ediv_one]
      omega
    | succ j =>
      have hrest := ih (fun i hi => hb (i + 1) (Nat.succ_lt_succ hi)) (Nat.lt_of_succ_lt_succ hj)
      rw [pow_succ', ← Int.ediv_ediv_of_nonneg (by omega), ← hrest]
      congr 2
      omega

end

end RankOne
