import Mathlib.Algebra.BigOperators.Intervals
import Mathlib.Algebra.BigOperators.Ring.Finset
import Mathlib.Algebra.Order.Field.Basic
import Mathlib.Algebra.Order.Ring.Abs
import Mathlib.Tactic.FieldSimp
import Mathlib.Tactic.Linarith
import Mathlib.Tactic.Ring

/-!
# Exponential smoothing

The recurrence `y₀ = p₀`, `yₙ₊₁ = yₙ + a (pₙ₊₁ - yₙ)` over an ordered field: a
weighted average of the inputs so far (`smoothed_eq_sum`), hence within every
interval that holds them, and at most `s (1 - a) / a` behind inputs that move by
at most `s` a step.
-/

namespace ExponentialSmoothing

variable {K : Type} [Field K]

def smoothed (a : K) (p : ℕ → K) : ℕ → K
  | 0 => p 0
  | n + 1 => smoothed a p n + a * (p (n + 1) - smoothed a p n)

theorem smoothed_succ_eq (a : K) (p : ℕ → K) (n : ℕ) :
    smoothed a p (n + 1) = (1 - a) * smoothed a p n + a * p (n + 1) := by
  rw [smoothed]
  ring

theorem smoothed_eq_sum (a : K) (p : ℕ → K) (n : ℕ) :
    smoothed a p n = (1 - a) ^ n * p 0 + ∑ k ∈ Finset.Icc 1 n, a * (1 - a) ^ (n - k) * p k := by
  induction n with
  | zero => simp [smoothed]
  | succ n ih =>
    -- every weight gets one more factor, and the new input has weight `a`
    have hold : ∑ k ∈ Finset.Icc 1 n, a * (1 - a) ^ (n + 1 - k) * p k
        = (1 - a) * ∑ k ∈ Finset.Icc 1 n, a * (1 - a) ^ (n - k) * p k := by
      rw [Finset.mul_sum]
      refine Finset.sum_congr rfl fun k hk => ?_
      rw [Nat.succ_sub (Finset.mem_Icc.mp hk).2, pow_succ]
      ring
    rw [smoothed, Finset.sum_Icc_succ_top (Nat.le_add_left 1 n), hold, ih, Nat.sub_self]
    ring

variable [LinearOrder K] [IsStrictOrderedRing K] {a : K}

theorem smoothed_mem (h0 : 0 ≤ a) (h1 : a ≤ 1) {p : ℕ → K} {lo hi : K} {n : ℕ}
    (hp : ∀ k ≤ n, lo ≤ p k ∧ p k ≤ hi) : lo ≤ smoothed a p n ∧ smoothed a p n ≤ hi := by
  induction n with
  | zero => exact hp 0 le_rfl
  | succ n ih =>
    obtain ⟨hlo, hhi⟩ := ih fun k hk => hp k (hk.trans (Nat.le_succ n))
    obtain ⟨hlo', hhi'⟩ := hp (n + 1) le_rfl
    have h1' : 0 ≤ 1 - a := sub_nonneg.mpr h1
    have hlower := add_le_add (mul_le_mul_of_nonneg_left hlo h1') (mul_le_mul_of_nonneg_left hlo' h0)
    have hupper := add_le_add (mul_le_mul_of_nonneg_left hhi h1') (mul_le_mul_of_nonneg_left hhi' h0)
    rw [smoothed_succ_eq]
    refine ⟨?_, ?_⟩
    · linarith
    · linarith

/-- The lag obeys `eₙ₊₁ = (1 - a) (eₙ - Δpₙ)`. -/
theorem abs_smoothed_sub_le (h0 : 0 < a) (h1 : a ≤ 1) {p : ℕ → K} {s : K} (hs : 0 ≤ s) {n : ℕ}
    (hp : ∀ k < n, |p (k + 1) - p k| ≤ s) : |smoothed a p n - p n| ≤ s * (1 - a) / a := by
  have h1' : 0 ≤ 1 - a := sub_nonneg.mpr h1
  induction n with
  | zero =>
    rw [smoothed, sub_self, abs_zero]
    exact div_nonneg (mul_nonneg hs h1') h0.le
  | succ n ih =>
    have hprev := ih fun k hk => hp k (hk.trans (Nat.lt_succ_self n))
    have hstep : smoothed a p (n + 1) - p (n + 1)
        = (1 - a) * (smoothed a p n - p n - (p (n + 1) - p n)) := by
      rw [smoothed_succ_eq]
      ring
    have hfix : (1 - a) * (s * (1 - a) / a + s) = s * (1 - a) / a := by
      field_simp
      ring
    calc |smoothed a p (n + 1) - p (n + 1)|
        = (1 - a) * |smoothed a p n - p n - (p (n + 1) - p n)| := by
          rw [hstep, abs_mul, abs_of_nonneg h1']
      _ ≤ (1 - a) * (|smoothed a p n - p n| + |p (n + 1) - p n|) :=
          mul_le_mul_of_nonneg_left (abs_sub _ _) h1'
      _ ≤ (1 - a) * (s * (1 - a) / a + s) :=
          mul_le_mul_of_nonneg_left (add_le_add hprev (hp n (Nat.lt_succ_self n))) h1'
      _ = s * (1 - a) / a := hfix

end ExponentialSmoothing
