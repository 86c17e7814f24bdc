import RtkLocalization.Lib.ExponentialSmoothing
import RtkLocalization.OdometryLowPassFilter

/-!
# The smoothed position of `odometry_low_pass_filter.py`

Exact real arithmetic. The filter is exponential smoothing of each coordinate
with the clamped `alpha` (`filtered_stateAfter`); `smoothed_position` states the
closed form, the range and the lag for every run.
-/

namespace RtkLocalization
namespace OdometryLowPassFilter

open Callback ExponentialSmoothing

theorem ofParameters_alpha_mem (alpha floor : ℝ) :
    0 ≤ (Config.ofParameters alpha floor).alpha ∧ (Config.ofParameters alpha floor).alpha ≤ 1 := by
  simp only [Config.ofParameters, zero_literal, one_literal, pyMax_eq_max, pyMin_eq_min]
  exact ⟨le_min (le_max_right _ _) zero_le_one, min_le_right _ _⟩

/-- The first `n` messages of a sequence. -/
def firstInputs (input : ℕ → Odometry ℝ) (n : ℕ) : List (Odometry ℝ) := (List.range n).map input

def coordinate (coord : Vec3 ℝ → ℝ) (input : ℕ → Odometry ℝ) (k : ℕ) : ℝ :=
  coord (input k).pose.pose.position

noncomputable def smoothedPosition (cfg : Config ℝ) (input : ℕ → Odometry ℝ) (n : ℕ) : Vec3 ℝ :=
  ⟨smoothed cfg.alpha (coordinate Vec3.x input) n, smoothed cfg.alpha (coordinate Vec3.y input) n,
    smoothed cfg.alpha (coordinate Vec3.z input) n⟩

theorem filtered_stateAfter (cfg : Config ℝ) (input : ℕ → Odometry ℝ) (n : ℕ) :
    (stateAfter (callback cfg) State.initial (firstInputs input (n + 1))).filtered
      = some (smoothedPosition cfg input n) := by
  induction n with
  | zero => rfl
  | succ n ih =>
    have hsplit : firstInputs input (n + 1 + 1) = firstInputs input (n + 1) ++ [input (n + 1)] := by
      rw [firstInputs, List.range_succ, List.map_append]
      rfl
    rw [hsplit, stateAfter_append]
    simp only [stateAfter, callback, smooth, ih]
    rfl

theorem published_position (cfg : Config ℝ) (input : ℕ → Odometry ℝ) (n : ℕ) :
    ∃ out, (callback cfg (stateAfter (callback cfg) State.initial (firstInputs input n))
        (input n)).2 = some out ∧
      out.pose.pose.position = smoothedPosition cfg input n := by
  refine ⟨_, rfl, ?_⟩
  have hstate := filtered_stateAfter cfg input n
  rw [firstInputs, List.range_succ, List.map_append, stateAfter_append] at hstate
  exact Option.some_injective _ hstate

/-- For every `alpha`, clamped as the constructor does, and all inputs so far, each
published coordinate is the weighted average of the inputs, lies between the
smallest and the largest of them and, for inputs that move by at most `s` a step,
trails the last one by at most `s (1 - a) / a`. -/
theorem smoothed_position (alpha floor : ℝ) (input : ℕ → Odometry ℝ) (n : ℕ) :
    let cfg := Config.ofParameters alpha floor
    let a := cfg.alpha
    a = min (max alpha 0) 1 ∧
    ∃ out, (callback cfg (stateAfter (callback cfg) State.initial (firstInputs input n))
        (input n)).2 = some out ∧
      ∀ coord ∈ [Vec3.x, Vec3.y, Vec3.z],
        let p := coordinate coord input
        let q := coord out.pose.pose.position
        q = (1 - a) ^ n * p 0 + ∑ k ∈ Finset.Icc 1 n, a * (1 - a) ^ (n - k) * p k ∧
        ((Finset.range (n + 1)).inf' Finset.nonempty_range_add_one p ≤ q ∧
          q ≤ (Finset.range (n + 1)).sup' Finset.nonempty_range_add_one p) ∧
        ∀ s, (n = 0 → 0 ≤ s) → 0 < a → (∀ k < n, |p (k + 1) - p k| ≤ s) →
          |q - p n| ≤ s * (1 - a) / a := by
  intro cfg a
  obtain ⟨h0, h1⟩ := ofParameters_alpha_mem alpha floor
  obtain ⟨out, hout, hposition⟩ := published_position cfg input n
  refine ⟨?_, out, hout, fun coord hcoord => ?_⟩
  · simp only [a, cfg, Config.ofParameters, zero_literal, one_literal, pyMax_eq_max, pyMin_eq_min]
  · intro p q
    have hq : q = smoothed a p n := by
      have heq : q = coord (smoothedPosition cfg input n) := congrArg coord hposition
      rw [heq]
      simp only [List.mem_cons, List.not_mem_nil, or_false] at hcoord
      rcases hcoord with rfl | rfl | rfl
      · rfl
      · rfl
      · rfl
    rw [hq]
    refine ⟨smoothed_eq_sum a p n, smoothed_mem h0 h1 fun k hk => ?_, fun s hzero ha hstep => ?_⟩
    · have hmem : k ∈ Finset.range (n + 1) := Finset.mem_range.mpr (Nat.lt_succ_of_le hk)
      exact ⟨Finset.inf'_le p hmem, Finset.le_sup' p hmem⟩
    · have hs : 0 ≤ s := by
        rcases Nat.eq_zero_or_pos n with hn | hn
        · exact hzero hn
        · exact (abs_nonneg _).trans (hstep 0 hn)
      exact abs_smoothed_sub_le ha h1 hs hstep

end OdometryLowPassFilter
end RtkLocalization
