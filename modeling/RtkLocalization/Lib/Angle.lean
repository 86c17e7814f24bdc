import Mathlib.Analysis.SpecialFunctions.Complex.Arg
import Mathlib.Analysis.SpecialFunctions.Trigonometric.Angle

/-!
# Two-argument arctangent and angles modulo a full turn

`atan2 y x` is the argument of `x + y i`, in `(-π, π]`, with `atan2 0 0 = 0`.
Angles modulo `2π` are Mathlib's `Real.Angle`; `circDist` is the length of the
shorter arc between two angles, and satisfies the triangle inequality.
-/

noncomputable section

namespace Planar
open Real

/-- Angle of the point `(x, y)`, in `(-π, π]`. -/
def atan2 (y x : ℝ) : ℝ := Complex.arg ⟨x, y⟩

def hypot (x y : ℝ) : ℝ := √(x * x + y * y)

theorem norm_mk (x y : ℝ) : ‖(⟨x, y⟩ : ℂ)‖ = hypot x y := by
  rw [Complex.norm_def, Complex.normSq_mk, hypot]

theorem neg_pi_lt_atan2 (y x : ℝ) : -π < atan2 y x := Complex.neg_pi_lt_arg _

theorem atan2_le_pi (y x : ℝ) : atan2 y x ≤ π := Complex.arg_le_pi _

theorem hypot_mul_cos_atan2 (x y : ℝ) : hypot x y * cos (atan2 y x) = x := by
  rw [← norm_mk]
  exact Complex.norm_mul_cos_arg ⟨x, y⟩

theorem hypot_mul_sin_atan2 (x y : ℝ) : hypot x y * sin (atan2 y x) = y := by
  rw [← norm_mk]
  exact Complex.norm_mul_sin_arg ⟨x, y⟩

theorem hypot_nonneg (x y : ℝ) : 0 ≤ hypot x y := sqrt_nonneg _

theorem hypot_sq (x y : ℝ) : hypot x y ^ 2 = x ^ 2 + y ^ 2 := by
  rw [hypot, sq_sqrt (add_nonneg (mul_self_nonneg x) (mul_self_nonneg y))]
  ring

theorem abs_le_hypot_left (x y : ℝ) : |x| ≤ hypot x y :=
  abs_le_sqrt (by linarith [mul_self_nonneg y, sq x])

theorem abs_le_hypot_right (x y : ℝ) : |y| ≤ hypot x y :=
  abs_le_sqrt (by linarith [mul_self_nonneg x, sq y])

theorem hypot_pos_of_left {x : ℝ} (hx : x ≠ 0) (y : ℝ) : 0 < hypot x y :=
  sqrt_pos.mpr (add_pos_of_pos_of_nonneg (mul_self_pos.mpr hx) (mul_self_nonneg y))

theorem cos_atan2_pos {x : ℝ} (hx : 0 < x) (y : ℝ) : 0 < cos (atan2 y x) := by
  have h := hypot_mul_cos_atan2 x y
  rw [← h] at hx
  exact pos_of_mul_pos_right hx (hypot_nonneg x _)

theorem hypot_mul_cos_sin {r : ℝ} (hr : 0 ≤ r) (θ : ℝ) : hypot (r * cos θ) (r * sin θ) = r := by
  have h : r * cos θ * (r * cos θ) + r * sin θ * (r * sin θ) = r ^ 2 := by
    linear_combination r ^ 2 * cos_sq_add_sin_sq θ
  rw [hypot, h, sqrt_sq hr]

theorem atan2_polar {r : ℝ} (hr : 0 < r) (θ : ℝ) :
    ((atan2 (r * sin θ) (r * cos θ) : ℝ) : Angle) = θ := by
  have h : (⟨r * cos θ, r * sin θ⟩ : ℂ)
      = r * (((θ : Angle).cos : ℝ) + ((θ : Angle).sin : ℝ) * Complex.I) := by
    rw [Angle.cos_coe, Angle.sin_coe]
    apply Complex.ext
    · simp [Complex.cos_ofReal_re]
    · simp [Complex.sin_ofReal_re]
  rw [atan2, h]
  exact Complex.arg_mul_cos_add_sin_mul_I_coe_angle hr θ

theorem atan2_sin_cos (θ : ℝ) : atan2 (sin θ) (cos θ) = (θ : Angle).toReal := by
  have h := atan2_polar one_pos θ
  simp only [one_mul] at h
  rw [← h]
  exact (Angle.toReal_coe_eq_self_iff.mpr ⟨neg_pi_lt_atan2 _ _, atan2_le_pi _ _⟩).symm

theorem cos_atan2_neg {x : ℝ} (hx : x < 0) (y : ℝ) : cos (atan2 y x) < 0 := by
  have h := hypot_mul_cos_atan2 x y
  rw [← h] at hx
  exact neg_of_mul_neg_right hx (hypot_nonneg x _)

theorem atan2_mul_left {r : ℝ} (hr : 0 < r) (y x : ℝ) : atan2 (r * y) (r * x) = atan2 y x := by
  have h : (⟨r * x, r * y⟩ : ℂ) = r * ⟨x, y⟩ := by
    apply Complex.ext <;> simp
  rw [atan2, h, Complex.arg_real_mul _ hr, atan2]

theorem atan2_zero_of_nonneg {x : ℝ} (hx : 0 ≤ x) : atan2 0 x = 0 := Complex.arg_ofReal_of_nonneg hx

theorem atan2_zero_of_neg {x : ℝ} (hx : x < 0) : atan2 0 x = π := Complex.arg_ofReal_of_neg hx

/-- On the x axis only the side counts; the origin counts as the positive one. -/
theorem atan2_zero_eq_iff {a b : ℝ} (hb : b ≠ 0) : atan2 0 a = atan2 0 b ↔ (0 < b ↔ 0 ≤ a) := by
  rcases lt_or_gt_of_ne hb with hneg | hpos
  · rw [atan2_zero_of_neg hneg]
    rcases le_or_gt 0 a with ha | ha
    · simp only [atan2_zero_of_nonneg ha, ha, hneg.not_gt, pi_ne_zero.symm, false_iff, not_true]
    · simp only [atan2_zero_of_neg ha, hneg.not_gt, ha.not_ge]
  · rw [atan2_zero_of_nonneg hpos.le]
    rcases le_or_gt 0 a with ha | ha
    · simp only [atan2_zero_of_nonneg ha, ha, hpos]
    · simp only [atan2_zero_of_neg ha, hpos, ha.not_ge, pi_ne_zero, iff_false, not_true]

/-- Off the x axis the height fixes the point of a ray. -/
theorem atan2_right_inj {y a b : ℝ} (hy : y ≠ 0) : atan2 y a = atan2 y b ↔ a = b := by
  constructor
  · intro h
    have ha := hypot_mul_sin_atan2 a y
    have hb := hypot_mul_sin_atan2 b y
    rw [← h] at hb
    have hsin : sin (atan2 y a) ≠ 0 := by
      intro hzero
      rw [hzero, mul_zero] at ha
      exact hy ha.symm
    have hyp : hypot a y = hypot b y := mul_right_cancel₀ hsin (ha.trans hb.symm)
    rw [← hypot_mul_cos_atan2 a y, hyp, h, hypot_mul_cos_atan2]
  · rintro rfl
    rfl

theorem coe_atan2_inj {y x y' x' : ℝ} :
    ((atan2 y x : ℝ) : Angle) = (atan2 y' x' : ℝ) ↔ atan2 y x = atan2 y' x' := by
  constructor
  · intro h
    have htoReal := congrArg Angle.toReal h
    rwa [Angle.toReal_coe_eq_self_iff.mpr ⟨neg_pi_lt_atan2 _ _, atan2_le_pi _ _⟩,
      Angle.toReal_coe_eq_self_iff.mpr ⟨neg_pi_lt_atan2 _ _, atan2_le_pi _ _⟩] at htoReal
  · intro h
    rw [h]

theorem hypot_pos_of_ne {x y : ℝ} (h : x ≠ 0 ∨ y ≠ 0) : 0 < hypot x y := by
  rcases h with hx | hy
  · exact hypot_pos_of_left hx y
  · rw [hypot, add_comm]
    exact hypot_pos_of_left hy x

/-- Two points other than the origin lie on one ray from it exactly if they span no
area and lie on the same side. -/
theorem atan2_eq_iff {x y x' y' : ℝ} (h : x ≠ 0 ∨ y ≠ 0) (h' : x' ≠ 0 ∨ y' ≠ 0) :
    atan2 y x = atan2 y' x' ↔ x * y' = x' * y ∧ 0 < x * x' + y * y' := by
  have hr := mul_pos (hypot_pos_of_ne h) (hypot_pos_of_ne h')
  have hx := hypot_mul_cos_atan2 x y
  have hy := hypot_mul_sin_atan2 x y
  have hx' := hypot_mul_cos_atan2 x' y'
  have hy' := hypot_mul_sin_atan2 x' y'
  set r := hypot x y
  set r' := hypot x' y'
  set θ := atan2 y x
  set θ' := atan2 y' x'
  have hsin : x * y' - x' * y = r * r' * sin (θ' - θ) := by
    rw [sin_sub]
    linear_combination -y' * hx - r * cos θ * hy' + y * hx' + r' * cos θ' * hy
  have hcos : x * x' + y * y' = r * r' * cos (θ' - θ) := by
    rw [cos_sub]
    linear_combination -x' * hx - r * cos θ * hx' - y' * hy - r * sin θ * hy'
  constructor
  · intro heq
    rw [heq, sub_self, sin_zero, mul_zero] at hsin
    rw [heq, sub_self, cos_zero, mul_one] at hcos
    exact ⟨sub_eq_zero.mp hsin, hcos ▸ hr⟩
  · rintro ⟨hcross, hdot⟩
    rw [hcross, sub_self] at hsin
    rw [hcos] at hdot
    have hs : sin (θ' - θ) = 0 := (mul_eq_zero.mp hsin.symm).resolve_left hr.ne'
    have hc : 0 < cos (θ' - θ) := (mul_pos_iff_of_pos_left hr).mp hdot
    have hone : cos (θ' - θ) = 1 := by
      rcases sin_eq_zero_iff_cos_eq.mp hs with h1 | h1
      · exact h1
      · rw [h1] at hc
        norm_num at hc
    have hangle : ((θ' - θ : ℝ) : Angle) = (0 : ℝ) :=
      Angle.cos_sin_inj (by rw [hone, cos_zero]) (by rw [hs, sin_zero])
    rw [Angle.coe_sub, Angle.coe_zero, sub_eq_zero] at hangle
    exact (coe_atan2_inj.mp hangle).symm

/-! ### Distance on the circle -/

/-- Length of the shorter arc from `b` to `a`. -/
def circDist (a b : ℝ) : ℝ := |((a - b : ℝ) : Angle).toReal|

theorem abs_toReal_coe_le (x : ℝ) : |(x : Angle).toReal| ≤ |x| := by
  rcases le_or_gt |x| π with h | h
  · rcases eq_or_ne x (-π) with rfl | hx
    · rw [abs_neg, abs_of_pos pi_pos]
      exact Angle.abs_toReal_le_pi _
    · have hlo : -π < x := lt_of_le_of_ne (neg_le_of_abs_le h) (Ne.symm hx)
      rw [Angle.toReal_coe_eq_self_iff.mpr ⟨hlo, le_of_abs_le h⟩]
  · exact (Angle.abs_toReal_le_pi _).trans h.le

theorem circDist_triangle (a b c : ℝ) : circDist a c ≤ circDist a b + circDist b c := by
  have h : ((a - c : ℝ) : Angle)
      = ((((a - b : ℝ) : Angle).toReal + ((b - c : ℝ) : Angle).toReal : ℝ) : Angle) := by
    rw [Angle.coe_add, Angle.coe_toReal, Angle.coe_toReal, ← Angle.coe_add, sub_add_sub_cancel]
  calc circDist a c
      = |((((a - b : ℝ) : Angle).toReal + ((b - c : ℝ) : Angle).toReal : ℝ) : Angle).toReal| := by
        rw [circDist, h]
    _ ≤ |((a - b : ℝ) : Angle).toReal + ((b - c : ℝ) : Angle).toReal| := abs_toReal_coe_le _
    _ ≤ circDist a b + circDist b c := abs_add_le _ _

end Planar

end
