import RtkLocalization.Lib.Covariance
import RtkLocalization.ImuNedToEnu

/-!
# The covariances published by `imu_ned_to_enu.py`

The vectors of a message go through the axis change and the yaw correction, which
together are a half turn about a horizontal axis (`vectorMatrix_eq`); their
covariances are checked and passed on as they are. For a positive definite
covariance this agrees with the transported one exactly when the axis of the half
turn is a principal axis of the noise (`covariances_follow_iff`).
-/

namespace RtkLocalization
namespace ImuNedToEnu

open Matrix Covariance Real

def coords (v : Vec3 ℝ) : Fin 3 → ℝ := ![v.x, v.y, v.z]

def basisVector : Fin 3 → Vec3 ℝ := ![⟨1, 0, 0⟩, ⟨0, 1, 0⟩, ⟨0, 0, 1⟩]

/-- Matrix of the map a vector of the message goes through, column by column. -/
noncomputable def vectorMatrix (cfg : Config ℝ) : Matrix (Fin 3) (Fin 3) ℝ :=
  of fun i j => coords (convertVector cfg (basisVector j)) i

theorem vectorMatrix_eq_of (cfg : Config ℝ) :
    vectorMatrix cfg
      = !![-sin cfg.yawCorrection, cos cfg.yawCorrection, 0;
          cos cfg.yawCorrection, sin cfg.yawCorrection, 0;
          0, 0, -1] := by
  ext i j
  fin_cases i <;> fin_cases j <;>
    simp [vectorMatrix, coords, basisVector, convertVector, rotateXy]

theorem coords_convertVector (cfg : Config ℝ) (v : Vec3 ℝ) :
    coords (convertVector cfg v) = vectorMatrix cfg *ᵥ coords v := by
  rw [vectorMatrix_eq_of]
  ext i
  fin_cases i
  · simp [coords, convertVector, rotateXy, mulVec, dotProduct, Fin.sum_univ_three]
    ring
  · simp [coords, convertVector, rotateXy, mulVec, dotProduct, Fin.sum_univ_three]
    ring
  · simp [coords, convertVector, rotateXy, mulVec, dotProduct, Fin.sum_univ_three]

/-- Unit vector along the axis of the combined half turn. -/
noncomputable def halfTurnAxis (c : ℝ) : Fin 3 → ℝ :=
  ![cos (π / 4.0 + c / 2.0), sin (π / 4.0 + c / 2.0), 0]

theorem halfTurnAxis_unit (c : ℝ) : halfTurnAxis c ⬝ᵥ halfTurnAxis c = 1 := by
  have h := cos_sq_add_sin_sq (π / 4.0 + c / 2.0)
  simp only [halfTurnAxis, dotProduct, Fin.sum_univ_three, cons_val]
  linear_combination h

theorem vectorMatrix_eq (cfg : Config ℝ) :
    vectorMatrix cfg = halfTurn (halfTurnAxis cfg.yawCorrection) := by
  obtain ⟨hcos, hsin⟩ := cos_sin_of_half_axis cfg.yawCorrection
  have h1 := cos_sq_add_sin_sq (π / 4.0 + cfg.yawCorrection / 2.0)
  rw [vectorMatrix_eq_of, hcos, hsin, halfTurnAxis]
  generalize cos (π / 4.0 + cfg.yawCorrection / 2.0) = C at h1 ⊢
  generalize sin (π / 4.0 + cfg.yawCorrection / 2.0) = S at h1 ⊢
  ext i j
  fin_cases i <;> fin_cases j <;> simp [halfTurn]
  · linear_combination (-2) * h1
  · ring
  · ring
  · ring

/-- A covariance with positive variances passes every test of
`_sanitize_covariance`. -/
theorem sanitizeCovariance_of_pos {cov : Vector ℝ 9} (h : 0 < cov.get (cell3 0))
    (defaultVariance : ℝ) : sanitizeCovariance cov defaultVariance = cov := by
  have hfinite : (cov.any fun v => !isfinite v) = false :=
    Vector.any_eq_false.mpr fun _ _ => Bool.false_ne_true
  have hzero : ¬ (cov.get (cell3 0) = 0.0 ∧ cov.get (cell3 4) = 0.0 ∧ cov.get (cell3 8) = 0.0) := by
    intro hall
    rw [hall.1, zero_literal] at h
    exact lt_irrefl 0 h
  rw [zero_literal] at hzero
  simp only [sanitizeCovariance, zero_literal, if_neg (not_lt.mpr h.le), hfinite,
    Bool.false_eq_true, if_false, if_neg hzero]

/-! ### When the covariance follows its vector -/

/-- The covariance `out` of a published vector is that of the input vector, `C`,
taken through the same map. -/
def CovarianceFollows (cfg : Config ℝ) (C out : Vector ℝ 9) : Prop :=
  rowMajor 3 cell3 out = transport (vectorMatrix cfg) (rowMajor 3 cell3 C)

def AxisPrincipal (c : ℝ) (C : Vector ℝ 9) : Prop :=
  ∃ k : ℝ, rowMajor 3 cell3 C *ᵥ halfTurnAxis c = k • halfTurnAxis c

theorem covarianceFollows_sanitize_iff (cfg : Config ℝ) {C : Vector ℝ 9}
    (hC : (rowMajor 3 cell3 C).PosDef) (defaultVariance : ℝ) :
    CovarianceFollows cfg C (sanitizeCovariance C defaultVariance) ↔
      AxisPrincipal cfg.yawCorrection C := by
  have hpos : 0 < C.get (cell3 0) := hC.diag_pos (i := 0)
  have hsymm : (rowMajor 3 cell3 C).IsSymm := isSymm_of_posSemidef hC.posSemidef
  rw [CovarianceFollows, sanitizeCovariance_of_pos hpos, vectorMatrix_eq, eq_comm]
  exact transport_halfTurn_eq_self_iff (halfTurnAxis_unit _) hsymm

/-- Both covariances follow their vectors exactly when the axis of the half turn is
a principal axis of both. -/
theorem covariances_follow_iff (cfg : Config ℝ) (msg : Imu ℝ) (now : ℤ)
    (hangular : (rowMajor 3 cell3 msg.angularVelocityCovariance).PosDef)
    (hlinear : (rowMajor 3 cell3 msg.linearAccelerationCovariance).PosDef) :
    let out := callback cfg msg now
    (CovarianceFollows cfg msg.angularVelocityCovariance out.angularVelocityCovariance ∧
      CovarianceFollows cfg msg.linearAccelerationCovariance out.linearAccelerationCovariance) ↔
    AxisPrincipal cfg.yawCorrection msg.angularVelocityCovariance ∧
      AxisPrincipal cfg.yawCorrection msg.linearAccelerationCovariance :=
  and_congr (covarianceFollows_sanitize_iff cfg hangular _)
    (covarianceFollows_sanitize_iff cfg hlinear _)

/-- A message whose gyroscope and accelerometer noise has variance `varX` along x
and `varY` along y. -/
noncomputable def noisyImu (varX varY : ℝ) : Imu ℝ :=
  let cov : Vector ℝ 9 := #v[varX, 0, 0, 0, varY, 0, 0, 0, 1]
  { levelImu ⟨0, 0, 0⟩ with
    angularVelocityCovariance := cov
    linearAccelerationCovariance := cov }

theorem rowMajor_noisyImu (varX varY : ℝ) :
    rowMajor 3 cell3 (noisyImu varX varY).angularVelocityCovariance = diagonal ![varX, varY, 1] := by
  ext i j
  fin_cases i <;> fin_cases j <;> rfl

theorem posDef_noisyImu {varX varY : ℝ} (hx : 0 < varX) (hy : 0 < varY) :
    (rowMajor 3 cell3 (noisyImu varX varY).angularVelocityCovariance).PosDef := by
  rw [rowMajor_noisyImu]
  refine .diagonal fun i => ?_
  fin_cases i
  · exact hx
  · exact hy
  · exact one_pos

theorem covariances_follow_isotropic :
    let msg := noisyImu 1 1
    CovarianceFollows defaultConfig msg.angularVelocityCovariance
      (callback defaultConfig msg 0).angularVelocityCovariance := by
  intro msg
  have hposDef := posDef_noisyImu one_pos one_pos
  have hprincipal : AxisPrincipal defaultConfig.yawCorrection msg.angularVelocityCovariance := by
    refine ⟨1, ?_⟩
    have hone : diagonal ![(1 : ℝ), 1, 1] = 1 := by
      ext i j
      fin_cases i <;> fin_cases j <;> rfl
    rw [rowMajor_noisyImu, hone, one_mulVec, one_smul]
  exact ((covariances_follow_iff defaultConfig msg 0 hposDef hposDef).mpr
    ⟨hprincipal, hprincipal⟩).1

/-- Noise that is twice as strong along x is published as such although x and y
have been swapped. -/
theorem covariance_not_swapped :
    let msg := noisyImu 4 1
    (rowMajor 3 cell3 msg.angularVelocityCovariance).PosDef ∧
    (rowMajor 3 cell3 msg.linearAccelerationCovariance).PosDef ∧
    ¬ CovarianceFollows defaultConfig msg.angularVelocityCovariance
      (callback defaultConfig msg 0).angularVelocityCovariance := by
  intro msg
  have hfour : (0 : ℝ) < 4 := by norm_num
  have hposDef := posDef_noisyImu hfour one_pos
  refine ⟨hposDef, hposDef, fun hfollows => ?_⟩
  have hangle : π / 4.0 + defaultConfig.yawCorrection / 2.0 = π / 4 := by norm_num [defaultConfig]
  have haxis : halfTurnAxis defaultConfig.yawCorrection = ![√2 / 2, √2 / 2, 0] := by
    rw [halfTurnAxis, hangle, cos_pi_div_four, sin_pi_div_four]
  have hne : √2 / 2 ≠ 0 := by positivity
  obtain ⟨k, hk⟩ := (covarianceFollows_sanitize_iff defaultConfig hposDef _).mp hfollows
  rw [rowMajor_noisyImu, haxis] at hk
  have hx : 4 * (√2 / 2) = k * (√2 / 2) := by simpa [mulVec_diagonal] using congrFun hk 0
  have hy : 1 * (√2 / 2) = k * (√2 / 2) := by simpa [mulVec_diagonal] using congrFun hk 1
  have heq := mul_right_cancel₀ hne (hx.trans hy.symm)
  norm_num at heq

end ImuNedToEnu
end RtkLocalization
