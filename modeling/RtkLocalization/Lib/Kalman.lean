import RtkLocalization.Lib.Covariance
import Mathlib.LinearAlgebra.Matrix.NonsingularInverse

/-!
# Kalman updates

A state with covariance `P` is measured through `H` with an error of covariance `R`. After
the update with a gain `K` its covariance is `joseph`, whatever the gain. The Kalman gain
gives the least: `joseph_eq_add` writes the covariance of any other gain as that one plus
a covariance. The order is that of positive semidefinite differences.
-/

noncomputable section

namespace Kalman
open Matrix Covariance

variable {m n : Type} [Fintype n] (H : Matrix m n ℝ) (P : Matrix n n ℝ) (R : Matrix m m ℝ)

/-- The covariance of the difference between the measurement and the state. -/
def innovation : Matrix m m ℝ := transport H P + R

section Innovation
variable {H P R}

theorem posDef_innovation [Finite m] (hP : P.PosSemidef) (hR : R.PosDef) :
    (innovation H P R).PosDef :=
  PosDef.posSemidef_add (posSemidef_transport hP H) hR

theorem isSymm_innovation (hP : P.IsSymm) (hR : R.IsSymm) : (innovation H P R).IsSymm := by
  unfold innovation transport IsSymm
  rw [transpose_add, transpose_mul, transpose_mul, transpose_transpose, hP.eq, hR.eq,
    Matrix.mul_assoc]

end Innovation

variable [Fintype m] [DecidableEq n]

def gain [DecidableEq m] : Matrix n m ℝ := P * Hᵀ * (innovation H P R)⁻¹

def joseph (K : Matrix n m ℝ) : Matrix n n ℝ := transport (1 - K * H) P + transport K R

variable {H P R}

theorem posSemidef_joseph (hP : P.PosSemidef) (hR : R.PosSemidef) (K : Matrix n m ℝ) :
    (joseph H P R K).PosSemidef :=
  (posSemidef_transport hP _).add (posSemidef_transport hR _)

theorem joseph_eq (hP : P.IsSymm) (K : Matrix n m ℝ) :
    joseph H P R K = P - K * (H * P) - (K * (H * P))ᵀ + transport K (innovation H P R) := by
  have hPH : (H * P)ᵀ = P * Hᵀ := by rw [transpose_mul, hP]
  simp only [joseph, transport, innovation, transpose_sub, transpose_one, transpose_mul, hP.eq,
    Matrix.sub_mul, Matrix.mul_sub, Matrix.one_mul, Matrix.mul_one, Matrix.mul_add, Matrix.add_mul,
    Matrix.mul_assoc]
  abel

variable [DecidableEq m]

/-- The covariance with any gain is the one with the Kalman gain and what the difference of
the gains carries over from the innovation. -/
theorem joseph_eq_add (hP : P.IsSymm) (hR : R.IsSymm) (hS : IsUnit (innovation H P R).det)
    (K : Matrix n m ℝ) :
    joseph H P R K = P - transport (gain H P R) (innovation H P R)
      + transport (K - gain H P R) (innovation H P R) := by
  set S := innovation H P R with hSdef
  have hsymm : S.IsSymm := isSymm_innovation hP hR
  have hgain : gain H P R * S = P * Hᵀ := by
    rw [gain, ← hSdef, nonsing_inv_mul_cancel_right _ _ hS]
  have hgain' : S * (gain H P R)ᵀ = H * P := by
    have h := congrArg transpose hgain
    rwa [transpose_mul, transpose_mul, transpose_transpose, hsymm.eq, hP.eq] at h
  rw [joseph_eq hP, ← hSdef, transpose_mul, transpose_mul, hP.eq]
  simp only [transport, transpose_sub, Matrix.sub_mul, Matrix.mul_sub, Matrix.mul_assoc, hgain']
  rw [← Matrix.mul_assoc P, ← hgain, Matrix.mul_assoc]
  abel

theorem joseph_gain (hP : P.IsSymm) (hR : R.IsSymm) (hS : IsUnit (innovation H P R).det) :
    joseph H P R (gain H P R) = P - transport (gain H P R) (innovation H P R) := by
  have hzero : transport (0 : Matrix n m ℝ) (innovation H P R) = 0 := by
    rw [transport, Matrix.zero_mul, Matrix.zero_mul]
  rw [joseph_eq_add hP hR hS, sub_self, hzero, add_zero]

/-- An update with the Kalman gain makes the state no less certain in any direction. -/
theorem posSemidef_sub_joseph_gain (hP : P.PosSemidef) (hR : R.PosDef) :
    (P - joseph H P R (gain H P R)).PosSemidef := by
  have hS := posDef_innovation (H := H) hP hR
  have hdet := (isUnit_iff_isUnit_det _).mp hS.isUnit
  rw [joseph_gain (isSymm_of_posSemidef hP) (isSymm_of_posSemidef hR.posSemidef) hdet, sub_sub_cancel]
  exact posSemidef_transport hS.posSemidef _

/-- No gain makes it more certain than the Kalman gain. -/
theorem posSemidef_joseph_sub_joseph_gain (hP : P.PosSemidef) (hR : R.PosDef) (K : Matrix n m ℝ) :
    (joseph H P R K - joseph H P R (gain H P R)).PosSemidef := by
  have hS := posDef_innovation (H := H) hP hR
  have hdet := (isUnit_iff_isUnit_det _).mp hS.isUnit
  have hPsymm := isSymm_of_posSemidef hP
  have hRsymm := isSymm_of_posSemidef hR.posSemidef
  rw [joseph_gain hPsymm hRsymm hdet, joseph_eq_add hPsymm hRsymm hdet, add_sub_cancel_left]
  exact posSemidef_transport hS.posSemidef _

end Kalman

end
