import RtkLocalization.Lib.Covariance
import RtkLocalization.GeoreferencedRtkOdometry

/-!
# The covariance published by `georeferenced_rtk_odometry.py`

Exact real arithmetic. The horizontal block of the receiver's covariance is
raised to the variance floor, turned into the map frame and raised again
(`rowMajor_poseCovarianceInMap`); each of the three steps keeps a positive
semidefinite matrix positive semidefinite.
-/

namespace RtkLocalization
namespace GeoreferencedRtkOdometry

open Matrix Covariance Real

/-- East-north block of the covariance of a fix. -/
def eastNorthBlock (msg : NavSatFix ℝ) : Matrix (Fin 2) (Fin 2) ℝ :=
  let cov := msg.positionCovariance
  !![cov.get (cell3 0), cov.get (cell3 1); cov.get (cell3 3), cov.get (cell3 4)]

/-- x-y block of the published covariance. -/
def xyBlock (cov : Vector ℝ 36) : Matrix (Fin 2) (Fin 2) ℝ :=
  !![cov.get (cell6 0), cov.get (cell6 1); cov.get (cell6 6), cov.get (cell6 7)]

theorem eastNorthBlock_eq (msg : NavSatFix ℝ) :
    eastNorthBlock msg = (rowMajor 3 cell3 msg.positionCovariance).submatrix ![0, 1] ![0, 1] := by
  ext i j
  fin_cases i <;> fin_cases j <;> rfl

theorem xyBlock_eq (cov : Vector ℝ 36) :
    xyBlock cov = (rowMajor 6 cell6 cov).submatrix ![0, 1] ![0, 1] := by
  ext i j
  fin_cases i <;> fin_cases j <;> rfl

theorem variance_eq_max {cfg : Config ℝ} (hfloor : 0 < cfg.positionVarianceFloor) (value : ℝ) :
    variance cfg value = max value cfg.positionVarianceFloor := by
  simp only [variance, isfinite_real, not_true_eq_false, false_or, zero_literal, pyMax_eq_max]
  split_ifs with h
  · exact (max_eq_right (h.trans hfloor.le)).symm
  · rfl

/-- The two coordinates of the plane among the six of a pose. -/
def planeInPose : Matrix (Fin 6) (Fin 2) ℝ := of fun i j => if (i : ℕ) = j then 1 else 0

noncomputable def mapBlock (cfg : Config ℝ) (msg : NavSatFix ℝ) : Matrix (Fin 2) (Fin 2) ℝ :=
  raise cfg.positionVarianceFloor (transport (planarRotation (-cfg.origin.yawEnu))
    (raise cfg.positionVarianceFloor (eastNorthBlock msg)))

/-- A pose covariance with a full x-y block and an otherwise diagonal matrix. -/
def poseMatrix (p q q' r d e f g : ℝ) : Matrix (Fin 6) (Fin 6) ℝ :=
  !![p, q, 0, 0, 0, 0; q', r, 0, 0, 0, 0; 0, 0, d, 0, 0, 0; 0, 0, 0, e, 0, 0;
    0, 0, 0, 0, f, 0; 0, 0, 0, 0, 0, g]

theorem rowMajor_setCells (p q q' r d e f g : ℝ) :
    rowMajor 6 cell6 (setCells (Vector.replicate 36 (0 : ℝ))
      [(cell6 0, p), (cell6 1, q), (cell6 6, q'), (cell6 7, r), (cell6 14, d), (cell6 21, e),
        (cell6 28, f), (cell6 35, g)]) = poseMatrix p q q' r d e f g := by
  ext i j
  fin_cases i <;> fin_cases j <;> rfl

theorem transport_planeInPose (p q q' r : ℝ) (i j : Fin 6) :
    transport planeInPose !![p, q; q', r] i j =
      if (i : ℕ) = 0 then if (j : ℕ) = 0 then p else if (j : ℕ) = 1 then q else 0
      else if (i : ℕ) = 1 then if (j : ℕ) = 0 then q' else if (j : ℕ) = 1 then r else 0
      else 0 := by
  simp only [transport, planeInPose, mul_apply, Fin.sum_univ_two]
  split_ifs <;> simp [*]

theorem poseMatrix_eq (p q q' r d e f g : ℝ) :
    poseMatrix p q q' r d e f g
      = transport planeInPose !![p, q; q', r] + diagonal ![0, 0, d, e, f, g] := by
  ext i j
  rw [Matrix.add_apply, transport_planeInPose]
  -- in every entry one of the two summands is zero
  fin_cases i <;> fin_cases j <;>
    first
    | exact (add_zero _).symm
    | exact (zero_add _).symm

theorem posSemidef_poseMatrix {p q q' r d e f g : ℝ} (hblock : (!![p, q; q', r]).PosSemidef)
    (hd : 0 ≤ d) (he : 0 ≤ e) (hf : 0 ≤ f) (hg : 0 ≤ g) :
    (poseMatrix p q q' r d e f g).PosSemidef := by
  rw [poseMatrix_eq]
  refine (posSemidef_transport hblock planeInPose).add (.diagonal fun i => ?_)
  fin_cases i
  · exact le_rfl
  · exact le_rfl
  · exact hd
  · exact he
  · exact hf
  · exact hg

section Fix
variable {cfg : Config ℝ} (hfloor : 0 < cfg.positionVarianceFloor) {msg : NavSatFix ℝ}
  (hsymm : (rowMajor 3 cell3 msg.positionCovariance).IsSymm)
include hfloor hsymm

theorem rowMajor_poseCovarianceInMap :
    rowMajor 6 cell6 (poseCovarianceInMap cfg msg)
      = poseMatrix (mapBlock cfg msg 0 0) (mapBlock cfg msg 0 1) (mapBlock cfg msg 1 0)
          (mapBlock cfg msg 1 1) (variance cfg (msg.positionCovariance.get (cell3 8)))
          cfg.rollPitchVariance cfg.rollPitchVariance
          (max cfg.yawVariance cfg.positionVarianceFloor) := by
  have hne : msg.positionCovariance.get (cell3 3) = msg.positionCovariance.get (cell3 1) :=
    hsymm.apply 0 1
  have hraise : raise cfg.positionVarianceFloor (eastNorthBlock msg)
      = !![variance cfg (msg.positionCovariance.get (cell3 0)),
            msg.positionCovariance.get (cell3 1);
          msg.positionCovariance.get (cell3 1),
            variance cfg (msg.positionCovariance.get (cell3 4))] := by
    ext i j
    fin_cases i <;> fin_cases j
    · exact (variance_eq_max hfloor _).symm
    · rfl
    · exact hne
    · exact (variance_eq_max hfloor _).symm
  rw [mapBlock, hraise, transport_planarRotation_neg]
  simp only [poseCovarianceInMap, isfinite_real, if_true, zero_literal, two_literal, cos_real,
    sin_real, pyMax_eq_max, rowMajor_setCells, variance_eq_max hfloor]
  rfl

end Fix

theorem posSemidef_mapBlock {cfg : Config ℝ} {msg : NavSatFix ℝ}
    (hcov : (rowMajor 3 cell3 msg.positionCovariance).PosSemidef) : (mapBlock cfg msg).PosSemidef := by
  have hblock : (eastNorthBlock msg).PosSemidef := by
    rw [eastNorthBlock_eq]
    exact hcov.submatrix _
  exact posSemidef_raise _ (posSemidef_transport (posSemidef_raise _ hblock) _)

/-- The matrix of the message a fix is published with. -/
structure ValidInMap (cfg : Config ℝ) (msg : NavSatFix ℝ) (covariance : Vector ℝ 36) : Prop where
  symmetric : (rowMajor 6 cell6 covariance).IsSymm
  posSemidef : (rowMajor 6 cell6 covariance).PosSemidef
  floor : ∀ i ∈ ([0, 1, 2] : List (Fin 6)), cfg.positionVarianceFloor ≤ rowMajor 6 cell6 covariance i i
  rotated : (∀ i, cfg.positionVarianceFloor ≤ eastNorthBlock msg i i) →
    (∀ i, cfg.positionVarianceFloor
      ≤ transport (planarRotation (-cfg.origin.yawEnu)) (eastNorthBlock msg) i i) →
    xyBlock covariance = transport (planarRotation (-cfg.origin.yawEnu)) (eastNorthBlock msg) ∧
    (xyBlock covariance).trace = (eastNorthBlock msg).trace ∧
    (xyBlock covariance).det = (eastNorthBlock msg).det

theorem validInMap_poseCovarianceInMap {cfg : Config ℝ} (hfloor : 0 < cfg.positionVarianceFloor)
    (hyaw : 0 ≤ cfg.yawVariance) (hrp : 0 ≤ cfg.rollPitchVariance) {msg : NavSatFix ℝ}
    (hcov : (rowMajor 3 cell3 msg.positionCovariance).PosSemidef) :
    ValidInMap cfg msg (poseCovarianceInMap cfg msg) := by
  have hmatrix := rowMajor_poseCovarianceInMap hfloor (isSymm_of_posSemidef hcov)
  have hup : cfg.positionVarianceFloor ≤ variance cfg (msg.positionCovariance.get (cell3 8)) := by
    rw [variance_eq_max hfloor]
    exact le_max_right _ _
  have hblock : xyBlock (poseCovarianceInMap cfg msg) = mapBlock cfg msg := by
    rw [xyBlock_eq, hmatrix]
    ext i j
    fin_cases i <;> fin_cases j <;> rfl
  have hraised (i : Fin 2) : cfg.positionVarianceFloor ≤ mapBlock cfg msg i i := by
    rw [mapBlock, raise, of_apply, if_pos rfl]
    exact le_max_right _ _
  have hpsd : (rowMajor 6 cell6 (poseCovarianceInMap cfg msg)).PosSemidef := by
    rw [hmatrix]
    refine posSemidef_poseMatrix ?_ (hfloor.le.trans hup) hrp hrp (hyaw.trans (le_max_left _ _))
    rw [← eta_fin_two]
    exact posSemidef_mapBlock hcov
  refine ⟨isSymm_of_posSemidef hpsd, hpsd, ?_, fun hin hout => ?_⟩
  · rw [hmatrix, List.forall_mem_cons, List.forall_mem_cons, List.forall_mem_singleton]
    exact ⟨hraised 0, hraised 1, hup⟩
  · have hrot : mapBlock cfg msg
        = transport (planarRotation (-cfg.origin.yawEnu)) (eastNorthBlock msg) := by
      rw [mapBlock, raise_eq_self hin, raise_eq_self hout]
    have horth := planarRotation_orthogonal (-cfg.origin.yawEnu)
    rw [hblock, hrot]
    exact ⟨rfl, trace_transport horth _, det_transport horth _⟩

/-- Every fix with a positive semidefinite covariance is published with one:
symmetric, positive semidefinite and with variances not below the floor. Where no
floor is active the x-y block is the rotated east-north block, with the same trace
and determinant. -/
theorem fix_covariance_valid (cfg : Config ℝ) (hfloor : 0 < cfg.positionVarianceFloor)
    (hyaw : 0 ≤ cfg.yawVariance) (hrp : 0 ≤ cfg.rollPitchVariance) (msg : NavSatFix ℝ)
    (hcov : (rowMajor 3 cell3 msg.positionCovariance).PosSemidef) (s : State ℝ) (now : ℤ)
    (out : Odometry ℝ) (hout : (callback cfg s (.fix msg now)).2 = some out) :
    ValidInMap cfg msg out.pose.covariance := by
  have hcovariance : out.pose.covariance = poseCovarianceInMap cfg msg := by
    simp only [callback, fixCallback] at hout
    split_ifs at hout
    cases hout
    rfl
  rw [hcovariance]
  exact validInMap_poseCovarianceInMap hfloor hyaw hrp hcov

theorem rowMajor_mastFix : rowMajor 3 cell3 mastFix.positionCovariance = 0 := by
  ext i j
  fin_cases i <;> fin_cases j <;> rfl

/-- A receiver that reports no covariance at all. -/
theorem fix_covariance_valid_mast :
    ValidInMap mastConfig mastFix (poseCovarianceInMap mastConfig mastFix) := by
  have hcov : (rowMajor 3 cell3 mastFix.positionCovariance).PosSemidef := by
    rw [rowMajor_mastFix]
    exact .zero
  refine fix_covariance_valid mastConfig ?_ ?_ ?_ mastFix hcov ⟨some 0, 0, 0, 0⟩ 0 _
    (fixCallback_of_heading mastConfig rfl mastFix 0)
  · norm_num [mastConfig]
  · norm_num [mastConfig]
  · norm_num [mastConfig]

end GeoreferencedRtkOdometry
end RtkLocalization
