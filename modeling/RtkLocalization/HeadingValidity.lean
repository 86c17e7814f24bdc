import RtkLocalization.PyFloatMath
import RtkLocalization.MapRelativeHeadingImu

/-!
# Messages without an attitude in the heading chain

`imu_ned_to_enu.py` followed by `map_relative_heading_imu.py` on floats with NaN
and infinities. A quaternion that cannot be normalised becomes the identity and
an unusable covariance becomes the default one, independently of each other, and
the second node passes the covariance on. So the chain publishes a heading for
every message, and what marks it as invalid is only a negative default variance
(`noAttitude_not_trusted_iff`).
-/

namespace RtkLocalization

open PyFloat

/-! ### The two callbacks with their exceptions -/

/-- `_callback`; on an infinite yaw correction `math.cos` raises `ValueError`
before anything is published. -/
noncomputable def ImuNedToEnu.publish (cfg : ImuNedToEnu.Config (PyFloat ℝ))
    (msg : Imu (PyFloat ℝ)) (now : ℤ) : Option (Imu (PyFloat ℝ)) :=
  if isinf cfg.yawCorrection then none else some (ImuNedToEnu.callback cfg msg now)

/-- `_callback`; `normalize_angle` raises `ValueError` on an infinite angle. -/
noncomputable def MapRelativeHeadingImu.publish (cfg : MapRelativeHeadingImu.Config (PyFloat ℝ))
    (msg : Imu (PyFloat ℝ)) : Option (Imu (PyFloat ℝ)) :=
  let absoluteYaw := yawFromQuaternion msg.orientation + cfg.yawOffset
  if isinf (absoluteYaw - cfg.originYawEnu) then none
  else some (MapRelativeHeadingImu.callback cfg msg)

namespace HeadingValidity

noncomputable def chain (imuCfg : ImuNedToEnu.Config (PyFloat ℝ))
    (cfg : MapRelativeHeadingImu.Config (PyFloat ℝ)) (msg : Imu (PyFloat ℝ)) (now : ℤ) :
    Option (Imu (PyFloat ℝ)) :=
  (ImuNedToEnu.publish imuCfg msg now).bind (MapRelativeHeadingImu.publish cfg)

/-- No usable attitude: the quaternion is zero or not finite, or the covariance
carries the mark for "no orientation estimate". -/
def NoAttitude (msg : Imu (PyFloat ℝ)) : Prop :=
  msg.orientation = ⟨0.0, 0.0, 0.0, 0.0⟩ ∨
  ¬ (isfinite msg.orientation.x = true ∧ isfinite msg.orientation.y = true ∧
    isfinite msg.orientation.z = true ∧ isfinite msg.orientation.w = true) ∨
  msg.orientationCovariance.get (cell3 0) = -1.0

/-- What comes out is nothing, or a message marked as having no orientation. -/
def NotTrusted (published : Option (Imu (PyFloat ℝ))) : Prop :=
  ∀ out, published = some out → out.orientationCovariance.get (cell3 0) < 0.0

/-- The covariances that `_sanitize_covariance` replaces by the default. -/
def Replaced (cov : Vector (PyFloat ℝ) 9) : Prop :=
  cov.get (cell3 0) < 0.0 ∨ (∃ v ∈ cov, isfinite v = false) ∨
  (cov.get (cell3 0) = 0.0 ∧ cov.get (cell3 4) = 0.0 ∧ cov.get (cell3 8) = 0.0)

/-! ### Covariance -/

theorem sanitizeCovariance_of_replaced {cov : Vector (PyFloat ℝ) 9} (h : Replaced cov)
    (v : PyFloat ℝ) : ImuNedToEnu.sanitizeCovariance cov v = ImuNedToEnu.covariance v := by
  unfold ImuNedToEnu.sanitizeCovariance
  rcases h with h | ⟨w, hw, hfin⟩ | h
  · rw [if_pos h]
  · have hany : (cov.any fun v => !isfinite v) = true := by
      rw [Vector.any_eq_true']
      exact ⟨w, hw, by rw [hfin]; rfl⟩
    rw [if_pos hany]
    exact ite_self _
  · rw [if_pos h, ite_self, ite_self]

theorem sanitizeCovariance_of_not_replaced {cov : Vector (PyFloat ℝ) 9} (h : ¬ Replaced cov)
    (v : PyFloat ℝ) : ImuNedToEnu.sanitizeCovariance cov v = cov := by
  simp only [Replaced, not_or] at h
  obtain ⟨hneg, hfin, hzero⟩ := h
  have hany : ¬ (cov.any fun v => !isfinite v) = true := by
    intro hany
    rw [Vector.any_eq_true'] at hany
    obtain ⟨w, hw, hbad⟩ := hany
    exact hfin ⟨w, hw, by simpa using hbad⟩
  unfold ImuNedToEnu.sanitizeCovariance
  rw [if_neg hneg, if_neg hany, if_neg hzero]

theorem sanitizeCovariance_neg_iff (cov : Vector (PyFloat ℝ) 9) (v : PyFloat ℝ) :
    (ImuNedToEnu.sanitizeCovariance cov v).get (cell3 0) < 0.0 ↔ v < 0.0 ∧ Replaced cov := by
  by_cases h : Replaced cov
  · rw [sanitizeCovariance_of_replaced h]
    exact (and_iff_left h).symm
  · rw [sanitizeCovariance_of_not_replaced h]
    constructor
    · intro hneg
      exact absurd (Or.inl hneg) h
    · intro hv
      exact absurd hv.2 h

/-! ### Orientation -/

def FiniteQuat (q : Quat (PyFloat ℝ)) : Prop :=
  isfinite q.x = true ∧ isfinite q.y = true ∧ isfinite q.z = true ∧ isfinite q.w = true

theorem isfinite_div {a : PyFloat ℝ} {y : ℝ} (ha : isfinite a = true) (hy : y ≠ 0) :
    isfinite (a / fin y) = true := by
  cases a with
  | fin x => rw [fin_div_fin x hy]; rfl
  | inf => cases ha
  | neginf => cases ha
  | nan => cases ha

theorem finiteQuat_normalizeQuaternion (q : Quat (PyFloat ℝ)) :
    FiniteQuat (ImuNedToEnu.normalizeQuaternion q) := by
  unfold ImuNedToEnu.normalizeQuaternion
  generalize hn : PyMath.sqrt (q.x * q.x + q.y * q.y + q.z * q.z + q.w * q.w) = norm
  dsimp only
  split_ifs with h
  · exact ⟨rfl, rfl, rfl, rfl⟩
  · simp only [not_or, not_not] at h
    obtain ⟨hsmall, hfin⟩ := h
    rw [← hn] at hfin
    have hsum := isfinite_sqrt hfin
    simp only [isfinite_add, isfinite_mul_self] at hsum
    rw [hn] at hfin
    cases norm with
    | fin n =>
      have hpos : n ≠ 0 := by
        rintro rfl
        refine hsmall ?_
        show fin (0 : ℝ) < fin 1.0e-9
        norm_num
      obtain ⟨⟨⟨hx, hy⟩, hz⟩, hw⟩ := hsum
      exact ⟨isfinite_div hx hpos, isfinite_div hy hpos, isfinite_div hz hpos,
        isfinite_div hw hpos⟩
    | inf => cases hfin
    | neginf => cases hfin
    | nan => cases hfin

theorem isfinite_yawFromQuaternion {q : Quat (PyFloat ℝ)} (h : FiniteQuat q) :
    isfinite (yawFromQuaternion q) = true := by
  obtain ⟨hx, hy, hz, hw⟩ := h
  obtain ⟨x, y, z, w⟩ := q
  have hfin : ∀ {a : PyFloat ℝ}, isfinite a = true → ∃ r, a = fin r := by
    intro a ha
    cases a with
    | fin r => exact ⟨r, rfl⟩
    | inf => cases ha
    | neginf => cases ha
    | nan => cases ha
  obtain ⟨x, rfl⟩ := hfin hx
  obtain ⟨y, rfl⟩ := hfin hy
  obtain ⟨z, rfl⟩ := hfin hz
  obtain ⟨w, rfl⟩ := hfin hw
  exact isfinite_atan2 rfl rfl

/-- A finite yaw does not change whether the relative yaw is infinite. -/
theorem isinf_add_sub {y : PyFloat ℝ} (hy : isfinite y = true) (a b : PyFloat ℝ) :
    isinf (y + a - b) = isinf (a - b) := by
  show isinf (add (add y a) (neg b)) = isinf (add a (neg b))
  cases y with
  | fin y => cases a <;> cases b <;> rfl
  | inf => cases hy
  | neginf => cases hy
  | nan => cases hy

/-! ### The chain -/

theorem chain_eq (imuCfg : ImuNedToEnu.Config (PyFloat ℝ))
    (cfg : MapRelativeHeadingImu.Config (PyFloat ℝ)) (msg : Imu (PyFloat ℝ)) (now : ℤ) :
    chain imuCfg cfg msg now =
      if isinf imuCfg.yawCorrection = true ∨ isinf (cfg.yawOffset - cfg.originYawEnu) = true then none
      else some (MapRelativeHeadingImu.callback cfg (ImuNedToEnu.callback imuCfg msg now)) := by
  have hyaw : isfinite (yawFromQuaternion (ImuNedToEnu.callback imuCfg msg now).orientation) = true :=
    isfinite_yawFromQuaternion (finiteQuat_normalizeQuaternion _)
  unfold chain ImuNedToEnu.publish
  cases hcorr : isinf imuCfg.yawCorrection with
  | true => simp
  | false =>
    simp only [Bool.false_eq_true, if_false, Option.bind_some, MapRelativeHeadingImu.publish,
      isinf_add_sub hyaw, false_or]

/-- A message without an attitude is dropped or marked exactly when a trigonometric
function raises, or the configured default variance is itself negative and takes
the place of the covariance. -/
theorem noAttitude_not_trusted_iff (imuCfg : ImuNedToEnu.Config (PyFloat ℝ))
    (cfg : MapRelativeHeadingImu.Config (PyFloat ℝ)) (msg : Imu (PyFloat ℝ)) (now : ℤ) :
    (NoAttitude msg → NotTrusted (chain imuCfg cfg msg now)) ↔
      (NoAttitude msg →
        isinf imuCfg.yawCorrection = true ∨ isinf (cfg.yawOffset - cfg.originYawEnu) = true ∨
        (imuCfg.defaultOrientationVariance < 0.0 ∧ Replaced msg.orientationCovariance)) := by
  refine imp_congr_right fun _ => ?_
  rw [NotTrusted, chain_eq, ← or_assoc]
  by_cases hraise : isinf imuCfg.yawCorrection = true ∨
      isinf (cfg.yawOffset - cfg.originYawEnu) = true
  · rw [if_pos hraise]
    exact iff_of_true (fun out h => by cases h) (Or.inl hraise)
  · rw [if_neg hraise, or_iff_right hraise, ← sanitizeCovariance_neg_iff]
    constructor
    · intro h
      exact h _ rfl
    · rintro h out hout
      obtain rfl := Option.some_injective _ hout
      exact h

noncomputable def defaultImuConfig : ImuNedToEnu.Config (PyFloat ℝ) where
  outputFrameId := "body"
  restampToNow := false
  defaultOrientationVariance := 0.05 * 0.05
  defaultAngularVelocityVariance := 0.02 * 0.02
  defaultLinearAccelerationVariance := 0.20 * 0.20
  yawCorrection := 0.0

noncomputable def blindImu : Imu (PyFloat ℝ) where
  header := ⟨⟨1, 0⟩, "imu"⟩
  orientation := ⟨0.0, 0.0, 0.0, 0.0⟩
  orientationCovariance := setCell (Vector.replicate 9 0.0) (cell3 0) (-1.0)
  angularVelocity := ⟨0.0, 0.0, 0.0⟩
  angularVelocityCovariance := Vector.replicate 9 0.0
  linearAcceleration := ⟨0.0, 0.0, 0.0⟩
  linearAccelerationCovariance := Vector.replicate 9 0.0

/-- The message of an IMU without orientation leaves the chain as a heading with
a variance of 0.0025. -/
theorem blindImu_trusted :
    NoAttitude blindImu ∧ ¬ NotTrusted (chain defaultImuConfig ⟨"body", 0.0, 0.0⟩ blindImu 0) := by
  refine ⟨Or.inl rfl, fun h => ?_⟩
  rw [NotTrusted, chain_eq, if_neg (by decide)] at h
  have hneg := (sanitizeCovariance_neg_iff _ _).mp (h _ rfl)
  have hvar : defaultImuConfig.defaultOrientationVariance = fin (0.05 * 0.05) := rfl
  rw [hvar, PyFloat.zero_literal, fin_lt_fin] at hneg
  norm_num at hneg

end HeadingValidity
end RtkLocalization
