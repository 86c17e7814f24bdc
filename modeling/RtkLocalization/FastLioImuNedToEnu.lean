import RtkLocalization.MapRelativeHeadingImu

/-!
# `imu_ned_to_enu.py` of `FAST_LIO`

The other installed converter. Its vector path is that of `rtk_global_localization`;
the attitude is converted by permuting the quaternion's components, which changes
the body frame together with the world frame, where the other script changes the
world frame only. `converters_agree_iff` says for which attitudes the two publish
the same yaw.
-/

namespace RtkLocalization
namespace FastLioImuNedToEnu
open ImuNedToEnu (quatMultiply rotateXy covariance)

structure Config (α : Type) where
  outputFrameId : String
  defaultCovariance : α
  yawCorrection : α

section Model
variable {α : Type} [Add α] [Sub α] [Mul α] [Div α] [Neg α] [OfScientific α] [PyMath α]
  [IsFinite α] [LT α] [DecidableLT α]

def fallbackCovariance (cfg : Config α) : Vector α 9 := covariance cfg.defaultCovariance

/-- A value that is neither NaN nor infinite is finite; all zeros are kept. -/
def sanitizeCovariance (cfg : Config α) (cov : Vector α 9) : Vector α 9 :=
  if cov.get (cell3 0) < 0.0 then fallbackCovariance cfg
  else if cov.any fun v => !isfinite v then fallbackCovariance cfg
  else cov

def normalizeQuaternion (q : Quat α) : Quat α :=
  let norm := PyMath.sqrt (q.x * q.x + q.y * q.y + q.z * q.z + q.w * q.w)
  if norm < 1e-9 then ⟨0.0, 0.0, 0.0, 1.0⟩
  else ⟨q.x / norm, q.y / norm, q.z / norm, q.w / norm⟩

def convertVector (cfg : Config α) (v : Vec3 α) : Vec3 α :=
  rotateXy ⟨v.y, v.x, -v.z⟩ cfg.yawCorrection

def permuted (q : Quat α) : Quat α := ⟨q.y, q.x, -q.z, q.w⟩

def convertOrientation (cfg : Config α) (q : Quat α) : Quat α :=
  let qEnu := normalizeQuaternion (permuted q)
  let half := cfg.yawCorrection * 0.5
  let qCorr : Quat α := ⟨0.0, 0.0, PyMath.sin half, PyMath.cos half⟩
  normalizeQuaternion (quatMultiply qCorr qEnu)

def imuCallback (cfg : Config α) (msg : Imu α) : Imu α where
  header := { msg.header with frameId := cfg.outputFrameId }
  orientation := convertOrientation cfg msg.orientation
  orientationCovariance := sanitizeCovariance cfg msg.orientationCovariance
  angularVelocity := convertVector cfg msg.angularVelocity
  angularVelocityCovariance := sanitizeCovariance cfg msg.angularVelocityCovariance
  linearAcceleration := convertVector cfg msg.linearAcceleration
  linearAccelerationCovariance := sanitizeCovariance cfg msg.linearAccelerationCovariance

end Model

/-! ### The attitude path as a rotation -/

open Real Rotation MapRelativeHeadingImu
open ImuNedToEnu (axisMap quatMultiply_toH quatMultiply_isUnit)

/-- Exact values have no non-finite norm, the one case the other script tests for. -/
theorem normalizeQuaternion_eq (q : Quat ℝ) :
    normalizeQuaternion q = ImuNedToEnu.normalizeQuaternion q := by
  have heps : (1e-9 : ℝ) = 1.0e-9 := by norm_num
  simp only [normalizeQuaternion, ImuNedToEnu.normalizeQuaternion, isfinite_real, not_true_eq_false,
    or_false, heps]

theorem permuted_isUnit {q : Quat ℝ} (hq : q.IsUnit) : (permuted q).IsUnit := by
  have h : q.x ^ 2 + q.y ^ 2 + q.z ^ 2 + q.w ^ 2 = 1 := hq
  show q.y ^ 2 + q.x ^ 2 + (-q.z) ^ 2 + q.w ^ 2 = 1
  linear_combination h

/-- Permuting the components changes both frames. -/
theorem rotate_permuted (q : Quat ℝ) (v : Vec3 ℝ) :
    (permuted q).rotate v = axisMap (q.rotate (axisMap v)) := by
  simp only [Quat.rotate, rotate_eq, Quat.toH_re, Quat.toH_imI, Quat.toH_imJ, Quat.toH_imK, permuted,
    axisMap, Vec3.mk.injEq]
  refine ⟨by ring, by ring, by ring⟩

theorem convertOrientation_eq (cfg : Config ℝ) {q : Quat ℝ} (hq : q.IsUnit) :
    convertOrientation cfg q = quatMultiply (quaternionFromYaw cfg.yawCorrection) (permuted q) := by
  have hout := quatMultiply_isUnit (quaternionFromYaw_isUnit cfg.yawCorrection) (permuted_isUnit hq)
  rw [← ImuNedToEnu.normalizeQuaternion_of_isUnit hout]
  simp only [convertOrientation, normalizeQuaternion_eq,
    ImuNedToEnu.normalizeQuaternion_of_isUnit (permuted_isUnit hq)]
  rfl

theorem imuCallback_isUnit (cfg : Config ℝ) (msg : Imu ℝ) (hq : msg.orientation.IsUnit) :
    (imuCallback cfg msg).orientation.IsUnit := by
  show (convertOrientation cfg msg.orientation).IsUnit
  rw [convertOrientation_eq cfg hq]
  exact quatMultiply_isUnit (quaternionFromYaw_isUnit _) (permuted_isUnit hq)

theorem imuCallback_rotate (cfg : Config ℝ) (msg : Imu ℝ) (hq : msg.orientation.IsUnit)
    (v : Vec3 ℝ) :
    (imuCallback cfg msg).orientation.rotate v
      = rotZ cfg.yawCorrection (axisMap (msg.orientation.rotate (axisMap v))) := by
  show (convertOrientation cfg msg.orientation).rotate v = _
  rw [convertOrientation_eq cfg hq, Quat.rotate, quatMultiply_toH, rotate_mul, ← rotate_permuted,
    ← rotate_quaternionFromYaw]
  rfl

/-! ### Comparison of the converters -/

theorem convertVector_agrees (cfg : ImuNedToEnu.Config ℝ) (fast : Config ℝ)
    (hc : fast.yawCorrection = cfg.yawCorrection) (v : Vec3 ℝ) :
    convertVector fast v = ImuNedToEnu.convertVector cfg v := by
  rw [convertVector, ImuNedToEnu.convertVector, hc]

/-- The sensor's z axis is horizontal and its x and y axes point to opposite sides
of the horizon. -/
def OnItsSide (q : Quat ℝ) : Prop :=
  (q.rotate ⟨0, 0, 1⟩).z = 0 ∧ (q.rotate ⟨1, 0, 0⟩).z * (q.rotate ⟨0, 1, 0⟩).z < 0

/-- Neither the axis map nor the yaw correction changes whether two vectors have
horizontal parts on one ray. -/
theorem horizontal_rotZ_axisMap (c : ℝ) (v w : Vec3 ℝ) :
    (rotZ c (axisMap v)).x * (rotZ c (axisMap w)).y - (rotZ c (axisMap w)).x * (rotZ c (axisMap v)).y
      = w.x * v.y - v.x * w.y ∧
    (rotZ c (axisMap v)).x * (rotZ c (axisMap w)).x + (rotZ c (axisMap v)).y * (rotZ c (axisMap w)).y
      = v.x * w.x + v.y * w.y := by
  have h := cos_sq_add_sin_sq c
  simp only [rotZ, axisMap]
  constructor
  · linear_combination (w.x * v.y - v.x * w.y) * h
  · linear_combination (v.x * w.x + v.y * w.y) * h

/-- Orthonormality of the rotated axes, read off their vertical components. -/
theorem rotated_axes {q : Quat ℝ} (hq : q.IsUnit) :
    (q.rotate ⟨0, 1, 0⟩).x * (q.rotate ⟨1, 0, 0⟩).y - (q.rotate ⟨1, 0, 0⟩).x * (q.rotate ⟨0, 1, 0⟩).y
      = -(q.rotate ⟨0, 0, 1⟩).z ∧
    (q.rotate ⟨1, 0, 0⟩).x * (q.rotate ⟨0, 1, 0⟩).x + (q.rotate ⟨1, 0, 0⟩).y * (q.rotate ⟨0, 1, 0⟩).y
      = -((q.rotate ⟨1, 0, 0⟩).z * (q.rotate ⟨0, 1, 0⟩).z) := by
  have h : q.x ^ 2 + q.y ^ 2 + q.z ^ 2 + q.w ^ 2 = 1 := hq
  simp only [Quat.rotate, rotate_eq, Quat.toH_re, Quat.toH_imI, Quat.toH_imJ, Quat.toH_imK]
  constructor
  · linear_combination -(q.w ^ 2 - q.x ^ 2 - q.y ^ 2 + q.z ^ 2) * h
  · ring

theorem forward_callback (cfg : ImuNedToEnu.Config ℝ) (msg : Imu ℝ) (now : ℤ)
    (hq : msg.orientation.IsUnit) :
    forward (ImuNedToEnu.callback cfg msg now).orientation
      = rotZ cfg.yawCorrection (axisMap (msg.orientation.rotate ⟨1, 0, 0⟩)) :=
  ImuNedToEnu.callback_rotate cfg msg now hq _

/-- The permuted axes make the sensor's y axis the forward one. -/
theorem forward_imuCallback (cfg : Config ℝ) (msg : Imu ℝ) (hq : msg.orientation.IsUnit) :
    forward (imuCallback cfg msg).orientation
      = rotZ cfg.yawCorrection (axisMap (msg.orientation.rotate ⟨0, 1, 0⟩)) := by
  have haxis : axisMap ⟨1, 0, 0⟩ = ⟨0, 1, 0⟩ := by rw [axisMap, neg_zero]
  rw [forward, imuCallback_rotate cfg msg hq, haxis]

theorem sameYaw_iff (cfg : ImuNedToEnu.Config ℝ) (fast : Config ℝ)
    (hc : fast.yawCorrection = cfg.yawCorrection) (msg : Imu ℝ) (now : ℤ)
    (hq : msg.orientation.IsUnit)
    (hv : NotVertical (ImuNedToEnu.callback cfg msg now).orientation)
    (hv' : NotVertical (imuCallback fast msg).orientation) :
    ((yawFromQuaternion (ImuNedToEnu.callback cfg msg now).orientation : ℝ) : Angle)
        = (yawFromQuaternion (imuCallback fast msg).orientation : ℝ) ↔
      OnItsSide msg.orientation := by
  have hunit : (ImuNedToEnu.callback cfg msg now).orientation.IsUnit :=
    ImuNedToEnu.convertOrientation_isUnit cfg hq
  obtain ⟨hcross, hdot⟩ := horizontal_rotZ_axisMap cfg.yawCorrection
    (msg.orientation.rotate ⟨1, 0, 0⟩) (msg.orientation.rotate ⟨0, 1, 0⟩)
  obtain ⟨harea, hside⟩ := rotated_axes hq
  rw [yawFromQuaternion_eq hunit, yawFromQuaternion_eq (imuCallback_isUnit fast msg hq),
    Planar.coe_atan2_inj, Planar.atan2_eq_iff hv hv', OnItsSide, forward_callback cfg msg now hq,
    forward_imuCallback fast msg hq, hc, hdot, hside, ← sub_eq_zero, hcross, harea, neg_eq_zero,
    neg_pos]

/-- For every unit attitude and yaw correction: the two converters publish the same
vectors, and the same yaw exactly for a sensor that lies on its side. -/
theorem converters_agree_iff (cfg : ImuNedToEnu.Config ℝ) (fast : Config ℝ)
    (hc : fast.yawCorrection = cfg.yawCorrection) (msg : Imu ℝ) (now : ℤ)
    (hq : msg.orientation.IsUnit)
    (hv : NotVertical (ImuNedToEnu.callback cfg msg now).orientation)
    (hv' : NotVertical (imuCallback fast msg).orientation) :
    (((yawFromQuaternion (ImuNedToEnu.callback cfg msg now).orientation : ℝ) : Angle)
        = (yawFromQuaternion (imuCallback fast msg).orientation : ℝ) ∧
      (ImuNedToEnu.callback cfg msg now).angularVelocity = (imuCallback fast msg).angularVelocity ∧
      (ImuNedToEnu.callback cfg msg now).linearAcceleration
        = (imuCallback fast msg).linearAcceleration) ↔
      OnItsSide msg.orientation := by
  rw [← sameYaw_iff cfg fast hc msg now hq hv hv']
  constructor
  · rintro ⟨hyaw, -, -⟩
    exact hyaw
  · intro hyaw
    exact ⟨hyaw, (convertVector_agrees cfg fast hc _).symm, (convertVector_agrees cfg fast hc _).symm⟩

noncomputable section

def defaultConfig : Config ℝ := ⟨"body", 0.01, 0.0⟩

def imuAt (q : Quat ℝ) : Imu ℝ where
  header := ⟨⟨1, 0⟩, "imu"⟩
  orientation := q
  orientationCovariance := covariance 0.01
  angularVelocity := ⟨0, 0, 0⟩
  angularVelocityCovariance := covariance 0.01
  linearAcceleration := ⟨0, 0, 0⟩
  linearAccelerationCovariance := covariance 0.01

theorem converters_agree_on_its_side :
    (⟨0.5, 0.5, 0.1, 0.7⟩ : Quat ℝ).IsUnit ∧
    ((yawFromQuaternion (ImuNedToEnu.callback ImuNedToEnu.defaultConfig
        (imuAt ⟨0.5, 0.5, 0.1, 0.7⟩) 0).orientation : ℝ) : Angle)
      = (yawFromQuaternion (imuCallback defaultConfig
        (imuAt ⟨0.5, 0.5, 0.1, 0.7⟩)).orientation : ℝ) := by
  have hq : (imuAt ⟨0.5, 0.5, 0.1, 0.7⟩).orientation.IsUnit := by
    norm_num [Quat.IsUnit, imuAt]
  refine ⟨hq, ((converters_agree_iff ImuNedToEnu.defaultConfig defaultConfig rfl _ 0 hq ?_ ?_).mpr
    ?_).1⟩
  · left
    rw [forward_callback _ _ _ hq]
    norm_num [ImuNedToEnu.defaultConfig, rotZ, axisMap, Quat.rotate, rotate_eq, imuAt]
  · left
    rw [forward_imuCallback _ _ hq]
    norm_num [defaultConfig, rotZ, axisMap, Quat.rotate, rotate_eq, imuAt]
  · norm_num [OnItsSide, Quat.rotate, rotate_eq, imuAt]

/-- A level vehicle facing north: one converter publishes a right angle, the other
no turn. -/
theorem converters_disagree_level :
    (imuAt ⟨0, 0, 0, 1⟩).orientation.IsUnit ∧
    NotVertical (ImuNedToEnu.callback ImuNedToEnu.defaultConfig (imuAt ⟨0, 0, 0, 1⟩) 0).orientation ∧
    NotVertical (imuCallback defaultConfig (imuAt ⟨0, 0, 0, 1⟩)).orientation ∧
    ((yawFromQuaternion (ImuNedToEnu.callback ImuNedToEnu.defaultConfig
        (imuAt ⟨0, 0, 0, 1⟩) 0).orientation : ℝ) : Angle)
      ≠ (yawFromQuaternion (imuCallback defaultConfig (imuAt ⟨0, 0, 0, 1⟩)).orientation : ℝ) := by
  have hq : (imuAt ⟨0, 0, 0, 1⟩).orientation.IsUnit := by
    norm_num [Quat.IsUnit, imuAt]
  have hv : NotVertical
      (ImuNedToEnu.callback ImuNedToEnu.defaultConfig (imuAt ⟨0, 0, 0, 1⟩) 0).orientation := by
    right
    rw [forward_callback _ _ _ hq]
    norm_num [ImuNedToEnu.defaultConfig, rotZ, axisMap, Quat.rotate, rotate_eq, imuAt]
  have hv' : NotVertical (imuCallback defaultConfig (imuAt ⟨0, 0, 0, 1⟩)).orientation := by
    left
    rw [forward_imuCallback _ _ hq]
    norm_num [defaultConfig, rotZ, axisMap, Quat.rotate, rotate_eq, imuAt]
  refine ⟨hq, hv, hv', ?_⟩
  rw [Ne, sameYaw_iff ImuNedToEnu.defaultConfig defaultConfig rfl _ 0 hq hv hv']
  rintro ⟨hside, -⟩
  norm_num [Quat.rotate, rotate_eq, imuAt] at hside

end

end FastLioImuNedToEnu
end RtkLocalization
