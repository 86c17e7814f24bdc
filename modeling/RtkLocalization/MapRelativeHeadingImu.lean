import RtkLocalization.ImuNedToEnu

/-!
# `map_relative_heading_imu.py`

The heading IMU reduced to its yaw, measured from the map's x axis.
`heading_chain` follows an NED attitude through `imu_ned_to_enu.py` and this
node.
-/

namespace RtkLocalization
namespace MapRelativeHeadingImu

/-- `origin_yaw_enu` is the `yaw_enu` entry of the origin file as parsed. -/
structure Config (α : Type) where
  outputFrameId : String
  yawOffset : α
  originYawEnu : α

section Model
variable {α : Type} [Add α] [Sub α] [Mul α] [OfScientific α] [PyMath α]

/-- `_callback`, without the message counters of its log line. -/
def callback (cfg : Config α) (msg : Imu α) : Imu α :=
  let absoluteYaw := yawFromQuaternion msg.orientation + cfg.yawOffset
  let relativeYaw := normalizeAngle (absoluteYaw - cfg.originYawEnu)
  { header := { msg.header with frameId := cfg.outputFrameId }
    orientation := quaternionFromYaw relativeYaw
    orientationCovariance := msg.orientationCovariance
    angularVelocity := msg.angularVelocity
    angularVelocityCovariance := msg.angularVelocityCovariance
    linearAcceleration := msg.linearAcceleration
    linearAccelerationCovariance := msg.linearAccelerationCovariance }

end Model

open Real Rotation

theorem callback_yaw (cfg : Config ℝ) (msg : Imu ℝ) :
    yawFromQuaternion (callback cfg msg).orientation
      = normalizeAngle (yawFromQuaternion msg.orientation + cfg.yawOffset - cfg.originYawEnu) := by
  obtain ⟨hlo, hhi⟩ := normalizeAngle_mem
    (yawFromQuaternion msg.orientation + cfg.yawOffset - cfg.originYawEnu)
  exact yawFromQuaternion_quaternionFromYaw hlo hhi

/-! ### NED headings -/

/-- `ψ` is the heading of an attitude in the NED world (x north, y east, z down):
the angle, clockwise from north, of the horizontal part of the forward axis. -/
def HasNedHeading (q : Quat ℝ) (ψ : ℝ) : Prop :=
  ∃ r : ℝ, 0 < r ∧ (forward q).x = r * cos ψ ∧ (forward q).y = r * sin ψ

def NotVertical (q : Quat ℝ) : Prop := (forward q).x ≠ 0 ∨ (forward q).y ≠ 0

/-- Exactly the attitudes with a vertical forward axis have no heading. -/
theorem exists_hasNedHeading_iff (q : Quat ℝ) : (∃ ψ, HasNedHeading q ψ) ↔ NotVertical q := by
  constructor
  · rintro ⟨ψ, r, hr, hx, hy⟩
    by_contra hv
    simp only [NotVertical, ne_eq, not_or, not_not] at hv
    have hcos : cos ψ = 0 := by
      simpa only [hv.1, zero_eq_mul, hr.ne', false_or] using hx
    have hsin : sin ψ = 0 := by
      simpa only [hv.2, zero_eq_mul, hr.ne', false_or] using hy
    have h1 := cos_sq_add_sin_sq ψ
    rw [hcos, hsin] at h1
    norm_num at h1
  · intro hv
    refine ⟨Planar.atan2 (forward q).y (forward q).x, Planar.hypot (forward q).x (forward q).y,
      ?_, ?_, ?_⟩
    · exact Planar.hypot_pos_of_ne hv
    · exact (Planar.hypot_mul_cos_atan2 _ _).symm
    · exact (Planar.hypot_mul_sin_atan2 _ _).symm

theorem coe_yaw_imuNedToEnu (cfg : ImuNedToEnu.Config ℝ) (msg : Imu ℝ) (now : ℤ)
    (hq : msg.orientation.IsUnit) {ψ : ℝ} (hψ : HasNedHeading msg.orientation ψ) :
    ((yawFromQuaternion (ImuNedToEnu.callback cfg msg now).orientation : ℝ) : Angle)
      = (π / 2 - ψ + cfg.yawCorrection : ℝ) := by
  obtain ⟨r, hr, hx, hy⟩ := hψ
  have hunit : (ImuNedToEnu.callback cfg msg now).orientation.IsUnit :=
    ImuNedToEnu.convertOrientation_isUnit cfg hq
  have hf : forward (ImuNedToEnu.callback cfg msg now).orientation
      = rotZ cfg.yawCorrection (ImuNedToEnu.axisMap (forward msg.orientation)) :=
    ImuNedToEnu.callback_rotate cfg msg now hq _
  -- the axis map turns north-clockwise into east-counterclockwise
  have hcos : cos (π / 2 - ψ) = sin ψ := cos_pi_div_two_sub ψ
  have hsin : sin (π / 2 - ψ) = cos ψ := sin_pi_div_two_sub ψ
  refine coe_yawFromQuaternion hunit hr ?_ ?_
  · rw [hf, cos_add, hcos, hsin]
    simp only [rotZ, ImuNedToEnu.axisMap, hx, hy]
    ring
  · rw [hf, sin_add, hcos, hsin]
    simp only [rotZ, ImuNedToEnu.axisMap, hx, hy]
    ring

/-! ### The chain -/

/-- From NED attitude to map heading, for any roll and pitch: a rotation about z
whose yaw is the heading turned into ENU, corrected and measured from the map. -/
theorem heading_chain (imuCfg : ImuNedToEnu.Config ℝ) (cfg : Config ℝ) (msg : Imu ℝ) (now : ℤ)
    (ψ : ℝ) (hq : msg.orientation.IsUnit) (hψ : HasNedHeading msg.orientation ψ) :
    let out := (callback cfg (ImuNedToEnu.callback imuCfg msg now)).orientation
    out.x = 0 ∧ out.y = 0 ∧ out.IsUnit ∧
    ((yawFromQuaternion out : ℝ) : Angle)
      = (π / 2 - ψ + imuCfg.yawCorrection + cfg.yawOffset - cfg.originYawEnu : ℝ) ∧
    -π < yawFromQuaternion out ∧ yawFromQuaternion out ≤ π := by
  intro out
  refine ⟨zero_literal, zero_literal, quaternionFromYaw_isUnit _, ?_, ?_⟩
  · rw [callback_yaw, coe_normalizeAngle, Angle.coe_sub, Angle.coe_add,
      coe_yaw_imuNedToEnu imuCfg msg now hq hψ, ← Angle.coe_add, ← Angle.coe_sub]
  · rw [callback_yaw]
    exact normalizeAngle_mem _

theorem hasNedHeading_levelImu (a : Vec3 ℝ) :
    HasNedHeading (ImuNedToEnu.levelImu a).orientation 0 := by
  have hid : (ImuNedToEnu.levelImu a).orientation = quaternionFromYaw 0 := by
    simp [ImuNedToEnu.levelImu, quaternionFromYaw]
  refine ⟨1, one_pos, ?_, ?_⟩
  · rw [hid, forward, rotate_quaternionFromYaw]
    simp [rotZ]
  · rw [hid, forward, rotate_quaternionFromYaw]
    simp [rotZ]

theorem heading_chain_north :
    let out := (callback ⟨"body", 0, 0⟩
      (ImuNedToEnu.callback ImuNedToEnu.defaultConfig (ImuNedToEnu.levelImu ⟨0, 0, 0⟩) 0)).orientation
    (ImuNedToEnu.levelImu ⟨0, 0, 0⟩).orientation.IsUnit ∧
    ((yawFromQuaternion out : ℝ) : Angle) = (π / 2 : ℝ) := by
  intro out
  have hq := ImuNedToEnu.levelImu_isUnit ⟨0, 0, 0⟩
  obtain ⟨-, -, -, hyaw, -⟩ := heading_chain ImuNedToEnu.defaultConfig ⟨"body", 0, 0⟩
    (ImuNedToEnu.levelImu ⟨0, 0, 0⟩) 0 0 hq (hasNedHeading_levelImu _)
  refine ⟨hq, hyaw.trans ?_⟩
  congr 1
  simp only [ImuNedToEnu.defaultConfig, zero_literal]
  ring

end MapRelativeHeadingImu
end RtkLocalization
