import RtkLocalization.PyMath

/-!
# `imu_ned_to_enu.py`

Stateless conversion of an IMU message from NED to ENU. The attitude is
multiplied from the left by the half turn that swaps x and y and negates z, and
by the yaw correction; the vectors go through the same two maps directly.
`callback_rotate` says that the attitude is converted correctly: the published
orientation is the input rotation followed by the axis map and the correction.
-/

namespace RtkLocalization
namespace ImuNedToEnu

structure Config (α : Type) where
  outputFrameId : String
  restampToNow : Bool
  defaultOrientationVariance : α
  defaultAngularVelocityVariance : α
  defaultLinearAccelerationVariance : α
  yawCorrection : α

section Model
variable {α : Type} [Add α] [Sub α] [Mul α] [Div α] [Neg α] [OfScientific α] [PyMath α]
  [IsFinite α] [LT α] [DecidableLT α] [DecidableEq α]

def normalizeQuaternion (q : Quat α) : Quat α :=
  let norm := PyMath.sqrt (q.x * q.x + q.y * q.y + q.z * q.z + q.w * q.w)
  if norm < 1.0e-9 ∨ ¬ isfinite norm = true then ⟨0.0, 0.0, 0.0, 1.0⟩
  else ⟨q.x / norm, q.y / norm, q.z / norm, q.w / norm⟩

def quatMultiply (q1 q2 : Quat α) : Quat α :=
  ⟨q1.w * q2.x + q1.x * q2.w + q1.y * q2.z - q1.z * q2.y,
    q1.w * q2.y - q1.x * q2.z + q1.y * q2.w + q1.z * q2.x,
    q1.w * q2.z + q1.x * q2.y - q1.y * q2.x + q1.z * q2.w,
    q1.w * q2.w - q1.x * q2.x - q1.y * q2.y - q1.z * q2.z⟩

/-- `_rotate_xy`, with the z component carried along. -/
def rotateXy (v : Vec3 α) (yaw : α) : Vec3 α :=
  let c := PyMath.cos yaw
  let s := PyMath.sin yaw
  ⟨v.x * c - v.y * s, v.x * s + v.y * c, v.z⟩

def nedToEnuQuaternion (qNed : Quat α) : Quat α :=
  let qRot : Quat α := ⟨PyMath.sqrt 0.5, PyMath.sqrt 0.5, 0.0, 0.0⟩
  quatMultiply qRot qNed

def covariance (defaultVariance : α) : Vector α 9 :=
  #v[defaultVariance, 0.0, 0.0, 0.0, defaultVariance, 0.0, 0.0, 0.0, defaultVariance]

/-- `_sanitize_covariance`; the length test cannot fail on a message field. -/
def sanitizeCovariance (cov : Vector α 9) (defaultVariance : α) : Vector α 9 :=
  if cov.get (cell3 0) < 0.0 then covariance defaultVariance
  else if cov.any fun v => !isfinite v then covariance defaultVariance
  else if cov.get (cell3 0) = 0.0 ∧ cov.get (cell3 4) = 0.0 ∧ cov.get (cell3 8) = 0.0 then
    covariance defaultVariance
  else cov

/-- The vector path of `_callback`: `x_e = y_n`, `y_e = x_n`, `z_e = -z_n`, then
the yaw correction. -/
def convertVector (cfg : Config α) (v : Vec3 α) : Vec3 α :=
  rotateXy ⟨v.y, v.x, -v.z⟩ cfg.yawCorrection

def convertOrientation (cfg : Config α) (qNed : Quat α) : Quat α :=
  let qEnu := normalizeQuaternion (nedToEnuQuaternion qNed)
  let half := cfg.yawCorrection * 0.5
  let qCorr : Quat α := ⟨0.0, 0.0, PyMath.sin half, PyMath.cos half⟩
  normalizeQuaternion (quatMultiply qCorr qEnu)

/-- `_callback`; `now` is the clock reading in nanoseconds. -/
def callback (cfg : Config α) (msg : Imu α) (now : ℤ) : Imu α where
  header :=
    { stamp := if cfg.restampToNow then Stamp.ofNanoseconds now else msg.header.stamp
      frameId := cfg.outputFrameId }
  orientation := convertOrientation cfg msg.orientation
  orientationCovariance :=
    sanitizeCovariance msg.orientationCovariance cfg.defaultOrientationVariance
  angularVelocity := convertVector cfg msg.angularVelocity
  angularVelocityCovariance :=
    sanitizeCovariance msg.angularVelocityCovariance cfg.defaultAngularVelocityVariance
  linearAcceleration := convertVector cfg msg.linearAcceleration
  linearAccelerationCovariance :=
    sanitizeCovariance msg.linearAccelerationCovariance cfg.defaultLinearAccelerationVariance

end Model

/-! ### The attitude path as a rotation -/

open Real Rotation

theorem quatMultiply_toH (p q : Quat ℝ) : (quatMultiply p q).toH = p.toH * q.toH := by
  ext
  · simp only [quatMultiply, Quat.toH_re, Quaternion.re_mul, Quat.toH_imI, Quat.toH_imJ,
      Quat.toH_imK]
  · simp only [quatMultiply, Quat.toH_re, Quaternion.imI_mul, Quat.toH_imI, Quat.toH_imJ,
      Quat.toH_imK]
  · simp only [quatMultiply, Quat.toH_re, Quaternion.imJ_mul, Quat.toH_imI, Quat.toH_imJ,
      Quat.toH_imK]
  · simp only [quatMultiply, Quat.toH_re, Quaternion.imK_mul, Quat.toH_imI, Quat.toH_imJ,
      Quat.toH_imK]

theorem quatMultiply_isUnit {p q : Quat ℝ} (hp : p.IsUnit) (hq : q.IsUnit) :
    (quatMultiply p q).IsUnit := by
  rw [Quat.isUnit_iff] at *
  rw [quatMultiply_toH, map_mul, hp, hq, one_mul]

theorem normalizeQuaternion_of_isUnit {q : Quat ℝ} (hq : q.IsUnit) : normalizeQuaternion q = q := by
  have h : q.x * q.x + q.y * q.y + q.z * q.z + q.w * q.w = 1 := by
    have hq' : q.x ^ 2 + q.y ^ 2 + q.z ^ 2 + q.w ^ 2 = 1 := hq
    linear_combination hq'
  have hsmall : ¬ (1 : ℝ) < 1.0e-9 := by norm_num
  simp only [normalizeQuaternion, sqrt_real, h, sqrt_one, isfinite_real, hsmall, not_true_eq_false,
    or_self, if_false, div_one]

def axisMap (v : Vec3 ℝ) : Vec3 ℝ := ⟨v.y, v.x, -v.z⟩

noncomputable def qRot : Quat ℝ := ⟨√(0.5 : ℝ), √(0.5 : ℝ), 0, 0⟩

theorem sqrt_half_sq : √(0.5 : ℝ) ^ 2 = 1 / 2 := by
  rw [sq_sqrt (by norm_num)]
  norm_num

theorem qRot_isUnit : qRot.IsUnit := by
  have h := sqrt_half_sq
  show √(0.5 : ℝ) ^ 2 + √(0.5 : ℝ) ^ 2 + 0 ^ 2 + 0 ^ 2 = 1
  linarith

theorem rotate_qRot (v : Vec3 ℝ) : qRot.rotate v = axisMap v := by
  have h := sqrt_half_sq
  rw [Quat.rotate, rotate_eq]
  simp only [Quat.toH_re, Quat.toH_imI, Quat.toH_imJ, Quat.toH_imK, qRot, axisMap, Vec3.mk.injEq]
  refine ⟨?_, ?_, ?_⟩
  · linear_combination 2 * v.y * h
  · linear_combination 2 * v.x * h
  · linear_combination -2 * v.z * h

theorem nedToEnuQuaternion_eq (q : Quat ℝ) : nedToEnuQuaternion q = quatMultiply qRot q := by
  simp only [nedToEnuQuaternion, qRot, zero_literal, sqrt_real]

theorem convertOrientation_eq (cfg : Config ℝ) {q : Quat ℝ} (hq : q.IsUnit) :
    convertOrientation cfg q
      = quatMultiply (quaternionFromYaw cfg.yawCorrection) (quatMultiply qRot q) := by
  have henu : (quatMultiply qRot q).IsUnit := quatMultiply_isUnit qRot_isUnit hq
  have hout := quatMultiply_isUnit (quaternionFromYaw_isUnit cfg.yawCorrection) henu
  rw [← normalizeQuaternion_of_isUnit hout]
  simp only [convertOrientation, nedToEnuQuaternion_eq, normalizeQuaternion_of_isUnit henu]
  rfl

theorem convertOrientation_isUnit (cfg : Config ℝ) {q : Quat ℝ} (hq : q.IsUnit) :
    (convertOrientation cfg q).IsUnit := by
  rw [convertOrientation_eq cfg hq]
  exact quatMultiply_isUnit (quaternionFromYaw_isUnit _) (quatMultiply_isUnit qRot_isUnit hq)

theorem callback_rotate (cfg : Config ℝ) (msg : Imu ℝ) (now : ℤ) (hq : msg.orientation.IsUnit)
    (v : Vec3 ℝ) :
    (callback cfg msg now).orientation.rotate v
      = rotZ cfg.yawCorrection (axisMap (msg.orientation.rotate v)) := by
  show (convertOrientation cfg msg.orientation).rotate v = _
  rw [convertOrientation_eq cfg hq, Quat.rotate, quatMultiply_toH, quatMultiply_toH, rotate_mul,
    rotate_mul, ← rotate_quaternionFromYaw, ← rotate_qRot]
  rfl

/-! ### The vector path -/

theorem convertVector_eq (cfg : Config ℝ) (v : Vec3 ℝ) :
    convertVector cfg v = rotZ cfg.yawCorrection (axisMap v) := by
  simp only [convertVector, rotateXy, rotZ, axisMap, cos_real, sin_real, Vec3.mk.injEq]
  refine ⟨by ring, by ring, trivial⟩

/-- The horizontal line at angle `π/4 + c/2`: the axis of the half turn that
axis map and yaw correction make together. -/
def OnHalfTurnAxis (c : ℝ) (v : Vec3 ℝ) : Prop :=
  v.z = 0 ∧ v.x * sin (π / 4.0 + c / 2.0) = v.y * cos (π / 4.0 + c / 2.0)

theorem cos_sin_of_half_axis (c : ℝ) :
    cos c = 2 * sin (π / 4.0 + c / 2.0) * cos (π / 4.0 + c / 2.0) ∧
    sin c = 2 * sin (π / 4.0 + c / 2.0) ^ 2 - 1 := by
  have h2 : 2 * (π / 4.0 + c / 2.0) = c + π / 2 := by
    norm_num
    ring
  constructor
  · rw [← sin_two_mul, h2, sin_add_pi_div_two]
  · have h := cos_two_mul' (π / 4.0 + c / 2.0)
    rw [h2, cos_add_pi_div_two] at h
    linarith [cos_sq_add_sin_sq (π / 4.0 + c / 2.0)]

theorem rotZ_axisMap_eq_self_iff (c : ℝ) (v : Vec3 ℝ) :
    rotZ c (axisMap v) = v ↔ OnHalfTurnAxis c v := by
  obtain ⟨hcos, hsin⟩ := cos_sin_of_half_axis c
  set S := sin (π / 4.0 + c / 2.0)
  set C := cos (π / 4.0 + c / 2.0)
  have h1 : C ^ 2 + S ^ 2 = 1 := cos_sq_add_sin_sq _
  constructor
  · intro h
    have hx : cos c * v.y - sin c * v.x = v.x := congrArg Vec3.x h
    have hy : sin c * v.y + cos c * v.x = v.y := congrArg Vec3.y h
    have hz : -v.z = v.z := congrArg Vec3.z h
    rw [hcos, hsin] at hx hy
    refine ⟨by linarith, ?_⟩
    -- S and C times the difference both vanish
    show v.x * S = v.y * C
    linear_combination (-S / 2) * hx + (C / 2) * hy - (C * v.y + v.x * S - v.y * C) * h1
  · rintro ⟨hz, hxy⟩
    have hxy' : v.x * S = v.y * C := hxy
    ext
    · change cos c * v.y - sin c * v.x = v.x
      rw [hcos, hsin]
      linear_combination (-2 * S) * hxy'
    · change sin c * v.y + cos c * v.x = v.y
      rw [hcos, hsin]
      linear_combination (2 * C) * hxy' + 2 * v.y * h1
    · change -v.z = v.z
      rw [hz, neg_zero]

/-! ### Agreement of the two paths -/

/-- What a reader of the published message expects of one of its vectors: taken
to the world frame by the published orientation it is the input vector, taken to
the NED world by the input orientation and from there to ENU. -/
def VectorConsistent (cfg : Config ℝ) (msg : Imu ℝ) (now : ℤ) (vec : Imu ℝ → Vec3 ℝ) : Prop :=
  let out := callback cfg msg now
  out.orientation.rotate (vec out)
    = rotZ cfg.yawCorrection (axisMap (msg.orientation.rotate (vec msg)))

/-- The orientation already carries the change of world frame, so a consistent
vector is one that the vector path leaves alone. -/
theorem vectorConsistent_iff (cfg : Config ℝ) (msg : Imu ℝ) (now : ℤ) (vec : Imu ℝ → Vec3 ℝ)
    (hq : msg.orientation.IsUnit)
    (hvec : vec (callback cfg msg now) = convertVector cfg (vec msg)) :
    VectorConsistent cfg msg now vec ↔ OnHalfTurnAxis cfg.yawCorrection (vec msg) := by
  have hout : (callback cfg msg now).orientation.IsUnit := convertOrientation_isUnit cfg hq
  rw [← rotZ_axisMap_eq_self_iff, ← convertVector_eq, ← hvec]
  simp only [VectorConsistent]
  rw [← callback_rotate cfg msg now hq]
  exact rotate_inj ((Quat.isUnit_iff _).mp hout)

/-- Exactly the vectors on the axis of the combined half turn are published
consistently with the published orientation. -/
theorem callback_vectors_consistent_iff (cfg : Config ℝ) (msg : Imu ℝ) (now : ℤ)
    (hq : msg.orientation.IsUnit) :
    (VectorConsistent cfg msg now Imu.linearAcceleration ↔
      OnHalfTurnAxis cfg.yawCorrection msg.linearAcceleration) ∧
    (VectorConsistent cfg msg now Imu.angularVelocity ↔
      OnHalfTurnAxis cfg.yawCorrection msg.angularVelocity) :=
  ⟨vectorConsistent_iff cfg msg now _ hq rfl, vectorConsistent_iff cfg msg now _ hq rfl⟩

noncomputable def defaultConfig : Config ℝ where
  outputFrameId := "body"
  restampToNow := false
  defaultOrientationVariance := 0.0025
  defaultAngularVelocityVariance := 0.0004
  defaultLinearAccelerationVariance := 0.04
  yawCorrection := 0.0

/-- A level vehicle facing north in NED, at rest but for its acceleration `a`. -/
noncomputable def levelImu (a : Vec3 ℝ) : Imu ℝ where
  header := ⟨⟨1, 0⟩, "imu"⟩
  orientation := ⟨0, 0, 0, 1⟩
  orientationCovariance := covariance 0
  angularVelocity := ⟨0, 0, 0⟩
  angularVelocityCovariance := covariance 0
  linearAcceleration := a
  linearAccelerationCovariance := covariance 0

theorem levelImu_isUnit (a : Vec3 ℝ) : (levelImu a).orientation.IsUnit := by
  show (0 : ℝ) ^ 2 + 0 ^ 2 + 0 ^ 2 + 1 ^ 2 = 1
  norm_num

theorem onHalfTurnAxis_defaultConfig (v : Vec3 ℝ) :
    OnHalfTurnAxis defaultConfig.yawCorrection v ↔ v.z = 0 ∧ v.x = v.y := by
  have hc : π / 4.0 + defaultConfig.yawCorrection / 2.0 = π / 4 := by norm_num [defaultConfig]
  have hne : √2 / 2 ≠ 0 := by positivity
  simp only [OnHalfTurnAxis, hc, sin_pi_div_four, cos_pi_div_four, mul_left_inj' hne]

theorem callback_diagonal_consistent :
    VectorConsistent defaultConfig (levelImu ⟨1, 1, 0⟩) 0 Imu.linearAcceleration := by
  have h := callback_vectors_consistent_iff defaultConfig (levelImu ⟨1, 1, 0⟩) 0 (levelImu_isUnit _)
  exact h.1.mpr ((onHalfTurnAxis_defaultConfig _).mpr ⟨rfl, rfl⟩)

/-- Forward acceleration of a vehicle that faces north reaches the world frame as
east. -/
theorem callback_forward_inconsistent :
    (levelImu ⟨1, 0, 0⟩).orientation.IsUnit ∧
    ¬ VectorConsistent defaultConfig (levelImu ⟨1, 0, 0⟩) 0 Imu.linearAcceleration := by
  refine ⟨levelImu_isUnit _, ?_⟩
  rw [vectorConsistent_iff _ _ _ _ (levelImu_isUnit _) rfl, onHalfTurnAxis_defaultConfig]
  rintro ⟨-, hxy⟩
  exact one_ne_zero hxy

end ImuNedToEnu
end RtkLocalization
