import RtkLocalization.MapRelativeHeadingImu

/-!
# `pose_heading_to_imu.py`

A pose turned into a heading message. The quaternion is accepted at any norm above
`1e-6`, but `yaw_from_quaternion` is written for unit ones: a norm other than one
moves the cosine argument of its arctangent and with it the heading.
`published_heading_iff` says on which accepted poses this does no harm.
-/

namespace RtkLocalization
namespace PoseHeadingToImu

structure Config (α : Type) where
  outputFrameId : String
  restampToNow : Bool
  yawOffset : α
  publishYawOnly : Bool
  yawVariance : α
  rollPitchVariance : α

section Model
variable {α : Type} [Add α] [Sub α] [Mul α] [Neg α] [OfScientific α] [PyMath α] [IsFinite α] [LT α]
  [DecidableLT α]

def norm (q : Quat α) : α := PyMath.sqrt (q.x * q.x + q.y * q.y + q.z * q.z + q.w * q.w)

def ValidQuaternion (q : Quat α) : Prop := isfinite (norm q) = true ∧ 1.0e-6 < norm q

instance (q : Quat α) : Decidable (ValidQuaternion q) := inferInstanceAs (Decidable (_ ∧ _))

def orientationCovariance (cfg : Config α) : Vector α 9 :=
  #v[cfg.rollPitchVariance, 0.0, 0.0, 0.0, cfg.rollPitchVariance, 0.0, 0.0, 0.0, cfg.yawVariance]

/-- A covariance whose first entry marks the quantity as not measured. -/
def notMeasured : Vector α 9 := setCell (Vector.replicate 9 0.0) (cell3 0) (-1.0)

/-- `_callback`, without the counters of its log line; `none` where the pose is dropped. -/
def callback (cfg : Config α) (msg : PoseStamped α) (now : ℤ) : Option (Imu α) :=
  if ValidQuaternion msg.pose.orientation then
    some
      { header :=
          { stamp := if cfg.restampToNow then Stamp.ofNanoseconds now else msg.header.stamp
            frameId := cfg.outputFrameId }
        orientation :=
          if cfg.publishYawOnly then
            quaternionFromYaw (yawFromQuaternion msg.pose.orientation + cfg.yawOffset)
          else msg.pose.orientation
        orientationCovariance := orientationCovariance cfg
        angularVelocity := ⟨0.0, 0.0, 0.0⟩
        angularVelocityCovariance := notMeasured
        linearAcceleration := ⟨0.0, 0.0, 0.0⟩
        linearAccelerationCovariance := notMeasured }
  else none

end Model

/-! ### The heading of a quaternion of any norm -/

open Real Rotation MapRelativeHeadingImu

noncomputable def normalized (q : Quat ℝ) : Quat ℝ :=
  ⟨q.x / norm q, q.y / norm q, q.z / norm q, q.w / norm q⟩

def scaled (k : ℝ) (q : Quat ℝ) : Quat ℝ := ⟨k * q.x, k * q.y, k * q.z, k * q.w⟩

theorem norm_sq (q : Quat ℝ) : norm q ^ 2 = q.x ^ 2 + q.y ^ 2 + q.z ^ 2 + q.w ^ 2 := by
  have hnonneg : 0 ≤ q.x * q.x + q.y * q.y + q.z * q.z + q.w * q.w := by
    linarith [mul_self_nonneg q.x, mul_self_nonneg q.y, mul_self_nonneg q.z, mul_self_nonneg q.w]
  rw [norm, sqrt_real, sq_sqrt hnonneg]
  ring

theorem norm_scaled {k : ℝ} (hk : 0 ≤ k) (q : Quat ℝ) : norm (scaled k q) = k * norm q := by
  have h : k * q.x * (k * q.x) + k * q.y * (k * q.y) + k * q.z * (k * q.z) + k * q.w * (k * q.w)
      = k ^ 2 * (q.x * q.x + q.y * q.y + q.z * q.z + q.w * q.w) := by ring
  simp only [norm, scaled, sqrt_real]
  rw [h, sqrt_mul (sq_nonneg k), sqrt_sq hk]

theorem ValidQuaternion.norm_pos {q : Quat ℝ} (h : ValidQuaternion q) : 0 < norm q :=
  lt_trans (by norm_num) h.2

theorem forward_scaled (k : ℝ) (q : Quat ℝ) :
    (forward (scaled k q)).x = k ^ 2 * (forward q).x ∧
    (forward (scaled k q)).y = k ^ 2 * (forward q).y := by
  simp only [forward, Quat.rotate, rotate_eq, Quat.toH_re, Quat.toH_imI, Quat.toH_imJ, Quat.toH_imK,
    scaled]
  constructor <;> ring

theorem forward_x (q : Quat ℝ) : (forward q).x = norm q ^ 2 - 2 * (q.y * q.y + q.z * q.z) := by
  rw [norm_sq]
  simp only [forward, Quat.rotate, rotate_eq, Quat.toH_re, Quat.toH_imI, Quat.toH_imJ, Quat.toH_imK]
  ring

theorem forward_y (q : Quat ℝ) : (forward q).y = 2 * (q.w * q.z + q.x * q.y) := by
  simp only [forward, Quat.rotate, rotate_eq, Quat.toH_re, Quat.toH_imI, Quat.toH_imJ, Quat.toH_imK]
  ring

/-- What the formula computes when the norm is not one. -/
theorem yawFromQuaternion_any (q : Quat ℝ) :
    yawFromQuaternion q
      = Planar.atan2 (forward q).y (1 - 2 * (q.y * q.y + q.z * q.z)) := by
  rw [forward_y]
  simp only [yawFromQuaternion, atan2_real, one_literal, two_literal]

theorem normalized_eq_scaled (q : Quat ℝ) : normalized q = scaled (norm q)⁻¹ q := by
  simp only [normalized, scaled, Quat.mk.injEq]
  refine ⟨?_, ?_, ?_, ?_⟩ <;> exact div_eq_inv_mul _ _

theorem normalized_isUnit {q : Quat ℝ} (h : ValidQuaternion q) : (normalized q).IsUnit := by
  have hpos := h.norm_pos
  have hnorm : norm (normalized q) = 1 := by
    rw [normalized_eq_scaled, norm_scaled (inv_nonneg.mpr hpos.le), inv_mul_cancel₀ hpos.ne']
  have hsq := norm_sq (normalized q)
  rw [hnorm, one_pow] at hsq
  exact hsq.symm

theorem yawFromQuaternion_normalized {q : Quat ℝ} (h : ValidQuaternion q) :
    yawFromQuaternion (normalized q) = Planar.atan2 (forward q).y (forward q).x := by
  have hpos : 0 < (norm q)⁻¹ ^ 2 := pow_pos (inv_pos.mpr h.norm_pos) 2
  obtain ⟨hx, hy⟩ := forward_scaled (norm q)⁻¹ q
  rw [yawFromQuaternion_eq (normalized_isUnit h), normalized_eq_scaled, hx, hy,
    Planar.atan2_mul_left hpos]

/-! ### When the norm does no harm -/

def NormHarmless (q : Quat ℝ) : Prop :=
  norm q = 1 ∨ (forward q).y = 0 ∧ (0 < (forward q).x ↔ q.y * q.y + q.z * q.z ≤ 0.5)

theorem yaw_eq_normalized_iff {q : Quat ℝ} (h : ValidQuaternion q) (hv : NotVertical q) :
    yawFromQuaternion q = yawFromQuaternion (normalized q) ↔ NormHarmless q := by
  have hx := forward_x q
  have hone : norm q = 1 ↔ norm q ^ 2 = 1 := (pow_eq_one_iff_of_nonneg h.norm_pos.le two_ne_zero).symm
  rw [yawFromQuaternion_any, yawFromQuaternion_normalized h, NormHarmless, hone]
  by_cases hy : (forward q).y = 0
  · -- the forward axis lies over the x axis: only its sign counts
    have hne : (forward q).x ≠ 0 := hv.resolve_right (not_not.mpr hy)
    have hhalf : q.y * q.y + q.z * q.z ≤ 0.5 ↔ 0 ≤ 1 - 2 * (q.y * q.y + q.z * q.z) := by
      constructor
      · intro hle
        norm_num at hle
        linarith
      · intro hle
        norm_num
        linarith
    rw [hy, Planar.atan2_zero_eq_iff hne, hhalf]
    constructor
    · intro hsign
      exact Or.inr ⟨rfl, hsign⟩
    · rintro (hnorm | ⟨-, hsign⟩)
      · have heq : (forward q).x = 1 - 2 * (q.y * q.y + q.z * q.z) := by linarith
        rw [← heq]
        exact ⟨le_of_lt, fun hle => lt_of_le_of_ne hle hne.symm⟩
      · exact hsign
  · rw [Planar.atan2_right_inj hy]
    constructor
    · intro heq
      exact Or.inl (by linarith)
    · rintro (heq | ⟨hzero, -⟩)
      · linarith
      · exact absurd hzero hy

/-! ### The published orientation -/

def IsYawRotation (q : Quat ℝ) (ψ : ℝ) : Prop := q.IsUnit ∧ ∀ v, q.rotate v = rotZ ψ v

theorem isYawRotation_quaternionFromYaw_iff (a b : ℝ) :
    IsYawRotation (quaternionFromYaw a) b ↔ (a : Angle) = b := by
  constructor
  · rintro ⟨-, h⟩
    have hrot := h ⟨1, 0, 0⟩
    rw [rotate_quaternionFromYaw] at hrot
    simp only [rotZ, mul_one, mul_zero, sub_zero, add_zero, Vec3.mk.injEq] at hrot
    exact Angle.cos_sin_inj hrot.1 hrot.2.1
  · intro h
    refine ⟨quaternionFromYaw_isUnit a, ?_⟩
    intro v
    rw [rotate_quaternionFromYaw, rotZ_congr h]

def withOrientation (msg : PoseStamped ℝ) (q : Quat ℝ) : PoseStamped ℝ :=
  { msg with pose := { msg.pose with orientation := q } }

theorem callback_of_valid (cfg : Config ℝ) (hyaw : cfg.publishYawOnly = true) {msg : PoseStamped ℝ}
    (h : ValidQuaternion msg.pose.orientation) (now : ℤ) :
    ∃ out, callback cfg msg now = some out ∧
      out.orientation = quaternionFromYaw (yawFromQuaternion msg.pose.orientation + cfg.yawOffset) :=
  ⟨_, if_pos h, if_pos hyaw⟩

theorem quaternionFromYaw_coe_eq {a b : ℝ} (h : quaternionFromYaw a = quaternionFromYaw b) :
    (a : Angle) = b := by
  rw [← isYawRotation_quaternionFromYaw_iff, h, isYawRotation_quaternionFromYaw_iff]

theorem coe_yawFromQuaternion_inj (p q : Quat ℝ) :
    ((yawFromQuaternion p : ℝ) : Angle) = (yawFromQuaternion q : ℝ) ↔
      yawFromQuaternion p = yawFromQuaternion q :=
  Planar.coe_atan2_inj

theorem coe_add_right_inj (a b c : ℝ) : ((a + c : ℝ) : Angle) = (b + c : ℝ) ↔ (a : Angle) = b := by
  rw [Angle.coe_add, Angle.coe_add, add_left_inj]

theorem isYawRotation_iff_normHarmless {q : Quat ℝ} (h : ValidQuaternion q) (hv : NotVertical q)
    (offset : ℝ) :
    IsYawRotation (quaternionFromYaw (yawFromQuaternion q + offset))
      (yawFromQuaternion (normalized q) + offset) ↔ NormHarmless q := by
  rw [isYawRotation_quaternionFromYaw_iff, coe_add_right_inj, coe_yawFromQuaternion_inj]
  exact yaw_eq_normalized_iff h hv

theorem yawFromQuaternion_scaled (k : ℝ) (q : Quat ℝ) :
    yawFromQuaternion (scaled k q)
      = Planar.atan2 (forward (scaled k q)).y (1 - 2 * (k ^ 2 * (q.y * q.y + q.z * q.z))) := by
  have hsq : k * q.y * (k * q.y) + k * q.z * (k * q.z) = k ^ 2 * (q.y * q.y + q.z * q.z) := by ring
  rw [yawFromQuaternion_any, ← hsq]
  rfl

/-- Near the least norm that is accepted the cosine of the extracted yaw is positive. -/
theorem exists_scaled_cos_pos {q : Quat ℝ} (h : ValidQuaternion q) :
    ∃ k, 0 < k ∧ ValidQuaternion (scaled k q) ∧ 0 < cos (yawFromQuaternion (scaled k q)) := by
  have hpos := h.norm_pos
  have hle : q.y * q.y + q.z * q.z ≤ norm q ^ 2 := by
    rw [norm_sq]
    linarith [sq_nonneg q.x, sq_nonneg q.w]
  refine ⟨2e-6 / norm q, by positivity, ⟨rfl, ?_⟩, ?_⟩
  · rw [norm_scaled (by positivity), div_mul_cancel₀ _ hpos.ne']
    norm_num
  · rw [yawFromQuaternion_scaled]
    apply Planar.cos_atan2_pos
    rw [div_pow, div_mul_eq_mul_div]
    have hquot : 2e-6 ^ 2 * (q.y * q.y + q.z * q.z) / norm q ^ 2 ≤ 2e-6 ^ 2 := by
      rw [div_le_iff₀ (by positivity)]
      exact mul_le_mul_of_nonneg_left hle (by positivity)
    norm_num at hquot ⊢
    linarith

/-- With a part about y or z it is negative for large norms. -/
theorem exists_scaled_cos_neg {q : Quat ℝ} (h : ValidQuaternion q) (hyz : ¬ (q.y = 0 ∧ q.z = 0)) :
    ∃ k, 0 < k ∧ ValidQuaternion (scaled k q) ∧ cos (yawFromQuaternion (scaled k q)) < 0 := by
  have hd : 0 < q.y * q.y + q.z * q.z := by
    rcases not_and_or.mp hyz with hy | hz
    · linarith [mul_self_pos.mpr hy, mul_self_nonneg q.z]
    · linarith [mul_self_pos.mpr hz, mul_self_nonneg q.y]
  generalize hdef : q.y * q.y + q.z * q.z = d at hd
  have hk : 1 ≤ 1 + 1 / d := by
    linarith [one_div_pos.mpr hd]
  refine ⟨1 + 1 / d, by positivity, ⟨rfl, ?_⟩, ?_⟩
  · rw [norm_scaled (by positivity)]
    exact lt_of_lt_of_le h.2 (le_mul_of_one_le_left h.norm_pos.le hk)
  · rw [yawFromQuaternion_scaled, hdef]
    apply Planar.cos_atan2_neg
    have hexpand : (1 + 1 / d) ^ 2 * d = d + 2 + 1 / d := by
      field_simp
      ring
    rw [hexpand]
    linarith [one_div_pos.mpr hd]

theorem scaling_keeps_output_iff (cfg : Config ℝ) (hyaw : cfg.publishYawOnly = true)
    (msg : PoseStamped ℝ) (h : ValidQuaternion msg.pose.orientation) (now : ℤ) :
    (∀ k, 0 < k → ValidQuaternion (scaled k msg.pose.orientation) →
      callback cfg (withOrientation msg (scaled k msg.pose.orientation)) now
        = callback cfg msg now) ↔
    msg.pose.orientation.y = 0 ∧ msg.pose.orientation.z = 0 := by
  constructor
  · intro hsame
    by_contra hyz
    have hcos : ∀ k, 0 < k → ValidQuaternion (scaled k msg.pose.orientation) →
        cos (yawFromQuaternion (scaled k msg.pose.orientation))
          = cos (yawFromQuaternion msg.pose.orientation) := by
      intro k hk hvalid
      obtain ⟨out, hout, horient⟩ := callback_of_valid cfg hyaw h now
      obtain ⟨outk, houtk, horientk⟩ := callback_of_valid cfg hyaw
        (show ValidQuaternion (withOrientation msg _).pose.orientation from hvalid) now
      have heq : outk = out := Option.some.inj (houtk.symm.trans ((hsame k hk hvalid).trans hout))
      rw [heq, horient] at horientk
      have hangle := (coe_add_right_inj _ _ _).mp (quaternionFromYaw_coe_eq horientk)
      rw [← Angle.cos_coe (yawFromQuaternion msg.pose.orientation), hangle, Angle.cos_coe]
      rfl
    obtain ⟨k, hk, hvalid, hplus⟩ := exists_scaled_cos_pos h
    obtain ⟨k', hk', hvalid', hminus⟩ := exists_scaled_cos_neg h hyz
    rw [hcos k hk hvalid] at hplus
    rw [hcos k' hk' hvalid'] at hminus
    exact lt_asymm hplus hminus
  · rintro ⟨hy, hz⟩ k hk hvalid
    have hyawk : yawFromQuaternion (scaled k msg.pose.orientation)
        = yawFromQuaternion msg.pose.orientation := by
      simp only [yawFromQuaternion, scaled, hy, hz, mul_zero, add_zero]
    simp only [callback, withOrientation, hvalid, h, if_true, hyaw, hyawk]

/-- On an accepted pose whose forward axis is not vertical: the published heading is
that of the normalised quaternion exactly where the norm does no harm, and it
survives every rescaling exactly for a quaternion without y and z part. -/
theorem published_heading_iff (cfg : Config ℝ) (hyaw : cfg.publishYawOnly = true)
    (msg : PoseStamped ℝ) (now : ℤ) (h : ValidQuaternion msg.pose.orientation)
    (hv : NotVertical msg.pose.orientation) :
    ∃ out, callback cfg msg now = some out ∧
      (IsYawRotation out.orientation
          (yawFromQuaternion (normalized msg.pose.orientation) + cfg.yawOffset) ↔
        NormHarmless msg.pose.orientation) ∧
      ((∀ k, 0 < k → ValidQuaternion (scaled k msg.pose.orientation) →
        callback cfg (withOrientation msg (scaled k msg.pose.orientation)) now = some out) ↔
        msg.pose.orientation.y = 0 ∧ msg.pose.orientation.z = 0) := by
  obtain ⟨out, hout, horient⟩ := callback_of_valid cfg hyaw h now
  refine ⟨out, hout, ?_, ?_⟩
  · rw [horient]
    exact isYawRotation_iff_normHarmless h hv cfg.yawOffset
  · rw [← hout]
    exact scaling_keeps_output_iff cfg hyaw msg h now

noncomputable section

def defaultConfig : Config ℝ where
  outputFrameId := "body"
  restampToNow := false
  yawOffset := 0.0
  publishYawOnly := true
  yawVariance := 0.0025
  rollPitchVariance := 999.0

def posed (z w : ℝ) : PoseStamped ℝ := ⟨⟨⟨1, 0⟩, "map"⟩, ⟨⟨0, 0, 0⟩, ⟨0, 0, z, w⟩⟩⟩

theorem norm_posed (z w : ℝ) : norm (posed z w).pose.orientation = √(z * z + w * w) := by
  simp only [norm, posed, sqrt_real, mul_zero, add_zero, zero_add]

theorem published_heading_level :
    ∃ out, callback defaultConfig (posed 0 1) 0 = some out ∧
      IsYawRotation out.orientation (yawFromQuaternion (normalized ⟨0, 0, 0, 1⟩) + 0.0) := by
  have hnorm : norm (posed 0 1).pose.orientation = 1 := by
    rw [norm_posed]
    norm_num
  have hvalid : ValidQuaternion (posed 0 1).pose.orientation := by
    refine ⟨rfl, ?_⟩
    rw [hnorm]
    norm_num
  have hv : NotVertical (posed 0 1).pose.orientation := by
    left
    rw [forward_x, hnorm]
    norm_num [posed]
  obtain ⟨out, hout, hyaw, -⟩ := published_heading_iff defaultConfig rfl (posed 0 1) 0 hvalid hv
  exact ⟨out, hout, hyaw.mpr (Or.inl hnorm)⟩

/-- A right angle at norm `√2`: the extracted yaw is the direction of `(-1, 2)`. -/
theorem published_heading_right_angle :
    defaultConfig.publishYawOnly = true ∧ ValidQuaternion (posed 1 1).pose.orientation ∧
    NotVertical (posed 1 1).pose.orientation ∧
    ∃ out, callback defaultConfig (posed 1 1) 0 = some out ∧
      ¬ IsYawRotation out.orientation
        (yawFromQuaternion (normalized (posed 1 1).pose.orientation) + defaultConfig.yawOffset) := by
  have hnorm : norm (posed 1 1).pose.orientation ^ 2 = 2 := by
    rw [norm_sq]
    norm_num [posed]
  have hy : (forward (posed 1 1).pose.orientation).y = 2 := by
    rw [forward_y]
    norm_num [posed]
  have hvalid : ValidQuaternion (posed 1 1).pose.orientation := by
    refine ⟨rfl, ?_⟩
    rw [norm_posed]
    exact lt_sqrt_of_sq_lt (by norm_num)
  have hv : NotVertical (posed 1 1).pose.orientation := by
    right
    rw [hy]
    exact two_ne_zero
  obtain ⟨out, hout, horient⟩ := callback_of_valid defaultConfig rfl hvalid 0
  refine ⟨rfl, hvalid, hv, out, hout, ?_⟩
  rw [horient, isYawRotation_iff_normHarmless hvalid hv]
  rintro (hone | ⟨hzero, -⟩)
  · rw [hone] at hnorm
    norm_num at hnorm
  · rw [hy] at hzero
    exact two_ne_zero hzero

end

end PoseHeadingToImu
end RtkLocalization
