import RtkLocalization.Lib.PyFloat
import RtkLocalization.Lib.Angle
import RtkLocalization.Msgs

/-!
# The `math` functions and angle helpers of the scripts

The scripts are modelled once, over any number type with the operations they
use; `PyMath` holds the functions of Python's `math` module. At `ℝ` the
functions are the exact ones. The helpers `normalize_angle`,
`yaw_from_quaternion` and `quaternion_from_yaw` are copied with the same body
into every script that uses them and are defined here once.
-/

namespace RtkLocalization

/-- The functions of Python's `math` module used by the scripts. -/
class PyMath (α : Type) where
  sqrt : α → α
  sin : α → α
  cos : α → α
  atan2 : α → α → α
  hypot : α → α → α
  radians : α → α
  degrees : α → α

noncomputable instance : PyMath ℝ where
  sqrt := Real.sqrt
  sin := Real.sin
  cos := Real.cos
  atan2 := Planar.atan2
  hypot := Planar.hypot
  radians x := x * (Real.pi / 180)
  degrees x := x * (180 / Real.pi)

instance : IsFinite ℝ := ⟨fun _ => true⟩

inductive PyError where
  | zeroDivisionError
  deriving DecidableEq, Repr

section Helpers
variable {α : Type} [Add α] [Sub α] [Mul α] [OfScientific α] [PyMath α]

def normalizeAngle (angle : α) : α := PyMath.atan2 (PyMath.sin angle) (PyMath.cos angle)

def yawFromQuaternion (q : Quat α) : α :=
  let sinyCosp := 2.0 * (q.w * q.z + q.x * q.y)
  let cosyCosp := 1.0 - 2.0 * (q.y * q.y + q.z * q.z)
  PyMath.atan2 sinyCosp cosyCosp

/-- `quaternion_from_yaw`; the fields it does not set keep the message default. -/
def quaternionFromYaw (yaw : α) : Quat α :=
  ⟨0.0, 0.0, PyMath.sin (yaw * 0.5), PyMath.cos (yaw * 0.5)⟩

end Helpers

/-! ### Exact values -/

section Exact
open Real

@[simp] theorem sin_real (x : ℝ) : PyMath.sin x = sin x := rfl
@[simp] theorem cos_real (x : ℝ) : PyMath.cos x = cos x := rfl
@[simp] theorem sqrt_real (x : ℝ) : PyMath.sqrt x = √x := rfl
@[simp] theorem atan2_real (y x : ℝ) : PyMath.atan2 y x = Planar.atan2 y x := rfl
@[simp] theorem hypot_real (x y : ℝ) : PyMath.hypot x y = Planar.hypot x y := rfl
@[simp] theorem isfinite_real (x : ℝ) : isfinite x = true := rfl

@[simp] theorem zero_literal : (0.0 : ℝ) = 0 := by norm_num
@[simp] theorem one_literal : (1.0 : ℝ) = 1 := by norm_num
@[simp] theorem two_literal : (2.0 : ℝ) = 2 := by norm_num

theorem radians_degrees (x : ℝ) : PyMath.radians (PyMath.degrees x) = x := by
  show x * (180 / π) * (π / 180) = x
  have := pi_ne_zero
  field_simp

theorem normalizeAngle_eq (x : ℝ) : normalizeAngle x = (x : Angle).toReal :=
  Planar.atan2_sin_cos x

@[simp] theorem coe_normalizeAngle (x : ℝ) : ((normalizeAngle x : ℝ) : Angle) = x := by
  rw [normalizeAngle_eq, Angle.coe_toReal]

theorem normalizeAngle_normalizeAngle (x : ℝ) :
    normalizeAngle (normalizeAngle x) = normalizeAngle x := by
  rw [normalizeAngle_eq, coe_normalizeAngle, ← normalizeAngle_eq]

theorem normalizeAngle_mem (x : ℝ) : -π < normalizeAngle x ∧ normalizeAngle x ≤ π := by
  rw [normalizeAngle_eq]
  exact ⟨Angle.neg_pi_lt_toReal _, Angle.toReal_le_pi _⟩

theorem abs_normalizeAngle_sub (a b : ℝ) : |normalizeAngle (a - b)| = Planar.circDist a b := by
  rw [normalizeAngle_eq, Planar.circDist]

theorem quaternionFromYaw_toH (yaw : ℝ) :
    (quaternionFromYaw yaw).toH = Rotation.zQuaternion yaw := by
  have h : yaw * (0.5 : ℝ) = yaw / 2 := by
    norm_num
    ring
  ext <;> simp [quaternionFromYaw, Rotation.zQuaternion, h]

theorem quaternionFromYaw_isUnit (yaw : ℝ) : (quaternionFromYaw yaw).IsUnit := by
  rw [Quat.isUnit_iff, quaternionFromYaw_toH, Rotation.normSq_zQuaternion]

theorem rotate_quaternionFromYaw (yaw : ℝ) (v : Vec3 ℝ) :
    (quaternionFromYaw yaw).rotate v = Rotation.rotZ yaw v := by
  rw [Quat.rotate, quaternionFromYaw_toH, Rotation.rotate_zQuaternion]

/-- The forward axis of an attitude: image of the body x axis. -/
noncomputable def forward (q : Quat ℝ) : Vec3 ℝ := q.rotate ⟨1, 0, 0⟩

/-- `yaw_from_quaternion` of a unit quaternion is the direction of the forward
axis in the horizontal plane. -/
theorem yawFromQuaternion_eq {q : Quat ℝ} (hq : q.IsUnit) :
    yawFromQuaternion q = Planar.atan2 (forward q).y (forward q).x := by
  have h : q.x ^ 2 + q.y ^ 2 + q.z ^ 2 + q.w ^ 2 = 1 := hq
  have hx : (forward q).x = 1 - 2 * (q.y * q.y + q.z * q.z) := by
    rw [forward, Quat.rotate, Rotation.rotate_eq]
    simp only [Quat.toH_re, Quat.toH_imI, Quat.toH_imJ, Quat.toH_imK]
    linear_combination h
  have hy : (forward q).y = 2 * (q.w * q.z + q.x * q.y) := by
    rw [forward, Quat.rotate, Rotation.rotate_eq]
    simp only [Quat.toH_re, Quat.toH_imI, Quat.toH_imJ, Quat.toH_imK]
    ring
  rw [hx, hy]
  simp only [yawFromQuaternion, atan2_real, one_literal, two_literal]

theorem coe_yawFromQuaternion {q : Quat ℝ} (hq : q.IsUnit) {r ψ : ℝ} (hr : 0 < r)
    (hx : (forward q).x = r * cos ψ) (hy : (forward q).y = r * sin ψ) :
    ((yawFromQuaternion q : ℝ) : Angle) = ψ := by
  rw [yawFromQuaternion_eq hq, hx, hy]
  exact Planar.atan2_polar hr ψ

theorem yawFromQuaternion_quaternionFromYaw {yaw : ℝ} (hlo : -π < yaw) (hhi : yaw ≤ π) :
    yawFromQuaternion (quaternionFromYaw yaw) = yaw := by
  have hf : forward (quaternionFromYaw yaw) = ⟨cos yaw, sin yaw, 0⟩ := by
    rw [forward, rotate_quaternionFromYaw]
    simp [Rotation.rotZ]
  rw [yawFromQuaternion_eq (quaternionFromYaw_isUnit yaw), hf, Planar.atan2_sin_cos]
  exact Angle.toReal_coe_eq_self_iff.mpr ⟨hlo, hhi⟩

theorem yawFromQuaternion_identity : yawFromQuaternion (⟨0, 0, 0, 1⟩ : Quat ℝ) = 0 := by
  have h : quaternionFromYaw (0 : ℝ) = ⟨0, 0, 0, 1⟩ := by
    simp [quaternionFromYaw]
  rw [← h]
  exact yawFromQuaternion_quaternionFromYaw (by linarith [pi_pos]) pi_pos.le

end Exact

end RtkLocalization
