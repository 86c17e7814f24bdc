import Mathlib.Algebra.Quaternion
import Mathlib.Analysis.InnerProductSpace.PiL2
import Mathlib.Analysis.SpecialFunctions.Trigonometric.Basic

/-!
# Vectors in space and rotations by unit quaternions

A quaternion `q` of Mathlib's `ℍ[ℝ]` acts on a vector by `v ↦ q v q*`; for a
unit quaternion this is the rotation it represents. Composition of rotations
is the Hamilton product (`rotate_mul`).
-/

@[ext] structure Vec3 (α : Type) where
  x : α
  y : α
  z : α
  deriving DecidableEq, Repr

namespace Vec3
variable {α : Type}

instance [Add α] : Add (Vec3 α) := ⟨fun a b => ⟨a.x + b.x, a.y + b.y, a.z + b.z⟩⟩
instance [Sub α] : Sub (Vec3 α) := ⟨fun a b => ⟨a.x - b.x, a.y - b.y, a.z - b.z⟩⟩
instance [Zero α] : Zero (Vec3 α) := ⟨⟨0, 0, 0⟩⟩
instance [Mul α] : SMul α (Vec3 α) := ⟨fun k a => ⟨k * a.x, k * a.y, k * a.z⟩⟩

@[simp] theorem add_x [Add α] (a b : Vec3 α) : (a + b).x = a.x + b.x := rfl
@[simp] theorem add_y [Add α] (a b : Vec3 α) : (a + b).y = a.y + b.y := rfl
@[simp] theorem add_z [Add α] (a b : Vec3 α) : (a + b).z = a.z + b.z := rfl
@[simp] theorem sub_x [Sub α] (a b : Vec3 α) : (a - b).x = a.x - b.x := rfl
@[simp] theorem sub_y [Sub α] (a b : Vec3 α) : (a - b).y = a.y - b.y := rfl
@[simp] theorem sub_z [Sub α] (a b : Vec3 α) : (a - b).z = a.z - b.z := rfl
@[simp] theorem zero_x [Zero α] : (0 : Vec3 α).x = 0 := rfl
@[simp] theorem zero_y [Zero α] : (0 : Vec3 α).y = 0 := rfl
@[simp] theorem zero_z [Zero α] : (0 : Vec3 α).z = 0 := rfl
@[simp] theorem smul_x [Mul α] (k : α) (a : Vec3 α) : (k • a).x = k * a.x := rfl
@[simp] theorem smul_y [Mul α] (k : α) (a : Vec3 α) : (k • a).y = k * a.y := rfl
@[simp] theorem smul_z [Mul α] (k : α) (a : Vec3 α) : (k • a).z = k * a.z := rfl

theorem smul_inv_smul {k : ℝ} (hk : k ≠ 0) (a : Vec3 ℝ) : k • k⁻¹ • a = a := by
  ext <;> simp [hk]

theorem sub_self' (a : Vec3 ℝ) : a - a = 0 := by
  ext <;> simp

theorem sub_add_sub_cancel' (a b c : Vec3 ℝ) : b - a + (c - b) = c - a := by
  ext <;> simp

end Vec3

noncomputable section

open scoped Quaternion

namespace Vec3

def distance (a b : Vec3 ℝ) : ℝ :=
  √((a.x - b.x) * (a.x - b.x) + (a.y - b.y) * (a.y - b.y) + (a.z - b.z) * (a.z - b.z))

def toEuclidean (a : Vec3 ℝ) : EuclideanSpace ℝ (Fin 3) := !₂[a.x, a.y, a.z]

theorem distance_eq (a b : Vec3 ℝ) : distance a b = dist (toEuclidean a) (toEuclidean b) := by
  rw [EuclideanSpace.dist_eq, Fin.sum_univ_three, distance]
  simp only [toEuclidean, Real.dist_eq, sq_abs, ← pow_two]
  rfl

def dot (a b : Vec3 ℝ) : ℝ := a.x * b.x + a.y * b.y + a.z * b.z

theorem distance_eq_dot (a b : Vec3 ℝ) : distance a b = √(dot (a - b) (a - b)) := rfl

theorem add_sub_cancel_left' (a b : Vec3 ℝ) : a + b - a = b := by
  ext <;> simp

theorem distance_triangle (a b c : Vec3 ℝ) : distance a c ≤ distance a b + distance b c := by
  simp only [distance_eq]
  exact dist_triangle _ _ _

end Vec3

namespace Rotation
open Real Vec3

def pure (v : Vec3 ℝ) : ℍ[ℝ] := ⟨0, v.x, v.y, v.z⟩

@[simp] theorem pure_re (v : Vec3 ℝ) : (pure v).re = 0 := rfl
@[simp] theorem pure_imI (v : Vec3 ℝ) : (pure v).imI = v.x := rfl
@[simp] theorem pure_imJ (v : Vec3 ℝ) : (pure v).imJ = v.y := rfl
@[simp] theorem pure_imK (v : Vec3 ℝ) : (pure v).imK = v.z := rfl

def rotate (q : ℍ[ℝ]) (v : Vec3 ℝ) : Vec3 ℝ :=
  ⟨(q * pure v * star q).imI, (q * pure v * star q).imJ, (q * pure v * star q).imK⟩

theorem rotate_eq (q : ℍ[ℝ]) (v : Vec3 ℝ) :
    rotate q v =
      ⟨(q.re ^ 2 + q.imI ^ 2 - q.imJ ^ 2 - q.imK ^ 2) * v.x
          + 2 * (q.imI * q.imJ - q.re * q.imK) * v.y + 2 * (q.imI * q.imK + q.re * q.imJ) * v.z,
        2 * (q.imI * q.imJ + q.re * q.imK) * v.x
          + (q.re ^ 2 - q.imI ^ 2 + q.imJ ^ 2 - q.imK ^ 2) * v.y
          + 2 * (q.imJ * q.imK - q.re * q.imI) * v.z,
        2 * (q.imI * q.imK - q.re * q.imJ) * v.x + 2 * (q.imJ * q.imK + q.re * q.imI) * v.y
          + (q.re ^ 2 - q.imI ^ 2 - q.imJ ^ 2 + q.imK ^ 2) * v.z⟩ := by
  simp only [rotate, Quaternion.re_mul, Quaternion.imI_mul, Quaternion.imJ_mul,
    Quaternion.imK_mul, Quaternion.re_star, Quaternion.imI_star, Quaternion.imJ_star,
    Quaternion.imK_star, pure_re, pure_imI, pure_imJ, pure_imK, Vec3.mk.injEq]
  refine ⟨by ring, by ring, by ring⟩

theorem pure_rotate (q : ℍ[ℝ]) (v : Vec3 ℝ) : pure (rotate q v) = q * pure v * star q := by
  have hre : (q * pure v * star q).re = 0 := by
    simp only [Quaternion.re_mul, Quaternion.imI_mul, Quaternion.imJ_mul,
      Quaternion.imK_mul, Quaternion.re_star, Quaternion.imI_star, Quaternion.imJ_star,
      Quaternion.imK_star, pure_re, pure_imI, pure_imJ, pure_imK]
    ring
  ext
  · exact hre.symm
  · rfl
  · rfl
  · rfl

theorem pure_injective : Function.Injective pure := by
  intro v w h
  ext
  · exact congrArg QuaternionAlgebra.imI h
  · exact congrArg QuaternionAlgebra.imJ h
  · exact congrArg QuaternionAlgebra.imK h

/-- The Hamilton product composes rotations, right factor first. -/
theorem rotate_mul (p q : ℍ[ℝ]) (v : Vec3 ℝ) : rotate (p * q) v = rotate p (rotate q v) := by
  apply pure_injective
  rw [pure_rotate, pure_rotate, pure_rotate, star_mul]
  simp only [mul_assoc]

theorem rotate_one (v : Vec3 ℝ) : rotate 1 v = v := by
  apply pure_injective
  rw [pure_rotate, star_one, one_mul, mul_one]

theorem rotate_star_rotate {q : ℍ[ℝ]} (hq : Quaternion.normSq q = 1) (v : Vec3 ℝ) :
    rotate (star q) (rotate q v) = v := by
  rw [← rotate_mul, Quaternion.star_mul_self, hq, Quaternion.coe_one, rotate_one]

theorem rotate_inj {q : ℍ[ℝ]} (hq : Quaternion.normSq q = 1) {v w : Vec3 ℝ} :
    rotate q v = rotate q w ↔ v = w := by
  constructor
  · intro h
    rw [← rotate_star_rotate hq v, h, rotate_star_rotate hq]
  · exact congrArg _

def rotZ (ψ : ℝ) (v : Vec3 ℝ) : Vec3 ℝ :=
  ⟨cos ψ * v.x - sin ψ * v.y, sin ψ * v.x + cos ψ * v.y, v.z⟩

def zQuaternion (ψ : ℝ) : ℍ[ℝ] := ⟨cos (ψ / 2), 0, 0, sin (ψ / 2)⟩

theorem normSq_zQuaternion (ψ : ℝ) : Quaternion.normSq (zQuaternion ψ) = 1 := by
  rw [Quaternion.normSq_def']
  simp only [zQuaternion]
  linear_combination cos_sq_add_sin_sq (ψ / 2)

theorem rotate_zQuaternion (ψ : ℝ) (v : Vec3 ℝ) : rotate (zQuaternion ψ) v = rotZ ψ v := by
  have hc : cos ψ = cos (ψ / 2) ^ 2 - sin (ψ / 2) ^ 2 := by
    rw [← cos_two_mul', mul_div_cancel₀ ψ two_ne_zero]
  have hs : sin ψ = 2 * sin (ψ / 2) * cos (ψ / 2) := by
    rw [← sin_two_mul, mul_div_cancel₀ ψ two_ne_zero]
  rw [rotate_eq]
  simp only [rotZ, zQuaternion, hc, hs, Vec3.mk.injEq]
  refine ⟨by ring, by ring, ?_⟩
  linear_combination v.z * cos_sq_add_sin_sq (ψ / 2)

theorem rotZ_congr {a b : ℝ} (h : (a : Real.Angle) = b) (v : Vec3 ℝ) : rotZ a v = rotZ b v := by
  have hc : cos a = cos b := by rw [← Real.Angle.cos_coe, h, Real.Angle.cos_coe]
  have hs : sin a = sin b := by rw [← Real.Angle.sin_coe, h, Real.Angle.sin_coe]
  rw [rotZ, rotZ, hc, hs]

theorem rotZ_neg_rotZ (ψ : ℝ) (v : Vec3 ℝ) : rotZ (-ψ) (rotZ ψ v) = v := by
  have h := cos_sq_add_sin_sq ψ
  ext
  · simp only [rotZ, cos_neg, sin_neg]
    linear_combination v.x * h
  · simp only [rotZ, cos_neg, sin_neg]
    linear_combination v.y * h
  · rfl

theorem rotZ_rotZ_neg (ψ : ℝ) (v : Vec3 ℝ) : rotZ ψ (rotZ (-ψ) v) = v := by
  have h := rotZ_neg_rotZ (-ψ) v
  rw [neg_neg] at h
  exact h

theorem rotZ_sub (ψ : ℝ) (v w : Vec3 ℝ) : rotZ ψ v - rotZ ψ w = rotZ ψ (v - w) := by
  ext
  · simp only [rotZ, sub_x, sub_y]
    ring
  · simp only [rotZ, sub_x, sub_y]
    ring
  · rfl

theorem dot_rotZ (ψ : ℝ) (v : Vec3 ℝ) : dot (rotZ ψ v) (rotZ ψ v) = dot v v := by
  simp only [rotZ, dot]
  linear_combination (v.x ^ 2 + v.y ^ 2) * cos_sq_add_sin_sq ψ

end Rotation

end
