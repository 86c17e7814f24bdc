import Mathlib.Algebra.Order.Field.Basic
import Mathlib.Tactic.Linarith
import Mathlib.Tactic.Ring
import Mathlib.Tactic.Positivity
import Mathlib.Tactic.FieldSimp

/-!
# Symmetric 3×3 matrices over an ordered field

A `Sym3` is given by its six independent entries, so it is symmetric by
construction. Positive semidefiniteness is the usual one, by the quadratic
form; for a positive first entry `posSemidef_iff` decides it by three minors,
from the Schur complement.
-/

@[ext] structure Sym3 (K : Type) where
  xx : K
  yy : K
  zz : K
  xy : K
  xz : K
  yz : K
  deriving DecidableEq, Repr

/-- A binary form is nonnegative everywhere exactly when its three minors are
nonnegative; the case `p = 0` forces `q = 0`. -/
theorem binaryForm_nonneg_iff {K : Type} [Field K] [LinearOrder K] [IsStrictOrderedRing K]
    (p q r : K) :
    (∀ v w : K, 0 ≤ p * v ^ 2 + 2 * q * v * w + r * w ^ 2) ↔ 0 ≤ p ∧ 0 ≤ r ∧ q ^ 2 ≤ p * r := by
  constructor
  · intro h
    have hp : 0 ≤ p := by simpa using h 1 0
    have hr : 0 ≤ r := by simpa using h 0 1
    refine ⟨hp, hr, ?_⟩
    rcases hp.lt_or_eq with hpos | hzero
    · have hq := h (-q) p
      have heq : p * (-q) ^ 2 + 2 * q * -q * p + r * p ^ 2 = p * (p * r - q ^ 2) := by ring
      rw [heq] at hq
      have := nonneg_of_mul_nonneg_right hq hpos
      linarith
    · by_contra hlt
      have hq0 : q ≠ 0 := by
        rintro rfl
        exact hlt (by rw [← hzero]; simp)
      have hv := h (-(r + 1) / (2 * q)) 1
      have heq : p * (-(r + 1) / (2 * q)) ^ 2 + 2 * q * (-(r + 1) / (2 * q)) * 1 + r * 1 ^ 2
          = -1 := by
        rw [← hzero]
        field_simp
        ring
      rw [heq] at hv
      linarith
  · rintro ⟨hp, hr, hq⟩ v w
    rcases hp.lt_or_eq with hpos | hzero
    · have hmul : p * (p * v ^ 2 + 2 * q * v * w + r * w ^ 2)
          = (p * v + q * w) ^ 2 + (p * r - q ^ 2) * w ^ 2 := by ring
      have hsum : 0 ≤ (p * v + q * w) ^ 2 + (p * r - q ^ 2) * w ^ 2 :=
        add_nonneg (sq_nonneg _) (mul_nonneg (by linarith) (sq_nonneg _))
      exact nonneg_of_mul_nonneg_right (hmul ▸ hsum) hpos
    · have hq0 : q = 0 := by
        rw [← hzero, zero_mul] at hq
        exact pow_eq_zero_iff two_ne_zero |>.mp (le_antisymm hq (sq_nonneg q))
      rw [← hzero, hq0]
      have := mul_nonneg hr (sq_nonneg w)
      linarith

namespace Sym3
variable {K : Type}

def entries (M : Sym3 K) : Vector K 9 :=
  #v[M.xx, M.xy, M.xz, M.xy, M.yy, M.yz, M.xz, M.yz, M.zz]

section Form
variable [Field K]

def form (M : Sym3 K) (u v w : K) : K :=
  u * (M.xx * u + M.xy * v + M.xz * w) + v * (M.xy * u + M.yy * v + M.yz * w)
    + w * (M.xz * u + M.yz * v + M.zz * w)

def det (M : Sym3 K) : K :=
  M.xx * (M.yy * M.zz - M.yz ^ 2) - M.xy * (M.xy * M.zz - M.yz * M.xz)
    + M.xz * (M.xy * M.yz - M.yy * M.xz)

theorem xx_mul_form (M : Sym3 K) (u v w : K) :
    M.xx * M.form u v w = (M.xx * u + M.xy * v + M.xz * w) ^ 2
      + ((M.xx * M.yy - M.xy ^ 2) * v ^ 2 + 2 * (M.xx * M.yz - M.xy * M.xz) * v * w
        + (M.xx * M.zz - M.xz ^ 2) * w ^ 2) := by
  simp only [form]
  ring

variable [LinearOrder K]

def PosSemidef (M : Sym3 K) : Prop := ∀ u v w : K, 0 ≤ M.form u v w

variable [IsStrictOrderedRing K]

theorem posSemidef_iff {M : Sym3 K} (hxx : 0 < M.xx) :
    M.PosSemidef ↔ M.xy ^ 2 ≤ M.xx * M.yy ∧ M.xz ^ 2 ≤ M.xx * M.zz ∧ 0 ≤ M.det := by
  have hschur : M.PosSemidef ↔ ∀ v w : K, 0 ≤ (M.xx * M.yy - M.xy ^ 2) * v ^ 2
      + 2 * (M.xx * M.yz - M.xy * M.xz) * v * w + (M.xx * M.zz - M.xz ^ 2) * w ^ 2 := by
    constructor
    · intro h v w
      -- the minimising first coordinate makes the square vanish
      have hu := h (-(M.xy * v + M.xz * w) / M.xx) v w
      have hsq : M.xx * (-(M.xy * v + M.xz * w) / M.xx) + M.xy * v + M.xz * w = 0 := by
        field_simp
        ring
      have := mul_nonneg hxx.le hu
      rwa [xx_mul_form, hsq, zero_pow two_ne_zero, zero_add] at this
    · intro h u v w
      have hmul := xx_mul_form M u v w
      have hnonneg := add_nonneg (sq_nonneg (M.xx * u + M.xy * v + M.xz * w)) (h v w)
      rw [← hmul] at hnonneg
      exact nonneg_of_mul_nonneg_right hnonneg hxx
  have hdet : (M.xx * M.yy - M.xy ^ 2) * (M.xx * M.zz - M.xz ^ 2)
      - (M.xx * M.yz - M.xy * M.xz) ^ 2 = M.xx * M.det := by
    simp only [det]
    ring
  rw [hschur, binaryForm_nonneg_iff]
  constructor
  · rintro ⟨hyy, hzz, hyz⟩
    have := nonneg_of_mul_nonneg_right (hdet ▸ sub_nonneg.mpr hyz) hxx
    exact ⟨by linarith, by linarith, this⟩
  · rintro ⟨hyy, hzz, hd⟩
    have := mul_nonneg hxx.le hd
    exact ⟨by linarith, by linarith, by linarith⟩

theorem posSemidef_diagonal {a b c : K} (ha : 0 < a) (hb : 0 < b) (hc : 0 < c) :
    (⟨a, b, c, 0, 0, 0⟩ : Sym3 K).PosSemidef := by
  have hdet : 0 ≤ a * b * c := by positivity
  refine (posSemidef_iff ha).mpr ⟨?_, ?_, ?_⟩
  · simpa using (mul_pos ha hb).le
  · simpa using (mul_pos ha hc).le
  · simp only [det]
    linarith

end Form

end Sym3
