import Mathlib.LinearAlgebra.Matrix.PosDef
import Mathlib.Algebra.Order.Star.Real
import Mathlib.Analysis.SpecialFunctions.Trigonometric.Basic

/-!
# Covariance matrices under a change of frame

A random vector with covariance `C` has covariance `A C Aᵀ` after the linear map
`A` (`transport`). Transport keeps covariances positive semidefinite, and so does
raising single variances. A half turn about the unit vector `u` is
`2 u uᵀ - 1`; it leaves a symmetric `C` as it is exactly when `u` is an
eigenvector of `C` (`transport_halfTurn_eq_self_iff`).
-/

namespace Covariance
open Matrix

/-- An array in row-major order, read as a matrix; `cell` takes a position to an
index of the array. -/
def rowMajor {α : Type} (n : ℕ) {m : ℕ} (cell : ℕ → Fin m) (v : Vector α m) :
    Matrix (Fin n) (Fin n) α :=
  of fun i j => v.get (cell (n * i + j))

section Transport
variable {R m n : Type} [CommRing R] [Fintype n]

def transport (A : Matrix m n R) (C : Matrix n n R) : Matrix m m R := A * C * Aᵀ

variable [DecidableEq n] {A : Matrix n n R}

theorem trace_transport (hA : Aᵀ * A = 1) (C : Matrix n n R) : (transport A C).trace = C.trace := by
  rw [transport, trace_mul_cycle, hA, Matrix.one_mul]

theorem det_transport (hA : Aᵀ * A = 1) (C : Matrix n n R) : (transport A C).det = C.det := by
  have hdet : A.det * A.det = 1 := by
    have h := congrArg det hA
    rwa [det_mul, det_transpose, det_one] at h
  rw [transport, det_mul, det_mul, det_transpose, mul_right_comm, hdet, one_mul]

end Transport

section PosSemidef
variable {m n : Type}

theorem isSymm_of_posSemidef {C : Matrix n n ℝ} (h : C.PosSemidef) : C.IsSymm := by
  have hherm := h.isHermitian
  rwa [IsHermitian, conjTranspose_eq_transpose_of_trivial] at hherm

theorem posSemidef_transport [Fintype n] [Finite m] {C : Matrix n n ℝ} (hC : C.PosSemidef)
    (A : Matrix m n ℝ) : (transport A C).PosSemidef := by
  have h := hC.mul_mul_conjTranspose_same A
  rwa [conjTranspose_eq_transpose_of_trivial] at h

variable [DecidableEq n]

theorem transport_diagonal [Fintype n] (d : n → ℝ) (C : Matrix n n ℝ) (i j : n) :
    transport (diagonal d) C i j = d i * C i j * d j := by
  rw [transport, diagonal_transpose, mul_diagonal, diagonal_mul]

/-- `C` with each variance raised to at least `floor`. -/
def raise (floor : ℝ) (C : Matrix n n ℝ) : Matrix n n ℝ :=
  of fun i j => if i = j then max (C i i) floor else C i j

theorem posSemidef_raise (floor : ℝ) {C : Matrix n n ℝ} (hC : C.PosSemidef) :
    (raise floor C).PosSemidef := by
  have hsum : raise floor C = C + diagonal fun i => max (C i i) floor - C i i := by
    ext i j
    rw [Matrix.add_apply, diagonal_apply, raise, of_apply]
    split_ifs with h
    · rw [← h]
      ring
    · ring
  rw [hsum]
  exact hC.add (.diagonal fun i => sub_nonneg.mpr (le_max_left _ _))

theorem raise_eq_self {floor : ℝ} {C : Matrix n n ℝ} (h : ∀ i, floor ≤ C i i) :
    raise floor C = C := by
  ext i j
  rw [raise, of_apply]
  split_ifs with hij
  · rw [← hij, max_eq_left (h i)]
  · rfl

end PosSemidef

section Planar
open Real

noncomputable def planarRotation (θ : ℝ) : Matrix (Fin 2) (Fin 2) ℝ :=
  !![cos θ, -sin θ; sin θ, cos θ]

theorem planarRotation_orthogonal (θ : ℝ) : (planarRotation θ)ᵀ * planarRotation θ = 1 := by
  have h := cos_sq_add_sin_sq θ
  ext i j
  fin_cases i <;> fin_cases j <;>
    simp [planarRotation, mul_apply, Fin.sum_univ_two] <;> linarith

/-- `R(-ψ) P R(-ψ)ᵀ` written out. -/
theorem transport_planarRotation_neg (ψ p q r : ℝ) :
    transport (planarRotation (-ψ)) !![p, q; q, r]
      = !![cos ψ * cos ψ * p + 2 * cos ψ * sin ψ * q + sin ψ * sin ψ * r,
            -sin ψ * cos ψ * p + (cos ψ * cos ψ - sin ψ * sin ψ) * q + sin ψ * cos ψ * r;
          -sin ψ * cos ψ * p + (cos ψ * cos ψ - sin ψ * sin ψ) * q + sin ψ * cos ψ * r,
            sin ψ * sin ψ * p - 2 * sin ψ * cos ψ * q + cos ψ * cos ψ * r] := by
  ext i j
  fin_cases i <;> fin_cases j <;>
    simp [transport, planarRotation, mul_apply, Fin.sum_univ_two] <;> ring

end Planar

section HalfTurn
variable {K n : Type} [Field K] [DecidableEq n]

/-- Half turn about the unit vector `u`. -/
def halfTurn (u : n → K) : Matrix n n K := vecMulVec u u + vecMulVec u u - 1

theorem transpose_halfTurn (u : n → K) : (halfTurn u)ᵀ = halfTurn u := by
  rw [halfTurn, transpose_sub, transpose_add, transpose_vecMulVec, transpose_one]

variable [Fintype n] {u : n → K}

theorem halfTurn_mul_self (hu : u ⬝ᵥ u = 1) : halfTurn u * halfTurn u = 1 := by
  have hsq : vecMulVec u u * vecMulVec u u = vecMulVec u u := by
    rw [vecMulVec_mul_vecMulVec, hu, one_smul]
  rw [halfTurn, Matrix.mul_sub, Matrix.sub_mul, Matrix.sub_mul, Matrix.mul_add, Matrix.add_mul, hsq,
    Matrix.one_mul, Matrix.mul_one, Matrix.one_mul]
  abel

theorem transport_halfTurn_eq_self_iff_commute [CharZero K] (hu : u ⬝ᵥ u = 1)
    (C : Matrix n n K) :
    transport (halfTurn u) C = C ↔ vecMulVec u u * C = C * vecMulVec u u := by
  have hinv := halfTurn_mul_self hu
  have hswap : transport (halfTurn u) C = C ↔ halfTurn u * C = C * halfTurn u := by
    rw [transport, transpose_halfTurn]
    refine ⟨fun h => ?_, fun h => ?_⟩
    · have hr := congrArg (· * halfTurn u) h
      simpa only [Matrix.mul_assoc, hinv, Matrix.mul_one] using hr
    · rw [h, Matrix.mul_assoc, hinv, Matrix.mul_one]
  rw [hswap, halfTurn, Matrix.sub_mul, Matrix.mul_sub, Matrix.one_mul, Matrix.mul_one,
    sub_left_inj, Matrix.add_mul, Matrix.mul_add, ← two_smul K, ← two_smul K]
  exact smul_right_inj two_ne_zero

theorem transport_halfTurn_eq_self_iff [CharZero K] (hu : u ⬝ᵥ u = 1) {C : Matrix n n K}
    (hC : C.IsSymm) : transport (halfTurn u) C = C ↔ ∃ k : K, C *ᵥ u = k • u := by
  have hsymm : u ᵥ* C = C *ᵥ u := by
    rw [← vecMul_transpose, hC.eq]
  rw [transport_halfTurn_eq_self_iff_commute hu, vecMulVec_mul, mul_vecMulVec, hsymm]
  refine ⟨fun h => ⟨C *ᵥ u ⬝ᵥ u, ?_⟩, fun h => ?_⟩
  · have happly := congrArg (· *ᵥ u) h
    simp only [vecMulVec_mulVec, hu, op_smul_eq_smul, one_smul] at happly
    exact happly.symm
  · obtain ⟨k, hk⟩ := h
    rw [hk, smul_vecMulVec, vecMulVec_smul]

end HalfTurn

end Covariance
