import RtkLocalization.Ekf
import RtkLocalization.PyMath
import Mathlib.Analysis.SpecialFunctions.Trigonometric.Deriv
import Mathlib.Analysis.Calculus.FDeriv.Pi
import Mathlib.Analysis.Calculus.Deriv.Inv
import Mathlib.Topology.Algebra.Module.FiniteDimension

/-!
# The transfer function Jacobian

`predict` projects the covariance with `transferFunctionJacobian`, sixty lines worked out by
hand. Away from a pitch of a quarter turn it is the derivative of `project`.
-/

namespace RtkLocalization
namespace Ekf

open Matrix Real

/-! ### Rows -/

theorem sum_stateMember (f : StateMember → ℝ) :
    ∑ i, f i = f .x + f .y + f .z + f .roll + f .pitch + f .yaw + f .vx + f .vy + f .vz
      + f .vroll + f .vpitch + f .vyaw + f .ax + f .ay + f .az := by
  have huniv : (Finset.univ : Finset StateMember)
      = {.x, .y, .z, .roll, .pitch, .yaw, .vx, .vy, .vz, .vroll, .vpitch, .vyaw, .ax, .ay, .az} :=
    rfl
  rw [huniv]
  repeat rw [Finset.sum_insert (by decide)]
  rw [Finset.sum_singleton]
  ring

theorem applyControl_of_no_control {p : Params} (hcontrol : p.useControl = false)
    (hupdate : ∀ i, p.controlUpdateVector i = false) (control : Control × ℤ) (referenceTime : ℤ)
    (deltaSec : ℝ) (state : StateVector) :
    applyControl p (prepareControl p control referenceTime state) deltaSec state = state := by
  funext i
  cases i <;> simp [applyControl, prepareControl, hcontrol, hupdate]

section Derivative
variable {s : StateVector} {δ : ℝ}

/-- The value of one variable, as a function of the state. -/
abbrev member (i : StateMember) : StateVector →L[ℝ] ℝ := ContinuousLinearMap.proj i

theorem hasFDerivAt_member (s : StateVector) (i : StateMember) :
    HasFDerivAt (fun s : StateVector => s i) (member i) s :=
  hasFDerivAt_apply i s

/-- A function of one angle. -/
theorem hasFDerivAt_angle {g : ℝ → ℝ} {g' : ℝ} {i : StateMember} (hg : HasDerivAt g g' (s i)) :
    HasFDerivAt (fun s : StateVector => g (s i)) (g' • member i) s :=
  hg.comp_hasFDerivAt s (hasFDerivAt_member s i)

/-- A position: the velocities and accelerations of the body, turned by the attitude. -/
theorem hasFDerivAt_position {a b c : StateVector → ℝ} {a' b' c' : StateVector →L[ℝ] ℝ}
    (ha : HasFDerivAt a a' s) (hb : HasFDerivAt b b' s) (hc : HasFDerivAt c c' s)
    (i : StateMember) :
    HasFDerivAt
      (fun s => s i + ((a s * s .vx + b s * s .vy + c s * s .vz) * δ
        + (a s * s .ax + b s * s .ay + c s * s .az) * (0.5 * δ * δ)))
      (member i + (δ • ((a s • member .vx + s .vx • a') + (b s • member .vy + s .vy • b')
          + (c s • member .vz + s .vz • c'))
        + (0.5 * δ * δ) • ((a s • member .ax + s .ax • a') + (b s • member .ay + s .ay • b')
          + (c s • member .az + s .az • c')))) s := by
  have hmember := hasFDerivAt_member s
  have hvelocity := ((ha.mul (hmember .vx)).add (hb.mul (hmember .vy))).add (hc.mul (hmember .vz))
  have hacceleration := ((ha.mul (hmember .ax)).add (hb.mul (hmember .ay))).add (hc.mul (hmember .az))
  exact (hmember i).add ((hvelocity.mul_const δ).add (hacceleration.mul_const (0.5 * δ * δ)))

/-- The Jacobian as a linear map. -/
noncomputable def jacobian (s : StateVector) (δ : ℝ) : StateVector →L[ℝ] StateVector :=
  LinearMap.toContinuousLinearMap (toLin' (transferFunctionJacobian s δ))

theorem jacobian_apply (s : StateVector) (δ : ℝ) (v : StateVector) (i : StateMember) :
    jacobian s δ v i = ∑ j, transferFunctionJacobian s δ i j * v j := rfl

theorem hasFDerivAt_row {i : StateMember} {f : StateVector → ℝ} {f' : StateVector →L[ℝ] ℝ}
    (h : HasFDerivAt f f' s) (hf : ∀ s, (transferFunction s δ *ᵥ s) i = f s)
    (hf' : ∀ v, ∑ j, transferFunctionJacobian s δ i j * v j = f' v) :
    HasFDerivAt (fun s => (transferFunction s δ *ᵥ s) i) ((member i).comp (jacobian s δ)) s := by
  refine (h.congr_of_eventuallyEq (Filter.Eventually.of_forall hf)).congr_fderiv ?_
  ext v
  exact (hf' v).symm

theorem mulVec_transferFunction (s v : StateVector) (δ : ℝ) (i : StateMember) :
    (transferFunction s δ *ᵥ v) i = ∑ j, transferFunction s δ i j * v j := rfl

theorem hasFDerivAt_sin (s : StateVector) (i : StateMember) :
    HasFDerivAt (fun s : StateVector => sin (s i)) (cos (s i) • member i) s :=
  hasFDerivAt_angle (hasDerivAt_sin (s i))

theorem hasFDerivAt_cos (s : StateVector) (i : StateMember) :
    HasFDerivAt (fun s : StateVector => cos (s i)) (-sin (s i) • member i) s :=
  hasFDerivAt_angle (hasDerivAt_cos (s i))

theorem hasFDerivAt_x :
    HasFDerivAt (fun s => (transferFunction s δ *ᵥ s) .x) ((member .x).comp (jacobian s δ)) s := by
  have hsin := hasFDerivAt_sin s
  have hcos := hasFDerivAt_cos s
  have hx := (hcos .yaw).mul (hcos .pitch)
  have hy := (((hcos .yaw).mul (hsin .pitch)).mul (hsin .roll)).sub ((hsin .yaw).mul (hcos .roll))
  have hz := (((hcos .yaw).mul (hsin .pitch)).mul (hcos .roll)).add ((hsin .yaw).mul (hsin .roll))
  refine hasFDerivAt_row (hasFDerivAt_position (δ := δ) hx hy hz .x) ?_ ?_
  · intro s
    rw [mulVec_transferFunction, sum_stateMember]
    simp [transferFunction]
    ring
  · intro v
    rw [sum_stateMember]
    simp [transferFunctionJacobian, transferFunction]
    ring

theorem hasFDerivAt_y :
    HasFDerivAt (fun s => (transferFunction s δ *ᵥ s) .y) ((member .y).comp (jacobian s δ)) s := by
  have hsin := hasFDerivAt_sin s
  have hcos := hasFDerivAt_cos s
  have hx := (hsin .yaw).mul (hcos .pitch)
  have hy := (((hsin .yaw).mul (hsin .pitch)).mul (hsin .roll)).add ((hcos .yaw).mul (hcos .roll))
  have hz := (((hsin .yaw).mul (hsin .pitch)).mul (hcos .roll)).sub ((hcos .yaw).mul (hsin .roll))
  refine hasFDerivAt_row (hasFDerivAt_position (δ := δ) hx hy hz .y) ?_ ?_
  · intro s
    rw [mulVec_transferFunction, sum_stateMember]
    simp [transferFunction]
    ring
  · intro v
    rw [sum_stateMember]
    simp [transferFunctionJacobian, transferFunction]
    ring

theorem hasFDerivAt_z :
    HasFDerivAt (fun s => (transferFunction s δ *ᵥ s) .z) ((member .z).comp (jacobian s δ)) s := by
  have hsin := hasFDerivAt_sin s
  have hcos := hasFDerivAt_cos s
  have hy := (hcos .pitch).mul (hsin .roll)
  have hz := (hcos .pitch).mul (hcos .roll)
  refine hasFDerivAt_row (hasFDerivAt_position (δ := δ) (hsin .pitch).neg hy hz .z) ?_ ?_
  · intro s
    rw [mulVec_transferFunction, sum_stateMember]
    simp [transferFunction]
    ring
  · intro v
    rw [sum_stateMember]
    simp [transferFunctionJacobian, transferFunction]
    ring

/-! `cpi` and `tp` of the source, which are undefined at a quarter turn. -/

theorem hasFDerivAt_cpi {i : StateMember} (h : cos (s i) ≠ 0) :
    HasFDerivAt (fun s : StateVector => 1 / cos (s i))
      ((sin (s i) * (1 / cos (s i)) * (1 / cos (s i))) • member i) s := by
  refine hasFDerivAt_angle (g := fun θ => 1 / cos θ) ?_
  have hinv := (hasDerivAt_cos (s i)).inv h
  refine (hinv.congr_deriv ?_).congr_of_eventuallyEq
    (Filter.Eventually.of_forall fun θ => one_div (cos θ))
  field_simp

theorem hasFDerivAt_tp {i : StateMember} (h : cos (s i) ≠ 0) :
    HasFDerivAt (fun s : StateVector => sin (s i) * (1 / cos (s i)))
      ((1 / cos (s i) * (1 / cos (s i))) • member i) s := by
  refine ((hasFDerivAt_sin s i).mul (hasFDerivAt_cpi h)).congr_fderiv ?_
  ext v
  have hone := sin_sq_add_cos_sq (s i)
  simp
  field_simp
  linear_combination v i * hone

/-- An orientation: the turn rates of the body, turned by roll and pitch. -/
theorem hasFDerivAt_orientation {a b : StateVector → ℝ} {a' b' : StateVector →L[ℝ] ℝ}
    (ha : HasFDerivAt a a' s) (hb : HasFDerivAt b b' s) (i : StateMember) (c : ℝ) :
    HasFDerivAt (fun s => s i + (c * s .vroll + (a s * s .vpitch + b s * s .vyaw)) * δ)
      (member i + δ • (c • member .vroll
        + ((a s • member .vpitch + s .vpitch • a') + (b s • member .vyaw + s .vyaw • b')))) s := by
  have hmember := hasFDerivAt_member s
  have hrates := (ha.mul (hmember .vpitch)).add (hb.mul (hmember .vyaw))
  exact (hmember i).add ((((hmember .vroll).const_mul c).add hrates).mul_const δ)

theorem hasFDerivAt_roll (h : cos (s .pitch) ≠ 0) :
    HasFDerivAt (fun s => (transferFunction s δ *ᵥ s) .roll)
      ((member .roll).comp (jacobian s δ)) s := by
  have hpitch := (hasFDerivAt_sin s .roll).mul (hasFDerivAt_tp h)
  have hyaw := (hasFDerivAt_cos s .roll).mul (hasFDerivAt_tp h)
  refine hasFDerivAt_row (hasFDerivAt_orientation (δ := δ) hpitch hyaw .roll 1) ?_ ?_
  · intro s
    rw [mulVec_transferFunction, sum_stateMember]
    simp [transferFunction]
    ring
  · intro v
    rw [sum_stateMember]
    simp [transferFunctionJacobian, transferFunction]
    ring

theorem hasFDerivAt_pitch :
    HasFDerivAt (fun s => (transferFunction s δ *ᵥ s) .pitch)
      ((member .pitch).comp (jacobian s δ)) s := by
  refine hasFDerivAt_row (hasFDerivAt_orientation (δ := δ) (hasFDerivAt_cos s .roll)
    (hasFDerivAt_sin s .roll).neg .pitch 0) ?_ ?_
  · intro s
    rw [mulVec_transferFunction, sum_stateMember]
    simp [transferFunction]
    ring
  · intro v
    rw [sum_stateMember]
    simp [transferFunctionJacobian, transferFunction]
    ring

theorem hasFDerivAt_yaw (h : cos (s .pitch) ≠ 0) :
    HasFDerivAt (fun s => (transferFunction s δ *ᵥ s) .yaw)
      ((member .yaw).comp (jacobian s δ)) s := by
  have hpitch := (hasFDerivAt_sin s .roll).mul (hasFDerivAt_cpi h)
  have hyaw := (hasFDerivAt_cos s .roll).mul (hasFDerivAt_cpi h)
  refine hasFDerivAt_row (hasFDerivAt_orientation (δ := δ) hpitch hyaw .yaw 0) ?_ ?_
  · intro s
    rw [mulVec_transferFunction, sum_stateMember]
    simp [transferFunction]
    ring
  · intro v
    rw [sum_stateMember]
    simp [transferFunctionJacobian, transferFunction]
    ring

/-- A row without an angle is the same in the Jacobian. -/
theorem hasFDerivAt_linear {i : StateMember}
    (hconst : ∀ s' : StateVector, transferFunction s' δ i = transferFunctionJacobian s δ i) :
    HasFDerivAt (fun s => (transferFunction s δ *ᵥ s) i)
      ((member i).comp (jacobian s δ)) s := by
  refine hasFDerivAt_row ((member i).comp (jacobian s δ)).hasFDerivAt ?_ fun v => rfl
  intro s'
  rw [mulVec_transferFunction, hconst]
  rfl

/-- Away from a pitch of a quarter turn `transferFunctionJacobian` is the derivative of the
projection, where no control term changes the state on the way. -/
theorem hasFDerivAt_project {p : Params} (hcontrol : p.useControl = false)
    (hupdate : ∀ i, p.controlUpdateVector i = false) (control : Control × ℤ) (referenceTime : ℤ)
    (δ : ℝ) {s : StateVector} (h : cos (s .pitch) ≠ 0) :
    HasFDerivAt (project p control referenceTime δ)
      (LinearMap.toContinuousLinearMap (toLin' (transferFunctionJacobian s δ))) s := by
  have hproject : project p control referenceTime δ = fun s => transferFunction s δ *ᵥ s := by
    funext s
    rw [project, applyControl_of_no_control hcontrol hupdate]
  rw [hproject]
  refine hasFDerivAt_pi'.mpr ?_
  intro i
  cases i with
  | x => exact hasFDerivAt_x
  | y => exact hasFDerivAt_y
  | z => exact hasFDerivAt_z
  | roll => exact hasFDerivAt_roll h
  | pitch => exact hasFDerivAt_pitch
  | yaw => exact hasFDerivAt_yaw h
  | vx => exact hasFDerivAt_linear fun _ => rfl
  | vy => exact hasFDerivAt_linear fun _ => rfl
  | vz => exact hasFDerivAt_linear fun _ => rfl
  | vroll => exact hasFDerivAt_linear fun _ => rfl
  | vpitch => exact hasFDerivAt_linear fun _ => rfl
  | vyaw => exact hasFDerivAt_linear fun _ => rfl
  | ax => exact hasFDerivAt_linear fun _ => rfl
  | ay => exact hasFDerivAt_linear fun _ => rfl
  | az => exact hasFDerivAt_linear fun _ => rfl

theorem hasFDerivAt_project_level :
    HasFDerivAt
      (project ⟨1, false, false, fun _ => false, 0, fun _ => 0, fun _ => 0, fun _ => 0, fun _ => 0⟩
        (0, 0) 0 1)
      (LinearMap.toContinuousLinearMap (toLin' (transferFunctionJacobian 0 1))) 0 :=
  hasFDerivAt_project rfl (fun _ => rfl) (0, 0) 0 1 (by
    rw [Pi.zero_apply, cos_zero]
    exact one_ne_zero)

end Derivative

end Ekf
end RtkLocalization
