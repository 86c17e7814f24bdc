import RtkLocalization.Ekf
import RtkLocalization.RosFilterRuns

/-!
# The covariance of the extended Kalman filter

The estimate error covariance stays positive semidefinite and the angles stay in
`(-π, π]`, through every correction, every prediction that is not backwards and so
through every run of the node.
-/

namespace RtkLocalization
namespace Ekf

open Matrix Covariance Real

/-! ### Corrections -/

theorem usableVariance_pos (v : ℝ) : 0 < usableVariance v := by
  unfold usableVariance
  dsimp only
  split_ifs with _ hsmall hsmall
  · norm_num
  · linarith
  · norm_num
  · linarith

/-- The covariance of the measured variables, and nothing for the others. -/
def measuredBlock (b : Body) : StateMatrix :=
  of fun i j => if b.updateVector i && b.updateVector j then b.covariance i j else 0

/-- A measurement that the filter can use: finite, its angles in range, and its error a
covariance without a direction that is certain. -/
structure Good (b : Body) : Prop where
  finite : ∀ i, b.updateVector i → isfinite (b.measurement i)
  angle : ∀ i z, i.isAngle → b.updateVector i → b.measurement i = .fin z → z ∈ Set.Ioc (-π) π
  covariance : (measuredBlock b).PosSemidef
  regular : (measurementCovariance b).PosDef

/-- An estimate error covariance, and angles in range. -/
structure Sound (x : Estimate) : Prop where
  covariance : x.covariance.PosSemidef
  angle : ∀ i, i.isAngle → x.state i ∈ Set.Ioc (-π) π

theorem normalizeAngle_mem (a : ℝ) : normalizeAngle a ∈ Set.Ioc (-π) π :=
  ⟨Real.Angle.neg_pi_lt_toReal _, Real.Angle.toReal_le_pi _⟩

theorem wrapStateAngles_mem (state : StateVector) (i : StateMember) (hi : i.isAngle) :
    wrapStateAngles state i ∈ Set.Ioc (-π) π := by
  unfold wrapStateAngles
  rw [if_pos hi]
  exact normalizeAngle_mem _

theorem sound_correct {b : Body} (hb : Good b) {x : Estimate} (hx : Sound x) :
    Sound (correct b x) := by
  unfold correct
  dsimp only
  split_ifs
  · exact ⟨Kalman.posSemidef_joseph hx.covariance hb.regular.posSemidef _,
      fun i hi => wrapStateAngles_mem _ i hi⟩
  · exact hx

/-- The process noise is a covariance, and where it is scaled the pose is apart in it. -/
structure Params.Noise (p : Params) : Prop where
  posSemidef : p.processNoiseCovariance.PosSemidef
  apart : p.useDynamicProcessNoiseCovariance → ∀ i j, i.isPose ≠ j.isPose →
    p.processNoiseCovariance i j = 0

theorem posSemidef_processNoise {p : Params} (hp : p.Noise) (state : StateVector) :
    (processNoise p state).PosSemidef := by
  unfold processNoise
  dsimp only
  set norm := √(∑ i : ControlMember, state i.state * state i.state)
  split_ifs with hdynamic
  case neg => exact hp.posSemidef
  case pos =>
    -- Scaling the block is scaling the variables, as the rest does not correlate with it.
    have hscaled : (of fun i j =>
        if i.isPose && j.isPose then norm * p.processNoiseCovariance i j * norm
        else p.processNoiseCovariance i j)
        = transport (diagonal fun i => if i.isPose then norm else 1) p.processNoiseCovariance := by
      ext i j
      rw [transport_diagonal, of_apply]
      cases hi : i.isPose <;> cases hj : j.isPose
      · simp
      · simp [hp.apart hdynamic i j (by rw [hi, hj]; exact Bool.false_ne_true)]
      · simp [hp.apart hdynamic i j (by rw [hi, hj]; exact Bool.false_ne_true.symm)]
      · simp
    rw [hscaled]
    exact posSemidef_transport hp.posSemidef _

theorem sound_predict {p : Params} (hp : p.Noise) (control : Control × ℤ) (referenceTime : ℤ)
    {delta : ℤ} (hdelta : 0 ≤ delta) {x : Estimate} (hx : Sound x) :
    Sound (predict p control referenceTime delta x) := by
  have hsec : 0 ≤ toSec delta := by
    unfold toSec
    have hcast : (0 : ℝ) ≤ delta := by exact_mod_cast hdelta
    positivity
  exact ⟨(posSemidef_transport hx.covariance _).add
    ((posSemidef_processNoise hp x.state).smul hsec), fun i hi => wrapStateAngles_mem _ i hi⟩

/-! ### The first measurement -/

/-- Before the first measurement no two variables are correlated. -/
structure Uncorrelated (x : Estimate) : Prop extends Sound x where
  diagonal : ∀ i j, i ≠ j → x.covariance i j = 0

theorem sound_start {b : Body} (hb : Good b) {x : Estimate} (hx : Uncorrelated x) :
    Sound (start b x) := by
  constructor
  · have hblocks : (start b x).covariance = measuredBlock b
        + transport (diagonal fun i => if b.updateVector i then 0 else 1) x.covariance := by
      ext i j
      rw [Matrix.add_apply, transport_diagonal]
      simp only [start, measuredBlock, of_apply]
      cases hi : b.updateVector i <;> cases hj : b.updateVector j
      · simp
      · have hij : i ≠ j := fun h => Bool.false_ne_true (hi.symm.trans (h ▸ hj))
        simp [hx.diagonal i j hij]
      · have hij : i ≠ j := fun h => Bool.false_ne_true (hj.symm.trans (h ▸ hi))
        simp [hx.diagonal i j hij]
      · simp
    rw [hblocks]
    exact hb.covariance.add (posSemidef_transport hx.covariance _)
  · intro i hi
    simp only [start]
    split
    case h_1 z hupdate hz => exact hb.angle i z hi hupdate hz
    case h_2 => exact hx.angle i hi

theorem kernel_preserves {p : Params} (hp : p.Noise) :
    (kernel p).Preserves Uncorrelated Sound Good where
  start _ _ hb hx := sound_start hb hx
  predict c t _ _ hd hx := sound_predict hp c t hd hx
  correct _ _ hb hx := sound_correct hb hx

/-- A sensor whose errors do not correlate is good, however small they are. -/
theorem good_of_diagonal {b : Body} {d : StateVector} (hcovariance : b.covariance = diagonal d)
    (hd : 0 ≤ d) (hfinite : ∀ i, b.updateVector i → isfinite (b.measurement i))
    (hangle : ∀ i z, i.isAngle → b.updateVector i → b.measurement i = .fin z →
      z ∈ Set.Ioc (-π) π) : Good b where
  finite := hfinite
  angle := hangle
  covariance := by
    have hblock : measuredBlock b = diagonal fun i => if b.updateVector i then d i else 0 := by
      ext i j
      rw [measuredBlock, of_apply, hcovariance, diagonal_apply, diagonal_apply]
      by_cases hij : i = j
      · subst hij
        simp
      · simp [hij]
    rw [hblock]
    refine .diagonal fun i => ?_
    dsimp only [Pi.zero_apply]
    split_ifs
    · exact hd i
    · exact le_rfl
  regular := by
    have hdiagonal : measurementCovariance b
        = diagonal fun i : UpdateIndex b => usableVariance (b.covariance i i) := by
      ext i j
      rw [measurementCovariance, of_apply, diagonal_apply]
      split_ifs with hij
      · rfl
      · rw [hcovariance, diagonal_apply_ne _ fun h => hij (Subtype.ext h)]
    rw [hdiagonal]
    exact .diagonal fun i => usableVariance_pos _

/-! A first estimate, and a sensor of one coordinate. -/

noncomputable def standard : Estimate := ⟨0, 1⟩

theorem uncorrelated_standard : Uncorrelated standard where
  covariance := PosSemidef.one
  angle _ _ := ⟨neg_lt_zero.mpr pi_pos, pi_pos.le⟩
  diagonal _ _ hij := one_apply_ne hij

noncomputable def eastward : Body where
  measurement _ := .fin 0
  covariance := 1
  updateVector i := i = .x
  mahalanobisThresh := 1

theorem good_eastward : Good eastward :=
  good_of_diagonal (d := 1) diagonal_one.symm (fun _ => zero_le_one) (fun _ _ => rfl) (by
    rintro i z _ _ ⟨⟩
    exact ⟨neg_lt_zero.mpr pi_pos, pi_pos.le⟩)

section Node
open FilterBase RosFilter TimedQueue
variable {T Q : Type} [DecidableEq T] {cfg : Config Estimate} {p : Params}
  {P : MeasurementQueue Body Control Q}

noncomputable def plain : Params :=
  ⟨1, false, false, fun _ => false, 0, fun _ => 0, fun _ => 0, fun _ => 0, fun _ => 0⟩

noncomputable def plainRun (control : Control × ℤ) :
    List (Event Unit Estimate Body Control) → List (RosFilter.Estimate Estimate) :=
  Callback.published
    (step ⟨false, 0, true, false, 50, false, standard⟩ (kernel plain) (sortedList Measurement.time))
    (initial ⟨false, 0, true, false, 50, false, standard⟩ (sortedList Measurement.time) control true)

end Node

end Ekf
end RtkLocalization
