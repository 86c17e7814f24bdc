import RtkLocalization.OdometryGate

/-!
# The position limit of `odometry_sanitizer.py` is a speed limit

`_is_kinematic_outlier` compares the distance with the larger of
`max_position_step` and `max_linear_speed * dt`, and the speed with
`max_linear_speed`. In exact arithmetic the second test already decides:
`position_gate_is_speed_gate`.
-/

namespace RtkLocalization
namespace OdometrySanitizer

open Callback

/-- The `reason` given to `_warn_outlier`. -/
inductive OutlierReason where
  | position
  | yaw
  deriving DecidableEq, Repr

section Model
variable {α : Type} [Add α] [Sub α] [Mul α] [Div α] [Neg α] [IntCast α] [NatCast α]
  [OfScientific α] [PyMath α] [LT α] [DecidableLT α] [LE α] [DecidableLE α]

/-- The second half of `_is_kinematic_outlier`, with the reason of the warning in
place of `True`. -/
def limitReason (cfg : Config α) (last : Reference α) (currentPose : Pose α) (dt : α) :
    Option OutlierReason :=
  let p := currentPose.position
  let lastP := last.pose.position
  let dx := p.x - lastP.x
  let dy := p.y - lastP.y
  let dz := p.z - lastP.z
  let distance := PyMath.sqrt (dx * dx + dy * dy + dz * dz)
  let speed := distance / dt
  let yaw := yawFromQuaternion currentPose.orientation
  let lastYaw := yawFromQuaternion last.pose.orientation
  let yawRate := pyAbs (normalizeAngle (yaw - lastYaw)) / dt
  let distanceLimit := pyMax cfg.maxPositionStep (cfg.maxLinearSpeed * dt)
  if distanceLimit < distance ∨ cfg.maxLinearSpeed < speed then some .position
  else if cfg.maxYawRate < yawRate then some .yaw
  else none

def outlierReason (cfg : Config α) (st : State α) (ev : Event α) : Option OutlierReason :=
  if !cfg.rejectKinematicOutliers then none
  else
    match st.lastPublished with
    | none => none
    | some last =>
      let dt := stampSeconds (outStamp cfg ev) ev.clock.gate - last.time
      if dt ≤ 1.0e-4 then none else limitReason cfg last ev.msg.pose.pose dt

omit [IntCast α] [NatCast α] [LE α] [DecidableLE α] in
theorem isSome_limitReason (cfg : Config α) (last : Reference α) (currentPose : Pose α) (dt : α) :
    (limitReason cfg last currentPose dt).isSome = exceedsLimits cfg last currentPose dt := by
  simp only [limitReason, exceedsLimits]
  split_ifs with hposition hyaw
  · rcases hposition with h | h
    · simp only [h, decide_true, Bool.true_or, Option.isSome_some]
    · simp only [h, decide_true, Bool.or_true, Bool.true_or, Option.isSome_some]
  · simp only [hyaw, decide_true, Bool.or_true, Option.isSome_some]
  · obtain ⟨h1, h2⟩ := not_or.mp hposition
    simp only [h1, h2, hyaw, decide_false, Bool.or_false, Option.isSome_none]

theorem isSome_outlierReason (cfg : Config α) (st : State α) (ev : Event α) :
    (outlierReason cfg st ev).isSome = gate cfg st ev := by
  unfold outlierReason gate isKinematicOutlier
  split
  · rfl
  · cases st.lastPublished with
    | none => rfl
    | some last =>
      dsimp only
      have hstamp : outStamp cfg ev = (copyMessage cfg ev).header.stamp := rfl
      rw [hstamp]
      split
      · rfl
      · exact isSome_limitReason _ _ _ _

end Model

/-! ### The step limit has no effect -/

theorem distanceLimit_or_speed_iff {step speed distance dt : ℝ} (hdt : 0 < dt) :
    max step (speed * dt) < distance ∨ speed < distance / dt ↔ speed * dt < distance := by
  rw [lt_div_iff₀ hdt, max_lt_iff]
  exact ⟨fun h => h.elim And.right id, Or.inr⟩

theorem limitReason_eq {cfg : Config ℝ} {last : Reference ℝ} {pose : Pose ℝ} {dt : ℝ}
    (hdt : 0 < dt) :
    limitReason cfg last pose dt =
      if cfg.maxLinearSpeed * dt < Vec3.distance pose.position last.pose.position then
        some .position
      else if cfg.maxYawRate < Planar.circDist (poseYaw pose) (poseYaw last.pose) / dt then
        some .yaw
      else none := by
  simp only [limitReason, pyMax_eq_max, pyAbs_real, abs_normalizeAngle_sub,
    distanceLimit_or_speed_iff hdt]
  rfl

/-- `outlierReason` is a function of the speed and the yaw rate only. -/
theorem outlierReason_maxPositionStep (cfg : Config ℝ) (step : ℝ) (st : State ℝ) (ev : Event ℝ) :
    outlierReason { cfg with maxPositionStep := step } st ev = outlierReason cfg st ev := by
  unfold outlierReason
  split
  · rfl
  · cases st.lastPublished with
    | none => rfl
    | some last =>
      dsimp only
      have hstamp : outStamp { cfg with maxPositionStep := step } ev = outStamp cfg ev := rfl
      rw [hstamp]
      split
      · rfl
      · next hlong =>
        have hdt := pos_of_long (not_le.mp hlong)
        rw [limitReason_eq hdt, limitReason_eq hdt]

theorem callback_maxPositionStep (cfg : Config ℝ) (step : ℝ) :
    callback { cfg with maxPositionStep := step } = callback cfg := by
  funext st ev
  have hgate : gate { cfg with maxPositionStep := step } st ev = gate cfg st ev := by
    rw [← isSome_outlierReason, ← isSome_outlierReason, outlierReason_maxPositionStep]
  have hprepare : prepare { cfg with maxPositionStep := step } st.lastInput ev
      = prepare cfg st.lastInput ev := rfl
  have hstamp : outStamp { cfg with maxPositionStep := step } ev = outStamp cfg ev := rfl
  cases h : gate cfg st ev with
  | true => rw [callback_of_gate h, callback_of_gate (hgate.trans h), hprepare]
  | false => rw [callback_of_not_gate h, callback_of_not_gate (hgate.trans h), hprepare, hstamp]

theorem lastPublished_pose (cfg : Config ℝ) (events : List (Event ℝ)) :
    (stateAfter (callback cfg) State.initial events).lastPublished.map Reference.pose
      = (published (callback cfg) State.initial events).getLast?.map fun o => o.pose.pose := by
  induction events using List.reverseRecOn with
  | nil => rfl
  | append_singleton events ev ih =>
    rw [stateAfter_append, published_append_singleton]
    set st := stateAfter (callback cfg) State.initial events
    show (callback cfg st ev).1.lastPublished.map Reference.pose = _
    cases h : gate cfg st ev with
    | true => rw [lastPublished_of_gate h, (callback_eq_none_iff cfg st ev).mpr h, ih,
        Option.toList_none, List.append_nil]
    | false =>
      rw [lastPublished_of_not_gate h, callback_snd_of_not_gate h, Option.toList_some,
        List.getLast?_concat, Option.map_some, Option.map_some, prepare_pose]

end OdometrySanitizer
end RtkLocalization
