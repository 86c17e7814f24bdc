import RtkLocalization.FilterBase
import RtkLocalization.Lib.Kalman
import RtkLocalization.Lib.PyFloat
import RtkLocalization.Lib.Angle

/-!
# `ekf.cpp`

The extended Kalman filter that `FilterBase` drives, over exact numbers. A measured value
may be infinite or NaN: `correct` leaves such a value out. The first measurement is copied
into the state as it is, and there a value that is not finite has no counterpart here.
-/

namespace RtkLocalization
namespace Ekf

open Matrix Covariance

inductive StateMember where
  | x | y | z | roll | pitch | yaw
  | vx | vy | vz | vroll | vpitch | vyaw
  | ax | ay | az
  deriving DecidableEq, Repr

inductive ControlMember where
  | vx | vy | vz | vroll | vpitch | vyaw
  deriving DecidableEq, Repr

instance : Fintype StateMember where
  elems := {.x, .y, .z, .roll, .pitch, .yaw, .vx, .vy, .vz, .vroll, .vpitch, .vyaw, .ax, .ay, .az}
  complete i := by cases i <;> decide

instance : Fintype ControlMember where
  elems := {.vx, .vy, .vz, .vroll, .vpitch, .vyaw}
  complete i := by cases i <;> decide

abbrev StateVector := StateMember → ℝ

abbrev StateMatrix := Matrix StateMember StateMember ℝ

abbrev Control := ControlMember → ℝ

structure Estimate where
  state : StateVector
  covariance : StateMatrix

/-- The part of a `Measurement` that the filter computes with. -/
structure Body where
  measurement : StateMember → PyFloat ℝ
  covariance : StateMatrix
  updateVector : StateMember → Bool
  mahalanobisThresh : ℝ

structure Params where
  processNoiseCovariance : StateMatrix
  useDynamicProcessNoiseCovariance : Bool
  useControl : Bool
  controlUpdateVector : ControlMember → Bool
  controlTimeout : ℤ
  accelerationLimits : ControlMember → ℝ
  accelerationGains : ControlMember → ℝ
  decelerationLimits : ControlMember → ℝ
  decelerationGains : ControlMember → ℝ

/-- `POSITION_V_OFFSET` further on. -/
def ControlMember.state : ControlMember → StateMember
  | .vx => .vx
  | .vy => .vy
  | .vz => .vz
  | .vroll => .vroll
  | .vpitch => .vpitch
  | .vyaw => .vyaw

def StateMember.isAngle : StateMember → Bool
  | .roll | .pitch | .yaw => true
  | _ => false

/-- The block of `TWIST_SIZE` variables at `POSITION_OFFSET`. -/
def StateMember.isPose : StateMember → Bool
  | .x | .y | .z | .roll | .pitch | .yaw => true
  | _ => false

noncomputable section

/-- `angles::normalize_angle`: into `(-π, π]`. -/
def normalizeAngle (a : ℝ) : ℝ := (a : Real.Angle).toReal

def wrapStateAngles (state : StateVector) : StateVector := fun i =>
  if i.isAngle then normalizeAngle (state i) else state i

def toSec (delta : ℤ) : ℝ := delta / 1000000000.0

/-! ### `correct` -/

/-- The members of `update_indices`. -/
def updated (b : Body) (i : StateMember) : Bool := b.updateVector i && isfinite (b.measurement i)

abbrev UpdateIndex (b : Body) : Type := {i // updated b i = true}

def measured (b : Body) (i : UpdateIndex b) : ℝ :=
  match b.measurement i with
  | .fin z => z
  | _ => 0.0

def usableVariance (variance : ℝ) : ℝ :=
  let absolute := if variance < 0.0 then |variance| else variance
  if absolute < 0.000000001 then 0.000000001 else absolute

def measurementCovariance (b : Body) : Matrix (UpdateIndex b) (UpdateIndex b) ℝ :=
  of fun i j => if i = j then usableVariance (b.covariance i i) else b.covariance i j

def stateToMeasurement (b : Body) : Matrix (UpdateIndex b) StateMember ℝ :=
  of fun i j => if j = i then 1.0 else 0.0

def innovation (b : Body) (x : Estimate) (i : UpdateIndex b) : ℝ :=
  let difference := measured b i - x.state i
  if i.val.isAngle then normalizeAngle difference else difference

def checkMahalanobisThreshold {m : Type} [Fintype m] (innovation : m → ℝ)
    (innovationCovariance : Matrix m m ℝ) (nSigmas : ℝ) : Prop :=
  ¬ nSigmas * nSigmas ≤ innovation ⬝ᵥ (innovationCovariance *ᵥ innovation)

open Classical in
def correct (b : Body) (x : Estimate) : Estimate :=
  let H := stateToMeasurement b
  let R := measurementCovariance b
  let gain := Kalman.gain H x.covariance R
  let innovation := innovation b x
  if checkMahalanobisThreshold innovation (Kalman.innovation H x.covariance R)⁻¹
      b.mahalanobisThresh then
    { state := wrapStateAngles (x.state + gain *ᵥ innovation)
      covariance := Kalman.joseph H x.covariance R gain }
  else x

/-! ### `predict` -/

def computeControlAcceleration (state control accelerationLimit accelerationGain
    decelerationLimit decelerationGain : ℝ) : ℝ :=
  let error := control - state
  let setPoint := if |error| ≤ |control| + 0.01 then control else 0.0
  let decelerating := |setPoint| < |state|
  let limit := if decelerating then decelerationLimit else accelerationLimit
  let gain := if decelerating then decelerationGain else accelerationGain
  min (max (gain * error) (-limit)) limit

def prepareControl (p : Params) (control : Control × ℤ) (referenceTime : ℤ) (state : StateVector)
    (i : ControlMember) : ℝ :=
  let timedOut := p.controlTimeout ≤ referenceTime - control.2
  if p.useControl && p.controlUpdateVector i then
    computeControlAcceleration (state i.state) (if timedOut then 0.0 else control.1 i)
      (p.accelerationLimits i) (p.accelerationGains i) (p.decelerationLimits i)
      (p.decelerationGains i)
  else 0.0

/-- The control terms, which are accelerations. -/
def applyControl (p : Params) (acceleration : Control) (deltaSec : ℝ) (state : StateVector) :
    StateVector
  | .vroll => state .vroll + acceleration .vroll * deltaSec
  | .vpitch => state .vpitch + acceleration .vpitch * deltaSec
  | .vyaw => state .vyaw + acceleration .vyaw * deltaSec
  | .ax => if p.controlUpdateVector .vx then acceleration .vx else state .ax
  | .ay => if p.controlUpdateVector .vy then acceleration .vy else state .ay
  | .az => if p.controlUpdateVector .vz then acceleration .vz else state .az
  | i => state i

def transferFunction (state : StateVector) (deltaSec : ℝ) : StateMatrix :=
  let sp := Real.sin (state .pitch)
  let cp := Real.cos (state .pitch)
  let cpi := 1.0 / cp
  let tp := sp * cpi
  let sr := Real.sin (state .roll)
  let cr := Real.cos (state .roll)
  let sy := Real.sin (state .yaw)
  let cy := Real.cos (state .yaw)
  -- The row of a position, from its entries for the velocities.
  let position (i : StateMember) (vx vy vz : ℝ) : StateVector := fun
    | .vx => vx
    | .vy => vy
    | .vz => vz
    | .ax => 0.5 * vx * deltaSec
    | .ay => 0.5 * vy * deltaSec
    | .az => 0.5 * vz * deltaSec
    | j => if i = j then 1.0 else 0.0
  let orientation (i : StateMember) (vroll vpitch vyaw : ℝ) : StateVector := fun
    | .vroll => vroll
    | .vpitch => vpitch
    | .vyaw => vyaw
    | j => if i = j then 1.0 else 0.0
  let velocity (i a : StateMember) : StateVector := fun j =>
    if j = a then deltaSec else if i = j then 1.0 else 0.0
  of fun
    | .x => position .x (cy * cp * deltaSec) ((cy * sp * sr - sy * cr) * deltaSec)
        ((cy * sp * cr + sy * sr) * deltaSec)
    | .y => position .y (sy * cp * deltaSec) ((sy * sp * sr + cy * cr) * deltaSec)
        ((sy * sp * cr - cy * sr) * deltaSec)
    | .z => position .z (-sp * deltaSec) (cp * sr * deltaSec) (cp * cr * deltaSec)
    | .roll => orientation .roll deltaSec (sr * tp * deltaSec) (cr * tp * deltaSec)
    | .pitch => orientation .pitch 0.0 (cr * deltaSec) (-sr * deltaSec)
    | .yaw => orientation .yaw 0.0 (sr * cpi * deltaSec) (cr * cpi * deltaSec)
    | .vx => velocity .vx .ax
    | .vy => velocity .vy .ay
    | .vz => velocity .vz .az
    | i => fun j => if i = j then 1.0 else 0.0

def transferFunctionJacobian (state : StateVector) (deltaSec : ℝ) : StateMatrix :=
  let xVel := state .vx
  let yVel := state .vy
  let zVel := state .vz
  let pitchVel := state .vpitch
  let yawVel := state .vyaw
  let xAcc := state .ax
  let yAcc := state .ay
  let zAcc := state .az
  let sp := Real.sin (state .pitch)
  let cp := Real.cos (state .pitch)
  let cpi := 1.0 / cp
  let tp := sp * cpi
  let sr := Real.sin (state .roll)
  let cr := Real.cos (state .roll)
  let sy := Real.sin (state .yaw)
  let cy := Real.cos (state .yaw)
  let oneHalfAtSquared := 0.5 * deltaSec * deltaSec
  -- `x_coeff`, `y_coeff` and `z_coeff` of a derivative of a position.
  let position (xCoeff yCoeff zCoeff : ℝ) : ℝ :=
    (xCoeff * xVel + yCoeff * yVel + zCoeff * zVel) * deltaSec
      + (xCoeff * xAcc + yCoeff * yAcc + zCoeff * zAcc) * oneHalfAtSquared
  of fun
    | .x, .roll => position 0.0 (cy * sp * cr + sy * sr) (-cy * sp * sr + sy * cr)
    | .x, .pitch => position (-cy * sp) (cy * cp * sr) (cy * cp * cr)
    | .x, .yaw => position (-sy * cp) (-sy * sp * sr - cy * cr) (-sy * sp * cr + cy * sr)
    | .y, .roll => position 0.0 (sy * sp * cr - cy * sr) (-sy * sp * sr - cy * cr)
    | .y, .pitch => position (-sy * sp) (sy * cp * sr) (sy * cp * cr)
    | .y, .yaw => position (cy * cp) (cy * sp * sr - sy * cr) (cy * sp * cr + sy * sr)
    | .z, .roll => position 0.0 (cp * cr) (-cp * sr)
    | .z, .pitch => position (-cp) (-sp * sr) (-sp * cr)
    | .roll, .roll => 1.0 + (cr * tp * pitchVel - sr * tp * yawVel) * deltaSec
    | .roll, .pitch => (cpi * cpi * sr * pitchVel + cpi * cpi * cr * yawVel) * deltaSec
    | .pitch, .roll => (-sr * pitchVel - cr * yawVel) * deltaSec
    | .yaw, .roll => (cr * cpi * pitchVel - sr * cpi * yawVel) * deltaSec
    | .yaw, .pitch => (sr * tp * cpi * pitchVel + cr * tp * cpi * yawVel) * deltaSec
    | i, j => transferFunction state deltaSec i j

/-- `computeDynamicProcessNoiseCovariance`: the pose block scaled by the norm of the velocity. -/
def processNoise (p : Params) (state : StateVector) : StateMatrix :=
  let norm := √(∑ i : ControlMember, state i.state * state i.state)
  if p.useDynamicProcessNoiseCovariance then
    of fun i j =>
      if i.isPose && j.isPose then norm * p.processNoiseCovariance i j * norm
      else p.processNoiseCovariance i j
  else p.processNoiseCovariance

/-- The state projected forward, its angles as they come out. -/
def project (p : Params) (control : Control × ℤ) (referenceTime : ℤ) (deltaSec : ℝ)
    (state : StateVector) : StateVector :=
  let acceleration := prepareControl p control referenceTime state
  transferFunction state deltaSec *ᵥ applyControl p acceleration deltaSec state

def predict (p : Params) (control : Control × ℤ) (referenceTime delta : ℤ) (x : Estimate) :
    Estimate :=
  let deltaSec := toSec delta
  { state := wrapStateAngles (project p control referenceTime deltaSec x.state)
    covariance := transport (transferFunctionJacobian x.state deltaSec) x.covariance
      + deltaSec • processNoise p x.state }

/-! ### The first measurement -/

def start (b : Body) (x : Estimate) : Estimate where
  state i :=
    match b.updateVector i, b.measurement i with
    | true, .fin z => z
    | _, _ => x.state i
  covariance := of fun i j =>
    if b.updateVector i && b.updateVector j then b.covariance i j else x.covariance i j

def kernel (p : Params) : FilterBase.Kernel Estimate Body Control where
  start := start
  predict := predict p
  correct := correct

end

end Ekf
end RtkLocalization
