import RtkLocalization.Lib.Rotation

/-!
# ROS messages read and written by the nodes

`builtin_interfaces`, `std_msgs`, `geometry_msgs`, `nav_msgs` and `sensor_msgs`
types with the fields the scripts of `rtk_global_localization` touch. Message
types are generic in the number type `α` of their `float64` fields: exact
reals where a result is about exact arithmetic, `PyFloat K` where NaN and the
infinities matter. Points and vectors are `Vec3`; covariance arrays have the
fixed length of the message definition, in row-major order.
-/

namespace RtkLocalization

structure Stamp where
  sec : ℤ
  nanosec : ℕ
  deriving DecidableEq, Repr

/-- `Time.to_msg()` of a clock reading in nanoseconds. -/
def Stamp.ofNanoseconds (now : ℤ) : Stamp :=
  ⟨now / 1000000000, (now % 1000000000).toNat⟩

structure Header where
  stamp : Stamp
  frameId : String
  deriving DecidableEq, Repr

def cell3 (i : ℕ) : Fin 9 := Fin.ofNat 9 i

def cell6 (i : ℕ) : Fin 36 := Fin.ofNat 36 i

def setCell {α : Type} {n : ℕ} (cov : Vector α n) (i : Fin n) (x : α) : Vector α n := cov.set i x

def setCells {α : Type} {n : ℕ} (cov : Vector α n) (cells : List (Fin n × α)) : Vector α n :=
  cells.foldl (fun cov cell => setCell cov cell.1 cell.2) cov

theorem get_setCell {α : Type} {n : ℕ} (cov : Vector α n) (i j : Fin n) (x : α) :
    (setCell cov i x).get j = if i = j then x else cov.get j := by
  show (cov.set i x)[(j : ℕ)] = if i = j then x else cov[(j : ℕ)]
  rw [Vector.getElem_set]
  simp only [Fin.ext_iff]

theorem get_cell3 {α : Type} (cov : Vector α 9) {i : ℕ} (hi : i < 9) :
    cov.get (cell3 i) = cov[i] := by
  have h : cell3 i = ⟨i, hi⟩ := Fin.ext (Nat.mod_eq_of_lt hi)
  rw [h]
  rfl

theorem vector_ext_get {α : Type} {n : ℕ} {v w : Vector α n} (h : ∀ i : Fin n, v.get i = w.get i) :
    v = w :=
  Vector.ext fun i hi => h ⟨i, hi⟩

@[ext] structure Quat (α : Type) where
  x : α
  y : α
  z : α
  w : α
  deriving DecidableEq, Repr

structure Pose (α : Type) where
  position : Vec3 α
  orientation : Quat α
  deriving DecidableEq, Repr

structure PoseWithCovariance (α : Type) where
  pose : Pose α
  covariance : Vector α 36
  deriving DecidableEq, Repr

structure PoseStamped (α : Type) where
  header : Header
  pose : Pose α
  deriving DecidableEq, Repr

structure PoseWithCovarianceStamped (α : Type) where
  header : Header
  pose : PoseWithCovariance α
  deriving DecidableEq, Repr

structure Twist (α : Type) where
  linear : Vec3 α
  angular : Vec3 α
  deriving DecidableEq, Repr

structure TwistWithCovariance (α : Type) where
  twist : Twist α
  covariance : Vector α 36
  deriving DecidableEq, Repr

structure Odometry (α : Type) where
  header : Header
  childFrameId : String
  pose : PoseWithCovariance α
  twist : TwistWithCovariance α
  deriving DecidableEq, Repr

structure Imu (α : Type) where
  header : Header
  orientation : Quat α
  orientationCovariance : Vector α 9
  angularVelocity : Vec3 α
  angularVelocityCovariance : Vector α 9
  linearAcceleration : Vec3 α
  linearAccelerationCovariance : Vector α 9
  deriving DecidableEq, Repr

structure NavSatStatus where
  status : ℤ
  service : ℕ
  deriving DecidableEq, Repr

inductive CovarianceType where
  | unknown
  | approximated
  | diagonalKnown
  | known
  deriving DecidableEq, Repr

structure NavSatFix (α : Type) where
  header : Header
  status : NavSatStatus
  latitude : α
  longitude : α
  altitude : α
  positionCovariance : Vector α 9
  positionCovarianceType : CovarianceType
  deriving DecidableEq, Repr

open scoped Quaternion in
def Quat.toH (q : Quat ℝ) : ℍ[ℝ] := ⟨q.w, q.x, q.y, q.z⟩

/-- Unit norm, the condition under which a quaternion is an attitude. -/
def Quat.IsUnit (q : Quat ℝ) : Prop := q.x ^ 2 + q.y ^ 2 + q.z ^ 2 + q.w ^ 2 = 1

noncomputable def Quat.rotate (q : Quat ℝ) (v : Vec3 ℝ) : Vec3 ℝ := Rotation.rotate q.toH v

@[simp] theorem Quat.toH_re (q : Quat ℝ) : q.toH.re = q.w := rfl
@[simp] theorem Quat.toH_imI (q : Quat ℝ) : q.toH.imI = q.x := rfl
@[simp] theorem Quat.toH_imJ (q : Quat ℝ) : q.toH.imJ = q.y := rfl
@[simp] theorem Quat.toH_imK (q : Quat ℝ) : q.toH.imK = q.z := rfl

theorem Quat.normSq_toH (q : Quat ℝ) :
    Quaternion.normSq q.toH = q.x ^ 2 + q.y ^ 2 + q.z ^ 2 + q.w ^ 2 := by
  rw [Quaternion.normSq_def']
  simp only [Quat.toH_re, Quat.toH_imI, Quat.toH_imJ, Quat.toH_imK]
  ring

theorem Quat.isUnit_iff (q : Quat ℝ) : q.IsUnit ↔ Quaternion.normSq q.toH = 1 := by
  rw [Quat.normSq_toH]
  rfl

end RtkLocalization
