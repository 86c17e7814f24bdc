import RtkLocalization.Lib.Callback
import RtkLocalization.PyMath

/-!
# `odometry_sanitizer.py`

The local odometry filter in front of the EKF: it estimates the twist from
consecutive poses, fills in covariances and drops messages that would need an
impossible motion. Two references are kept apart: the last *input* for the twist
and the last *published* message for the gate.

The clock is read wherever a stamp is missing, so an event carries one reading
for each place that may ask for it.
-/

namespace RtkLocalization

/-- `float(stamp.sec) + float(stamp.nanosec) * 1.0e-9`. -/
def Stamp.seconds {α : Type} [Add α] [Mul α] [IntCast α] [NatCast α] [OfScientific α]
    (stamp : Stamp) : α :=
  (stamp.sec : α) + (stamp.nanosec : α) * 1.0e-9

namespace OdometrySanitizer

structure Config (α : Type) where
  outputFrameId : String
  outputChildFrameId : String
  restampToNow : Bool
  xyVariance : α
  zVariance : α
  rollPitchVariance : α
  yawVariance : α
  twistLinearVariance : α
  twistAngularVariance : α
  minimumVariance : α
  forceCovariance : Bool
  estimateTwistFromPose : Bool
  rejectKinematicOutliers : Bool
  maxLinearSpeed : α
  maxPositionStep : α
  maxYawRate : α

/-- A pose and its time in seconds: `last_published_*` and `last_input_*`. -/
structure Reference (α : Type) where
  pose : Pose α
  time : α

structure State (α : Type) where
  received : ℕ
  published : ℕ
  dropped : ℕ
  lastPublished : Option (Reference α)
  lastInput : Option (Reference α)

def State.initial {α : Type} : State α := ⟨0, 0, 0, none, none⟩

/-- Clock readings in nanoseconds during one callback. -/
structure Clock where
  restamp : ℤ
  estimate : ℤ
  gate : ℤ
  publish : ℤ

structure Event (α : Type) where
  msg : Odometry α
  clock : Clock

section Model
variable {α : Type} [Add α] [Sub α] [Mul α] [Div α] [Neg α] [IntCast α] [NatCast α]
  [OfScientific α] [PyMath α] [IsFinite α] [LT α] [DecidableLT α] [LE α] [DecidableLE α]

def covarianceIsUsable (covariance : Vector α 36) (indices : List (Fin 36)) : Bool :=
  indices.all fun idx =>
    let value := covariance.get idx
    !(!isfinite value || decide (value ≤ 0.0))

def diagonalIndices : List (Fin 36) :=
  [cell6 0, cell6 7, cell6 14, cell6 21, cell6 28, cell6 35]

/-- Shared body of the two `_fill_*_covariance` methods: keep a usable matrix
unless forced, otherwise the diagonal of the given variances. -/
def fillCovariance (cfg : Config α) (covariance : Vector α 36) (x y z roll pitch yaw : α) :
    Vector α 36 :=
  if !cfg.forceCovariance && covarianceIsUsable covariance diagonalIndices then covariance
  else
    setCells (Vector.replicate 36 0.0)
      [(cell6 0, pyMax x cfg.minimumVariance), (cell6 7, pyMax y cfg.minimumVariance),
        (cell6 14, pyMax z cfg.minimumVariance), (cell6 21, pyMax roll cfg.minimumVariance),
        (cell6 28, pyMax pitch cfg.minimumVariance), (cell6 35, pyMax yaw cfg.minimumVariance)]

def fillPoseCovariance (cfg : Config α) (odom : Odometry α) : Odometry α :=
  let cov := fillCovariance cfg odom.pose.covariance cfg.xyVariance cfg.xyVariance cfg.zVariance
    cfg.rollPitchVariance cfg.rollPitchVariance cfg.yawVariance
  { odom with pose := { odom.pose with covariance := cov } }

def fillTwistCovariance (cfg : Config α) (odom : Odometry α) : Odometry α :=
  let cov := fillCovariance cfg odom.twist.covariance cfg.twistLinearVariance
    cfg.twistLinearVariance cfg.twistLinearVariance cfg.twistAngularVariance
    cfg.twistAngularVariance cfg.twistAngularVariance
  { odom with twist := { odom.twist with covariance := cov } }

def bodyFrameVelocity (dx dy yaw dt : α) : α × α :=
  let vxWorld := dx / dt
  let vyWorld := dy / dt
  let cosYaw := PyMath.cos yaw
  let sinYaw := PyMath.sin yaw
  (cosYaw * vxWorld + sinYaw * vyWorld, -sinYaw * vxWorld + cosYaw * vyWorld)

/-- `_stamp_seconds`: the stamp, or the clock for a stamp that is not positive. -/
def stampSeconds (stamp : Stamp) (now : ℤ) : α :=
  if (0.0 : α) < stamp.seconds then stamp.seconds else (now : α) * 1.0e-9

def twistBetween (last : Reference α) (currentPose : Pose α) (dt : α) : Twist α :=
  let currentYaw := yawFromQuaternion currentPose.orientation
  let lastYaw := yawFromQuaternion last.pose.orientation
  let dx := currentPose.position.x - last.pose.position.x
  let dy := currentPose.position.y - last.pose.position.y
  let dz := currentPose.position.z - last.pose.position.z
  let v := bodyFrameVelocity dx dy currentYaw dt
  ⟨⟨v.1, v.2, dz / dt⟩, ⟨0.0, 0.0, normalizeAngle (currentYaw - lastYaw) / dt⟩⟩

/-- `_estimate_twist_from_pose`: the new `last_input_*` and the message. -/
def estimateTwistFromPose (cfg : Config α) (lastInput : Option (Reference α)) (odom : Odometry α)
    (now : ℤ) : Option (Reference α) × Odometry α :=
  if !cfg.estimateTwistFromPose then (lastInput, odom)
  else
    let currentTime := stampSeconds odom.header.stamp now
    let currentPose := odom.pose.pose
    match lastInput with
    | none => (some ⟨currentPose, currentTime⟩, odom)
    | some last =>
      let dt := currentTime - last.time
      if dt ≤ 1.0e-4 then (some last, odom)
      else
        (some ⟨currentPose, currentTime⟩,
          { odom with twist := { odom.twist with twist := twistBetween last currentPose dt } })

def exceedsLimits (cfg : Config α) (last : Reference α) (currentPose : Pose α) (dt : α) : Bool :=
  let p := currentPose.position
  let lastP := last.pose.position
  let dx := p.x - lastP.x
  let dy := p.y - lastP.y
  let dz := p.z - lastP.z
  let distance := PyMath.sqrt (dx * dx + dy * dy + dz * dz)
  let speed := distance / dt
  let yaw := yawFromQuaternion currentPose.orientation
  let lastYaw := yawFromQuaternion last.pose.orientation
  let yawRate := pyAbs (normalizeAngle (yaw - lastYaw)) / dt
  let distanceLimit := pyMax cfg.maxPositionStep (cfg.maxLinearSpeed * dt)
  decide (distanceLimit < distance) || decide (cfg.maxLinearSpeed < speed)
    || decide (cfg.maxYawRate < yawRate)

def isKinematicOutlier (cfg : Config α) (lastPublished : Option (Reference α)) (odom : Odometry α)
    (now : ℤ) : Bool :=
  if !cfg.rejectKinematicOutliers then false
  else
    match lastPublished with
    | none => false
    | some last =>
      let dt := stampSeconds odom.header.stamp now - last.time
      if dt ≤ 1.0e-4 then false else exceedsLimits cfg last odom.pose.pose dt

def copyMessage (cfg : Config α) (ev : Event α) : Odometry α where
  header :=
    { stamp := if cfg.restampToNow then Stamp.ofNanoseconds ev.clock.restamp
        else ev.msg.header.stamp
      frameId := cfg.outputFrameId }
  childFrameId := cfg.outputChildFrameId
  pose := ev.msg.pose
  twist := ev.msg.twist

/-- The first half of `_callback`: new twist reference and finished message. -/
def prepare (cfg : Config α) (lastInput : Option (Reference α)) (ev : Event α) :
    Option (Reference α) × Odometry α :=
  let est := estimateTwistFromPose cfg lastInput (copyMessage cfg ev) ev.clock.estimate
  (est.1, fillTwistCovariance cfg (fillPoseCovariance cfg est.2))

def callback (cfg : Config α) : Callback.Step (State α) (Event α) (Odometry α) := fun st ev =>
  let (lastInput, out) := prepare cfg st.lastInput ev
  if isKinematicOutlier cfg st.lastPublished out ev.clock.gate then
    ({ st with received := st.received + 1, dropped := st.dropped + 1, lastInput := lastInput },
      none)
  else
    ({ st with
        received := st.received + 1
        published := st.published + 1
        lastPublished :=
          some ⟨out.pose.pose, stampSeconds out.header.stamp ev.clock.publish⟩
        lastInput := lastInput }, some out)

/-! ### What a callback does -/

omit [IsFinite α] in
theorem estimateTwistFromPose_frame (cfg : Config α) (lastInput : Option (Reference α))
    (odom : Odometry α) (now : ℤ) :
    ∃ twist, (estimateTwistFromPose cfg lastInput odom now).2
      = { odom with twist := { odom.twist with twist := twist } } := by
  unfold estimateTwistFromPose
  split
  · exact ⟨odom.twist.twist, rfl⟩
  · cases lastInput with
    | none => exact ⟨odom.twist.twist, rfl⟩
    | some last =>
      dsimp only
      split
      · exact ⟨odom.twist.twist, rfl⟩
      · exact ⟨_, rfl⟩

theorem prepare_header (cfg : Config α) (lastInput : Option (Reference α)) (ev : Event α) :
    (prepare cfg lastInput ev).2.header = (copyMessage cfg ev).header := by
  obtain ⟨twist, h⟩ := estimateTwistFromPose_frame cfg lastInput (copyMessage cfg ev)
    ev.clock.estimate
  simp only [prepare, fillTwistCovariance, fillPoseCovariance, h]

theorem prepare_pose (cfg : Config α) (lastInput : Option (Reference α)) (ev : Event α) :
    (prepare cfg lastInput ev).2.pose.pose = ev.msg.pose.pose := by
  obtain ⟨twist, h⟩ := estimateTwistFromPose_frame cfg lastInput (copyMessage cfg ev)
    ev.clock.estimate
  simp only [prepare, fillTwistCovariance, fillPoseCovariance, h]
  rfl

def outStamp (cfg : Config α) (ev : Event α) : Stamp := (copyMessage cfg ev).header.stamp

/-! The three cases of the twist estimate, as the rest of the callback sees
them: the new reference and the twist of the finished message. -/

theorem prepare_of_none {cfg : Config α} (hest : cfg.estimateTwistFromPose = true) (ev : Event α) :
    (prepare cfg none ev).1
      = some ⟨ev.msg.pose.pose, stampSeconds (outStamp cfg ev) ev.clock.estimate⟩ := by
  simp only [prepare, estimateTwistFromPose, hest, Bool.not_true, Bool.false_eq_true, if_false]
  rfl

theorem prepare_of_short {cfg : Config α} {last : Reference α} {ev : Event α}
    (h : stampSeconds (outStamp cfg ev) ev.clock.estimate - last.time ≤ 1.0e-4) :
    (prepare cfg (some last) ev).1 = some last ∧
    (prepare cfg (some last) ev).2.twist.twist = ev.msg.twist.twist := by
  have hest : estimateTwistFromPose cfg (some last) (copyMessage cfg ev) ev.clock.estimate
      = (some last, copyMessage cfg ev) := by
    unfold estimateTwistFromPose
    split
    · rfl
    · exact if_pos h
  simp only [prepare, fillTwistCovariance, fillPoseCovariance, hest]
  exact ⟨trivial, rfl⟩

theorem prepare_of_long {cfg : Config α} (hest : cfg.estimateTwistFromPose = true)
    {last : Reference α} {ev : Event α}
    (h : ¬ stampSeconds (outStamp cfg ev) ev.clock.estimate - last.time ≤ 1.0e-4) :
    (prepare cfg (some last) ev).1
      = some ⟨ev.msg.pose.pose, stampSeconds (outStamp cfg ev) ev.clock.estimate⟩ ∧
    (prepare cfg (some last) ev).2.twist.twist
      = twistBetween last ev.msg.pose.pose
          (stampSeconds (outStamp cfg ev) ev.clock.estimate - last.time) := by
  simp only [prepare, fillTwistCovariance, fillPoseCovariance, estimateTwistFromPose, hest,
    Bool.not_true, Bool.false_eq_true, if_false, outStamp] at h ⊢
  rw [if_neg h]
  exact ⟨rfl, rfl⟩

/-- The gate as a function of the state before the callback and the message. -/
def gate (cfg : Config α) (st : State α) (ev : Event α) : Bool :=
  isKinematicOutlier cfg st.lastPublished (copyMessage cfg ev) ev.clock.gate

theorem isKinematicOutlier_prepare (cfg : Config α) (st : State α) (ev : Event α) :
    isKinematicOutlier cfg st.lastPublished (prepare cfg st.lastInput ev).2 ev.clock.gate
      = gate cfg st ev := by
  simp only [gate, isKinematicOutlier, prepare_header, prepare_pose]
  rfl

theorem callback_of_gate {cfg : Config α} {st : State α} {ev : Event α}
    (h : gate cfg st ev = true) :
    callback cfg st ev =
      ({ st with
          received := st.received + 1
          dropped := st.dropped + 1
          lastInput := (prepare cfg st.lastInput ev).1 }, none) := by
  simp only [callback, isKinematicOutlier_prepare, h, if_true]

theorem callback_of_not_gate {cfg : Config α} {st : State α} {ev : Event α}
    (h : gate cfg st ev = false) :
    callback cfg st ev =
      ({ st with
          received := st.received + 1
          published := st.published + 1
          lastPublished :=
            some ⟨ev.msg.pose.pose, stampSeconds (outStamp cfg ev) ev.clock.publish⟩
          lastInput := (prepare cfg st.lastInput ev).1 },
        some (prepare cfg st.lastInput ev).2) := by
  simp only [callback, isKinematicOutlier_prepare, h, Bool.false_eq_true, if_false, prepare_pose,
    prepare_header, outStamp]

theorem callback_snd_of_not_gate {cfg : Config α} {st : State α} {ev : Event α}
    (h : gate cfg st ev = false) :
    (callback cfg st ev).2 = some (prepare cfg st.lastInput ev).2 := by
  rw [callback_of_not_gate h]

theorem lastPublished_of_not_gate {cfg : Config α} {st : State α} {ev : Event α}
    (h : gate cfg st ev = false) :
    (callback cfg st ev).1.lastPublished
      = some ⟨ev.msg.pose.pose, stampSeconds (outStamp cfg ev) ev.clock.publish⟩ := by
  rw [callback_of_not_gate h]

theorem lastPublished_of_gate {cfg : Config α} {st : State α} {ev : Event α}
    (h : gate cfg st ev = true) : (callback cfg st ev).1.lastPublished = st.lastPublished := by
  rw [callback_of_gate h]

theorem lastInput_callback (cfg : Config α) (st : State α) (ev : Event α) :
    (callback cfg st ev).1.lastInput = (prepare cfg st.lastInput ev).1 := by
  cases h : gate cfg st ev with
  | true => rw [callback_of_gate h]
  | false => rw [callback_of_not_gate h]

theorem callback_eq_none_iff (cfg : Config α) (st : State α) (ev : Event α) :
    (callback cfg st ev).2 = none ↔ gate cfg st ev = true := by
  cases h : gate cfg st ev with
  | true => simp only [callback_of_gate h]
  | false => simp only [callback_of_not_gate h, reduceCtorEq, Bool.false_eq_true]

theorem gate_of_published {cfg : Config α} {st : State α} {ev : Event α} {o : Odometry α}
    (h : (callback cfg st ev).2 = some o) : gate cfg st ev = false := by
  rw [← Bool.not_eq_true, ← callback_eq_none_iff, h]
  exact Option.some_ne_none o

omit [IsFinite α] in
theorem gate_initial (cfg : Config α) (ev : Event α) : gate cfg State.initial ev = false := by
  simp only [gate, isKinematicOutlier, State.initial]
  split
  · rfl
  · rfl

omit [IsFinite α] in
theorem gate_of_lastPublished_some {cfg : Config α} {st : State α} {last : Reference α}
    (ev : Event α) (hreject : cfg.rejectKinematicOutliers = true) (h : st.lastPublished = some last) :
    gate cfg st ev =
      let dt := stampSeconds (outStamp cfg ev) ev.clock.gate - last.time
      if dt ≤ 1.0e-4 then false else exceedsLimits cfg last ev.msg.pose.pose dt := by
  simp only [gate, isKinematicOutlier, h, hreject, Bool.not_true, Bool.false_eq_true, if_false]
  rfl

end Model

end OdometrySanitizer
end RtkLocalization
