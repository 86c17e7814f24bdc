import RtkLocalization.GeoreferencedRtkOdometry
import RtkLocalization.MapRelativeHeadingImu

/-!
# `map_origin_recorder.py` and its consumers as they are launched

The recorder writes the origin file once, from the latest fix and heading. The
launch file decides which node gets which yaw offset: the recorder and the
odometry node share `map_origin_heading_yaw_offset`, the relative heading node
keeps its default. `localised_at_recorded_origin` is what comes out when the
robot has not moved since the recording.
-/

namespace RtkLocalization

structure OriginFile (α : Type) where
  frameId : String
  latitude : α
  longitude : α
  altitude : α
  yawEnu : α
  stamp : Stamp

namespace MapOriginRecorder

structure Config (α : Type) where
  frameId : String
  requireHeading : Bool
  headingYawOffset : α
  overwrite : Bool

structure State (α : Type) where
  latestFix : Option (NavSatFix α)
  latestYaw : Option α
  recorded : Bool

def State.initial {α : Type} : State α := ⟨none, none, false⟩

/-- An incoming message; `pathExists` is what `os.path.exists(output_path)` answers
while it is handled. -/
inductive Event (α : Type) where
  | heading (msg : Imu α) (pathExists : Bool)
  | fix (msg : NavSatFix α) (pathExists : Bool)

section Model
variable {α : Type} [Add α] [Sub α] [Mul α] [OfScientific α] [PyMath α]

/-- `_try_record`; the second component is the file it writes. -/
def tryRecord (cfg : Config α) (s : State α) (pathExists : Bool) : State α × Option (OriginFile α) :=
  match s.latestFix with
  | none => (s, none)
  | some fix =>
    if s.recorded then (s, none)
    else if cfg.requireHeading ∧ s.latestYaw.isNone then (s, none)
    else if pathExists ∧ ¬ cfg.overwrite then ({ s with recorded := true }, none)
    else
      let yaw := s.latestYaw.getD 0.0
      ({ s with recorded := true },
        some ⟨cfg.frameId, fix.latitude, fix.longitude, fix.altitude, yaw, fix.header.stamp⟩)

def callback (cfg : Config α) : Callback.Step (State α) (Event α) (OriginFile α)
  | s, .heading msg pathExists =>
    let yaw := normalizeAngle (yawFromQuaternion msg.orientation + cfg.headingYawOffset)
    tryRecord cfg { s with latestYaw := some yaw } pathExists
  | s, .fix msg pathExists => tryRecord cfg { s with latestFix := some msg } pathExists

omit [Add α] [Sub α] [Mul α] [PyMath α] in
theorem tryRecord_latest (cfg : Config α) (s : State α) (pathExists : Bool) :
    (tryRecord cfg s pathExists).1.latestFix = s.latestFix ∧
    (tryRecord cfg s pathExists).1.latestYaw = s.latestYaw := by
  unfold tryRecord
  split
  · exact ⟨rfl, rfl⟩
  · split_ifs <;> exact ⟨rfl, rfl⟩

end Model

/-! ### What is recorded -/

def Event.fix? {α : Type} : Event α → Option (NavSatFix α)
  | .heading _ _ => none
  | .fix msg _ => some msg

def Event.heading? {α : Type} : Event α → Option (Imu α)
  | .heading msg _ => some msg
  | .fix _ _ => none

def lastFix {α : Type} (events : List (Event α)) : Option (NavSatFix α) :=
  (events.filterMap Event.fix?).getLast?

def lastHeading {α : Type} (events : List (Event α)) : Option (Imu α) :=
  (events.filterMap Event.heading?).getLast?

section Recorded
variable (cfg : Config ℝ)

noncomputable def headingYaw (msg : Imu ℝ) : ℝ :=
  normalizeAngle (yawFromQuaternion msg.orientation + cfg.headingYawOffset)

/-- The node holds the latest message of each kind, whatever it has recorded. -/
theorem latest_stateAfter (events : List (Event ℝ)) :
    (Callback.stateAfter (callback cfg) .initial events).latestFix = lastFix events ∧
    (Callback.stateAfter (callback cfg) .initial events).latestYaw
      = (lastHeading events).map (headingYaw cfg) := by
  induction events using List.reverseRecOn with
  | nil => exact ⟨rfl, rfl⟩
  | append_singleton events e ih =>
    rw [Callback.stateAfter_append]
    obtain ⟨ihFix, ihYaw⟩ := ih
    cases e with
    | heading msg pathExists =>
      obtain ⟨hfix, hyaw⟩ := tryRecord_latest cfg
        { Callback.stateAfter (callback cfg) .initial events with
          latestYaw := some (headingYaw cfg msg) } pathExists
      refine ⟨hfix.trans (ihFix.trans ?_), hyaw.trans ?_⟩
      · simp [lastFix, Event.fix?]
      · simp [lastHeading, Event.heading?]
    | fix msg pathExists =>
      obtain ⟨hfix, hyaw⟩ := tryRecord_latest cfg
        { Callback.stateAfter (callback cfg) .initial events with latestFix := some msg } pathExists
      refine ⟨hfix.trans ?_, hyaw.trans (ihYaw.trans ?_)⟩
      · simp [lastFix, Event.fix?]
      · simp [lastHeading, Event.heading?]

theorem callback_eq_tryRecord (s : State ℝ) (e : Event ℝ) :
    ∃ t pathExists, callback cfg s e = tryRecord cfg t pathExists := by
  cases e with
  | heading msg pathExists =>
    exact ⟨{ s with latestYaw := some (headingYaw cfg msg) }, pathExists, rfl⟩
  | fix msg pathExists => exact ⟨{ s with latestFix := some msg }, pathExists, rfl⟩

theorem tryRecord_some {s : State ℝ} {pathExists : Bool} {file : OriginFile ℝ}
    (h : (tryRecord cfg s pathExists).2 = some file) :
    ∃ fix, s.latestFix = some fix ∧
      file = ⟨cfg.frameId, fix.latitude, fix.longitude, fix.altitude, s.latestYaw.getD 0.0,
        fix.header.stamp⟩ := by
  unfold tryRecord at h
  cases hfix : s.latestFix with
  | none =>
    rw [hfix] at h
    cases h
  | some fix =>
    rw [hfix] at h
    simp only at h
    split_ifs at h
    exact ⟨fix, rfl, (Option.some.inj h).symm⟩

/-- A file written in any run holds the latest fix and, when there was a heading,
the yaw of the latest one. -/
theorem written_eq {events : List (Event ℝ)} {e : Event ℝ} {file : OriginFile ℝ}
    (h : (callback cfg (Callback.stateAfter (callback cfg) .initial events) e).2 = some file)
    {fix : NavSatFix ℝ} (hfix : lastFix (events ++ [e]) = some fix) {imu : Imu ℝ}
    (himu : lastHeading (events ++ [e]) = some imu) :
    file = ⟨cfg.frameId, fix.latitude, fix.longitude, fix.altitude, headingYaw cfg imu,
      fix.header.stamp⟩ := by
  obtain ⟨hlast, hyaw⟩ := latest_stateAfter cfg (events ++ [e])
  rw [Callback.stateAfter_append, hfix] at hlast
  rw [Callback.stateAfter_append, himu, Option.map_some] at hyaw
  -- the write happens in `tryRecord`, which leaves both latest messages alone
  obtain ⟨s, pathExists, hs⟩ := callback_eq_tryRecord cfg
    (Callback.stateAfter (callback cfg) .initial events) e
  obtain ⟨hsfix, hsyaw⟩ := tryRecord_latest cfg s pathExists
  rw [hs] at h
  obtain ⟨fix', hfix', rfl⟩ := tryRecord_some cfg h
  have hlast' : (tryRecord cfg s pathExists).1.latestFix = some fix := hs ▸ hlast
  have hyaw' : (tryRecord cfg s pathExists).1.latestYaw = some (headingYaw cfg imu) := hs ▸ hyaw
  rw [hsfix, hfix'] at hlast'
  rw [← hsyaw, hyaw', Option.getD_some, Option.some.inj hlast']

end Recorded

end MapOriginRecorder

/-! ### The launch file -/

/-- The launch arguments that reach the three nodes. -/
structure LaunchConfiguration (α : Type) where
  restampToNow : Bool
  mapFrame : String
  baseLinkFrame : String
  gpsX : α
  gpsY : α
  gpsZ : α
  mapOriginHeadingYawOffset : α
  mapOriginRequireHeading : Bool
  mapOriginOverwrite : Bool
  mapOriginPositionVarianceFloor : α
  mapOriginYawVariance : α

namespace LaunchConfiguration
variable {α : Type}

def mapOriginRecorder (launch : LaunchConfiguration α) : MapOriginRecorder.Config α where
  frameId := launch.mapFrame
  requireHeading := launch.mapOriginRequireHeading
  headingYawOffset := launch.mapOriginHeadingYawOffset
  overwrite := launch.mapOriginOverwrite

/-- `roll_pitch_variance` is not set by the launch file. -/
def georeferencedRtkOdometry [OfScientific α] [PyMath α] (launch : LaunchConfiguration α)
    (file : OriginFile α) : GeoreferencedRtkOdometry.Config α where
  origin := MapOrigin.load file.latitude file.longitude file.altitude file.yawEnu
  outputFrameId := launch.mapFrame
  childFrameId := launch.baseLinkFrame
  restampToNow := launch.restampToNow
  requireHeading := launch.mapOriginRequireHeading
  headingYawOffset := launch.mapOriginHeadingYawOffset
  gpsX := launch.gpsX
  gpsY := launch.gpsY
  gpsZ := launch.gpsZ
  positionVarianceFloor := launch.mapOriginPositionVarianceFloor
  yawVariance := launch.mapOriginYawVariance
  rollPitchVariance := 999.0

/-- `yaw_offset` is not set by the launch file. -/
def mapRelativeHeadingImu [OfScientific α] (launch : LaunchConfiguration α)
    (file : OriginFile α) : MapRelativeHeadingImu.Config α where
  outputFrameId := launch.baseLinkFrame
  yawOffset := 0.0
  originYawEnu := file.yawEnu

end LaunchConfiguration

/-! ### Localising where the origin was recorded -/

open Real Rotation

namespace MapOriginRecorder

theorem fixToMap_origin (cfg : GeoreferencedRtkOdometry.Config ℝ) {fix : NavSatFix ℝ} {yaw : ℝ}
    (horigin : cfg.origin = ⟨fix.latitude, fix.longitude, fix.altitude, yaw⟩) :
    GeoreferencedRtkOdometry.fixToMap cfg fix = ⟨0, 0, 0⟩ := by
  rw [GeoreferencedRtkOdometry.fixToMap, navsatToMap_eq, horigin]
  ext <;> simp [ecefToMap, MapOrigin.ecef, rotZ, LocalFrame.toLocal, Vec3.dot]

section AtOrigin
variable (launch : LaunchConfiguration ℝ) (fix : NavSatFix ℝ) (imu : Imu ℝ)

noncomputable def recordedFile : OriginFile ℝ :=
  ⟨launch.mapFrame, fix.latitude, fix.longitude, fix.altitude,
    headingYaw launch.mapOriginRecorder imu, fix.header.stamp⟩

theorem yawMap_at_origin {s : GeoreferencedRtkOdometry.State ℝ}
    (hs : s.latestHeadingYaw = some (headingYaw launch.mapOriginRecorder imu)) :
    GeoreferencedRtkOdometry.yawMap
      (launch.georeferencedRtkOdometry (recordedFile launch fix imu)) s = 0 := by
  have hyaw : (launch.georeferencedRtkOdometry (recordedFile launch fix imu)).origin.yawEnu
      = headingYaw launch.mapOriginRecorder imu := normalizeAngle_normalizeAngle _
  rw [GeoreferencedRtkOdometry.yawMap, hs]
  simp only [hyaw]
  rw [sub_self, normalizeAngle_eq, Angle.coe_zero, Angle.toReal_zero]

theorem odometry_at_origin (odomEvents : List (GeoreferencedRtkOdometry.Event ℝ)) (now : ℤ)
    (hhead : GeoreferencedRtkOdometry.lastHeading odomEvents = some imu) :
    let step := GeoreferencedRtkOdometry.callback
      (launch.georeferencedRtkOdometry (recordedFile launch fix imu))
    ∃ out, (step (Callback.stateAfter step .initial odomEvents) (.fix fix now)).2 = some out ∧
      out.pose.pose.position = ⟨-launch.gpsX, -launch.gpsY, -launch.gpsZ⟩ ∧
      yawFromQuaternion out.pose.pose.orientation = 0 := by
  intro step
  have hs := GeoreferencedRtkOdometry.latestHeadingYaw_stateAfter
    (launch.georeferencedRtkOdometry (recordedFile launch fix imu)) odomEvents
  rw [hhead, Option.map_some] at hs
  generalize hstate : Callback.stateAfter step .initial odomEvents = s
  have hs' : s.latestHeadingYaw = some (headingYaw launch.mapOriginRecorder imu) := hstate ▸ hs
  have hyaw := yawMap_at_origin launch fix imu hs'
  refine ⟨_, GeoreferencedRtkOdometry.fixCallback_of_heading _ hs' fix now, ?_, ?_⟩
  · show GeoreferencedRtkOdometry.removeGpsAntennaOffset _
      (GeoreferencedRtkOdometry.fixToMap _ fix) (GeoreferencedRtkOdometry.yawMap _ s) = _
    have horigin : (launch.georeferencedRtkOdometry (recordedFile launch fix imu)).origin
        = ⟨fix.latitude, fix.longitude, fix.altitude, normalizeAngle
          (headingYaw launch.mapOriginRecorder imu)⟩ := rfl
    rw [hyaw, fixToMap_origin _ horigin]
    ext <;> simp [GeoreferencedRtkOdometry.removeGpsAntennaOffset,
      LaunchConfiguration.georeferencedRtkOdometry]
  · show yawFromQuaternion (quaternionFromYaw (GeoreferencedRtkOdometry.yawMap _ s)) = 0
    rw [hyaw]
    exact yawFromQuaternion_quaternionFromYaw (by linarith [pi_pos]) pi_pos.le

noncomputable def relativeYaw (file : OriginFile ℝ) : ℝ :=
  yawFromQuaternion
    (MapRelativeHeadingImu.callback (launch.mapRelativeHeadingImu file) imu).orientation

theorem relativeYaw_at_origin :
    ((relativeYaw launch imu (recordedFile launch fix imu) : ℝ) : Angle)
      = ((-launch.mapOriginHeadingYawOffset : ℝ) : Angle) := by
  have hyaw : (recordedFile launch fix imu).yawEnu = normalizeAngle
      (yawFromQuaternion imu.orientation + launch.mapOriginHeadingYawOffset) := rfl
  rw [relativeYaw, MapRelativeHeadingImu.callback_yaw, coe_normalizeAngle]
  simp only [LaunchConfiguration.mapRelativeHeadingImu, hyaw, zero_literal, add_zero]
  rw [Angle.coe_sub, coe_normalizeAngle, Angle.coe_add, Angle.coe_neg]
  abel

end AtOrigin

/-- Without a move since the recording, the odometry node publishes the antenna's
lever arm backwards and no rotation, for every offset. The relative heading node
does not get the offset and publishes its opposite, which is no rotation exactly
when the offset is a number of full turns. -/
theorem localised_at_recorded_origin (launch : LaunchConfiguration ℝ) (fix : NavSatFix ℝ)
    (imu : Imu ℝ) (events : List (Event ℝ)) (e : Event ℝ) {file : OriginFile ℝ}
    (hfile : (callback launch.mapOriginRecorder
      (Callback.stateAfter (callback launch.mapOriginRecorder) .initial events) e).2 = some file)
    (hfix : lastFix (events ++ [e]) = some fix) (himu : lastHeading (events ++ [e]) = some imu) :
    (∀ (odomEvents : List (GeoreferencedRtkOdometry.Event ℝ)) (now : ℤ),
      GeoreferencedRtkOdometry.lastHeading odomEvents = some imu →
      let step := GeoreferencedRtkOdometry.callback (launch.georeferencedRtkOdometry file)
      ∃ out, (step (Callback.stateAfter step .initial odomEvents) (.fix fix now)).2 = some out ∧
        out.pose.pose.position = ⟨-launch.gpsX, -launch.gpsY, -launch.gpsZ⟩ ∧
        yawFromQuaternion out.pose.pose.orientation = 0) ∧
    ((relativeYaw launch imu file : ℝ) : Angle)
      = ((-launch.mapOriginHeadingYawOffset : ℝ) : Angle) ∧
    (((relativeYaw launch imu file : ℝ) : Angle) = 0 ↔
      ∃ n : ℤ, launch.mapOriginHeadingYawOffset = n * (2 * π)) := by
  obtain rfl : file = recordedFile launch fix imu :=
    written_eq launch.mapOriginRecorder hfile hfix himu
  have hyaw := relativeYaw_at_origin launch fix imu
  refine ⟨odometry_at_origin launch fix imu, hyaw, ?_⟩
  rw [hyaw, Angle.coe_neg, neg_eq_zero, Angle.coe_eq_zero_iff]
  simp only [zsmul_eq_mul, eq_comm]

noncomputable def recalibrated : LaunchConfiguration ℝ where
  restampToNow := false
  mapFrame := "map"
  baseLinkFrame := "body"
  gpsX := 0
  gpsY := 0
  gpsZ := 0
  mapOriginHeadingYawOffset := 0.5
  mapOriginRequireHeading := true
  mapOriginOverwrite := false
  mapOriginPositionVarianceFloor := 1.0
  mapOriginYawVariance := 0.0009

theorem localised_at_recorded_origin_recalibrated :
    ∃ file, (callback recalibrated.mapOriginRecorder
        (Callback.stateAfter (callback recalibrated.mapOriginRecorder) .initial
          [.heading GeoreferencedRtkOdometry.mastImu false])
        (.fix GeoreferencedRtkOdometry.mastFix false)).2 = some file ∧
      ((relativeYaw recalibrated GeoreferencedRtkOdometry.mastImu file : ℝ) : Angle)
        = ((-0.5 : ℝ) : Angle) := by
  have hmain := localised_at_recorded_origin recalibrated GeoreferencedRtkOdometry.mastFix
    GeoreferencedRtkOdometry.mastImu [.heading GeoreferencedRtkOdometry.mastImu false]
    (.fix GeoreferencedRtkOdometry.mastFix false) rfl rfl rfl
  exact ⟨_, rfl, hmain.2.1⟩

theorem relativeYaw_ne_zero_recalibrated :
    ∃ file, (callback recalibrated.mapOriginRecorder
        (Callback.stateAfter (callback recalibrated.mapOriginRecorder) .initial
          [.heading GeoreferencedRtkOdometry.mastImu false])
        (.fix GeoreferencedRtkOdometry.mastFix false)).2 = some file ∧
      ((relativeYaw recalibrated GeoreferencedRtkOdometry.mastImu file : ℝ) : Angle) ≠ 0 := by
  refine ⟨_, rfl, ?_⟩
  have hyaw := relativeYaw_at_origin recalibrated GeoreferencedRtkOdometry.mastFix
    GeoreferencedRtkOdometry.mastImu
  intro hzero
  have hcoe : ((-0.5 : ℝ) : Angle) = 0 := hyaw.symm.trans hzero
  have hself : ((-0.5 : ℝ) : Angle).toReal = -0.5 :=
    Angle.toReal_coe_eq_self_iff.mpr ⟨by linarith [two_le_pi], by linarith [two_le_pi]⟩
  rw [hcoe, Angle.toReal_zero] at hself
  norm_num at hself

end MapOriginRecorder

end RtkLocalization
