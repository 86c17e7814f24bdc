import RtkLocalization.Lib.Callback
import RtkLocalization.MapFrame

/-!
# `georeferenced_rtk_odometry.py`

The node keeps the yaw of the latest heading message and turns every fix into
an odometry message in the map frame: fix to map coordinates, map yaw from the
heading, then removal of the antenna lever arm. `fix_recovers_pose` is the
statement of what this is for: if the antenna is where the fix says and the
heading is right, the published pose is the body pose.
-/

namespace RtkLocalization

/-- The origin as the loaders keep it: the yaw is normalised. -/
def MapOrigin.load {α : Type} [PyMath α] (latitude longitude altitude yawEnu : α) : MapOrigin α :=
  ⟨latitude, longitude, altitude, normalizeAngle yawEnu⟩

namespace GeoreferencedRtkOdometry

structure Config (α : Type) where
  origin : MapOrigin α
  outputFrameId : String
  childFrameId : String
  restampToNow : Bool
  requireHeading : Bool
  headingYawOffset : α
  gpsX : α
  gpsY : α
  gpsZ : α
  positionVarianceFloor : α
  yawVariance : α
  rollPitchVariance : α

structure State (α : Type) where
  latestHeadingYaw : Option α
  receivedFix : ℕ
  published : ℕ
  droppedNoHeading : ℕ

def State.initial {α : Type} : State α := ⟨none, 0, 0, 0⟩

/-- An incoming message; `now` is the clock reading (nanoseconds) a fix is
restamped with. -/
inductive Event (α : Type) where
  | heading (msg : Imu α)
  | fix (msg : NavSatFix α) (now : ℤ)

section Model
variable {α : Type} [Add α] [Sub α] [Mul α] [Div α] [Neg α] [OfScientific α] [PyMath α]
  [IsFinite α] [LT α] [DecidableLT α] [LE α] [DecidableLE α]

def fixToMap (cfg : Config α) (msg : NavSatFix α) : Vec3 α :=
  (navsatToMap cfg.origin msg.latitude msg.longitude msg.altitude).map

def removeGpsAntennaOffset (cfg : Config α) (gpsMap : Vec3 α) (yawMap : α) : Vec3 α :=
  let cosYaw := PyMath.cos yawMap
  let sinYaw := PyMath.sin yawMap
  let offsetX := cosYaw * cfg.gpsX - sinYaw * cfg.gpsY
  let offsetY := sinYaw * cfg.gpsX + cosYaw * cfg.gpsY
  ⟨gpsMap.x - offsetX, gpsMap.y - offsetY, gpsMap.z - cfg.gpsZ⟩

def variance (cfg : Config α) (value : α) : α :=
  if ¬ isfinite value = true ∨ value ≤ 0.0 then cfg.positionVarianceFloor
  else pyMax value cfg.positionVarianceFloor

def poseCovarianceInMap (cfg : Config α) (msg : NavSatFix α) : Vector α 36 :=
  let cov := msg.positionCovariance
  let eastVar := variance cfg (cov.get (cell3 0))
  let northVar := variance cfg (cov.get (cell3 4))
  let upVar := variance cfg (cov.get (cell3 8))
  let eastNorth := if isfinite (cov.get (cell3 1)) = true then cov.get (cell3 1) else 0.0
  let yaw := cfg.origin.yawEnu
  let cosYaw := PyMath.cos yaw
  let sinYaw := PyMath.sin yaw
  let pXX := cosYaw * cosYaw * eastVar + 2.0 * cosYaw * sinYaw * eastNorth
    + sinYaw * sinYaw * northVar
  let pYY := sinYaw * sinYaw * eastVar - 2.0 * sinYaw * cosYaw * eastNorth
    + cosYaw * cosYaw * northVar
  let pXY := -sinYaw * cosYaw * eastVar + (cosYaw * cosYaw - sinYaw * sinYaw) * eastNorth
    + sinYaw * cosYaw * northVar
  setCells (Vector.replicate 36 0.0)
    [(cell6 0, variance cfg pXX), (cell6 1, pXY), (cell6 6, pXY), (cell6 7, variance cfg pYY),
      (cell6 14, upVar), (cell6 21, cfg.rollPitchVariance), (cell6 28, cfg.rollPitchVariance),
      (cell6 35, pyMax cfg.yawVariance cfg.positionVarianceFloor)]

def headingCallback (cfg : Config α) (s : State α) (msg : Imu α) : State α :=
  let yaw := normalizeAngle (yawFromQuaternion msg.orientation + cfg.headingYawOffset)
  { s with latestHeadingYaw := some yaw }

/-- `yaw_map` of `_fix_callback`; zero while no heading has been received. -/
def yawMap (cfg : Config α) (s : State α) : α :=
  match s.latestHeadingYaw with
  | none => 0.0
  | some yaw => normalizeAngle (yaw - cfg.origin.yawEnu)

def odometryOfFix (cfg : Config α) (s : State α) (msg : NavSatFix α) (now : ℤ) : Odometry α :=
  let zero : Vec3 α := ⟨0.0, 0.0, 0.0⟩
  { header :=
      { stamp := if cfg.restampToNow then Stamp.ofNanoseconds now else msg.header.stamp
        frameId := cfg.outputFrameId }
    childFrameId := cfg.childFrameId
    pose :=
      { pose :=
          { position := removeGpsAntennaOffset cfg (fixToMap cfg msg) (yawMap cfg s)
            orientation := quaternionFromYaw (yawMap cfg s) }
        covariance := poseCovarianceInMap cfg msg }
    twist := { twist := ⟨zero, zero⟩, covariance := Vector.replicate 36 0.0 } }

def fixCallback (cfg : Config α) (s : State α) (msg : NavSatFix α) (now : ℤ) :
    State α × Option (Odometry α) :=
  let s := { s with receivedFix := s.receivedFix + 1 }
  if cfg.requireHeading ∧ s.latestHeadingYaw.isNone then
    ({ s with droppedNoHeading := s.droppedNoHeading + 1 }, none)
  else
    ({ s with published := s.published + 1 }, some (odometryOfFix cfg s msg now))

def callback (cfg : Config α) : Callback.Step (State α) (Event α) (Odometry α)
  | s, .heading msg => (headingCallback cfg s msg, none)
  | s, .fix msg now => fixCallback cfg s msg now

end Model

/-! ### The heading the node holds -/

def lastHeading {α : Type} (events : List (Event α)) : Option (Imu α) :=
  (events.filterMap fun
    | .heading msg => some msg
    | .fix _ _ => none).getLast?

section Heading
variable (cfg : Config ℝ)

theorem lastHeading_append_heading (events : List (Event ℝ)) (msg : Imu ℝ) :
    lastHeading (events ++ [.heading msg]) = some msg := by
  simp [lastHeading]

theorem lastHeading_append_fix (events : List (Event ℝ)) (msg : NavSatFix ℝ) (now : ℤ) :
    lastHeading (events ++ [.fix msg now]) = lastHeading events := by
  simp [lastHeading]

theorem fixCallback_latestHeadingYaw (s : State ℝ) (msg : NavSatFix ℝ) (now : ℤ) :
    (fixCallback cfg s msg now).1.latestHeadingYaw = s.latestHeadingYaw := by
  unfold fixCallback
  simp only
  split_ifs <;> rfl

theorem latestHeadingYaw_stateAfter (events : List (Event ℝ)) :
    (Callback.stateAfter (callback cfg) .initial events).latestHeadingYaw =
      (lastHeading events).map fun msg =>
        normalizeAngle (yawFromQuaternion msg.orientation + cfg.headingYawOffset) := by
  induction events using List.reverseRecOn with
  | nil => rfl
  | append_singleton events e ih =>
    rw [Callback.stateAfter_append]
    cases e with
    | heading msg =>
      rw [lastHeading_append_heading]
      rfl
    | fix msg now =>
      rw [lastHeading_append_fix, ← ih]
      exact fixCallback_latestHeadingYaw cfg _ msg now

end Heading

/-! ### Pose recovery -/

open Real Rotation

theorem mapToEcef_load (lat lon alt yaw : ℝ) (m : Vec3 ℝ) :
    mapToEcef (MapOrigin.load lat lon alt yaw) m = mapToEcef ⟨lat, lon, alt, yaw⟩ m := by
  have h : rotZ (normalizeAngle yaw) m = rotZ yaw m := rotZ_congr (coe_normalizeAngle yaw) m
  simp only [mapToEcef, MapOrigin.ecef, MapOrigin.load, h]

theorem removeGpsAntennaOffset_eq (cfg : Config ℝ) (p : Vec3 ℝ) {yaw ψ : ℝ}
    (h : (yaw : Angle) = ψ) :
    removeGpsAntennaOffset cfg (p + rotZ ψ ⟨cfg.gpsX, cfg.gpsY, cfg.gpsZ⟩) yaw = p := by
  rw [← rotZ_congr h]
  ext <;> simp [removeGpsAntennaOffset, rotZ]

/-- The antenna at its place over a body pose, as an ECEF position. -/
noncomputable def antennaEcef (cfg : Config ℝ) (lat0 lon0 alt0 yaw0 : ℝ) (p : Vec3 ℝ) (ψ : ℝ) :
    Vec3 ℝ :=
  mapToEcef ⟨lat0, lon0, alt0, yaw0⟩ (p + rotZ ψ ⟨cfg.gpsX, cfg.gpsY, cfg.gpsZ⟩)

theorem fixToMap_antenna (cfg : Config ℝ) (lat0 lon0 alt0 yaw0 : ℝ) (p : Vec3 ℝ) (ψ : ℝ)
    (horigin : cfg.origin = MapOrigin.load lat0 lon0 alt0 yaw0) (fix : NavSatFix ℝ)
    (hfix : wgs84ToEcef fix.latitude fix.longitude fix.altitude
      = antennaEcef cfg lat0 lon0 alt0 yaw0 p ψ) :
    fixToMap cfg fix = p + rotZ ψ ⟨cfg.gpsX, cfg.gpsY, cfg.gpsZ⟩ := by
  rw [fixToMap, navsatToMap_eq, hfix, antennaEcef, ← mapToEcef_load, ← horigin,
    ecefToMap_mapToEcef]

theorem fixCallback_of_heading (cfg : Config ℝ) {s : State ℝ} {yaw : ℝ}
    (h : s.latestHeadingYaw = some yaw) (msg : NavSatFix ℝ) (now : ℤ) :
    (fixCallback cfg s msg now).2
      = some (odometryOfFix cfg { s with receivedFix := s.receivedFix + 1 } msg now) := by
  have hn : ¬ (cfg.requireHeading = true ∧ s.latestHeadingYaw.isNone = true) := by
    rw [h]
    simp
  simp only [fixCallback, if_neg hn]

theorem fixCallback_of_no_heading (cfg : Config ℝ) {s : State ℝ} (hreq : cfg.requireHeading = true)
    (h : s.latestHeadingYaw = none) (msg : NavSatFix ℝ) (now : ℤ) :
    (fixCallback cfg s msg now).2 = none := by
  simp [fixCallback, hreq, h]

/-- End to end, for every order of heading and fix messages: a fix that places
the antenna over the body pose `(p, ψ)`, after a heading that agrees with `ψ`,
publishes that pose. Without a heading nothing is published when one is
required. -/
theorem fix_recovers_pose (cfg : Config ℝ) (lat0 lon0 alt0 yaw0 : ℝ)
    (horigin : cfg.origin = MapOrigin.load lat0 lon0 alt0 yaw0)
    (events : List (Event ℝ)) (fix : NavSatFix ℝ) (now : ℤ) :
    (∀ (imu : Imu ℝ) (p : Vec3 ℝ) (ψ : ℝ), lastHeading events = some imu →
      ((yawFromQuaternion imu.orientation + cfg.headingYawOffset : ℝ) : Angle)
        = ((ψ + yaw0 : ℝ) : Angle) →
      wgs84ToEcef fix.latitude fix.longitude fix.altitude
        = antennaEcef cfg lat0 lon0 alt0 yaw0 p ψ →
      ∃ out, (callback cfg (Callback.stateAfter (callback cfg) .initial events)
          (.fix fix now)).2 = some out ∧
        out.pose.pose.position = p ∧ out.pose.pose.orientation.IsUnit ∧
        ∀ v, out.pose.pose.orientation.rotate v = rotZ ψ v) ∧
    (cfg.requireHeading = true → lastHeading events = none →
      (callback cfg (Callback.stateAfter (callback cfg) .initial events)
        (.fix fix now)).2 = none) := by
  have hs := latestHeadingYaw_stateAfter cfg events
  generalize Callback.stateAfter (callback cfg) .initial events = s at hs ⊢
  constructor
  · intro imu p ψ himu hyaw hfix
    rw [himu, Option.map_some] at hs
    have hmap : ((yawMap cfg s : ℝ) : Angle) = ψ := by
      have hyaw0 : ((cfg.origin.yawEnu : ℝ) : Angle) = yaw0 := by
        rw [horigin]
        exact coe_normalizeAngle yaw0
      simp only [yawMap, hs]
      rw [coe_normalizeAngle, Angle.coe_sub, coe_normalizeAngle, hyaw, hyaw0, Angle.coe_add,
        add_sub_cancel_right]
    refine ⟨_, fixCallback_of_heading cfg hs fix now, ?_, quaternionFromYaw_isUnit _, ?_⟩
    · change removeGpsAntennaOffset cfg (fixToMap cfg fix) (yawMap cfg s) = p
      rw [fixToMap_antenna cfg lat0 lon0 alt0 yaw0 p ψ horigin fix hfix]
      exact removeGpsAntennaOffset_eq cfg p hmap
    · intro v
      exact (rotate_quaternionFromYaw _ v).trans (rotZ_congr hmap v)
  · intro hreq hhead
    rw [hhead] at hs
    exact fixCallback_of_no_heading cfg hreq hs fix now

noncomputable def mastConfig : Config ℝ where
  origin := MapOrigin.load 0 0 0 0
  outputFrameId := "map"
  childFrameId := "body"
  restampToNow := false
  requireHeading := true
  headingYawOffset := 0
  gpsX := 0
  gpsY := 0
  gpsZ := 3
  positionVarianceFloor := 1.0e-4
  yawVariance := 0.03 * 0.03
  rollPitchVariance := 999.0

def mastImu : Imu ℝ where
  header := ⟨⟨1, 0⟩, "body"⟩
  orientation := ⟨0, 0, 0, 1⟩
  orientationCovariance := Vector.replicate 9 0
  angularVelocity := ⟨0, 0, 0⟩
  angularVelocityCovariance := Vector.replicate 9 0
  linearAcceleration := ⟨0, 0, 0⟩
  linearAccelerationCovariance := Vector.replicate 9 0

def mastFix : NavSatFix ℝ where
  header := ⟨⟨1, 0⟩, "gps_link"⟩
  status := ⟨0, 1⟩
  latitude := 0
  longitude := 0
  altitude := 3
  positionCovariance := Vector.replicate 9 0
  positionCovarianceType := .unknown

theorem fix_recovers_pose_mast :
    ∃ out, (callback mastConfig
        (Callback.stateAfter (callback mastConfig) .initial [.heading mastImu])
        (.fix mastFix 0)).2 = some out ∧ out.pose.pose.position = ⟨0, 0, 0⟩ := by
  have hrad : (PyMath.radians 0 : ℝ) = 0 := zero_mul _
  have hyaw : ((yawFromQuaternion mastImu.orientation + mastConfig.headingYawOffset : ℝ) : Angle)
      = ((0 + 0 : ℝ) : Angle) := by
    simp only [mastImu, mastConfig, yawFromQuaternion_identity]
  have hfix : wgs84ToEcef mastFix.latitude mastFix.longitude mastFix.altitude
      = antennaEcef mastConfig 0 0 0 0 ⟨0, 0, 0⟩ 0 := by
    ext <;> simp [mastFix, mastConfig, antennaEcef, mapToEcef, MapOrigin.ecef, wgs84ToEcef, hrad,
      LocalFrame.toGlobal, LocalFrame.east, LocalFrame.north, LocalFrame.up, rotZ]
  obtain ⟨out, hout, hpos, -⟩ :=
    (fix_recovers_pose mastConfig 0 0 0 0 rfl [.heading mastImu] mastFix 0).1
      mastImu ⟨0, 0, 0⟩ 0 rfl hyaw hfix
  exact ⟨out, hout, hpos⟩

end GeoreferencedRtkOdometry

end RtkLocalization
