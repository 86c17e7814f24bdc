import RtkLocalization.OdometrySanitizer

/-!
# The kinematic gate of `odometry_sanitizer.py` over whole runs

Exact real arithmetic. `published_steps_bounded`: as long as stamps are positive
and advance, consecutive published messages are within the distance limit.
`trajectory_published`: samples of a trajectory that keeps the limits are never
dropped, whatever was lost or rejected in between; the reason is that motion
within the limits composes (`WithinMotion.trans`).
-/

namespace RtkLocalization
namespace OdometrySanitizer

open Real

noncomputable def poseYaw (pose : Pose ℝ) : ℝ := yawFromQuaternion pose.orientation

theorem stampSeconds_of_pos {stamp : Stamp} (h : 0 < (stamp.seconds : ℝ)) (now : ℤ) :
    (stampSeconds stamp now : ℝ) = stamp.seconds := by
  simp only [stampSeconds, zero_literal, if_pos h]

theorem pos_of_long {dt : ℝ} (h : 1.0e-4 < dt) : 0 < dt := lt_trans (by norm_num) h

theorem pyAbs_real (x : ℝ) : pyAbs x = |x| := by
  simp only [pyAbs, zero_literal]
  split_ifs with h
  · exact (abs_of_neg h).symm
  · exact (abs_of_nonneg (not_lt.mp h)).symm

theorem exceedsLimits_eq_false_iff (cfg : Config ℝ) (last : Reference ℝ) (pose : Pose ℝ) (dt : ℝ) :
    exceedsLimits cfg last pose dt = false ↔
      Vec3.distance pose.position last.pose.position
        ≤ max cfg.maxPositionStep (cfg.maxLinearSpeed * dt) ∧
      Vec3.distance pose.position last.pose.position / dt ≤ cfg.maxLinearSpeed ∧
      Planar.circDist (poseYaw pose) (poseYaw last.pose) / dt ≤ cfg.maxYawRate := by
  simp only [exceedsLimits, Bool.or_eq_false_iff, decide_eq_false_iff_not, not_lt, pyAbs_real,
    abs_normalizeAngle_sub, pyMax_eq_max, and_assoc]
  rfl

theorem gate_eq_false_iff {cfg : Config ℝ} (hreject : cfg.rejectKinematicOutliers = true)
    {st : State ℝ} {last : Reference ℝ} {ev : Event ℝ} {dt : ℝ}
    (hlast : st.lastPublished = some last)
    (hdt : stampSeconds (outStamp cfg ev) ev.clock.gate - last.time = dt) (hlong : 1.0e-4 < dt) :
    gate cfg st ev = false ↔
      Vec3.distance ev.msg.pose.pose.position last.pose.position
        ≤ max cfg.maxPositionStep (cfg.maxLinearSpeed * dt) ∧
      Vec3.distance ev.msg.pose.pose.position last.pose.position / dt ≤ cfg.maxLinearSpeed ∧
      Planar.circDist (poseYaw ev.msg.pose.pose) (poseYaw last.pose) / dt ≤ cfg.maxYawRate := by
  rw [gate_of_lastPublished_some ev hreject hlast, hdt]
  dsimp only
  rw [if_neg (not_le.mpr hlong), exceedsLimits_eq_false_iff]

/-- A message whose stamp does not advance passes unchecked. -/
theorem gate_of_not_advanced {cfg : Config ℝ} (hreject : cfg.rejectKinematicOutliers = true)
    {st : State ℝ} {last : Reference ℝ} {ev : Event ℝ} (hlast : st.lastPublished = some last)
    (hshort : stampSeconds (outStamp cfg ev) ev.clock.gate - last.time ≤ 1.0e-4) :
    gate cfg st ev = false := by
  rw [gate_of_lastPublished_some ev hreject hlast]
  exact if_pos hshort

/-! ### No teleports -/

/-- The message has a positive outgoing stamp, and if something was published
before, the stamp lies more than 0.1 ms after it. -/
def AdvancesStamp (cfg : Config ℝ) (st : State ℝ) (ev : Event ℝ) : Prop :=
  0 < ((outStamp cfg ev).seconds : ℝ) ∧
  ∀ last, st.lastPublished = some last → 1.0e-4 < (outStamp cfg ev).seconds - last.time

def StepBounded (cfg : Config ℝ) (p q : Odometry ℝ) : Prop :=
  Vec3.distance q.pose.pose.position p.pose.pose.position
    ≤ max cfg.maxPositionStep
        (cfg.maxLinearSpeed * (q.header.stamp.seconds - p.header.stamp.seconds))

def LastIs (st : State ℝ) (p : Odometry ℝ) : Prop :=
  st.lastPublished = some ⟨p.pose.pose, p.header.stamp.seconds⟩

theorem lastIs_of_published {cfg : Config ℝ} {st : State ℝ} {ev : Event ℝ} {o : Odometry ℝ}
    (hpos : 0 < ((outStamp cfg ev).seconds : ℝ)) (ho : (callback cfg st ev).2 = some o) :
    gate cfg st ev = false ∧ o.pose.pose = ev.msg.pose.pose ∧ o.header.stamp = outStamp cfg ev ∧
    LastIs (callback cfg st ev).1 o := by
  have hgate := gate_of_published ho
  rw [callback_of_not_gate hgate] at ho
  obtain rfl : (prepare cfg st.lastInput ev).2 = o := Option.some_injective _ ho
  refine ⟨hgate, prepare_pose _ _ _, congrArg Header.stamp (prepare_header _ _ _), ?_⟩
  rw [LastIs, callback_of_not_gate hgate, prepare_pose, prepare_header]
  simp only [stampSeconds_of_pos hpos]
  rfl

theorem stepBounded_of_published {cfg : Config ℝ} (hreject : cfg.rejectKinematicOutliers = true)
    {st : State ℝ} {ev : Event ℝ} {p o : Odometry ℝ} (hlast : LastIs st p)
    (hev : AdvancesStamp cfg st ev) (ho : (callback cfg st ev).2 = some o) : StepBounded cfg p o := by
  obtain ⟨hpos, hadv⟩ := hev
  obtain ⟨hgate, hpose, hstamp, -⟩ := lastIs_of_published hpos ho
  have hdt := congrArg (· - p.header.stamp.seconds) (stampSeconds_of_pos hpos ev.clock.gate)
  have hlimits := (gate_eq_false_iff hreject hlast hdt (hadv _ hlast)).mp hgate
  rw [StepBounded, hpose, hstamp]
  exact hlimits.1

/-- Along every run whose messages advance the stamp, consecutive published
messages are at most `max(max_position_step, max_linear_speed * dt)` apart. -/
theorem published_steps_bounded (cfg : Config ℝ) (hreject : cfg.rejectKinematicOutliers = true)
    (events : List (Event ℝ))
    (hevents : Callback.AllSteps (callback cfg) (AdvancesStamp cfg) State.initial events) :
    List.IsChain (StepBounded cfg) (Callback.published (callback cfg) State.initial events) := by
  cases events with
  | nil => exact List.isChain_nil
  | cons ev evs =>
    -- the first message is published unchecked and starts the chain
    obtain ⟨hev, hevs⟩ := hevents
    have hopen := gate_initial cfg ev
    have ho := congrArg Prod.snd (callback_of_not_gate hopen)
    rw [Callback.published_cons_some _ evs ho]
    refine Callback.published_isChain (callback cfg) (J := LastIs) (P := AdvancesStamp cfg)
      ?_ ?_ _ evs _ (lastIs_of_published hev.1 ho).2.2.2 hevs
    · intro s x p hJ _ hnone
      rw [LastIs, lastPublished_of_gate ((callback_eq_none_iff cfg s x).mp hnone)]
      exact hJ
    · intro s x p o hJ hx hsome
      exact ⟨stepBounded_of_published hreject hJ hx hsome,
        (lastIs_of_published hx.1 hsome).2.2.2⟩

noncomputable def gatedConfig : Config ℝ where
  outputFrameId := "odom"
  outputChildFrameId := "body"
  restampToNow := false
  xyVariance := 0.0025
  zVariance := 1.0
  rollPitchVariance := 1.0
  yawVariance := 0.0025
  twistLinearVariance := 0.25
  twistAngularVariance := 0.10
  minimumVariance := 1.0e-6
  forceCovariance := true
  estimateTwistFromPose := true
  rejectKinematicOutliers := true
  maxLinearSpeed := 8.0
  maxPositionStep := 3.0
  maxYawRate := 2.5

/-- A message at `(x, 0, 0)`, facing along x and reporting the speed `vx`, that
arrives when the clock shows `now`. -/
noncomputable def sampleAt (stamp : Stamp) (x vx : ℝ) (now : ℤ) : Event ℝ where
  msg :=
    { header := ⟨stamp, "camera_init"⟩
      childFrameId := "body"
      pose := ⟨⟨⟨x, 0, 0⟩, ⟨0, 0, 0, 1⟩⟩, Vector.replicate 36 0⟩
      twist := ⟨⟨⟨vx, 0, 0⟩, ⟨0, 0, 0⟩⟩, Vector.replicate 36 0⟩ }
  clock := ⟨now, now, now, now⟩

theorem poseYaw_sampleAt (stamp : Stamp) (x vx : ℝ) (now : ℤ) :
    poseYaw (sampleAt stamp x vx now).msg.pose.pose = 0 :=
  yawFromQuaternion_identity

theorem distance_sampleAt (stamp stamp' : Stamp) (x x' vx vx' : ℝ) (now now' : ℤ) :
    Vec3.distance (sampleAt stamp x vx now).msg.pose.pose.position
      (sampleAt stamp' x' vx' now').msg.pose.pose.position = |x - x'| := by
  simp only [Vec3.distance, sampleAt, sub_zero, mul_zero, add_zero]
  exact sqrt_mul_self_eq_abs _

theorem gate_sampleAt_iff {cfg : Config ℝ} (dt : ℝ) (hreject : cfg.rejectKinematicOutliers = true)
    {st : State ℝ} {stamp stamp' : Stamp} {x x' vx vx' t : ℝ} {now now' : ℤ}
    (hlast : st.lastPublished = some ⟨(sampleAt stamp' x' vx' now').msg.pose.pose, t⟩)
    (hdt : stampSeconds (outStamp cfg (sampleAt stamp x vx now)) now - t = dt)
    (hlong : 1.0e-4 < dt) :
    gate cfg st (sampleAt stamp x vx now) = false ↔
      |x - x'| ≤ max cfg.maxPositionStep (cfg.maxLinearSpeed * dt) ∧
      |x - x'| / dt ≤ cfg.maxLinearSpeed ∧ 0 ≤ cfg.maxYawRate := by
  have hyaw : Planar.circDist 0 0 = 0 := by simp [Planar.circDist]
  rw [gate_eq_false_iff hreject hlast hdt hlong, distance_sampleAt]
  simp only [poseYaw_sampleAt, hyaw, zero_div]

theorem published_steps_bounded_drive :
    let events := [sampleAt ⟨1, 0⟩ 0 0 0, sampleAt ⟨2, 0⟩ 5 0 0]
    List.IsChain (StepBounded gatedConfig)
      (Callback.published (callback gatedConfig) State.initial events) := by
  intro events
  refine published_steps_bounded gatedConfig rfl events ⟨⟨?_, ?_⟩, ⟨?_, ?_⟩, trivial⟩
  · norm_num [Stamp.seconds, outStamp, copyMessage, gatedConfig, sampleAt]
  · intro last hlast
    cases hlast
  · norm_num [Stamp.seconds, outStamp, copyMessage, gatedConfig, sampleAt]
  · intro last hlast
    rw [lastPublished_of_not_gate (gate_initial _ _)] at hlast
    obtain rfl := Option.some_injective _ hlast
    norm_num [Stamp.seconds, stampSeconds, outStamp, copyMessage, gatedConfig, sampleAt]

/-- A second message with the same stamp is published 100 m away. -/
theorem published_teleports :
    let events := [sampleAt ⟨1, 0⟩ 0 0 0, sampleAt ⟨1, 0⟩ 100 0 0]
    ¬ List.IsChain (StepBounded gatedConfig)
      (Callback.published (callback gatedConfig) State.initial events) := by
  intro events hchain
  have h1 := gate_initial gatedConfig (sampleAt ⟨1, 0⟩ 0 0 0)
  -- the stamp does not advance, so the gate returns early
  have h2 : gate gatedConfig (callback gatedConfig State.initial (sampleAt ⟨1, 0⟩ 0 0 0)).1
      (sampleAt ⟨1, 0⟩ 100 0 0) = false := by
    refine gate_of_not_advanced rfl (lastPublished_of_not_gate h1) ?_
    norm_num [Stamp.seconds, stampSeconds, outStamp, copyMessage, gatedConfig, sampleAt]
  rw [Callback.published_cons_some _ _ (callback_snd_of_not_gate h1),
    Callback.published_cons_some _ _ (callback_snd_of_not_gate h2)] at hchain
  have hbound := (List.isChain_cons_cons.mp hchain).1
  rw [StepBounded, prepare_pose, prepare_pose, prepare_header, prepare_header,
    distance_sampleAt] at hbound
  norm_num [Stamp.seconds, copyMessage, gatedConfig, sampleAt] at hbound

/-! ### No false rejection -/

noncomputable def Event.time (ev : Event ℝ) : ℝ := ev.msg.header.stamp.seconds

/-- From `a` to `b` time advances by more than 0.1 ms and neither the speed nor
the yaw rate limit is exceeded. -/
structure WithinMotion (cfg : Config ℝ) (a b : Event ℝ) : Prop where
  advances : 1.0e-4 < b.time - a.time
  distance : Vec3.distance b.msg.pose.pose.position a.msg.pose.pose.position
    ≤ cfg.maxLinearSpeed * (b.time - a.time)
  yaw : Planar.circDist (poseYaw b.msg.pose.pose) (poseYaw a.msg.pose.pose)
    ≤ cfg.maxYawRate * (b.time - a.time)

/-- Motions within the limits compose: the triangle inequality in space and on
the circle. -/
theorem WithinMotion.trans {cfg : Config ℝ} {a b c : Event ℝ} (hab : WithinMotion cfg a b)
    (hbc : WithinMotion cfg b c) : WithinMotion cfg a c where
  advances := by
    have h1 := hab.advances
    have h2 := hbc.advances
    norm_num at h1 h2 ⊢
    linarith
  distance := by
    calc Vec3.distance c.msg.pose.pose.position a.msg.pose.pose.position
        ≤ Vec3.distance c.msg.pose.pose.position b.msg.pose.pose.position
          + Vec3.distance b.msg.pose.pose.position a.msg.pose.pose.position :=
          Vec3.distance_triangle _ _ _
      _ ≤ cfg.maxLinearSpeed * (c.time - b.time) + cfg.maxLinearSpeed * (b.time - a.time) :=
          add_le_add hbc.distance hab.distance
      _ = cfg.maxLinearSpeed * (c.time - a.time) := by ring
  yaw := by
    calc Planar.circDist (poseYaw c.msg.pose.pose) (poseYaw a.msg.pose.pose)
        ≤ Planar.circDist (poseYaw c.msg.pose.pose) (poseYaw b.msg.pose.pose)
          + Planar.circDist (poseYaw b.msg.pose.pose) (poseYaw a.msg.pose.pose) :=
          Planar.circDist_triangle _ _ _
      _ ≤ cfg.maxYawRate * (c.time - b.time) + cfg.maxYawRate * (b.time - a.time) :=
          add_le_add hbc.yaw hab.yaw
      _ = cfg.maxYawRate * (c.time - a.time) := by ring

instance (cfg : Config ℝ) : Trans (WithinMotion cfg) (WithinMotion cfg) (WithinMotion cfg) :=
  ⟨WithinMotion.trans⟩

noncomputable def Event.reference (ev : Event ℝ) : Reference ℝ := ⟨ev.msg.pose.pose, ev.time⟩

theorem outStamp_of_not_restamp {cfg : Config ℝ} (h : cfg.restampToNow = false) (ev : Event ℝ) :
    outStamp cfg ev = ev.msg.header.stamp := by
  simp only [outStamp, copyMessage, h, Bool.false_eq_true, if_false]

theorem gate_of_withinMotion {cfg : Config ℝ} (hreject : cfg.rejectKinematicOutliers = true)
    (hrestamp : cfg.restampToNow = false) {st : State ℝ} {a b : Event ℝ}
    (hlast : st.lastPublished = some a.reference) (hpos : 0 < b.time)
    (hab : WithinMotion cfg a b) : gate cfg st b = false := by
  have hdt : 0 < b.time - a.time := pos_of_long hab.advances
  have htime : stampSeconds (outStamp cfg b) b.clock.gate - a.reference.time = b.time - a.time := by
    rw [outStamp_of_not_restamp hrestamp, stampSeconds_of_pos hpos]
    rfl
  rw [gate_eq_false_iff hreject hlast htime hab.advances]
  refine ⟨hab.distance.trans (le_max_right _ _), ?_, ?_⟩
  · exact (div_le_iff₀ hdt).mpr hab.distance
  · exact (div_le_iff₀ hdt).mpr hab.yaw

theorem lastPublished_of_accepted {cfg : Config ℝ} (hrestamp : cfg.restampToNow = false)
    {st : State ℝ} {ev : Event ℝ} (hpos : 0 < ev.time) (h : gate cfg st ev = false) :
    (callback cfg st ev).1.lastPublished = some ev.reference := by
  rw [lastPublished_of_not_gate h, outStamp_of_not_restamp hrestamp, stampSeconds_of_pos hpos]
  rfl

/-- A message that reaches the node: a sample of the trajectory or another one. -/
structure Delivery where
  event : Event ℝ
  fromTrajectory : Bool

def trajectorySamples (run : List Delivery) : List (Event ℝ) :=
  (run.filter Delivery.fromTrajectory).map Delivery.event

noncomputable def deliver (cfg : Config ℝ) : Callback.Step (State ℝ) Delivery (Odometry ℝ) :=
  fun st d => callback cfg st d.event

def OthersDropped (cfg : Config ℝ) (st : State ℝ) (d : Delivery) : Prop :=
  d.fromTrajectory = false → (deliver cfg st d).2 = none

def SamplePublished (cfg : Config ℝ) (st : State ℝ) (d : Delivery) : Prop :=
  d.fromTrajectory = true →
    ∃ out, (deliver cfg st d).2 = some out ∧ out.pose.pose = d.event.msg.pose.pose

theorem samplePublished_of_not_gate {cfg : Config ℝ} {st : State ℝ} {d : Delivery}
    (h : gate cfg st d.event = false) : SamplePublished cfg st d :=
  fun _ => ⟨_, callback_snd_of_not_gate h, prepare_pose _ _ _⟩

/-- From a state whose reference is the sample `a`, on a run whose remaining
samples are pairwise within the limits. -/
theorem samples_published_from {cfg : Config ℝ} (hreject : cfg.rejectKinematicOutliers = true)
    (hrestamp : cfg.restampToNow = false) (run : List Delivery) (st : State ℝ) (a : Event ℝ)
    (hlast : st.lastPublished = some a.reference)
    (hpos : ∀ e ∈ trajectorySamples run, 0 < e.time)
    (hpair : (a :: trajectorySamples run).Pairwise (WithinMotion cfg))
    (hothers : Callback.AllSteps (deliver cfg) (OthersDropped cfg) st run) :
    Callback.AllSteps (deliver cfg) (SamplePublished cfg) st run := by
  induction run generalizing st a with
  | nil => trivial
  | cons d ds ih =>
    obtain ⟨hd, hds⟩ := hothers
    cases htag : d.fromTrajectory with
    | true =>
      have hcons : trajectorySamples (d :: ds) = d.event :: trajectorySamples ds := by
        simp only [trajectorySamples, List.filter_cons_of_pos htag, List.map_cons]
      rw [hcons] at hpos hpair
      have hmotion := (List.pairwise_cons.mp hpair).1 d.event (List.mem_cons_self ..)
      have hgate := gate_of_withinMotion hreject hrestamp hlast (hpos _ (List.mem_cons_self ..))
        hmotion
      refine ⟨samplePublished_of_not_gate hgate, ?_⟩
      exact ih _ d.event
        (lastPublished_of_accepted hrestamp (hpos _ (List.mem_cons_self ..)) hgate)
        (fun e he => hpos e (List.mem_cons_of_mem _ he)) (List.pairwise_cons.mp hpair).2 hds
    | false =>
      have hcons : trajectorySamples (d :: ds) = trajectorySamples ds := by
        simp only [trajectorySamples, List.filter_cons_of_neg (Bool.not_eq_true _ ▸ htag)]
      rw [hcons] at hpos hpair
      have hgate := (callback_eq_none_iff cfg st d.event).mp (hd htag)
      refine ⟨fun h => absurd (htag.symm.trans h) Bool.false_ne_true, ?_⟩
      exact ih _ a ((lastPublished_of_gate hgate).trans hlast) hpos hpair hds

/-- Every delivered sample of a trajectory within the limits is published, for
every loss of samples and every interleaving with messages that are dropped. -/
theorem trajectory_published (cfg : Config ℝ) (hreject : cfg.rejectKinematicOutliers = true)
    (hrestamp : cfg.restampToNow = false) (trajectory : List (Event ℝ))
    (hpos : ∀ e ∈ trajectory, 0 < e.time)
    (htraj : trajectory.IsChain (WithinMotion cfg)) (run : List Delivery)
    (hsub : (trajectorySamples run).Sublist trajectory)
    (hhead : ∀ d ∈ run.head?, d.fromTrajectory = true)
    (hothers : Callback.AllSteps (deliver cfg) (OthersDropped cfg) State.initial run) :
    Callback.AllSteps (deliver cfg) (SamplePublished cfg) State.initial run := by
  have hpair : (trajectorySamples run).Pairwise (WithinMotion cfg) :=
    (List.isChain_iff_pairwise.mp htraj).sublist hsub
  cases run with
  | nil => trivial
  | cons d ds =>
    have htag : d.fromTrajectory = true := hhead d rfl
    have hcons : trajectorySamples (d :: ds) = d.event :: trajectorySamples ds := by
      simp only [trajectorySamples, List.filter_cons_of_pos htag, List.map_cons]
    rw [hcons] at hpair hsub
    have hposs (e : Event ℝ) (he : e ∈ d.event :: trajectorySamples ds) : 0 < e.time :=
      hpos e (hsub.mem he)
    have hgate := gate_initial cfg d.event
    refine ⟨samplePublished_of_not_gate hgate, ?_⟩
    exact samples_published_from hreject hrestamp ds _ d.event
      (lastPublished_of_accepted hrestamp (hposs _ (List.mem_cons_self ..)) hgate)
      (fun e he => hposs e (List.mem_cons_of_mem _ he)) hpair hothers.2

theorem withinMotion_sampleAt {cfg : Config ℝ} (dt : ℝ) {stamp stamp' : Stamp} {x x' vx vx' : ℝ}
    {now now' : ℤ} (hdt : stamp'.seconds - stamp.seconds = dt) (hlong : 1.0e-4 < dt)
    (hspeed : |x' - x| ≤ cfg.maxLinearSpeed * dt) (hyaw : 0 ≤ cfg.maxYawRate * dt) :
    WithinMotion cfg (sampleAt stamp x vx now) (sampleAt stamp' x' vx' now') := by
  have htime : (sampleAt stamp' x' vx' now').time - (sampleAt stamp x vx now).time = dt := hdt
  have hcirc : Planar.circDist 0 0 = 0 := by simp [Planar.circDist]
  refine ⟨htime ▸ hlong, ?_, ?_⟩
  · rw [distance_sampleAt, htime]
    exact hspeed
  · rw [poseYaw_sampleAt, poseYaw_sampleAt, htime, hcirc]
    exact hyaw

/-- One sample is lost and an outlier arrives in its place; the next sample is
published. -/
theorem trajectory_published_around_outlier :
    let run : List Delivery :=
      [⟨sampleAt ⟨1, 0⟩ 0 0 0, true⟩, ⟨sampleAt ⟨2, 0⟩ 100 0 0, false⟩,
        ⟨sampleAt ⟨3, 0⟩ 10 0 0, true⟩]
    Callback.AllSteps (deliver gatedConfig) (SamplePublished gatedConfig) State.initial run := by
  intro run
  let trajectory := [sampleAt ⟨1, 0⟩ 0 0 0, sampleAt ⟨2, 0⟩ 5 0 0, sampleAt ⟨3, 0⟩ 10 0 0]
  have hfirst := gate_initial gatedConfig (sampleAt ⟨1, 0⟩ 0 0 0)
  have houtlier : ¬ gate gatedConfig (callback gatedConfig State.initial (sampleAt ⟨1, 0⟩ 0 0 0)).1
      (sampleAt ⟨2, 0⟩ 100 0 0) = false := by
    rw [gate_sampleAt_iff 1 rfl (lastPublished_of_not_gate hfirst)]
    · norm_num [gatedConfig]
    · norm_num [Stamp.seconds, stampSeconds, outStamp, copyMessage, gatedConfig, sampleAt]
    · norm_num
  refine trajectory_published gatedConfig rfl rfl trajectory ?_ ?_ run ?_ ?_ ⟨?_, ?_, ?_, trivial⟩
  · simp only [trajectory, List.forall_mem_cons, Event.time, sampleAt, Stamp.seconds]
    norm_num
  · refine List.isChain_cons_cons.mpr ⟨?_, List.isChain_cons_cons.mpr ⟨?_, List.isChain_singleton _⟩⟩
    · refine withinMotion_sampleAt 1 ?_ ?_ ?_ ?_ <;> norm_num [Stamp.seconds, gatedConfig]
    · refine withinMotion_sampleAt 1 ?_ ?_ ?_ ?_ <;> norm_num [Stamp.seconds, gatedConfig]
  · exact ((List.Sublist.refl _).cons _).cons_cons _
  · intro d hd
    cases hd
    rfl
  · exact fun h => absurd h Bool.false_ne_true.symm
  · exact fun _ => (callback_eq_none_iff _ _ _).mpr (Bool.eq_true_of_not_eq_false houtlier)
  · exact fun h => absurd h Bool.false_ne_true.symm

/-- The first sample has stamp zero and is timed by the clock, which shows half a
second; the second one keeps the limits by the stamps and is dropped. -/
theorem trajectory_dropped_after_zero_stamp :
    let a := sampleAt ⟨0, 0⟩ 0 0 500000000
    let b := sampleAt ⟨1, 0⟩ 8 0 1000000000
    [a, b].IsChain (WithinMotion gatedConfig) ∧
    ¬ Callback.AllSteps (deliver gatedConfig) (SamplePublished gatedConfig) State.initial
      [⟨a, true⟩, ⟨b, true⟩] := by
  intro a b
  have hfirst := gate_initial gatedConfig a
  have hsecond : ¬ gate gatedConfig (callback gatedConfig State.initial a).1 b = false := by
    rw [gate_sampleAt_iff (1 / 2) rfl (lastPublished_of_not_gate hfirst)]
    · norm_num [gatedConfig]
    · norm_num [Stamp.seconds, stampSeconds, outStamp, copyMessage, gatedConfig, sampleAt, a]
    · norm_num
  constructor
  · refine List.isChain_cons_cons.mpr ⟨?_, List.isChain_singleton _⟩
    refine withinMotion_sampleAt 1 ?_ ?_ ?_ ?_ <;> norm_num [Stamp.seconds, gatedConfig]
  · rintro ⟨-, hb, -⟩
    obtain ⟨out, hout, -⟩ := hb rfl
    have hnone := (callback_eq_none_iff gatedConfig _ b).mpr (Bool.eq_true_of_not_eq_false hsecond)
    exact Option.some_ne_none out (hout.symm.trans hnone)

end OdometrySanitizer
end RtkLocalization
