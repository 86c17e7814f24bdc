import RtkLocalization.Lib.Callback
import RtkLocalization.PyMath

/-!
# `waypoint_loop_runner.py`

`run()` is one thread: callbacks execute only where it spins. It is modelled as a
machine that makes one step per turn of a spinning loop or per stretch of code
between two of them; `Input` is what the environment answers during that step, so
a list of inputs is an interleaving of the callbacks with the program. The goal
is captured before the wait for a start pose, which spins, and is sent after it:
a waypoint processed in between is overtaken (`clicked_during_start_wait`), and
there is no other way to send an old goal (`sent_goal_is_latest`).

Messages are values here. The copies that `_copy_pose_stamped` makes share their
fields with the originals, but only header stamps are ever written through them.
-/

namespace RtkLocalization

structure Path (α : Type) where
  header : Header
  poses : List (PoseStamped α)

inductive MarkerType where
  | arrow
  | sphere
  | other
  deriving DecidableEq, Repr

inductive MarkerAction where
  | add
  | delete
  | deleteAll
  deriving DecidableEq, Repr

structure Marker (α : Type) where
  header : Header
  id : ℤ
  type : MarkerType
  action : MarkerAction
  pose : Pose α

namespace WaypointLoopRunner

inductive TopicType where
  | path
  | poseStamped
  | markerArray
  deriving DecidableEq, Repr

/-- `waypointsTopic` is absent when the parameter is empty; `waypointsXyyaw` holds
the numbers of the static waypoint text. -/
structure Config (α : Type) where
  frameId : String
  waypointsXyyaw : List α
  waypointsTopic : Option TopicType
  pathStableSec : α
  loopForever : Bool
  loopCount : ℤ
  retryOnMiss : Bool

inductive WaypointMsg (α : Type) where
  | path (msg : Path α)
  | pose (msg : PoseStamped α)
  | markers (markers : List (Marker α))

inductive Message (α : Type) where
  | initialpose (msg : PoseWithCovarianceStamped α)
  | amclPose (msg : PoseWithCovarianceStamped α)
  | waypoints (msg : WaypointMsg α)

/-- Where `run()` is; `waitStart` holds the captured `target_pose`. -/
inductive Phase (α : Type) where
  | waitServer
  | loopHead
  | waitStable
  | checkLoop
  | waitStart (target : PoseStamped α)
  | waitAccept
  | waitResult
  | finished
  | raised

structure State (α : Type) where
  phase : Phase α
  loopIdx : ℕ
  poses : List (PoseStamped α)
  lastWaypointsUpdate : α
  pathVersion : ℕ
  latestStartPose : Option (PoseStamped α)
  loopStartPose : Option (PoseStamped α)

/-- The environment during one step: the answer of `rclpy.ok()`, the message whose
callback a spin executes, the monotonic clock in that callback and after it, the
node clock, the action server, and the two futures (absent while not done). -/
structure Input (α : Type) where
  ok : Bool
  spun : Option (Message α)
  received : α
  monotonic : α
  now : Stamp
  serverReady : Bool
  accepted : Option Bool
  missed : Option (List ℕ)

/-- `goal.poses`, which always has these two entries. -/
structure Goal (α : Type) where
  start : PoseStamped α
  target : PoseStamped α

inductive Effect (α : Type) where
  | ignore
  | clear
  | goal (pose : PoseStamped α)

section Model
variable {α : Type} [Sub α] [Mul α] [OfScientific α] [PyMath α] [LE α] [DecidableLE α] [LT α]
  [DecidableLT α]

def frameIdOr (cfg : Config α) (frameId : String) : String :=
  if frameId = "" then cfg.frameId else frameId

def withFrameId (cfg : Config α) (header : Header) : Header :=
  { header with frameId := frameIdOr cfg header.frameId }

def emptyStamp : Stamp := ⟨0, 0⟩

/-! ### Static waypoints -/

def posesOf (cfg : Config α) : List α → List (PoseStamped α)
  | x :: y :: yaw :: rest =>
    ⟨⟨emptyStamp, cfg.frameId⟩, ⟨⟨x, y, 0.0⟩, quaternionFromYaw yaw⟩⟩ :: posesOf cfg rest
  | _ => []

/-- `_build_poses`; `none` where it raises `ValueError`. -/
def buildPoses (cfg : Config α) (raw : List α) : Option (List (PoseStamped α)) :=
  if raw.length < 3 ∨ raw.length % 3 ≠ 0 then none else some (posesOf cfg raw)

def initialPoses (cfg : Config α) : Option (List (PoseStamped α)) :=
  let raw := cfg.waypointsXyyaw
  if raw = [] then some [] else buildPoses cfg (raw.drop (raw.length - 3))

/-- The state after the constructor; `none` where it raises. -/
def initial (cfg : Config α) : Option (State α) := do
  let poses ← initialPoses cfg
  if cfg.waypointsTopic.isNone ∧ poses = [] then none
  else some ⟨.waitServer, 0, poses, 0.0, 0, none, none⟩

/-! ### Callbacks -/

def toPoseStamped (cfg : Config α) (msg : PoseWithCovarianceStamped α) : PoseStamped α :=
  ⟨withFrameId cfg msg.header, msg.pose.pose⟩

def pathEffect (cfg : Config α) (msg : Path α) : Effect α :=
  match msg.poses.getLast? with
  | none => .ignore
  | some p => .goal ⟨⟨emptyStamp, frameIdOr cfg msg.header.frameId⟩, p.pose⟩

def poseEffect (cfg : Config α) (msg : PoseStamped α) : Effect α :=
  .goal ⟨withFrameId cfg msg.header, msg.pose⟩

def sortedMarkers (type : MarkerType) (markers : List (Marker α)) : List (Marker α) :=
  (markers.filter fun m => m.type = type ∧ m.action = .add).mergeSort fun a b => a.id ≤ b.id

/-- The yaw of a sphere goal points from the sphere before it. -/
def sphereOrientation (spheres : List (Marker α)) (m : Marker α) : Quat α :=
  match spheres.dropLast.getLast? with
  | none => ⟨0.0, 0.0, 0.0, 1.0⟩
  | some m0 =>
    let p0 := m0.pose.position
    let p1 := m.pose.position
    quaternionFromYaw (PyMath.atan2 (p1.y - p0.y) (p1.x - p0.x))

def markersEffect (cfg : Config α) (markers : List (Marker α)) : Effect α :=
  if markers.any fun m => m.action = .deleteAll then .clear
  else
    match (sortedMarkers .arrow markers).getLast? with
    | some m => .goal ⟨withFrameId cfg m.header, m.pose⟩
    | none =>
      let spheres := sortedMarkers .sphere markers
      match spheres.getLast? with
      | none => .ignore
      | some m =>
        .goal ⟨withFrameId cfg m.header,
          ⟨⟨m.pose.position.x, m.pose.position.y, 0.0⟩, sphereOrientation spheres m⟩⟩

/-- Only the subscribed message type arrives. -/
def waypointsEffect (cfg : Config α) : WaypointMsg α → Effect α
  | .path msg => if cfg.waypointsTopic = some .path then pathEffect cfg msg else .ignore
  | .pose msg => if cfg.waypointsTopic = some .poseStamped then poseEffect cfg msg else .ignore
  | .markers ms => if cfg.waypointsTopic = some .markerArray then markersEffect cfg ms else .ignore

def effect (cfg : Config α) : Message α → Effect α
  | .waypoints msg => waypointsEffect cfg msg
  | _ => .ignore

def applyEffect (s : State α) (received : α) : Effect α → State α
  | .ignore => s
  | .clear => { s with poses := [] }
  | .goal pose =>
    { s with poses := [pose], pathVersion := s.pathVersion + 1, lastWaypointsUpdate := received }

def receive (cfg : Config α) (s : State α) (received : α) : Message α → State α
  | .initialpose msg =>
    { s with latestStartPose := some (toPoseStamped cfg msg), loopStartPose := none }
  | .amclPose msg =>
    if s.latestStartPose.isSome then s
    else { s with latestStartPose := some (toPoseStamped cfg msg) }
  | .waypoints msg => applyEffect s received (waypointsEffect cfg msg)

/-! ### The program -/

def spins (s : State α) (i : Input α) : Bool :=
  match s.phase with
  | .waitStable => i.ok
  | .waitStart _ => i.ok && s.latestStartPose.isNone
  | .waitAccept => i.ok && i.accepted.isNone
  | .waitResult => i.ok && i.missed.isNone
  | _ => false

def handled (s : State α) (i : Input α) : Option (Message α) :=
  if spins s i then i.spun else none

def spinOnce (cfg : Config α) (s : State α) (i : Input α) : State α :=
  match i.spun with
  | none => s
  | some msg => receive cfg s i.received msg

/-- The test after a spin: only the stability wait has one. -/
def afterSpin (cfg : Config α) (s : State α) (i : Input α) : State α :=
  match s.phase with
  | .waitStable =>
    if s.poses ≠ [] ∧ cfg.pathStableSec ≤ i.monotonic - s.lastWaypointsUpdate then
      { s with phase := .checkLoop }
    else s
  | _ => s

def distanceXy (a b : PoseStamped α) : α :=
  PyMath.hypot (a.pose.position.x - b.pose.position.x) (a.pose.position.y - b.pose.position.y)

/-- From the end of `_get_locked_loop_start` to `send_goal_async`. -/
def sendGoal (cfg : Config α) (s : State α) (target : PoseStamped α) (now : Stamp) :
    State α × Option (Goal α) :=
  let s := { s with loopStartPose := s.loopStartPose <|> s.latestStartPose }
  match s.loopStartPose with
  | none => ({ s with phase := .raised }, none)
  | some start =>
    if distanceXy start target < 0.05 then ({ s with phase := .loopHead }, none)
    else
      ({ s with phase := .waitAccept },
        some ⟨⟨⟨now, frameIdOr cfg start.header.frameId⟩, start.pose⟩,
          ⟨⟨now, frameIdOr cfg target.header.frameId⟩, target.pose⟩⟩)

def advance (cfg : Config α) (s : State α) (i : Input α) : State α × Option (Goal α) :=
  match s.phase with
  | .waitServer => ({ s with phase := if i.serverReady then .loopHead else .raised }, none)
  | .loopHead =>
    if ¬ i.ok then ({ s with phase := .finished }, none)
    else ({ s with phase := if cfg.waypointsTopic.isSome then .waitStable else .checkLoop }, none)
  | .waitStable => ({ s with phase := .checkLoop }, none)
  | .checkLoop =>
    if ¬ cfg.loopForever ∧ 0 < cfg.loopCount ∧ cfg.loopCount ≤ s.loopIdx then
      ({ s with phase := .finished }, none)
    else
      match s.poses.getLast? with
      | none => ({ s with phase := .loopHead }, none)
      | some target => ({ s with phase := .waitStart target }, none)
  | .waitStart target => sendGoal cfg s target i.now
  | .waitAccept =>
    ({ s with phase := if i.accepted = some true then .waitResult else .raised }, none)
  | .waitResult =>
    match i.missed with
    | none => ({ s with phase := .raised }, none)
    | some missed =>
      if missed ≠ [] ∧ ¬ cfg.retryOnMiss then ({ s with phase := .finished }, none)
      else ({ s with phase := .loopHead, loopIdx := s.loopIdx + 1 }, none)
  | .finished => (s, none)
  | .raised => (s, none)

def step (cfg : Config α) : Callback.Step (State α) (Input α) (Goal α) := fun s i =>
  if spins s i then (afterSpin cfg (spinOnce cfg s i) i, none) else advance cfg s i

/-! ### What one step can do -/

def Effect.poses (old : List (PoseStamped α)) : Effect α → List (PoseStamped α)
  | .ignore => old
  | .clear => []
  | .goal pose => [pose]

def stepEffect (cfg : Config α) (s : State α) (i : Input α) : Effect α :=
  match handled s i with
  | none => .ignore
  | some msg => effect cfg msg

end Model

theorem afterSpin_spec {α : Type} [Sub α] [LE α] [DecidableLE α] (cfg : Config α) (s : State α)
    (i : Input α) :
    (afterSpin cfg s i).poses = s.poses ∧
    ((afterSpin cfg s i).phase = s.phase ∨ (afterSpin cfg s i).phase = .checkLoop) := by
  unfold afterSpin
  split
  · split_ifs
    · exact ⟨rfl, Or.inr rfl⟩
    · exact ⟨rfl, Or.inl rfl⟩
  · exact ⟨rfl, Or.inl rfl⟩

section Spin
variable {α : Type} [Sub α] [Mul α] [OfScientific α] [PyMath α]

theorem receive_spec (cfg : Config α) (s : State α) (received : α) (msg : Message α) :
    (receive cfg s received msg).poses = (effect cfg msg).poses s.poses ∧
    (receive cfg s received msg).phase = s.phase := by
  cases msg with
  | initialpose msg => exact ⟨rfl, rfl⟩
  | amclPose msg =>
    unfold receive
    split_ifs <;> exact ⟨rfl, rfl⟩
  | waypoints msg =>
    show (applyEffect s received (waypointsEffect cfg msg)).poses
        = (waypointsEffect cfg msg).poses s.poses ∧
      (applyEffect s received (waypointsEffect cfg msg)).phase = s.phase
    cases waypointsEffect cfg msg <;> exact ⟨rfl, rfl⟩

theorem spin_spec [LE α] [DecidableLE α] (cfg : Config α) {s : State α} {i : Input α}
    (h : spins s i = true) :
    (afterSpin cfg (spinOnce cfg s i) i).poses = (stepEffect cfg s i).poses s.poses ∧
    ((afterSpin cfg (spinOnce cfg s i) i).phase = s.phase ∨
      (afterSpin cfg (spinOnce cfg s i) i).phase = .checkLoop) := by
  obtain ⟨hposes, hphase⟩ := afterSpin_spec cfg (spinOnce cfg s i) i
  rw [hposes, stepEffect, handled, if_pos h]
  cases hmsg : i.spun with
  | none =>
    have hs : spinOnce cfg s i = s := by rw [spinOnce, hmsg]
    rw [hs] at hphase ⊢
    exact ⟨rfl, hphase⟩
  | some msg =>
    obtain ⟨hreceived, hkept⟩ := receive_spec cfg s i.received msg
    have hs : spinOnce cfg s i = receive cfg s i.received msg := by rw [spinOnce, hmsg]
    rw [hs, hkept] at hphase
    rw [hs, hreceived]
    exact ⟨rfl, hphase⟩

end Spin

section Advance
variable {α : Type} [Sub α] [OfScientific α] [PyMath α] [LT α] [DecidableLT α]

theorem sendGoal_spec (cfg : Config α) (s : State α) (target : PoseStamped α) (now : Stamp) :
    (sendGoal cfg s target now).1.poses = s.poses ∧
    (∀ t, (sendGoal cfg s target now).1.phase ≠ .waitStart t) ∧
    ∀ goal, (sendGoal cfg s target now).2 = some goal →
      goal.target = ⟨⟨now, frameIdOr cfg target.header.frameId⟩, target.pose⟩ := by
  unfold sendGoal
  simp only
  split
  · exact ⟨rfl, nofun, nofun⟩
  · split_ifs
    · exact ⟨rfl, nofun, nofun⟩
    · refine ⟨rfl, nofun, ?_⟩
      rintro goal ⟨⟩
      rfl

/-- Between two spins the list of waypoints is not touched, a target is captured
only from it, and a goal is sent only from a captured target. -/
theorem advance_spec (cfg : Config α) (s : State α) (i : Input α) :
    (advance cfg s i).1.poses = s.poses ∧
    (∀ t, (advance cfg s i).1.phase = .waitStart t → s.poses.getLast? = some t) ∧
    ∀ goal, (advance cfg s i).2 = some goal → ∃ t, s.phase = .waitStart t ∧
      goal.target = ⟨⟨i.now, frameIdOr cfg t.header.frameId⟩, t.pose⟩ := by
  unfold advance
  cases hphase : s.phase with
  | waitServer =>
    refine ⟨rfl, ?_, nofun⟩
    intro t ht
    simp only at ht
    split_ifs at ht
  | loopHead =>
    simp only
    split_ifs
    · exact ⟨rfl, nofun, nofun⟩
    · exact ⟨rfl, nofun, nofun⟩
    · exact ⟨rfl, nofun, nofun⟩
  | waitStable => exact ⟨rfl, nofun, nofun⟩
  | checkLoop =>
    simp only
    split_ifs
    · exact ⟨rfl, nofun, nofun⟩
    · split
      · exact ⟨rfl, nofun, nofun⟩
      · rename_i target htarget
        refine ⟨rfl, ?_, nofun⟩
        rintro t ⟨⟩
        exact htarget
  | waitStart target =>
    obtain ⟨hposes, hwait, hgoal⟩ := sendGoal_spec cfg s target i.now
    exact ⟨hposes, fun t ht => absurd ht (hwait t), fun goal h => ⟨target, rfl, hgoal goal h⟩⟩
  | waitAccept =>
    refine ⟨rfl, ?_, nofun⟩
    intro t ht
    simp only at ht
    split_ifs at ht
  | waitResult =>
    simp only
    split
    · exact ⟨rfl, nofun, nofun⟩
    · split_ifs
      · exact ⟨rfl, nofun, nofun⟩
      · exact ⟨rfl, nofun, nofun⟩
  | finished => exact ⟨rfl, by rw [hphase]; nofun, nofun⟩
  | raised => exact ⟨rfl, by rw [hphase]; nofun, nofun⟩

end Advance

theorem posesOf_last_three {α : Type} [Mul α] [OfScientific α] [PyMath α] (cfg : Config α)
    (raw : List α) :
    posesOf cfg (raw.drop (raw.length - 3)) = [] ∨
      ∃ pose, posesOf cfg (raw.drop (raw.length - 3)) = [pose] := by
  have hlen : (raw.drop (raw.length - 3)).length ≤ 3 := by
    rw [List.length_drop]
    omega
  generalize raw.drop (raw.length - 3) = last at hlen
  match last with
  | [] => exact Or.inl rfl
  | [_] => exact Or.inl rfl
  | [_, _] => exact Or.inl rfl
  | [x, y, yaw] => exact Or.inr ⟨_, rfl⟩
  | _ :: _ :: _ :: _ :: rest =>
    simp only [List.length_cons] at hlen
    omega

section Steps
variable {α : Type} [Sub α] [Mul α] [OfScientific α] [PyMath α] [LE α] [DecidableLE α] [LT α]
  [DecidableLT α]

theorem step_poses (cfg : Config α) (s : State α) (i : Input α) :
    (step cfg s i).1.poses = (stepEffect cfg s i).poses s.poses := by
  unfold step
  split_ifs with h
  · exact (spin_spec cfg h).1
  · rw [stepEffect, handled, if_neg h]
    exact (advance_spec cfg s i).1

theorem step_waitStart (cfg : Config α) {s : State α} {i : Input α} {t : PoseStamped α}
    (h : (step cfg s i).1.phase = .waitStart t) :
    s.phase = .waitStart t ∨ (handled s i = none ∧ s.poses.getLast? = some t) := by
  unfold step at h
  split_ifs at h with hspin
  · rcases (spin_spec cfg hspin).2 with hkept | hcheck
    · exact Or.inl (hkept.symm.trans h)
    · cases hcheck.symm.trans h
  · refine Or.inr ⟨?_, (advance_spec cfg s i).2.1 t h⟩
    rw [handled, if_neg hspin]

theorem step_goal (cfg : Config α) {s : State α} {i : Input α} {goal : Goal α}
    (h : (step cfg s i).2 = some goal) :
    ∃ t, s.phase = .waitStart t ∧
      goal.target = ⟨⟨i.now, frameIdOr cfg t.header.frameId⟩, t.pose⟩ := by
  unfold step at h
  split_ifs at h
  exact (advance_spec cfg s i).2.2 goal h

/-! ### Runs -/

def waypointOf (cfg : Config α) (msg : Message α) : Option (PoseStamped α) :=
  match effect cfg msg with
  | .goal pose => some pose
  | _ => none

/-- The last waypoint received in a run; the static one counts until the first
message. -/
def latestWaypoint (cfg : Config α) (s : State α) (inputs : List (Input α)) :
    Option (PoseStamped α) :=
  ((Callback.observed (step cfg) handled s inputs).filterMap (waypointOf cfg)).getLast?.or
    s.poses.getLast?

/-- While `run()` waits for a start pose, no callback changes `self.poses`. -/
def NotOvertaken (cfg : Config α) (s : State α) (i : Input α) : Prop :=
  ∀ target msg, s.phase = .waitStart target → handled s i = some msg → effect cfg msg = .ignore

/-- There is at most one waypoint, the latest one, and a captured target is it. -/
structure Inv (latest : Option (PoseStamped α)) (s : State α) : Prop where
  single : s.poses = [] ∨ ∃ pose, s.poses = [pose] ∧ latest = some pose
  captured : ∀ target, s.phase = .waitStart target → s.poses = [target]

theorem latestWaypoint_concat (cfg : Config α) (s : State α) (inputs : List (Input α))
    (i : Input α) :
    latestWaypoint cfg s (inputs ++ [i]) =
      ((handled (Callback.stateAfter (step cfg) s inputs) i).bind (waypointOf cfg)).or
        (latestWaypoint cfg s inputs) := by
  simp only [latestWaypoint, Callback.observed_append, Callback.observed, List.append_nil,
    List.filterMap_append, List.getLast?_append]
  cases handled (Callback.stateAfter (step cfg) s inputs) i with
  | none => simp
  | some msg => cases h : waypointOf cfg msg <;> simp [h]

theorem inv_step (cfg : Config α) {latest : Option (PoseStamped α)} {s : State α} {i : Input α}
    (hinv : Inv latest s) (hcond : NotOvertaken cfg s i) :
    Inv (((handled s i).bind (waypointOf cfg)).or latest) (step cfg s i).1 := by
  have hposes := step_poses cfg s i
  constructor
  · rw [hposes, stepEffect]
    cases handled s i with
    | none => exact hinv.single
    | some msg =>
      cases heff : effect cfg msg with
      | ignore => simpa [waypointOf, heff, Effect.poses] using hinv.single
      | clear => exact Or.inl (by simp [heff, Effect.poses])
      | goal pose => exact Or.inr ⟨pose, by simp [heff, Effect.poses], by simp [waypointOf, heff]⟩
  · intro target htarget
    rcases step_waitStart cfg htarget with hwait | ⟨hnone, hlast⟩
    · rw [hposes, stepEffect]
      cases hmsg : handled s i with
      | none => exact hinv.captured target hwait
      | some msg =>
        simp only
        rw [hcond target msg hwait hmsg]
        exact hinv.captured target hwait
    · rw [hposes, stepEffect, hnone]
      show s.poses = [target]
      rcases hinv.single with hnil | ⟨pose, hpose, -⟩
      · rw [hnil] at hlast
        cases hlast
      · rw [hpose, List.getLast?_singleton] at hlast
        rw [hpose, Option.some.inj hlast]

/-! ### Sent goals -/

theorem inv_initial (cfg : Config α) {s : State α} (h : initial cfg = some s) :
    Inv (latestWaypoint cfg s []) s := by
  obtain ⟨poses, hposes, hs⟩ := Option.bind_eq_some_iff.mp h
  split_ifs at hs
  obtain rfl := Option.some.inj hs
  refine ⟨?_, nofun⟩
  have hone : poses = [] ∨ ∃ pose, poses = [pose] := by
    unfold initialPoses buildPoses at hposes
    simp only at hposes
    split_ifs at hposes
    · exact Or.inl (Option.some.inj hposes).symm
    · rw [← Option.some.inj hposes]
      exact posesOf_last_three cfg cfg.waypointsXyyaw
  rcases hone with rfl | ⟨pose, rfl⟩
  · exact Or.inl rfl
  · exact Or.inr ⟨pose, rfl, rfl⟩

/-- In every run in which no waypoint callback changes the list while the program
waits for a start pose: whenever a goal is sent, there is a waypoint and the goal
leads to the latest one. -/
theorem sent_goal_is_latest (cfg : Config α) {s : State α} (h0 : initial cfg = some s)
    (inputs : List (Input α)) (hrun : Callback.AllSteps (step cfg) (NotOvertaken cfg) s inputs)
    (i : Input α) {goal : Goal α}
    (hgoal : (step cfg (Callback.stateAfter (step cfg) s inputs) i).2 = some goal) :
    (Callback.stateAfter (step cfg) s inputs).poses ≠ [] ∧
    ∃ pose, latestWaypoint cfg s inputs = some pose ∧ goal.target.pose = pose.pose ∧
      goal.target.header.frameId = frameIdOr cfg pose.header.frameId := by
  have hinv := Callback.stateAfter_invariant (step cfg)
    (J := fun inputs s' => Inv (latestWaypoint cfg s inputs) s') (inv_initial cfg h0)
    (fun xs x hJ hP => latestWaypoint_concat cfg s xs x ▸ inv_step cfg hJ hP) inputs hrun
  obtain ⟨target, hwait, htarget⟩ := step_goal cfg hgoal
  have hposes := hinv.captured target hwait
  rcases hinv.single with hnil | ⟨pose, hpose, hlatest⟩
  · rw [hnil] at hposes
    cases hposes
  · obtain rfl : pose = target := by
      rw [hpose] at hposes
      exact List.singleton_injective hposes
    refine ⟨by rw [hpose]; exact List.cons_ne_nil _ _, pose, hlatest, ?_, ?_⟩
    · rw [htarget]
    · rw [htarget]

end Steps

/-! ### A click during the wait for a start pose -/

noncomputable section

def clickConfig : Config ℝ where
  frameId := "map"
  waypointsXyyaw := []
  waypointsTopic := some .poseStamped
  pathStableSec := 1.5
  loopForever := true
  loopCount := 0
  retryOnMiss := true

def clickState : State ℝ := ⟨.waitServer, 0, [], 0.0, 0, none, none⟩

def poseAt (x : ℝ) : PoseStamped ℝ := ⟨⟨⟨0, 0⟩, "map"⟩, ⟨⟨x, 0, 0⟩, ⟨0, 0, 0, 1⟩⟩⟩

def timeout (monotonic : ℝ) : Input ℝ :=
  ⟨true, none, monotonic, monotonic, ⟨0, 0⟩, true, none, none⟩

def click (x monotonic : ℝ) : Input ℝ :=
  { timeout monotonic with spun := some (.waypoints (.pose (poseAt x))) }

def estimate (x monotonic : ℝ) : Input ℝ :=
  { timeout monotonic with
    spun := some (.initialpose ⟨⟨⟨0, 0⟩, "map"⟩, ⟨(poseAt x).pose, Vector.replicate 36 0⟩⟩) }

/-- Click at 3 m and hold still for two seconds: the goal is captured. -/
def capturingRun : List (Input ℝ) :=
  [timeout 0.0, timeout 0.0, click 3.0 10.0, timeout 12.0, timeout 12.0]

theorem initial_clickConfig : initial clickConfig = some clickState := by
  simp [initial, initialPoses, clickConfig, clickState]

theorem stateAfter_capturingRun :
    Callback.stateAfter (step clickConfig) clickState capturingRun
      = ⟨.waitStart (poseAt 3), 0, [poseAt 3], 10, 1, none, none⟩ := by
  norm_num [capturingRun, Callback.stateAfter, step, spins, advance, afterSpin, spinOnce, receive,
    applyEffect, waypointsEffect, poseEffect, clickConfig, clickState, timeout, click, poseAt,
    withFrameId, frameIdOr]

theorem stateAfter_estimate :
    Callback.stateAfter (step clickConfig) clickState (capturingRun ++ [estimate 0 14])
      = ⟨.waitStart (poseAt 3), 0, [poseAt 3], 10, 1, some (poseAt 0), none⟩ := by
  rw [Callback.stateAfter_append, stateAfter_capturingRun]
  simp [Callback.stateAfter, step, spins, afterSpin, spinOnce, receive, timeout, estimate, poseAt,
    withFrameId, frameIdOr, toPoseStamped]

theorem not_distanceXy_lt : ¬ distanceXy (poseAt 0) (poseAt 3) < 0.05 := by
  have h : distanceXy (poseAt 0) (poseAt 3) = √9 := by
    show √((0 - 3) * (0 - 3) + (0 - 0) * (0 - 0)) = √9
    norm_num
  rw [h, not_lt]
  exact Real.le_sqrt_of_sq_le (by norm_num)

/-- With the 2D estimate in place the captured goal is sent, whatever has been
clicked since. -/
theorem sendGoal_captured (poses : List (PoseStamped ℝ)) (update : ℝ) (version : ℕ) :
    (step clickConfig ⟨.waitStart (poseAt 3), 0, poses, update, version, some (poseAt 0), none⟩
      (timeout 15)).2 = some ⟨poseAt 0, poseAt 3⟩ := by
  have hfar := not_distanceXy_lt
  simp only [step, spins, timeout, Option.isNone_some, Bool.and_false, Bool.false_eq_true, if_false,
    advance, sendGoal, Option.orElse_eq_orElse, Option.orElse_none, hfar]
  simp [poseAt, frameIdOr]

theorem clicked_during_start_wait :
    ∃ s, initial clickConfig = some s ∧
      let inputs := capturingRun ++ [click 7 13, estimate 0 14]
      ∃ goal, (step clickConfig (Callback.stateAfter (step clickConfig) s inputs) (timeout 15)).2
          = some goal ∧
        latestWaypoint clickConfig s inputs = some (poseAt 7) ∧
        goal.target.pose ≠ (poseAt 7).pose := by
  refine ⟨clickState, initial_clickConfig, ⟨poseAt 0, poseAt 3⟩, ?_, ?_, ?_⟩
  · rw [Callback.stateAfter_append, stateAfter_capturingRun]
    have hstate : Callback.stateAfter (step clickConfig)
        ⟨.waitStart (poseAt 3), 0, [poseAt 3], 10, 1, none, none⟩ [click 7 13, estimate 0 14]
        = ⟨.waitStart (poseAt 3), 0, [poseAt 7], 13, 2, some (poseAt 0), none⟩ := by
      simp [Callback.stateAfter, step, spins, afterSpin, spinOnce, receive, applyEffect,
        waypointsEffect, poseEffect, clickConfig, timeout, click, estimate, poseAt, withFrameId,
        frameIdOr, toPoseStamped]
    rw [hstate]
    exact sendGoal_captured _ _ _
  · rw [latestWaypoint, Callback.observed_append, stateAfter_capturingRun]
    simp [Callback.observed, handled, step, spins, afterSpin, spinOnce, receive, applyEffect,
      waypointOf, effect, waypointsEffect, poseEffect, clickConfig, timeout, click, estimate,
      withFrameId, frameIdOr, poseAt, List.filterMap_cons]
  · simp [poseAt]

theorem sent_goal_is_latest_clicked_once :
    ∃ pose, latestWaypoint clickConfig clickState (capturingRun ++ [estimate 0 14]) = some pose ∧
      (poseAt 3).pose = pose.pose := by
  have hrun : Callback.AllSteps (step clickConfig) (NotOvertaken clickConfig) clickState
      (capturingRun ++ [estimate 0 14]) := by
    rw [Callback.allSteps_append, stateAfter_capturingRun]
    constructor
    · simp [capturingRun, Callback.AllSteps, NotOvertaken, handled, step, spins, advance, afterSpin,
        spinOnce, receive, applyEffect, waypointsEffect, poseEffect, clickConfig, clickState, timeout,
        click]
    · refine ⟨?_, trivial⟩
      rintro target msg - ⟨⟩
      rfl
  obtain ⟨-, pose, hlatest, hpose, -⟩ := sent_goal_is_latest clickConfig initial_clickConfig
    (capturingRun ++ [estimate 0 14]) hrun (timeout 15) (by
      rw [stateAfter_estimate]
      exact sendGoal_captured _ _ _)
  exact ⟨pose, hlatest, hpose⟩

end

end WaypointLoopRunner

end RtkLocalization
