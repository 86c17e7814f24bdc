import RtkLocalization.WaypointLoopRunner

/-!
# Rounds of the waypoint loop

Every round starts from the pose the operator confirmed, in every interleaving of
the start pose callbacks with `run()` (`goal_starts_at_confirmed`). With
`loop_forever` off, `loop_count` bounds the goals sent exactly when it is positive
(`loop_count_bounds_goals_iff`): the exit test is skipped for zero, and then every
number of rounds is reached.
-/

namespace RtkLocalization
namespace WaypointLoopRunner

/-! ### The start of a round -/

section Start
variable {α : Type}

def initialposeOf (cfg : Config α) : Message α → Option (PoseStamped α)
  | .initialpose msg => some (toPoseStamped cfg msg)
  | _ => none

def amclPoseOf (cfg : Config α) : Message α → Option (PoseStamped α)
  | .amclPose msg => some (toPoseStamped cfg msg)
  | _ => none

/-- The most recent 2D estimate or, if there is none, the first localisation. -/
def confirmedStart (cfg : Config α) (msgs : List (Message α)) : Option (PoseStamped α) :=
  (msgs.filterMap (initialposeOf cfg)).getLast?.or (msgs.filterMap (amclPoseOf cfg)).head?

/-- The same, one message at a time. -/
def confirm (cfg : Config α) (confirmed : Option (PoseStamped α)) :
    Message α → Option (PoseStamped α)
  | .initialpose msg => some (toPoseStamped cfg msg)
  | .amclPose msg => confirmed.or (some (toPoseStamped cfg msg))
  | .waypoints _ => confirmed

theorem confirmedStart_concat (cfg : Config α) (msgs : List (Message α)) (msg : Message α) :
    confirmedStart cfg (msgs ++ [msg]) = confirm cfg (confirmedStart cfg msgs) msg := by
  unfold confirmedStart confirm
  rw [List.filterMap_append, List.filterMap_append]
  cases msg with
  | initialpose msg => simp [initialposeOf, amclPoseOf]
  | amclPose msg => simp [initialposeOf, amclPoseOf]
  | waypoints msg => simp [initialposeOf, amclPoseOf]

structure StartInv (confirmed : Option (PoseStamped α)) (s : State α) : Prop where
  latest : s.latestStartPose = confirmed
  locked : s.loopStartPose = none ∨ s.loopStartPose = s.latestStartPose

theorem StartInv.lock {confirmed : Option (PoseStamped α)} {s : State α}
    (h : StartInv confirmed s) :
    (s.loopStartPose <|> s.latestStartPose) = confirmed := by
  rw [← h.latest]
  rcases h.locked with hnone | hlatest
  · rw [hnone]
    rfl
  · rw [hlatest]
    cases s.latestStartPose <;> rfl

section Receive
variable [Sub α] [Mul α] [OfScientific α] [PyMath α]

theorem startInv_receive (cfg : Config α) {confirmed : Option (PoseStamped α)} {s : State α}
    (h : StartInv confirmed s) (received : α) (msg : Message α) :
    StartInv (confirm cfg confirmed msg) (receive cfg s received msg) := by
  cases msg with
  | initialpose msg => exact ⟨rfl, Or.inl rfl⟩
  | amclPose msg =>
    unfold receive
    have hlatest := h.latest
    split_ifs with hsome
    · obtain ⟨pose, hpose⟩ := Option.isSome_iff_exists.mp hsome
      refine ⟨?_, h.locked⟩
      rw [confirm, ← hlatest, hpose]
      rfl
    · have hnone : s.latestStartPose = none := by simpa using hsome
      refine ⟨?_, Or.inl ?_⟩
      · rw [confirm, ← hlatest, hnone]
        rfl
      · rcases h.locked with hlocked | hlocked
        · exact hlocked
        · exact hlocked.trans hnone
  | waypoints msg =>
    show StartInv confirmed (applyEffect s received (waypointsEffect cfg msg))
    cases waypointsEffect cfg msg <;> exact ⟨h.latest, h.locked⟩

variable [LE α] [DecidableLE α]

theorem startInv_spin (cfg : Config α) {msgs : List (Message α)} {s : State α} {i : Input α}
    (h : StartInv (confirmedStart cfg msgs) s) (hspin : spins s i = true) :
    StartInv (confirmedStart cfg (msgs ++ (handled s i).toList))
      (afterSpin cfg (spinOnce cfg s i) i) := by
  have hreceived : StartInv (confirmedStart cfg (msgs ++ (handled s i).toList))
      (spinOnce cfg s i) := by
    rw [handled, if_pos hspin, spinOnce]
    cases i.spun with
    | none => rwa [Option.toList_none, List.append_nil]
    | some msg =>
      rw [Option.toList_some, confirmedStart_concat]
      exact startInv_receive cfg h i.received msg
  unfold afterSpin
  split
  · split_ifs
    · exact ⟨hreceived.latest, hreceived.locked⟩
    · exact hreceived
  · exact hreceived

end Receive

section Advance
variable [Sub α] [OfScientific α] [PyMath α] [LT α] [DecidableLT α]

theorem startInv_sendGoal (cfg : Config α) {confirmed : Option (PoseStamped α)} {s : State α}
    (h : StartInv confirmed s) (target : PoseStamped α) (now : Stamp) :
    StartInv confirmed (sendGoal cfg s target now).1 ∧
    ∀ goal, (sendGoal cfg s target now).2 = some goal → ∃ start, confirmed = some start ∧
      goal.start = ⟨⟨now, frameIdOr cfg start.header.frameId⟩, start.pose⟩ := by
  unfold sendGoal
  simp only [h.lock]
  cases hconfirmed : confirmed with
  | none => exact ⟨⟨h.latest.trans hconfirmed, Or.inl rfl⟩, nofun⟩
  | some start =>
    have hlatest : s.latestStartPose = some start := h.latest.trans hconfirmed
    simp only
    split_ifs
    · exact ⟨⟨hlatest, Or.inr hlatest.symm⟩, nofun⟩
    · refine ⟨⟨hlatest, Or.inr hlatest.symm⟩, ?_⟩
      rintro goal ⟨⟩
      exact ⟨start, rfl, rfl⟩

theorem startInv_advance (cfg : Config α) {confirmed : Option (PoseStamped α)} {s : State α}
    (h : StartInv confirmed s) (i : Input α) :
    StartInv confirmed (advance cfg s i).1 ∧
    ∀ goal, (advance cfg s i).2 = some goal → ∃ start, confirmed = some start ∧
      goal.start = ⟨⟨i.now, frameIdOr cfg start.header.frameId⟩, start.pose⟩ := by
  obtain ⟨hlatest, hlocked⟩ := h
  unfold advance
  cases s.phase with
  | waitServer => exact ⟨⟨hlatest, hlocked⟩, nofun⟩
  | loopHead =>
    simp only
    split_ifs <;> exact ⟨⟨hlatest, hlocked⟩, nofun⟩
  | waitStable => exact ⟨⟨hlatest, hlocked⟩, nofun⟩
  | checkLoop =>
    simp only
    split_ifs
    · exact ⟨⟨hlatest, hlocked⟩, nofun⟩
    · split <;> exact ⟨⟨hlatest, hlocked⟩, nofun⟩
  | waitStart target => exact startInv_sendGoal cfg ⟨hlatest, hlocked⟩ target i.now
  | waitAccept => exact ⟨⟨hlatest, hlocked⟩, nofun⟩
  | waitResult =>
    simp only
    split
    · exact ⟨⟨hlatest, hlocked⟩, nofun⟩
    · split_ifs <;> exact ⟨⟨hlatest, hlocked⟩, nofun⟩
  | finished => exact ⟨⟨hlatest, hlocked⟩, nofun⟩
  | raised => exact ⟨⟨hlatest, hlocked⟩, nofun⟩

end Advance

variable [Sub α] [Mul α] [OfScientific α] [PyMath α] [LE α] [DecidableLE α] [LT α] [DecidableLT α]

theorem startInv_step (cfg : Config α) {msgs : List (Message α)} {s : State α}
    (h : StartInv (confirmedStart cfg msgs) s) (i : Input α) :
    StartInv (confirmedStart cfg (msgs ++ (handled s i).toList)) (step cfg s i).1 := by
  unfold step
  split_ifs with hspin
  · exact startInv_spin cfg h hspin
  · rw [handled, if_neg hspin, Option.toList_none, List.append_nil]
    exact (startInv_advance cfg h i).1

theorem startInv_run (cfg : Config α) {s : State α} (h0 : initial cfg = some s)
    (inputs : List (Input α)) :
    StartInv (confirmedStart cfg (Callback.observed (step cfg) handled s inputs))
      (Callback.stateAfter (step cfg) s inputs) := by
  induction inputs using List.reverseRecOn with
  | nil =>
    obtain ⟨poses, -, hs⟩ := Option.bind_eq_some_iff.mp h0
    split_ifs at hs
    obtain rfl := Option.some.inj hs
    exact ⟨rfl, Or.inl rfl⟩
  | append_singleton inputs i ih =>
    rw [Callback.stateAfter_append, Callback.observed_append]
    simp only [Callback.observed, List.append_nil]
    exact startInv_step cfg ih i

/-- At all times the locked start is unset or the latest one, and whenever a goal is
sent its first pose, up to the stamp, is the confirmed start. -/
theorem goal_starts_at_confirmed (cfg : Config α) {s : State α} (h0 : initial cfg = some s)
    (inputs : List (Input α)) :
    let now := Callback.stateAfter (step cfg) s inputs
    (now.loopStartPose = none ∨ now.loopStartPose = now.latestStartPose) ∧
    ∀ i goal, (step cfg now i).2 = some goal →
      ∃ start, confirmedStart cfg (Callback.observed (step cfg) handled s inputs) = some start ∧
        goal.start = ⟨⟨i.now, frameIdOr cfg start.header.frameId⟩, start.pose⟩ := by
  have hinv := startInv_run cfg h0 inputs
  refine ⟨hinv.locked, ?_⟩
  intro i goal hgoal
  unfold step at hgoal
  split_ifs at hgoal
  exact (startInv_advance cfg hinv i).2 goal hgoal

end Start

theorem goal_starts_at_confirmed_estimate :
    ∃ start, confirmedStart clickConfig (Callback.observed (step clickConfig) handled clickState
        (capturingRun ++ [estimate 0 14])) = some start ∧
      (⟨poseAt 0, poseAt 3⟩ : Goal ℝ).start
        = ⟨⟨⟨0, 0⟩, frameIdOr clickConfig start.header.frameId⟩, start.pose⟩ := by
  refine (goal_starts_at_confirmed clickConfig initial_clickConfig
    (capturingRun ++ [estimate 0 14])).2 (timeout 15) ⟨poseAt 0, poseAt 3⟩ ?_
  rw [stateAfter_estimate]
  exact sendGoal_captured _ _ _

/-! ### The number of rounds -/

section Bound
variable {α : Type}

/-- How `n` goals sent so far relate to `loop_idx` at each point of `run()`. -/
def RoundInv (cfg : Config α) (n : ℕ) (s : State α) : Prop :=
  match s.phase with
  | .waitStart _ => n = s.loopIdx ∧ (n : ℤ) < cfg.loopCount
  | .waitAccept | .waitResult => n = s.loopIdx + 1 ∧ (n : ℤ) ≤ cfg.loopCount
  | .finished | .raised => (n : ℤ) ≤ cfg.loopCount
  | _ => n = s.loopIdx ∧ (n : ℤ) ≤ cfg.loopCount

theorem RoundInv.le {cfg : Config α} {n : ℕ} {s : State α} (h : RoundInv cfg n s) :
    (n : ℤ) ≤ cfg.loopCount := by
  unfold RoundInv at h
  split at h <;> omega

section Spin
variable [Sub α] [Mul α] [OfScientific α] [PyMath α]

theorem receive_rounds (cfg : Config α) (s : State α) (received : α) (msg : Message α) :
    (receive cfg s received msg).loopIdx = s.loopIdx := by
  cases msg with
  | initialpose msg => rfl
  | amclPose msg =>
    unfold receive
    split_ifs <;> rfl
  | waypoints msg =>
    show (applyEffect s received (waypointsEffect cfg msg)).loopIdx = s.loopIdx
    cases waypointsEffect cfg msg <;> rfl

theorem roundInv_spinOnce (cfg : Config α) {n : ℕ} {s : State α} (h : RoundInv cfg n s)
    (i : Input α) : RoundInv cfg n (spinOnce cfg s i) := by
  unfold spinOnce
  split
  · exact h
  · unfold RoundInv
    rw [(receive_spec cfg s i.received _).2, receive_rounds]
    exact h

end Spin

theorem roundInv_afterSpin [Sub α] [LE α] [DecidableLE α] (cfg : Config α) {n : ℕ} {s : State α}
    (h : RoundInv cfg n s) (i : Input α) : RoundInv cfg n (afterSpin cfg s i) := by
  unfold afterSpin
  split
  next hphase =>
    split_ifs
    · unfold RoundInv at h ⊢
      rw [hphase] at h
      exact h
    · exact h
  next => exact h

section Advance
variable [Sub α] [OfScientific α] [PyMath α] [LT α] [DecidableLT α]

theorem roundInv_sendGoal (cfg : Config α) {s : State α} (h : (s.loopIdx : ℤ) < cfg.loopCount)
    (target : PoseStamped α) (now : Stamp) :
    RoundInv cfg (s.loopIdx + (sendGoal cfg s target now).2.toList.length)
      (sendGoal cfg s target now).1 := by
  unfold sendGoal
  simp only
  split
  · exact h.le
  · split_ifs
    · exact ⟨rfl, h.le⟩
    · refine ⟨rfl, ?_⟩
      simp only [Option.toList_some, List.length_singleton]
      omega

theorem roundInv_advance (cfg : Config α) (hforever : cfg.loopForever = false)
    (hcount : 0 < cfg.loopCount) {n : ℕ} {s : State α} (h : RoundInv cfg n s) (i : Input α) :
    RoundInv cfg (n + (advance cfg s i).2.toList.length) (advance cfg s i).1 := by
  unfold RoundInv at h
  unfold advance
  cases hphase : s.phase with
  | waitServer =>
    rw [hphase] at h
    simp only
    split_ifs
    · exact h
    · exact h.2
  | loopHead =>
    rw [hphase] at h
    simp only
    split_ifs
    · exact h
    · exact h
    · exact h.2
  | waitStable =>
    rw [hphase] at h
    exact h
  | checkLoop =>
    rw [hphase] at h
    simp only
    split_ifs with hexit
    · exact h.2
    · split
      · exact h
      · -- the exit test was passed, so a round is left
        refine ⟨h.1, ?_⟩
        have hlt : ¬ cfg.loopCount ≤ s.loopIdx := fun hle =>
          hexit ⟨by rw [hforever]; exact Bool.false_ne_true, hcount, hle⟩
        have hn := h.1
        simp only [Option.toList_none, List.length_nil]
        omega
  | waitStart target =>
    rw [hphase] at h
    obtain ⟨rfl, hlt⟩ := h
    exact roundInv_sendGoal cfg hlt target i.now
  | waitAccept =>
    rw [hphase] at h
    simp only
    split_ifs
    · exact h
    · exact h.2
  | waitResult =>
    rw [hphase] at h
    simp only
    split
    · exact h.2
    · split_ifs
      · exact h.2
      · exact h
  | finished =>
    rw [hphase] at h
    unfold RoundInv
    rw [hphase]
    exact h
  | raised =>
    rw [hphase] at h
    unfold RoundInv
    rw [hphase]
    exact h

end Advance

variable [Sub α] [Mul α] [OfScientific α] [PyMath α] [LE α] [DecidableLE α] [LT α] [DecidableLT α]

theorem roundInv_step (cfg : Config α) (hforever : cfg.loopForever = false)
    (hcount : 0 < cfg.loopCount) {n : ℕ} {s : State α} (h : RoundInv cfg n s) (i : Input α) :
    RoundInv cfg (n + (step cfg s i).2.toList.length) (step cfg s i).1 := by
  unfold step
  split_ifs
  · exact roundInv_afterSpin cfg (roundInv_spinOnce cfg h i) i
  · exact roundInv_advance cfg hforever hcount h i

theorem roundInv_run (cfg : Config α) (hforever : cfg.loopForever = false)
    (hcount : 0 < cfg.loopCount) {s : State α} (h0 : initial cfg = some s)
    (inputs : List (Input α)) :
    RoundInv cfg (Callback.published (step cfg) s inputs).length
      (Callback.stateAfter (step cfg) s inputs) := by
  induction inputs using List.reverseRecOn with
  | nil =>
    obtain ⟨poses, -, hs⟩ := Option.bind_eq_some_iff.mp h0
    split_ifs at hs
    obtain rfl := Option.some.inj hs
    exact ⟨rfl, hcount.le⟩
  | append_singleton inputs i ih =>
    rw [Callback.stateAfter_append, Callback.published_append_singleton, List.length_append]
    exact roundInv_step cfg hforever hcount ih i

end Bound

/-! ### Without a count -/

noncomputable section

/-- An input at time `monotonic` that accepts a goal and reports no missed waypoint. -/
def answered (monotonic : ℝ) : Input ℝ :=
  { timeout monotonic with accepted := some true, missed := some [] }

/-- About to send a goal from `start` to `target`. -/
structure Ready (start target : PoseStamped ℝ) (s : State ℝ) : Prop where
  phase : s.phase = .waitStart target
  poses : s.poses = [target]
  latest : s.latestStartPose = some start
  locked : s.loopStartPose = none ∨ s.loopStartPose = some start

/-- From the head of the loop the waypoint is captured again, without a goal. -/
theorem captures_target (cfg : Config ℝ) (hcount : cfg.loopCount ≤ 0) (target : PoseStamped ℝ)
    (loopIdx : ℕ) (update : ℝ) (version : ℕ) (latest locked : Option (PoseStamped ℝ)) :
    ∃ inputs, Callback.published (step cfg)
        ⟨.loopHead, loopIdx, [target], update, version, latest, locked⟩ inputs = [] ∧
      Callback.stateAfter (step cfg)
        ⟨.loopHead, loopIdx, [target], update, version, latest, locked⟩ inputs
          = ⟨.waitStart target, loopIdx, [target], update, version, latest, locked⟩ := by
  have hexit : ¬ 0 < cfg.loopCount := not_lt.mpr hcount
  cases htopic : cfg.waypointsTopic with
  | none =>
    refine ⟨List.replicate 2 (timeout 0), ?_, ?_⟩
    · simp [Callback.published, Callback.outputs, List.replicate, step, spins, advance, timeout,
        htopic, hexit, List.reduceOption]
    · simp [Callback.stateAfter, List.replicate, step, spins, advance, timeout, htopic, hexit]
  | some type =>
    -- one turn of the stability wait more
    refine ⟨List.replicate 3 (timeout (update + cfg.pathStableSec)), ?_, ?_⟩
    · simp [Callback.published, Callback.outputs, List.replicate, step, spins, advance, afterSpin,
        spinOnce, timeout, htopic, hexit, List.reduceOption]
    · simp [Callback.stateAfter, List.replicate, step, spins, advance, afterSpin, spinOnce, timeout,
        htopic, hexit]

theorem ready_round (cfg : Config ℝ) (hcount : cfg.loopCount ≤ 0) {start target : PoseStamped ℝ}
    (hfar : ¬ distanceXy start target < 0.05) {s : State ℝ} (h : Ready start target s) :
    ∃ inputs, (Callback.published (step cfg) s inputs).length = 1 ∧
      Ready start target (Callback.stateAfter (step cfg) s inputs) := by
  obtain ⟨phase, loopIdx, poses, update, version, latest, locked⟩ := s
  obtain ⟨rfl, rfl, rfl, hlocked⟩ := h
  have hlock : (locked <|> some start) = some start := by
    rcases hlocked with rfl | rfl <;> rfl
  let ready : State ℝ :=
    ⟨.waitStart target, loopIdx, [target], update, version, some start, locked⟩
  have hsent : (Callback.published (step cfg) ready (List.replicate 3 (answered 0))).length = 1 := by
    simp [ready, Callback.published, Callback.outputs, List.replicate, step, spins, advance,
      sendGoal, hlock, hfar, answered, timeout, List.reduceOption]
  have hround : Callback.stateAfter (step cfg) ready (List.replicate 3 (answered 0))
      = ⟨.loopHead, loopIdx + 1, [target], update, version, some start, some start⟩ := by
    simp [ready, Callback.stateAfter, List.replicate, step, spins, advance, sendGoal, hlock, hfar,
      answered, timeout]
  obtain ⟨rest, hnone, hstate⟩ :=
    captures_target cfg hcount target (loopIdx + 1) update version (some start) (some start)
  refine ⟨List.replicate 3 (answered 0) ++ rest, ?_, ?_⟩
  · rw [Callback.published_append, List.length_append, hsent, hround, hnone]
    rfl
  · rw [Callback.stateAfter_append, hround, hstate]
    exact ⟨rfl, rfl, rfl, Or.inr rfl⟩

theorem ready_rounds (cfg : Config ℝ) (hcount : cfg.loopCount ≤ 0) {start target : PoseStamped ℝ}
    (hfar : ¬ distanceXy start target < 0.05) {s : State ℝ} (h : Ready start target s) (n : ℕ) :
    ∃ inputs, (Callback.published (step cfg) s inputs).length = n := by
  induction n generalizing s with
  | zero => exact ⟨[], rfl⟩
  | succ n ih =>
    obtain ⟨round, hsent, hready⟩ := ready_round cfg hcount hfar h
    obtain ⟨rest, hrest⟩ := ih hready
    refine ⟨round ++ rest, ?_⟩
    rw [Callback.published_append, List.length_append, hsent, hrest]
    omega

theorem exists_waypointsEffect_goal (cfg : Config ℝ) (h : cfg.waypointsTopic ≠ none) :
    ∃ msg target, waypointsEffect cfg msg = .goal target := by
  obtain ⟨type, htype⟩ := Option.ne_none_iff_exists'.mp h
  cases type with
  | path => exact ⟨.path ⟨⟨emptyStamp, "map"⟩, [poseAt 3]⟩, _, if_pos htype⟩
  | poseStamped => exact ⟨.pose (poseAt 3), _, if_pos htype⟩
  | markerArray =>
    refine ⟨.markers [⟨⟨emptyStamp, "map"⟩, 0, .arrow, .add, (poseAt 3).pose⟩], ?_⟩
    simp [waypointsEffect, htype, markersEffect, sortedMarkers]

/-- A start pose one metre away from the target. -/
def beside (target : PoseStamped ℝ) : Pose ℝ :=
  ⟨⟨target.pose.position.x + 1, target.pose.position.y, 0⟩, target.pose.orientation⟩

theorem not_distanceXy_beside_lt (header : Header) (target : PoseStamped ℝ) :
    ¬ distanceXy ⟨header, beside target⟩ target < 0.05 := by
  have hone : (target.pose.position.x + 1 - target.pose.position.x)
        * (target.pose.position.x + 1 - target.pose.position.x)
      + (target.pose.position.y - target.pose.position.y)
        * (target.pose.position.y - target.pose.position.y) = 1 := by ring
  have h : distanceXy ⟨header, beside target⟩ target = √1 := congrArg Real.sqrt hone
  rw [h, Real.sqrt_one]
  norm_num

def estimateBeside (target : PoseStamped ℝ) : Input ℝ :=
  { timeout 0 with
    spun := some (.initialpose ⟨⟨emptyStamp, "map"⟩, ⟨beside target, Vector.replicate 36 0⟩⟩) }

/-- The static waypoint or a received one is captured for the first round. -/
theorem reaches_waitStart (cfg : Config ℝ) (hcount : cfg.loopCount ≤ 0) {s : State ℝ}
    (h0 : initial cfg = some s) :
    ∃ target inputs update version, Callback.stateAfter (step cfg) s inputs
      = ⟨.waitStart target, 0, [target], update, version, none, none⟩ := by
  have hexit : ¬ 0 < cfg.loopCount := not_lt.mpr hcount
  obtain ⟨poses, hposes, hs⟩ := Option.bind_eq_some_iff.mp h0
  split_ifs at hs with hempty
  obtain rfl := Option.some.inj hs
  cases htopic : cfg.waypointsTopic with
  | none =>
    rcases (inv_initial cfg h0).single with hnil | ⟨target, htarget, -⟩
    · exact absurd ⟨by rw [htopic]; rfl, hnil⟩ hempty
    · obtain rfl : poses = [target] := htarget
      obtain ⟨rest, -, hstate⟩ := captures_target cfg hcount target 0 0.0 0 none none
      exact ⟨target, timeout 0 :: rest, 0.0, 0, hstate⟩
  | some type =>
    obtain ⟨msg, target, heffect⟩ :=
      exists_waypointsEffect_goal cfg (by rw [htopic]; exact Option.some_ne_none type)
    let received : Input ℝ :=
      { timeout cfg.pathStableSec with spun := some (.waypoints msg), received := 0 }
    refine ⟨target, [timeout 0, timeout 0, received, timeout 0], 0, 1, ?_⟩
    simp [Callback.stateAfter, step, spins, advance, afterSpin, spinOnce, receive, applyEffect,
      heffect, htopic, hexit, timeout, received]

theorem step_estimateBeside (cfg : Config ℝ) (target : PoseStamped ℝ) (loopIdx : ℕ)
    (poses : List (PoseStamped ℝ)) (update : ℝ) (version : ℕ) :
    step cfg ⟨.waitStart target, loopIdx, poses, update, version, none, none⟩
        (estimateBeside target)
      = (⟨.waitStart target, loopIdx, poses, update, version,
          some ⟨withFrameId cfg ⟨emptyStamp, "map"⟩, beside target⟩, none⟩, none) :=
  rfl

theorem reaches_ready (cfg : Config ℝ) (hcount : cfg.loopCount ≤ 0) {s : State ℝ}
    (h0 : initial cfg = some s) :
    ∃ target inputs, Ready ⟨withFrameId cfg ⟨emptyStamp, "map"⟩, beside target⟩ target
      (Callback.stateAfter (step cfg) s inputs) := by
  obtain ⟨target, inputs, update, version, hwait⟩ := reaches_waitStart cfg hcount h0
  refine ⟨target, inputs ++ [estimateBeside target], ?_⟩
  rw [Callback.stateAfter_append, hwait]
  simp only [Callback.stateAfter, step_estimateBeside]
  exact ⟨rfl, rfl, rfl, Or.inl rfl⟩

theorem exists_run_sending (cfg : Config ℝ) (hcount : cfg.loopCount ≤ 0) {s : State ℝ}
    (h0 : initial cfg = some s) (n : ℕ) :
    ∃ inputs, n ≤ (Callback.published (step cfg) s inputs).length := by
  obtain ⟨target, prelude, hready⟩ := reaches_ready cfg hcount h0
  obtain ⟨rounds, hrounds⟩ := ready_rounds cfg hcount (not_distanceXy_beside_lt _ target) hready n
  refine ⟨prelude ++ rounds, ?_⟩
  rw [Callback.published_append, List.length_append, hrounds]
  exact Nat.le_add_left _ _

theorem loop_count_bounds_goals_iff (cfg : Config ℝ) (hforever : cfg.loopForever = false)
    {s : State ℝ} (h0 : initial cfg = some s) :
    (∀ inputs, ((Callback.published (step cfg) s inputs).length : ℤ) ≤ cfg.loopCount) ↔
      0 < cfg.loopCount := by
  constructor
  · intro hbound
    by_contra hcount
    obtain ⟨inputs, hsent⟩ := exists_run_sending cfg (not_lt.mp hcount) h0 1
    have hle := hbound inputs
    omega
  · intro hcount inputs
    exact (roundInv_run cfg hforever hcount h0 inputs).le

def countedConfig (loopCount : ℤ) : Config ℝ :=
  { clickConfig with loopForever := false, loopCount := loopCount }

theorem initial_countedConfig (loopCount : ℤ) :
    initial (countedConfig loopCount) = some clickState := by
  simp [initial, initialPoses, countedConfig, clickConfig, clickState]

theorem loop_count_bounds_two_goals :
    (countedConfig 2).loopForever = false ∧
    ∀ inputs, ((Callback.published (step (countedConfig 2)) clickState inputs).length : ℤ) ≤ 2 :=
  ⟨rfl, (loop_count_bounds_goals_iff (countedConfig 2) rfl (initial_countedConfig 2)).mpr
    (show (0 : ℤ) < 2 by decide)⟩

/-- The exit test is skipped for a count of zero as it is with `loop_forever`. -/
theorem step_countedConfig_zero : step (countedConfig 0) = step clickConfig := by
  funext s i
  unfold step
  split_ifs
  · rfl
  · unfold advance
    cases s.phase with
    | checkLoop =>
      simp [countedConfig, clickConfig]
    | _ => rfl

theorem loop_count_zero_sends_goal :
    (countedConfig 0).loopForever = false ∧ initial (countedConfig 0) = some clickState ∧
    ¬ ((Callback.published (step (countedConfig 0)) clickState
      (capturingRun ++ [estimate 0 14] ++ [timeout 15])).length : ℤ) ≤ (countedConfig 0).loopCount := by
  refine ⟨rfl, initial_countedConfig 0, ?_⟩
  rw [step_countedConfig_zero, Callback.published_append_singleton, stateAfter_estimate,
    sendGoal_captured, List.length_append]
  show ¬ ((_ + 1 : ℕ) : ℤ) ≤ 0
  omega

end

end WaypointLoopRunner
end RtkLocalization
