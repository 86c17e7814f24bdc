import RtkLocalization.OdometryGate

/-!
# The trace a dropped message leaves in `odometry_sanitizer.py`

The gate's reference changes only when a message is published; the twist
reference is moved before the gate is asked. `dropped_leaves_no_trace_iff`: a run
publishes what it would have published without its dropped messages, provided no
dropped message moved the twist reference, and this is guaranteed exactly when
the twist is not estimated.
-/

namespace RtkLocalization
namespace OdometrySanitizer

open Callback

def contents (o : Odometry ℝ) : PoseWithCovariance ℝ × TwistWithCovariance ℝ := (o.pose, o.twist)

def LeavesNoTrace (cfg : Config ℝ) (events : List (Event ℝ)) : Prop :=
  (published (callback cfg) State.initial (accepted (callback cfg) State.initial events)).map contents
    = (published (callback cfg) State.initial events).map contents

/-- The message does not move the twist reference: no twist is estimated, or the
stamp lies at most 0.1 ms after the reference. -/
def KeepsTwistReference (cfg : Config ℝ) (st : State ℝ) (ev : Event ℝ) : Prop :=
  cfg.estimateTwistFromPose = false ∨
  ∃ last, st.lastInput = some last ∧
    stampSeconds (outStamp cfg ev) ev.clock.estimate - last.time ≤ 1.0e-4

def OutlierKeepsReference (cfg : Config ℝ) (st : State ℝ) (ev : Event ℝ) : Prop :=
  gate cfg st ev = true → KeepsTwistReference cfg st ev

/-! ### Runs whose outliers keep the twist reference -/

theorem lastInput_of_keepsTwistReference {cfg : Config ℝ} {st : State ℝ} {ev : Event ℝ}
    (h : KeepsTwistReference cfg st ev) : (callback cfg st ev).1.lastInput = st.lastInput := by
  rw [lastInput_callback]
  rcases h with hest | ⟨last, hlast, hshort⟩
  · simp only [prepare, estimateTwistFromPose, hest, Bool.not_false, if_true]
  · rw [hlast]
    exact (prepare_of_short hshort).1

/-- What a callback publishes depends on the two references only. -/
def SameReferences (s t : State ℝ) : Prop :=
  s.lastPublished = t.lastPublished ∧ s.lastInput = t.lastInput

theorem gate_congr {cfg : Config ℝ} {s t : State ℝ} (h : SameReferences s t) (ev : Event ℝ) :
    gate cfg s ev = gate cfg t ev := by
  rw [gate, gate, h.1]

theorem leavesNoTrace_of_outliersKeepReference (cfg : Config ℝ) (events : List (Event ℝ))
    (h : AllSteps (callback cfg) (OutlierKeepsReference cfg) State.initial events) :
    LeavesNoTrace cfg events := by
  rw [LeavesNoTrace]
  congr 1
  refine published_accepted (callback cfg) (R := SameReferences) ?_ ?_ _ _ events ⟨rfl, rfl⟩ h
  · -- a dropped message changes neither reference
    intro s t ev hst hev hnone
    have hgate := (callback_eq_none_iff cfg s ev).mp hnone
    exact ⟨(lastPublished_of_gate hgate).trans hst.1,
      (lastInput_of_keepsTwistReference (hev hgate)).trans hst.2⟩
  · intro s t ev o hst _ hsome
    have hgate := gate_of_published hsome
    have hgate' : gate cfg t ev = false := gate_congr hst ev ▸ hgate
    refine ⟨?_, ?_, ?_⟩
    · rw [callback_snd_of_not_gate hgate', ← hst.2, ← callback_snd_of_not_gate hgate, hsome]
    · rw [lastPublished_of_not_gate hgate, lastPublished_of_not_gate hgate']
    · rw [lastInput_callback, lastInput_callback, hst.2]

/-! ### Runs that do leave a trace -/

structure References (st : State ℝ) (pub inp : Reference ℝ) : Prop where
  published : st.lastPublished = some pub
  input : st.lastInput = some inp

def TimedAt (cfg : Config ℝ) (ev : Event ℝ) (t : ℝ) : Prop :=
  ∀ n : ℤ, (stampSeconds (outStamp cfg ev) n : ℝ) = t

theorem timedAt_sampleAt {cfg : Config ℝ} (hrestamp : cfg.restampToNow = false) {stamp : Stamp}
    {t : ℝ} (hstamp : stamp.seconds = t) (hpos : 0 < t) (x vx : ℝ) (now : ℤ) :
    TimedAt cfg (sampleAt stamp x vx now) t := by
  intro n
  rw [outStamp_of_not_restamp hrestamp, ← hstamp]
  exact stampSeconds_of_pos (hstamp ▸ hpos) n

section References
variable {cfg : Config ℝ} {st : State ℝ} {ev : Event ℝ} {pub inp : Reference ℝ} {t : ℝ}

theorem references_first (hest : cfg.estimateTwistFromPose = true) (ht : TimedAt cfg ev t) :
    References (callback cfg State.initial ev).1 ⟨ev.msg.pose.pose, t⟩ ⟨ev.msg.pose.pose, t⟩ where
  published := by
    rw [lastPublished_of_not_gate (gate_initial cfg ev), ht]
  input := by
    rw [lastInput_callback, ← ht ev.clock.estimate]
    exact prepare_of_none hest ev

theorem References.dropped (h : References st pub inp) (hest : cfg.estimateTwistFromPose = true)
    (ht : TimedAt cfg ev t) (hgate : gate cfg st ev = true) (hlong : 1.0e-4 < t - inp.time) :
    References (callback cfg st ev).1 pub ⟨ev.msg.pose.pose, t⟩ where
  published := (lastPublished_of_gate hgate).trans h.published
  input := by
    have hlong' := not_le.mpr hlong
    rw [← ht ev.clock.estimate] at hlong'
    rw [lastInput_callback, h.input, (prepare_of_long hest hlong').1, ht]

theorem References.unchecked (h : References st pub inp)
    (hreject : cfg.rejectKinematicOutliers = true) (ht : TimedAt cfg ev t)
    (hpub : t - pub.time ≤ 1.0e-4) (hinp : t - inp.time ≤ 1.0e-4) :
    gate cfg st ev = false ∧ References (callback cfg st ev).1 ⟨ev.msg.pose.pose, t⟩ inp := by
  have hgate : gate cfg st ev = false :=
    gate_of_not_advanced hreject h.published (by rw [ht]; exact hpub)
  refine ⟨hgate, ?_, ?_⟩
  · rw [lastPublished_of_not_gate hgate, ht]
  · rw [lastInput_callback, h.input]
    exact (prepare_of_short (by rw [ht]; exact hinp)).1

theorem References.twist_of_short (h : References st pub inp) (ht : TimedAt cfg ev t)
    (hinp : t - inp.time ≤ 1.0e-4) :
    (prepare cfg st.lastInput ev).2.twist.twist = ev.msg.twist.twist := by
  rw [h.input]
  exact (prepare_of_short (by rw [ht]; exact hinp)).2

theorem References.twist_of_long (h : References st pub inp)
    (hest : cfg.estimateTwistFromPose = true) (ht : TimedAt cfg ev t)
    (hlong : 1.0e-4 < t - inp.time) :
    (prepare cfg st.lastInput ev).2.twist.twist
      = twistBetween inp ev.msg.pose.pose (t - inp.time) := by
  have hlong' := not_le.mpr hlong
  rw [← ht ev.clock.estimate] at hlong'
  rw [h.input, (prepare_of_long hest hlong').2, ht]

end References

/-- A run that starts with a published and a dropped message leaves no trace when
the rest publishes the same from the state before the dropped one. -/
theorem leavesNoTrace_cons_cons_iff {cfg : Config ℝ} {a b : Event ℝ} (rest : List (Event ℝ))
    (hb : gate cfg (callback cfg State.initial a).1 b = true) :
    let s1 := (callback cfg State.initial a).1
    let s2 := (callback cfg s1 b).1
    LeavesNoTrace cfg (a :: b :: rest) ↔
      (published (callback cfg) s1 (accepted (callback cfg) s2 rest)).map contents
        = (published (callback cfg) s2 rest).map contents := by
  intro s1 s2
  have ha := callback_snd_of_not_gate (gate_initial cfg a)
  have hb' := (callback_eq_none_iff cfg s1 b).mpr hb
  rw [LeavesNoTrace, accepted_cons_some _ _ ha, accepted_cons_none _ _ hb',
    published_cons_some _ _ ha, published_cons_some _ _ ha, published_cons_none _ _ hb',
    List.map_cons, List.map_cons, List.cons.injEq]
  exact and_iff_right rfl

theorem twistBetween_sampleAt (stamp stamp' : Stamp) (x x' vx vx' t dt : ℝ) (now now' : ℤ) :
    (twistBetween ⟨(sampleAt stamp x vx now).msg.pose.pose, t⟩
      (sampleAt stamp' x' vx' now').msg.pose.pose dt).linear.x = (x' - x) / dt := by
  simp [twistBetween, bodyFrameVelocity, sampleAt, yawFromQuaternion_identity]

/-- Four samples of which the second is too fast under any limits. -/
noncomputable def tracedRun (cfg : Config ℝ) : List (Event ℝ) :=
  [sampleAt ⟨10, 0⟩ 0 0 0, sampleAt ⟨11, 0⟩ (|cfg.maxLinearSpeed| + 1) 0 0,
    sampleAt ⟨10, 80000⟩ 0 0 0, sampleAt ⟨10, 160000⟩ 0 5 0]

/-- Whatever the limits: the dropped second sample moves the twist reference into
the future, so that the fourth one keeps the twist it came with. Without the
second sample it is overwritten by the estimate. -/
theorem tracedRun_leaves_trace {cfg : Config ℝ} (hest : cfg.estimateTwistFromPose = true)
    (hreject : cfg.rejectKinematicOutliers = true) (hrestamp : cfg.restampToNow = false) :
    ¬ LeavesNoTrace cfg (tracedRun cfg) := by
  set a := sampleAt ⟨10, 0⟩ 0 0 0
  set b := sampleAt ⟨11, 0⟩ (|cfg.maxLinearSpeed| + 1) 0 0
  set c := sampleAt ⟨10, 80000⟩ 0 0 0
  set d := sampleAt ⟨10, 160000⟩ 0 5 0
  have ta : TimedAt cfg a 10 :=
    timedAt_sampleAt hrestamp (by norm_num [Stamp.seconds]) (by norm_num) _ _ _
  have tb : TimedAt cfg b 11 :=
    timedAt_sampleAt hrestamp (by norm_num [Stamp.seconds]) (by norm_num) _ _ _
  have tc : TimedAt cfg c 10.00008 :=
    timedAt_sampleAt hrestamp (by norm_num [Stamp.seconds]) (by norm_num) _ _ _
  have td : TimedAt cfg d 10.00016 :=
    timedAt_sampleAt hrestamp (by norm_num [Stamp.seconds]) (by norm_num) _ _ _
  have ra := references_first hest ta
  have hb : gate cfg (callback cfg State.initial a).1 b = true := by
    refine Bool.eq_true_of_not_eq_false fun h => ?_
    have hlimits := (gate_sampleAt_iff 1 hreject ra.published (by rw [tb]; norm_num)
      (by norm_num)).mp h
    have habs : |(|cfg.maxLinearSpeed| + 1 - 0)| = |cfg.maxLinearSpeed| + 1 := by
      rw [sub_zero, abs_of_pos (by positivity)]
    rw [habs, div_one] at hlimits
    linarith [le_abs_self cfg.maxLinearSpeed, hlimits.2.1]
  -- with the second sample
  have rb := ra.dropped hest tb hb (by norm_num)
  obtain ⟨hc, rc⟩ := rb.unchecked hreject tc (by norm_num) (by norm_num)
  obtain ⟨hd, -⟩ := rc.unchecked hreject td (by norm_num) (by norm_num)
  have hraw := rc.twist_of_short td (by norm_num)
  -- without it
  obtain ⟨hc', rc'⟩ := ra.unchecked hreject tc (by norm_num) (by norm_num)
  have hd' := gate_of_not_advanced hreject rc'.published (by rw [td]; norm_num)
  have hestimated := rc'.twist_of_long hest td (by norm_num)
  intro htrace
  have heq := (leavesNoTrace_cons_cons_iff [c, d] hb).mp htrace
  rw [accepted_cons_some _ _ (callback_snd_of_not_gate hc),
    accepted_cons_some _ _ (callback_snd_of_not_gate hd), accepted_nil,
    published_cons_some _ _ (callback_snd_of_not_gate hc'),
    published_cons_some _ _ (callback_snd_of_not_gate hd'),
    published_cons_some _ _ (callback_snd_of_not_gate hc),
    published_cons_some _ _ (callback_snd_of_not_gate hd), published_nil, published_nil] at heq
  simp only [List.map_cons, List.map_nil, List.cons.injEq, contents, Prod.mk.injEq] at heq
  have hx := congrArg (fun t => t.twist.linear.x) heq.2.1.2
  rw [hraw, hestimated, twistBetween_sampleAt, sub_self, zero_div] at hx
  have hfive : d.msg.twist.twist.linear.x = 5 := rfl
  rw [hfive] at hx
  norm_num at hx

/-! ### When dropping is without effect -/

theorem positive_tracedRun (cfg : Config ℝ) : ∀ ev ∈ tracedRun cfg, 0 < ev.time := by
  simp only [tracedRun, List.forall_mem_cons, Event.time, sampleAt, Stamp.seconds]
  norm_num

/-- A run whose outliers keep the twist reference publishes the same without
them. No such care is needed for any run exactly when the twist is not estimated
from the poses. -/
theorem dropped_leaves_no_trace_iff (cfg : Config ℝ)
    (hreject : cfg.rejectKinematicOutliers = true) (hrestamp : cfg.restampToNow = false) :
    (∀ events : List (Event ℝ), (∀ ev ∈ events, 0 < ev.time) →
      AllSteps (callback cfg) (OutlierKeepsReference cfg) State.initial events →
      LeavesNoTrace cfg events) ∧
    ((∀ events : List (Event ℝ), (∀ ev ∈ events, 0 < ev.time) → LeavesNoTrace cfg events) ↔
      cfg.estimateTwistFromPose = false) := by
  refine ⟨fun events _ h => leavesNoTrace_of_outliersKeepReference cfg events h, ?_, ?_⟩
  · intro hall
    refine Bool.eq_false_iff.mpr fun hest => ?_
    exact tracedRun_leaves_trace hest hreject hrestamp (hall _ (positive_tracedRun cfg))
  · intro hest events _
    exact leavesNoTrace_of_outliersKeepReference cfg events
      (allSteps_of_forall _ (fun _ _ _ => Or.inl hest) _ _)

noncomputable def outlierRun : List (Event ℝ) :=
  [sampleAt ⟨1, 0⟩ 0 0 0, sampleAt ⟨2, 0⟩ 100 0 0, sampleAt ⟨3, 0⟩ 0 0 0]

theorem positive_outlierRun : ∀ ev ∈ outlierRun, 0 < ev.time := by
  simp only [outlierRun, List.forall_mem_cons, Event.time, sampleAt, Stamp.seconds]
  norm_num

theorem dropped_leaves_no_trace_without_estimate :
    LeavesNoTrace { gatedConfig with estimateTwistFromPose := false } outlierRun := by
  have h := dropped_leaves_no_trace_iff { gatedConfig with estimateTwistFromPose := false } rfl rfl
  exact h.2.mpr rfl outlierRun positive_outlierRun

/-- With the twist estimate on, the sample after the outlier is published with a
speed of -100 m/s. -/
theorem dropped_leaves_trace_at_default :
    (∀ ev ∈ outlierRun, 0 < ev.time) ∧ ¬ LeavesNoTrace gatedConfig outlierRun := by
  refine ⟨positive_outlierRun, ?_⟩
  set a := sampleAt ⟨1, 0⟩ 0 0 0
  set b := sampleAt ⟨2, 0⟩ 100 0 0
  set c := sampleAt ⟨3, 0⟩ 0 0 0
  have ta : TimedAt gatedConfig a 1 :=
    timedAt_sampleAt rfl (by norm_num [Stamp.seconds]) (by norm_num) _ _ _
  have tb : TimedAt gatedConfig b 2 :=
    timedAt_sampleAt rfl (by norm_num [Stamp.seconds]) (by norm_num) _ _ _
  have tc : TimedAt gatedConfig c 3 :=
    timedAt_sampleAt rfl (by norm_num [Stamp.seconds]) (by norm_num) _ _ _
  have ra := references_first rfl ta
  have hb : gate gatedConfig (callback gatedConfig State.initial a).1 b = true := by
    refine Bool.eq_true_of_not_eq_false fun h => ?_
    have hlimits := (gate_sampleAt_iff 1 rfl ra.published (by rw [tb]; norm_num) (by norm_num)).mp h
    norm_num [gatedConfig] at hlimits
  have rb := ra.dropped rfl tb hb (by norm_num)
  have hc : gate gatedConfig (callback gatedConfig (callback gatedConfig State.initial a).1 b).1 c
      = false := by
    refine (gate_sampleAt_iff 2 rfl rb.published (by rw [tc]; norm_num) (by norm_num)).mpr ?_
    norm_num [gatedConfig]
  have hc' : gate gatedConfig (callback gatedConfig State.initial a).1 c = false := by
    refine (gate_sampleAt_iff 2 rfl ra.published (by rw [tc]; norm_num) (by norm_num)).mpr ?_
    norm_num [gatedConfig]
  intro htrace
  have heq := (leavesNoTrace_cons_cons_iff [c] hb).mp htrace
  rw [accepted_cons_some _ _ (callback_snd_of_not_gate hc), accepted_nil,
    published_cons_some _ _ (callback_snd_of_not_gate hc'),
    published_cons_some _ _ (callback_snd_of_not_gate hc), published_nil, published_nil] at heq
  simp only [List.map_cons, List.map_nil, List.cons.injEq, contents, Prod.mk.injEq] at heq
  have hx := congrArg (fun t => t.twist.linear.x) heq.1.2
  rw [ra.twist_of_long rfl tc (by norm_num), rb.twist_of_long rfl tc (by norm_num),
    twistBetween_sampleAt, twistBetween_sampleAt] at hx
  norm_num at hx

end OdometrySanitizer
end RtkLocalization
