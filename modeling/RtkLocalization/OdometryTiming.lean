import RtkLocalization.OdometryTrace

/-!
# Delivery timing of `odometry_sanitizer.py`

The same messages delivered at two different paces. Unless `restamp_to_now` is
set, the clock is never read for a message with a positive stamp and both runs
agree. With `restamp_to_now` the outgoing stamp replaces the measured one before
the twist estimate and the gate read it, so both follow the arrival times
(`timingIndependent_iff`).
-/

namespace RtkLocalization
namespace OdometrySanitizer

open Callback

def Clock.readings (c : Clock) : List ℤ := [c.restamp, c.estimate, c.gate, c.publish]

/-- The clock does not run backwards, within a callback or between callbacks. -/
def NonDecreasing (schedule : List Clock) : Prop :=
  (schedule.flatMap Clock.readings).Pairwise (· ≤ ·)

def arrivals (msgs : List (Odometry ℝ)) (schedule : List Clock) : List (Event ℝ) :=
  List.zipWith Event.mk msgs schedule

/-- A published message without its header stamp. -/
def unstamped (o : Odometry ℝ) : Odometry ℝ :=
  { o with header := { o.header with stamp := ⟨0, 0⟩ } }

/-- For each message: whether it was dropped, and otherwise what was published
for it, apart from the stamp. -/
noncomputable def decisions (cfg : Config ℝ) (msgs : List (Odometry ℝ)) (schedule : List Clock) :
    List (Option (Odometry ℝ)) :=
  (outputs (callback cfg) State.initial (arrivals msgs schedule)).map (Option.map unstamped)

structure Stamped (msgs : List (Odometry ℝ)) : Prop where
  positive : ∀ msg ∈ msgs, 0 < (msg.header.stamp.seconds : ℝ)
  increasing : msgs.Pairwise fun a b => (a.header.stamp.seconds : ℝ) < b.header.stamp.seconds

structure ScheduleFor (msgs : List (Odometry ℝ)) (schedule : List Clock) : Prop where
  length : schedule.length = msgs.length
  nonDecreasing : NonDecreasing schedule

def TimingIndependent (cfg : Config ℝ) : Prop :=
  ∀ (msgs : List (Odometry ℝ)) (schedule schedule' : List Clock), Stamped msgs →
    ScheduleFor msgs schedule → ScheduleFor msgs schedule' →
    decisions cfg msgs schedule = decisions cfg msgs schedule'

/-! ### Configurations that do not read the clock -/

theorem forall₂_arrivals {R : Event ℝ → Event ℝ → Prop} (msgs : List (Odometry ℝ))
    (schedule schedule' : List Clock) (hlen : schedule.length = msgs.length)
    (hlen' : schedule'.length = msgs.length)
    (hR : ∀ msg ∈ msgs, ∀ c c', R ⟨msg, c⟩ ⟨msg, c'⟩) :
    List.Forall₂ R (arrivals msgs schedule) (arrivals msgs schedule') := by
  induction msgs generalizing schedule schedule' with
  | nil => exact .nil
  | cons msg msgs ih =>
    cases schedule with
    | nil => cases hlen
    | cons c cs =>
      cases schedule' with
      | nil => cases hlen'
      | cons c' cs' =>
        refine .cons (hR msg List.mem_cons_self c c') (ih cs cs' ?_ ?_ fun m hm => ?_)
        · exact Nat.succ.inj hlen
        · exact Nat.succ.inj hlen'
        · exact hR m (List.mem_cons_of_mem _ hm)

theorem prepare_eq_of_not_restamp {cfg : Config ℝ} (hrestamp : cfg.restampToNow = false)
    {msg : Odometry ℝ} (hpos : 0 < (msg.header.stamp.seconds : ℝ)) (lastInput : Option (Reference ℝ))
    (c c' : Clock) : prepare cfg lastInput ⟨msg, c⟩ = prepare cfg lastInput ⟨msg, c'⟩ := by
  have hcopy : copyMessage cfg ⟨msg, c⟩ = copyMessage cfg ⟨msg, c'⟩ := by
    simp only [copyMessage, hrestamp, Bool.false_eq_true, if_false]
  have hstamp : (copyMessage cfg ⟨msg, c'⟩).header.stamp = msg.header.stamp :=
    outStamp_of_not_restamp hrestamp ⟨msg, c'⟩
  have hest : estimateTwistFromPose cfg lastInput (copyMessage cfg ⟨msg, c⟩) c.estimate
      = estimateTwistFromPose cfg lastInput (copyMessage cfg ⟨msg, c'⟩) c'.estimate := by
    simp only [estimateTwistFromPose, hcopy, hstamp, stampSeconds_of_pos hpos]
  simp only [prepare, hest]

theorem gate_eq_of_not_restamp {cfg : Config ℝ} (hrestamp : cfg.restampToNow = false)
    {msg : Odometry ℝ} (hpos : 0 < (msg.header.stamp.seconds : ℝ)) {s t : State ℝ}
    (hst : SameReferences s t) (c c' : Clock) : gate cfg s ⟨msg, c⟩ = gate cfg t ⟨msg, c'⟩ := by
  have hstamp : ∀ c, (copyMessage cfg ⟨msg, c⟩).header.stamp = msg.header.stamp :=
    fun c => outStamp_of_not_restamp hrestamp ⟨msg, c⟩
  have hpose : ∀ c, (copyMessage cfg ⟨msg, c⟩).pose = msg.pose := fun _ => rfl
  simp only [gate, isKinematicOutlier, hstamp, hpose, stampSeconds_of_pos hpos, hst.1]

theorem timingIndependent_of_not_restamp {cfg : Config ℝ} (hrestamp : cfg.restampToNow = false) :
    TimingIndependent cfg := by
  intro msgs schedule schedule' hmsgs hs hs'
  refine outputs_eq_of_simulation (callback cfg) unstamped (R := SameReferences)
    (E := fun x y => x.msg = y.msg ∧ 0 < x.time) ?_ _ _ _ _ ⟨rfl, rfl⟩
    (forall₂_arrivals msgs schedule schedule' hs.length hs'.length
      fun msg hmsg _ _ => ⟨rfl, hmsgs.positive msg hmsg⟩)
  rintro s t ⟨msg, c⟩ ⟨_, c'⟩ hst ⟨rfl, hpos⟩
  have hgate := gate_eq_of_not_restamp hrestamp hpos hst c c'
  have hprep := prepare_eq_of_not_restamp hrestamp hpos s.lastInput c c'
  have hinput : (callback cfg s ⟨msg, c⟩).1.lastInput = (callback cfg t ⟨msg, c'⟩).1.lastInput := by
    rw [lastInput_callback, lastInput_callback, hprep, hst.2]
  cases hg : gate cfg s ⟨msg, c⟩ with
  | true =>
    have hg' := hgate.symm.trans hg
    refine ⟨?_, ?_, hinput⟩
    · rw [(callback_eq_none_iff cfg s _).mpr hg, (callback_eq_none_iff cfg t _).mpr hg']
    · rw [lastPublished_of_gate hg, lastPublished_of_gate hg', hst.1]
  | false =>
    have hg' := hgate.symm.trans hg
    refine ⟨?_, ?_, hinput⟩
    · rw [callback_snd_of_not_gate hg, callback_snd_of_not_gate hg', hprep, hst.2]
    · rw [lastPublished_of_not_gate hg, lastPublished_of_not_gate hg']
      simp only [outStamp_of_not_restamp hrestamp, stampSeconds_of_pos hpos]

theorem gate_of_not_reject {cfg : Config ℝ} (hreject : cfg.rejectKinematicOutliers = false)
    (st : State ℝ) (ev : Event ℝ) : gate cfg st ev = false := by
  simp only [gate, isKinematicOutlier, hreject, Bool.not_false, if_true]

/-- With twist estimate and gate both off the references are never used. -/
theorem timingIndependent_of_off {cfg : Config ℝ} (hest : cfg.estimateTwistFromPose = false)
    (hreject : cfg.rejectKinematicOutliers = false) : TimingIndependent cfg := by
  intro msgs schedule schedule' _ hs hs'
  refine outputs_eq_of_simulation (callback cfg) unstamped (R := fun _ _ => True)
    (E := fun x y => x.msg = y.msg) ?_ _ _ _ _ trivial
    (forall₂_arrivals msgs schedule schedule' hs.length hs'.length fun _ _ _ _ => rfl)
  rintro s t ⟨msg, c⟩ ⟨_, c'⟩ - rfl
  refine ⟨?_, trivial⟩
  rw [callback_snd_of_not_gate (gate_of_not_reject hreject s _),
    callback_snd_of_not_gate (gate_of_not_reject hreject t _)]
  simp only [prepare, estimateTwistFromPose, hest, Bool.not_false, if_true, Option.map_some]
  rfl

/-! ### Restamping -/

def Clock.at (now : ℤ) : Clock := ⟨now, now, now, now⟩

theorem seconds_ofNanoseconds (now : ℤ) :
    ((Stamp.ofNanoseconds now).seconds : ℝ) = now * 1.0e-9 := by
  have hnonneg : 0 ≤ now % 1000000000 := Int.emod_nonneg _ (by norm_num)
  have hnat : (((now % 1000000000).toNat : ℕ) : ℝ) = ((now % 1000000000 : ℤ) : ℝ) := by
    rw [← Int.cast_natCast, Int.toNat_of_nonneg hnonneg]
  have hdiv : (now : ℝ) = 1000000000 * ((now / 1000000000 : ℤ) : ℝ)
      + ((now % 1000000000 : ℤ) : ℝ) := by
    exact_mod_cast (Int.mul_ediv_add_emod now 1000000000).symm
  simp only [Stamp.seconds, Stamp.ofNanoseconds, hnat]
  rw [hdiv]
  norm_num
  ring

theorem timedAt_restamped {cfg : Config ℝ} (hrestamp : cfg.restampToNow = true) (stamp : Stamp)
    (x vx : ℝ) {now : ℤ} {t : ℝ} (hnow : now * 1.0e-9 = t) (hpos : 0 < t) :
    TimedAt cfg (sampleAt stamp x vx now) t := by
  intro n
  have ht := (seconds_ofNanoseconds now).trans hnow
  have hout : outStamp cfg (sampleAt stamp x vx now) = Stamp.ofNanoseconds now := by
    simp only [outStamp, copyMessage, hrestamp, if_true]
    rfl
  rw [hout, stampSeconds_of_pos (by rw [ht]; exact hpos), ht]

noncomputable def pacedMsgs (x : ℝ) : List (Odometry ℝ) :=
  [(sampleAt ⟨1, 0⟩ 0 0 0).msg, (sampleAt ⟨2, 0⟩ x 0 0).msg]

theorem stamped_pacedMsgs (x : ℝ) : Stamped (pacedMsgs x) where
  positive := by
    simp only [pacedMsgs, List.forall_mem_cons, sampleAt, Stamp.seconds]
    norm_num
  increasing := by
    simp only [pacedMsgs, List.pairwise_cons, List.forall_mem_cons, sampleAt, Stamp.seconds]
    norm_num

theorem scheduleFor_pacedMsgs (x : ℝ) {t t' : ℤ} (h : t ≤ t') :
    ScheduleFor (pacedMsgs x) [Clock.at t, Clock.at t'] where
  length := rfl
  nonDecreasing := by
    simp [NonDecreasing, Clock.at, Clock.readings, h]

/-- When the two paces lead to the same decisions, the second message is treated
the same at both times. -/
theorem decisions_pacedMsgs {cfg : Config ℝ} {x : ℝ} {t t' t'' : ℤ}
    (h : decisions cfg (pacedMsgs x) [Clock.at t, Clock.at t']
      = decisions cfg (pacedMsgs x) [Clock.at t, Clock.at t'']) :
    (callback cfg (callback cfg State.initial (sampleAt ⟨1, 0⟩ 0 0 t)).1
        (sampleAt ⟨2, 0⟩ x 0 t')).2.map unstamped
      = (callback cfg (callback cfg State.initial (sampleAt ⟨1, 0⟩ 0 0 t)).1
        (sampleAt ⟨2, 0⟩ x 0 t'')).2.map unstamped := by
  have htail := congrArg List.tail h
  exact (List.cons.inj htail).1

theorem not_timingIndependent {cfg : Config ℝ} (hrestamp : cfg.restampToNow = true)
    (huse : cfg.estimateTwistFromPose = true ∨ cfg.rejectKinematicOutliers = true) :
    ¬ TimingIndependent cfg := by
  intro hind
  set x := |cfg.maxLinearSpeed| + 1
  have hx : 0 < x := by positivity
  have heq := decisions_pacedMsgs (hind (pacedMsgs x) _ _ (stamped_pacedMsgs x)
    (scheduleFor_pacedMsgs x (le_refl 1000000000))
    (scheduleFor_pacedMsgs x (by norm_num : (1000000000 : ℤ) ≤ 2000000000)))
  set a := sampleAt ⟨1, 0⟩ 0 0 1000000000
  have ta : TimedAt cfg a 1 := timedAt_restamped hrestamp _ _ _
    (by norm_num) one_pos
  have tb : TimedAt cfg (sampleAt ⟨2, 0⟩ x 0 1000000000) 1 := timedAt_restamped hrestamp _ _ _
    (by norm_num) one_pos
  have tb' : TimedAt cfg (sampleAt ⟨2, 0⟩ x 0 2000000000) 2 := timedAt_restamped hrestamp _ _ _
    (by norm_num) two_pos
  have hlast : (callback cfg State.initial a).1.lastPublished = some ⟨a.msg.pose.pose, 1⟩ := by
    rw [lastPublished_of_not_gate (gate_initial cfg a), ta]
  cases hreject : cfg.rejectKinematicOutliers with
  | true =>
    -- at once it passes unchecked, one second later it is too fast
    have hb : gate cfg (callback cfg State.initial a).1 (sampleAt ⟨2, 0⟩ x 0 1000000000) = false :=
      gate_of_not_advanced hreject hlast (by rw [tb]; norm_num)
    have hb' : gate cfg (callback cfg State.initial a).1 (sampleAt ⟨2, 0⟩ x 0 2000000000) = true := by
      refine Bool.eq_true_of_not_eq_false fun h => ?_
      have hlimits := (gate_sampleAt_iff 1 hreject hlast (by rw [tb']; norm_num)
        (by norm_num)).mp h
      rw [sub_zero, abs_of_pos hx, div_one] at hlimits
      linarith [le_abs_self cfg.maxLinearSpeed, hlimits.2.1]
    rw [callback_snd_of_not_gate hb, (callback_eq_none_iff cfg _ _).mpr hb'] at heq
    cases heq
  | false =>
    -- at once it keeps its own twist, one second later the twist is estimated
    have hest : cfg.estimateTwistFromPose = true := by
      rcases huse with h | h
      · exact h
      · exact absurd (h.symm.trans hreject) (by decide)
    have ra := references_first hest ta
    rw [callback_snd_of_not_gate (gate_of_not_reject hreject _ _),
      callback_snd_of_not_gate (gate_of_not_reject hreject _ _)] at heq
    have htwist := congrArg (fun o => o.twist.twist.linear.x) (Option.some_injective _ heq)
    have hraw := ra.twist_of_short tb (by norm_num)
    have hestimated := ra.twist_of_long hest tb' (by norm_num)
    simp only [unstamped, hraw, hestimated] at htwist
    have hzero : (sampleAt ⟨2, 0⟩ x 0 1000000000).msg.twist.twist.linear.x = 0 := rfl
    rw [hzero, twistBetween_sampleAt] at htwist
    norm_num at htwist
    exact hx.ne' htwist.symm

/-- Decisions and contents are independent of the arrival times exactly when the
stamps are kept, or neither the twist estimate nor the gate looks at them. -/
theorem timingIndependent_iff (cfg : Config ℝ) :
    TimingIndependent cfg ↔ cfg.restampToNow = false ∨
      (cfg.estimateTwistFromPose = false ∧ cfg.rejectKinematicOutliers = false) := by
  constructor
  · intro hind
    cases hrestamp : cfg.restampToNow with
    | false => exact Or.inl rfl
    | true =>
      refine Or.inr ⟨?_, ?_⟩
      · exact Bool.eq_false_iff.mpr fun h => not_timingIndependent hrestamp (Or.inl h) hind
      · exact Bool.eq_false_iff.mpr fun h => not_timingIndependent hrestamp (Or.inr h) hind
  · rintro (hrestamp | ⟨hest, hreject⟩)
    · exact timingIndependent_of_not_restamp hrestamp
    · exact timingIndependent_of_off hest hreject

/-- Five metres in one second, delivered a tenth of a second apart: the second
message is dropped. Delivered at the pace of the stamps it is published. -/
theorem decisions_differ_at_double_speed :
    let cfg := { gatedConfig with restampToNow := true }
    Stamped (pacedMsgs 5) ∧
    ScheduleFor (pacedMsgs 5) [Clock.at 1000000000, Clock.at 2000000000] ∧
    ScheduleFor (pacedMsgs 5) [Clock.at 1000000000, Clock.at 1100000000] ∧
    decisions cfg (pacedMsgs 5) [Clock.at 1000000000, Clock.at 2000000000]
      ≠ decisions cfg (pacedMsgs 5) [Clock.at 1000000000, Clock.at 1100000000] := by
  intro cfg
  refine ⟨stamped_pacedMsgs 5, scheduleFor_pacedMsgs 5 (by norm_num),
    scheduleFor_pacedMsgs 5 (by norm_num), fun h => ?_⟩
  have heq := decisions_pacedMsgs h
  set a := sampleAt ⟨1, 0⟩ 0 0 1000000000
  have ta : TimedAt cfg a 1 := timedAt_restamped rfl _ _ _
    (by norm_num) one_pos
  have tb : TimedAt cfg (sampleAt ⟨2, 0⟩ 5 0 2000000000) 2 := timedAt_restamped rfl _ _ _
    (by norm_num) two_pos
  have tb' : TimedAt cfg (sampleAt ⟨2, 0⟩ 5 0 1100000000) 1.1 := timedAt_restamped rfl _ _ _
    (by norm_num) (by norm_num)
  have hlast : (callback cfg State.initial a).1.lastPublished = some ⟨a.msg.pose.pose, 1⟩ := by
    rw [lastPublished_of_not_gate (gate_initial cfg a), ta]
  have hb : gate cfg (callback cfg State.initial a).1 (sampleAt ⟨2, 0⟩ 5 0 2000000000) = false := by
    refine (gate_sampleAt_iff 1 rfl hlast (by rw [tb]; norm_num) (by norm_num)).mpr ?_
    norm_num [cfg, gatedConfig]
  have hb' : gate cfg (callback cfg State.initial a).1 (sampleAt ⟨2, 0⟩ 5 0 1100000000) = true := by
    refine Bool.eq_true_of_not_eq_false fun hopen => ?_
    have hlimits := (gate_sampleAt_iff 0.1 rfl hlast (by rw [tb']; norm_num) (by norm_num)).mp hopen
    norm_num [cfg, gatedConfig] at hlimits
  rw [callback_snd_of_not_gate hb, (callback_eq_none_iff cfg _ _).mpr hb'] at heq
  cases heq

end OdometrySanitizer
end RtkLocalization
