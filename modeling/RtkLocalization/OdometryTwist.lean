import RtkLocalization.OdometryTrace

/-!
# The twist estimate of `odometry_sanitizer.py` over whole runs

Exact real arithmetic, stamps positive and kept. A message either moves the twist
reference to itself or leaves it where it is (`twistReference_cases`), and it is
left whenever the stamp is not more than 0.1 ms past the reference. Summed over
the messages that move it, the estimates give back the motion between the first
and the last of them (`twists_dead_reckon`). After a backwards stamp the
reference stays in the future, so that the estimate restarts with the next
message exactly when the clock never went back (`twist_recovers_iff`).
-/

namespace RtkLocalization
namespace OdometrySanitizer

open Callback Real

/-- The twist of the message that `_estimate_twist_from_pose` leaves behind,
before the gate decides whether it is published. -/
noncomputable def computedTwist (cfg : Config ℝ) (st : State ℝ) (ev : Event ℝ) : Twist ℝ :=
  (prepare cfg st.lastInput ev).2.twist.twist

noncomputable def finiteDifference (a b : Reference ℝ) : Twist ℝ where
  linear := Rotation.rotZ (-poseYaw b.pose)
    ((b.time - a.time)⁻¹ • (b.pose.position - a.pose.position))
  angular := ⟨0, 0, ((poseYaw b.pose - poseYaw a.pose : ℝ) : Angle).toReal / (b.time - a.time)⟩

theorem twistBetween_eq (a b : Reference ℝ) :
    twistBetween a b.pose (b.time - a.time) = finiteDifference a b := by
  simp only [twistBetween, finiteDifference, Twist.mk.injEq, bodyFrameVelocity, Rotation.rotZ,
    Vec3.mk.injEq, cos_real, sin_real, cos_neg, sin_neg, zero_literal, normalizeAngle_eq,
    Vec3.smul_x, Vec3.smul_y, Vec3.smul_z, Vec3.sub_x, Vec3.sub_y, Vec3.sub_z]
  refine ⟨⟨?_, ?_, ?_⟩, trivial, trivial, rfl⟩
  · simp only [poseYaw, div_eq_inv_mul]
    ring
  · simp only [poseYaw, div_eq_inv_mul]
  · exact div_eq_inv_mul _ _

structure Estimate where
  event : Event ℝ
  twist : Twist ℝ

/-- The message with its twist, if the twist is one that was estimated. -/
noncomputable def estimated (cfg : Config ℝ) (st : State ℝ) (ev : Event ℝ) : Option Estimate :=
  match st.lastInput with
  | none => none
  | some last =>
    if stampSeconds (outStamp cfg ev) ev.clock.estimate - last.time ≤ 1.0e-4 then none
    else some ⟨ev, computedTwist cfg st ev⟩

theorem timedAt_time {cfg : Config ℝ} (hrestamp : cfg.restampToNow = false) {ev : Event ℝ}
    (hpos : 0 < ev.time) : TimedAt cfg ev ev.time := by
  intro n
  rw [outStamp_of_not_restamp hrestamp]
  exact stampSeconds_of_pos hpos n

/-- How a callback treats the reference `last` and the twist: it keeps both, or
moves the reference to the message and estimates the twist. -/
inductive TwistStep (cfg : Config ℝ) (st : State ℝ) (ev : Event ℝ) (last : Reference ℝ) : Prop
  | kept (hshort : ev.time - last.time ≤ 1.0e-4)
      (hnext : (callback cfg st ev).1.lastInput = some last)
      (htwist : computedTwist cfg st ev = ev.msg.twist.twist)
      (hestimated : estimated cfg st ev = none)
  | moved (hlong : 1.0e-4 < ev.time - last.time)
      (hnext : (callback cfg st ev).1.lastInput = some ev.reference)
      (htwist : computedTwist cfg st ev = finiteDifference last ev.reference)
      (hestimated : estimated cfg st ev = some ⟨ev, finiteDifference last ev.reference⟩)

theorem estimated_of_none {cfg : Config ℝ} {st : State ℝ} (hlast : st.lastInput = none)
    (ev : Event ℝ) : estimated cfg st ev = none := by
  simp only [estimated, hlast]

section Step
variable {cfg : Config ℝ} (hest : cfg.estimateTwistFromPose = true)
  (hrestamp : cfg.restampToNow = false)
include hest hrestamp

theorem lastInput_of_none {st : State ℝ} {ev : Event ℝ} (hpos : 0 < ev.time)
    (hlast : st.lastInput = none) : (callback cfg st ev).1.lastInput = some ev.reference := by
  rw [lastInput_callback, hlast, prepare_of_none hest ev, timedAt_time hrestamp hpos]
  rfl

theorem twistStep {st : State ℝ} {ev : Event ℝ} {last : Reference ℝ} (hpos : 0 < ev.time)
    (hlast : st.lastInput = some last) : TwistStep cfg st ev last := by
  have htime := timedAt_time hrestamp hpos ev.clock.estimate
  have hnext := lastInput_callback cfg st ev
  rcases le_or_gt (ev.time - last.time) 1.0e-4 with hshort | hlong
  · have hdt := hshort
    rw [← htime] at hdt
    obtain ⟨h1, h2⟩ := prepare_of_short hdt
    rw [hlast, h1] at hnext
    refine .kept hshort hnext ?_ ?_
    · rw [computedTwist, hlast, h2]
    · simp only [estimated, hlast, htime, if_pos hshort]
  · have hlong' := not_le.mpr hlong
    have hdt := hlong'
    rw [← htime] at hdt
    obtain ⟨h1, h2⟩ := prepare_of_long hest hdt
    rw [htime] at h1 h2
    have htwist : computedTwist cfg st ev = finiteDifference last ev.reference := by
      rw [computedTwist, hlast, h2]
      exact twistBetween_eq last ev.reference
    rw [hlast, h1] at hnext
    refine .moved hlong hnext htwist ?_
    simp only [estimated, hlast, htime, if_neg hlong', htwist]

theorem kept_of_short {st : State ℝ} {ev : Event ℝ} {last : Reference ℝ} (hpos : 0 < ev.time)
    (hlast : st.lastInput = some last) (hshort : ev.time - last.time ≤ 1.0e-4) :
    (callback cfg st ev).1.lastInput = some last ∧
    computedTwist cfg st ev = ev.msg.twist.twist := by
  cases twistStep hest hrestamp hpos hlast with
  | kept hshort hnext htwist => exact ⟨hnext, htwist⟩
  | moved hlong => exact absurd hlong (not_lt.mpr hshort)

end Step

/-! ### Dead reckoning -/

def Advances (a b : Event ℝ) : Prop := 1.0e-4 < b.time - a.time

noncomputable def travelled : Event ℝ → List Estimate → Vec3 ℝ
  | _, [] => 0
  | a, b :: rest =>
    (b.event.time - a.time) • Rotation.rotZ (poseYaw b.event.msg.pose.pose) b.twist.linear
      + travelled b.event rest

noncomputable def turns : Event ℝ → List Estimate → List ℝ
  | _, [] => []
  | a, b :: rest => b.twist.angular.z * (b.event.time - a.time) :: turns b.event rest

def lastOf (a : Event ℝ) (chain : List Estimate) : Event ℝ := (chain.map Estimate.event).getLastD a

/-- Integrating the estimated twists along the chain that starts at `a` gives back
the poses. -/
structure DeadReckons (a : Event ℝ) (chain : List Estimate) : Prop where
  advances : (a :: chain.map Estimate.event).IsChain Advances
  position : travelled a chain
    = (lastOf a chain).msg.pose.pose.position - a.msg.pose.pose.position
  yaw : (((turns a chain).sum : ℝ) : Angle)
    = ((poseYaw (lastOf a chain).msg.pose.pose - poseYaw a.msg.pose.pose : ℝ) : Angle)
  turns : ∀ turn ∈ turns a chain, -π < turn ∧ turn ≤ π

theorem deadReckons_nil (a : Event ℝ) : DeadReckons a [] where
  advances := List.isChain_singleton a
  position := (Vec3.sub_self' _).symm
  yaw := by
    simp only [OdometrySanitizer.turns, List.sum_nil, lastOf, List.map_nil, List.getLastD_nil, sub_self]
  turns := by
    intro turn h
    exact absurd h List.not_mem_nil

theorem smul_rotZ_finiteDifference {a b : Reference ℝ} (h : b.time - a.time ≠ 0) :
    (b.time - a.time) • Rotation.rotZ (poseYaw b.pose) (finiteDifference a b).linear
      = b.pose.position - a.pose.position := by
  rw [finiteDifference, Rotation.rotZ_rotZ_neg, Vec3.smul_inv_smul h]

theorem angular_finiteDifference {a b : Reference ℝ} (h : b.time - a.time ≠ 0) :
    (finiteDifference a b).angular.z * (b.time - a.time)
      = ((poseYaw b.pose - poseYaw a.pose : ℝ) : Angle).toReal :=
  div_mul_cancel₀ _ h

theorem DeadReckons.cons {a b : Event ℝ} {chain : List Estimate} (hab : Advances a b)
    (h : DeadReckons b chain) :
    DeadReckons a (⟨b, finiteDifference a.reference b.reference⟩ :: chain) := by
  have hdt : b.reference.time - a.reference.time ≠ 0 := (pos_of_long hab).ne'
  have hlast : lastOf a (⟨b, finiteDifference a.reference b.reference⟩ :: chain)
      = lastOf b chain := List.getLastD_cons
  have hturn := angular_finiteDifference hdt
  refine ⟨?_, ?_, ?_, ?_⟩
  · exact List.isChain_cons_cons.mpr ⟨hab, h.advances⟩
  · have hstep := smul_rotZ_finiteDifference hdt
    rw [hlast, travelled, h.position]
    exact (congrArg (· + _) hstep).trans (Vec3.sub_add_sub_cancel' _ _ _)
  · have hstep := congrArg ((↑) : ℝ → Angle) hturn
    rw [Angle.coe_toReal] at hstep
    have hsum := sub_add_sub_cancel' (poseYaw b.msg.pose.pose) (poseYaw a.msg.pose.pose)
      (poseYaw (lastOf b chain).msg.pose.pose)
    rw [hlast, OdometrySanitizer.turns, List.sum_cons, Angle.coe_add, h.yaw, ← hsum,
      Angle.coe_add]
    exact congrArg (· + _) hstep
  · intro turn hmem
    rcases List.mem_cons.mp hmem with rfl | hmem
    · exact ⟨hturn ▸ Angle.neg_pi_lt_toReal _, hturn ▸ Angle.toReal_le_pi _⟩
    · exact h.turns turn hmem

theorem deadReckons_from {cfg : Config ℝ} (hest : cfg.estimateTwistFromPose = true)
    (hrestamp : cfg.restampToNow = false) (events : List (Event ℝ))
    (hpos : ∀ ev ∈ events, 0 < ev.time) (st : State ℝ) (a : Event ℝ)
    (hlast : st.lastInput = some a.reference) :
    DeadReckons a (observed (callback cfg) (estimated cfg) st events) := by
  induction events generalizing st a with
  | nil => exact deadReckons_nil a
  | cons ev events ih =>
    obtain ⟨hev, hevents⟩ := List.forall_mem_cons.mp hpos
    cases twistStep hest hrestamp hev hlast with
    | kept hshort hnext htwist hestimated =>
      -- the chain is not extended and its end stays the reference
      rw [observed, hestimated]
      exact ih hevents _ a hnext
    | moved hlong hnext htwist hestimated =>
      rw [observed, hestimated]
      exact (ih hevents _ ev hnext).cons hlong

/-- For every run: the first message and those with an estimated twist advance by
more than 0.1 ms each, and the estimates integrate to the motion between the
first and the last of them. -/
theorem twists_dead_reckon (cfg : Config ℝ) (hest : cfg.estimateTwistFromPose = true)
    (hrestamp : cfg.restampToNow = false) (first : Event ℝ) (rest : List (Event ℝ))
    (hpos : ∀ ev ∈ first :: rest, 0 < ev.time) :
    DeadReckons first (observed (callback cfg) (estimated cfg) State.initial (first :: rest)) := by
  obtain ⟨hfirst, hrest⟩ := List.forall_mem_cons.mp hpos
  rw [observed, estimated_of_none rfl]
  exact deadReckons_from hest hrestamp rest hrest _ first
    (lastInput_of_none hest hrestamp hfirst rfl)

theorem twists_dead_reckon_repeated_stamp :
    DeadReckons (sampleAt ⟨1, 0⟩ 0 0 0)
      (observed (callback gatedConfig) (estimated gatedConfig) State.initial
        [sampleAt ⟨1, 0⟩ 0 0 0, sampleAt ⟨1, 0⟩ 2 0 0, sampleAt ⟨2, 0⟩ 5 0 0]) := by
  refine twists_dead_reckon gatedConfig rfl rfl _ _ ?_
  simp only [List.forall_mem_cons, Event.time, sampleAt, Stamp.seconds]
  norm_num

/-! ### After the clock went back -/

/-- From the second message of `events` on, the twist is the finite difference to
the message before, when the run starts with `earlier`. -/
def RecoversTwist (cfg : Config ℝ) (earlier events : List (Event ℝ)) : Prop :=
  ∀ xs a b ys, events = xs ++ a :: b :: ys →
    computedTwist cfg (stateAfter (callback cfg) State.initial (earlier ++ (xs ++ [a]))) b
      = finiteDifference a.reference b.reference

/-- The reference is a message received before, and no stamp lies further than
0.1 ms past it. -/
def ReferenceLatest (events : List (Event ℝ)) (st : State ℝ) : Prop :=
  match st.lastInput with
  | none => events = []
  | some last => (∃ ev ∈ events, ev.reference = last) ∧ ∀ ev ∈ events, ev.time ≤ last.time + 1.0e-4

/-- The message is the first one, or more than 0.1 ms past the reference. -/
def Restarts (st : State ℝ) (ev : Event ℝ) : Prop :=
  ∀ last, st.lastInput = some last → 1.0e-4 < ev.time - last.time

section Recovery
variable {cfg : Config ℝ} (hest : cfg.estimateTwistFromPose = true)
  (hrestamp : cfg.restampToNow = false)
include hest hrestamp

theorem referenceLatest_step {events : List (Event ℝ)} {st : State ℝ} {ev : Event ℝ}
    (hpos : 0 < ev.time) (h : ReferenceLatest events st) :
    ReferenceLatest (events ++ [ev]) (callback cfg st ev).1 := by
  have hself : ev.time ≤ ev.reference.time + 1.0e-4 := le_add_of_nonneg_right (by norm_num)
  have hmem : ev ∈ events ++ [ev] := List.mem_append_right _ (List.mem_singleton_self ev)
  unfold ReferenceLatest at h ⊢
  cases hlast : st.lastInput with
  | none =>
    rw [hlast] at h
    rw [lastInput_of_none hest hrestamp hpos hlast]
    refine ⟨⟨ev, hmem, rfl⟩, ?_⟩
    intro e he
    rw [h, List.nil_append, List.mem_singleton] at he
    rw [he]
    exact hself
  | some last =>
    rw [hlast] at h
    obtain ⟨⟨old, hold, heq⟩, hle⟩ := h
    cases twistStep hest hrestamp hpos hlast with
    | kept hshort hnext =>
      rw [hnext]
      refine ⟨⟨old, List.mem_append_left _ hold, heq⟩, ?_⟩
      intro e he
      rcases List.mem_append.mp he with he | he
      · exact hle e he
      · rw [List.mem_singleton.mp he]
        linarith
    | moved hlong hnext =>
      rw [hnext]
      refine ⟨⟨ev, hmem, rfl⟩, ?_⟩
      intro e he
      rcases List.mem_append.mp he with he | he
      · -- at most 0.1 ms past the old reference, which the message has overtaken
        have hbound := hle e he
        linarith
      · rw [List.mem_singleton.mp he]
        exact hself

theorem referenceLatest_stateAfter (events : List (Event ℝ)) (hpos : ∀ ev ∈ events, 0 < ev.time) :
    ReferenceLatest events (stateAfter (callback cfg) State.initial events) := by
  induction events using List.reverseRecOn with
  | nil => rfl
  | append_singleton events ev ih =>
    rw [stateAfter_append]
    exact referenceLatest_step hest hrestamp
      (hpos ev (List.mem_append_right _ (List.mem_singleton_self ev)))
      (ih fun e he => hpos e (List.mem_append_left _ he))

theorem exists_reference_after {events : List (Event ℝ)} (hpos : ∀ ev ∈ events, 0 < ev.time)
    {ev : Event ℝ} (hev : ev ∈ events) :
    ∃ old ∈ events, (stateAfter (callback cfg) State.initial events).lastInput = some old.reference ∧
      ev.time ≤ old.time + 1.0e-4 := by
  have h := referenceLatest_stateAfter hest hrestamp events hpos
  unfold ReferenceLatest at h
  cases hlast : (stateAfter (callback cfg) State.initial events).lastInput with
  | none =>
    rw [hlast] at h
    exact absurd hev (h ▸ List.not_mem_nil)
  | some last =>
    rw [hlast] at h
    obtain ⟨⟨old, hold, rfl⟩, hle⟩ := h
    exact ⟨old, hold, rfl, hle ev hev⟩

theorem lastInput_of_restarts {st : State ℝ} {ev : Event ℝ} (hpos : 0 < ev.time)
    (h : Restarts st ev) : (callback cfg st ev).1.lastInput = some ev.reference := by
  cases hlast : st.lastInput with
  | none => exact lastInput_of_none hest hrestamp hpos hlast
  | some last =>
    cases twistStep hest hrestamp hpos hlast with
    | kept hshort => exact absurd (h last hlast) (not_lt.mpr hshort)
    | moved hlong hnext => exact hnext

/-- Once the reference has restarted, every message of an advancing sequence
becomes the reference. -/
theorem lastInput_along (xs : List (Event ℝ)) (a : Event ℝ) (ys : List (Event ℝ)) (st : State ℝ)
    (hpos : ∀ ev ∈ xs ++ a :: ys, 0 < ev.time) (hadv : (xs ++ a :: ys).IsChain Advances)
    (hstart : ∀ ev ∈ (xs ++ a :: ys).head?, Restarts st ev) :
    (stateAfter (callback cfg) st (xs ++ [a])).lastInput = some a.reference := by
  induction xs generalizing st with
  | nil =>
    exact lastInput_of_restarts hest hrestamp (hpos a (List.mem_cons_self ..)) (hstart a rfl)
  | cons x xs ih =>
    obtain ⟨hx, hxs⟩ := List.forall_mem_cons.mp hpos
    have hnext := lastInput_of_restarts hest hrestamp hx (hstart x rfl)
    refine ih _ hxs hadv.tail ?_
    intro ev hev last hlast
    obtain rfl : x.reference = last := Option.some_injective _ (hnext.symm.trans hlast)
    exact (List.isChain_cons.mp hadv).1 ev hev

theorem recoversTwist_of_restarts {earlier events : List (Event ℝ)}
    (hpos : ∀ ev ∈ events, 0 < ev.time) (hadv : events.IsChain Advances)
    (hstart : ∀ ev ∈ events.head?,
      Restarts (stateAfter (callback cfg) State.initial earlier) ev) :
    RecoversTwist cfg earlier events := by
  intro xs a b ys hsplit
  subst hsplit
  have hlast := lastInput_along hest hrestamp xs a (b :: ys) _ hpos hadv hstart
  rw [← stateAfter_append] at hlast
  obtain ⟨-, hab, -⟩ := List.isChain_append_cons_cons.mp hadv
  have hb : 0 < b.time := hpos b (by simp)
  cases twistStep hest hrestamp hb hlast with
  | kept hshort => exact absurd hab (not_lt.mpr hshort)
  | moved hlong hnext htwist => exact htwist

end Recovery

/-- Messages at rest at `(x, 0, 0)` that report the speed 1 m/s. -/
noncomputable def samplesAt (x : ℝ) (stamps : List Stamp) : List (Event ℝ) :=
  stamps.map fun stamp => sampleAt stamp x 1 0

theorem stamps_samplesAt (x : ℝ) (stamps : List Stamp) :
    (samplesAt x stamps).map (fun ev => ev.msg.header.stamp) = stamps := by
  rw [samplesAt, List.map_map]
  exact List.map_id stamps

theorem finiteDifference_sampleAt (stamp stamp' : Stamp) (x x' vx vx' : ℝ) (now now' : ℤ) :
    (finiteDifference (sampleAt stamp x vx now).reference
      (sampleAt stamp' x' vx' now').reference).linear.x
      = (x' - x) / (stamp'.seconds - stamp.seconds) := by
  rw [← twistBetween_eq]
  exact twistBetween_sampleAt stamp stamp' x x' vx vx' _ _ now now'

/-- After a backwards stamp the reference is still one of the earlier messages;
the second message is compared with that one or not estimated at all. -/
theorem not_recoversTwist_samplesAt {cfg : Config ℝ} (hest : cfg.estimateTwistFromPose = true)
    (hrestamp : cfg.restampToNow = false) {before : List Stamp} {first second : Stamp}
    {after : List Stamp} (hpos : ∀ s ∈ before ++ first :: second :: after, 0 < (s.seconds : ℝ))
    {s : Stamp} (hs : s ∈ before) (hback : (first.seconds : ℝ) < s.seconds) :
    ¬ RecoversTwist cfg (samplesAt 1 before) (samplesAt 0 (first :: second :: after)) := by
  intro hrecovers
  have hearlier : ∀ ev ∈ samplesAt 1 before, 0 < ev.time := by
    intro ev hev
    obtain ⟨t, ht, rfl⟩ := List.mem_map.mp hev
    exact hpos t (List.mem_append_left _ ht)
  obtain ⟨old, hold, hlast, hle⟩ := exists_reference_after hest hrestamp hearlier
    (List.mem_map_of_mem hs : sampleAt s 1 1 0 ∈ samplesAt 1 before)
  obtain ⟨t, -, rfl⟩ := List.mem_map.mp hold
  set st := stateAfter (callback cfg) State.initial (samplesAt 1 before) with hst
  set a := sampleAt first 0 1 0 with ha
  set b := sampleAt second 0 1 0 with hb
  have hatime : 0 < a.time := hpos first (by simp)
  have hbtime : 0 < b.time := hpos second (by simp)
  have hspec := hrecovers [] a b (samplesAt 0 after) rfl
  rw [List.nil_append, stateAfter_append, ← hst] at hspec
  have hx := congrArg (fun t => t.linear.x) hspec
  simp only [ha, hb, finiteDifference_sampleAt, sub_self, zero_div] at hx
  -- the first message after the jump does not move the reference
  have hshort : a.time - (sampleAt t 1 1 0).time ≤ 1.0e-4 :=
    (sub_le_sub_right hback.le _).trans (sub_le_iff_le_add'.mpr hle)
  obtain ⟨hnext, -⟩ := kept_of_short hest hrestamp hatime hlast hshort
  cases twistStep hest hrestamp hbtime hnext with
  | kept hshort' hnext' htwist =>
    have hone := congrArg (fun t => t.linear.x) htwist
    exact one_ne_zero (hone.symm.trans hx)
  | moved hlong hnext' htwist =>
    have hdt : (0 : ℝ) < second.seconds - t.seconds := pos_of_long hlong
    have hspeed := congrArg (fun t => t.linear.x) htwist
    simp only [hb, finiteDifference_sampleAt] at hspeed
    have hzero := (div_eq_zero_iff.mp (hspeed.symm.trans hx)).resolve_right hdt.ne'
    norm_num at hzero

def stampsOf (events : List (Event ℝ)) : List Stamp := events.map fun ev => ev.msg.header.stamp

/-- Stamps that were received, and stamps of a sequence that advances by more than
0.1 ms each time and whose first one is more than 0.1 ms away from all of them. -/
structure NewSequence (before after : List Stamp) : Prop where
  positive : ∀ s ∈ before ++ after, 0 < (s.seconds : ℝ)
  advances : after.IsChain fun s t => (1.0e-4 : ℝ) < t.seconds - s.seconds
  apart : ∀ first ∈ after.head?, ∀ s ∈ before, (1.0e-4 : ℝ) < |first.seconds - s.seconds|

theorem restarts_of_later {cfg : Config ℝ} (hest : cfg.estimateTwistFromPose = true)
    (hrestamp : cfg.restampToNow = false) {earlier : List (Event ℝ)}
    (hpos : ∀ ev ∈ earlier, 0 < ev.time) {first : Event ℝ}
    (hlater : ∀ ev ∈ earlier, 1.0e-4 < first.time - ev.time) :
    Restarts (stateAfter (callback cfg) State.initial earlier) first := by
  intro last hlast
  have h := referenceLatest_stateAfter hest hrestamp earlier hpos
  rw [ReferenceLatest, hlast] at h
  obtain ⟨⟨old, hold, rfl⟩, -⟩ := h
  exact hlater old hold

/-- Whatever the messages with these stamps contain, the twist is the finite
difference again from the second message of the sequence on: exactly when there
is no second message or the first one is later than all that was received. -/
theorem twist_recovers_iff (cfg : Config ℝ) (hest : cfg.estimateTwistFromPose = true)
    (hrestamp : cfg.restampToNow = false) (before after : List Stamp)
    (hstamps : NewSequence before after) :
    (∀ earlier events : List (Event ℝ), stampsOf earlier = before → stampsOf events = after →
      RecoversTwist cfg earlier events) ↔
    after.length ≤ 1 ∨ ∀ first ∈ after.head?, ∀ s ∈ before, (s.seconds : ℝ) < first.seconds := by
  refine ⟨fun hrecovers => ?_, fun hcond earlier events hearlier hevents => ?_⟩
  · match after, hstamps, hrecovers with
    | [], _, _ => exact .inl (Nat.zero_le 1)
    | [first], _, _ => exact .inl le_rfl
    | first :: second :: after, hstamps, hrecovers =>
      refine .inr fun first' hfirst s hs => ?_
      obtain rfl : first = first' := Option.some_injective _ hfirst
      by_contra hback
      have hne : (first.seconds : ℝ) ≠ s.seconds := by
        intro heq
        have habs := hstamps.apart first rfl s hs
        rw [heq, sub_self, abs_zero] at habs
        norm_num at habs
      exact not_recoversTwist_samplesAt hest hrestamp hstamps.positive hs
        (lt_of_le_of_ne (not_lt.mp hback) hne)
        (hrecovers _ _ (stamps_samplesAt 1 before) (stamps_samplesAt 0 _))
  · subst hearlier hevents
    have hadv : events.IsChain Advances :=
      (List.isChain_map fun ev : Event ℝ => ev.msg.header.stamp).mp hstamps.advances
    have hpos : ∀ ev ∈ earlier ++ events, 0 < ev.time := by
      intro ev hev
      refine hstamps.positive ev.msg.header.stamp ?_
      rw [stampsOf, stampsOf, ← List.map_append]
      exact List.mem_map_of_mem hev
    rcases hcond with hlength | hlater
    · -- no two consecutive messages
      intro xs a b ys hsplit
      rw [stampsOf, List.length_map, hsplit, List.length_append, List.length_cons,
        List.length_cons] at hlength
      omega
    · refine recoversTwist_of_restarts hest hrestamp
        (fun ev hev => hpos ev (List.mem_append_right _ hev)) hadv fun first hfirst => ?_
      have hhead : first.msg.header.stamp ∈ (stampsOf events).head? := by
        rw [stampsOf, List.head?_map, hfirst]
        rfl
      refine restarts_of_later hest hrestamp (fun ev hev => hpos ev (List.mem_append_left _ hev)) ?_
      intro ev hev
      have hmem : ev.msg.header.stamp ∈ stampsOf earlier := List.mem_map_of_mem hev
      have hapart := hstamps.apart _ hhead _ hmem
      rwa [abs_of_pos (sub_pos.mpr (hlater _ hhead _ hmem))] at hapart

theorem twist_recovers_after_gap :
    RecoversTwist gatedConfig [sampleAt ⟨1, 0⟩ 0 0 0]
      [sampleAt ⟨10, 0⟩ 0 0 0, sampleAt ⟨11, 0⟩ 5 0 0] := by
  refine (twist_recovers_iff gatedConfig rfl rfl [⟨1, 0⟩] [⟨10, 0⟩, ⟨11, 0⟩] ⟨?_, ?_, ?_⟩).mpr
    (.inr ?_) _ _ rfl rfl
  · simp only [List.cons_append, List.nil_append, List.forall_mem_cons, Stamp.seconds]
    norm_num
  · refine List.isChain_cons_cons.mpr ⟨?_, List.isChain_singleton _⟩
    norm_num [Stamp.seconds]
  · intro first hfirst
    obtain rfl := Option.some_injective _ hfirst
    norm_num [Stamp.seconds]
  · intro first hfirst
    obtain rfl := Option.some_injective _ hfirst
    norm_num [Stamp.seconds]

theorem newSequence_backwards : NewSequence [⟨10, 0⟩] [⟨1, 0⟩, ⟨2, 0⟩] := by
  refine ⟨?_, ?_, ?_⟩
  · simp only [List.cons_append, List.nil_append, List.forall_mem_cons, Stamp.seconds]
    norm_num
  · refine List.isChain_cons_cons.mpr ⟨?_, List.isChain_singleton _⟩
    norm_num [Stamp.seconds]
  · intro first hfirst
    obtain rfl := Option.some_injective _ hfirst
    norm_num [Stamp.seconds, abs_of_neg]

/-- A bag restarted nine seconds back: the vehicle moves at 5 m/s and the second
message keeps the speed of 0 m/s it came with. -/
theorem twist_stale_after_restart :
    let earlier := [sampleAt ⟨10, 0⟩ 0 0 0]
    let events := [sampleAt ⟨1, 0⟩ 0 0 0, sampleAt ⟨2, 0⟩ 5 0 0]
    NewSequence (stampsOf earlier) (stampsOf events) ∧ ¬ RecoversTwist gatedConfig earlier events := by
  intro earlier events
  refine ⟨newSequence_backwards, fun hrecovers => ?_⟩
  have h10 : 0 < (sampleAt ⟨10, 0⟩ 0 0 0).time := newSequence_backwards.positive ⟨10, 0⟩ (by simp)
  have h1 : 0 < (sampleAt ⟨1, 0⟩ 0 0 0).time := newSequence_backwards.positive ⟨1, 0⟩ (by simp)
  have h2 : 0 < (sampleAt ⟨2, 0⟩ 5 0 0).time := newSequence_backwards.positive ⟨2, 0⟩ (by simp)
  have hest : gatedConfig.estimateTwistFromPose = true := rfl
  have hrestamp : gatedConfig.restampToNow = false := rfl
  have hnone : (State.initial : State ℝ).lastInput = none := rfl
  have hlast := lastInput_of_none hest hrestamp h10 hnone
  obtain ⟨hkept, -⟩ := kept_of_short hest hrestamp h1 hlast
    (by norm_num [Event.time, Event.reference, sampleAt, Stamp.seconds])
  obtain ⟨-, htwist⟩ := kept_of_short hest hrestamp h2 hkept
    (by norm_num [Event.time, Event.reference, sampleAt, Stamp.seconds])
  have hspec := hrecovers [] (sampleAt ⟨1, 0⟩ 0 0 0) (sampleAt ⟨2, 0⟩ 5 0 0) [] rfl
  have hx := congrArg (fun t => t.linear.x) (htwist.symm.trans hspec)
  simp only [finiteDifference_sampleAt] at hx
  norm_num [sampleAt, Stamp.seconds] at hx

end OdometrySanitizer
end RtkLocalization
