import RtkLocalization.RosFilterRuns

/-!
# The stamps of the filter node

The node publishes the time of its filter, which a late measurement takes back. Where the
filter does not go back, or is predicted to the clock reading after it did, the stamps
increase.
-/

namespace RtkLocalization
namespace RosFilter

open FilterBase TimedQueue

variable {T κ β γ Q : Type}

section Stamps
variable {cfg : Config κ} {k : Kernel κ β γ} {P : MeasurementQueue β γ Q}

/-- The time that an estimate of the filter has at least. -/
def reached (f : Filter κ γ) : ℤ := if f.initialized then f.lastMeasurementTime else 0

/-- The run is not reset, which starts the stamps again. -/
def NoReset : Event T κ β γ → Prop
  | .reset | .deactivate => False
  | .setPose stamp _ _ => 0 ≤ stamp
  | _ => True

/-- `last` is the last published message. -/
def Stamped (P : MeasurementQueue β γ Q) (s : State T κ β γ Q) (last : Estimate κ) : Prop :=
  last.stamp ≤ s.lastPublishedStamp ∧ 0 ≤ s.lastSetPoseTime ∧
    Holds P (fun f => s.lastPublishedStamp ≤ reached f) (fun _ => True) (fun m => 0 ≤ m.time) s

theorem keeps_reached (hsmooth : cfg.smoothLaggedData = false) {now t : ℤ} (h : t ≤ now) :
    Keeps (β := β) cfg k (fun f => t ≤ reached f) (fun _ => True) (fun m => 0 ≤ m.time) now where
  measurement f m hf hm _ := by
    unfold reached at hf ⊢
    rw [processMeasurement_initialized, processMeasurement_time, if_pos rfl]
    split_ifs at hf ⊢ <;> omega
  control _ _ hf := hf
  save _ _ _ := trivial
  restore hon := absurd (hsmooth.symm.trans hon) Bool.false_ne_true
  predict f _ hinit := by
    unfold reached
    rw [if_pos hinit]
    exact h

theorem integrateMeasurements_initialized {s : State T κ β γ Q} (hs : s.filter.initialized)
    (currentTime : ℤ) : (integrateMeasurements cfg k P s currentTime).filter.initialized := by
  have hkeeps : Keeps cfg k (fun f => f.initialized) (fun _ => True) (fun _ => True)
      currentTime :=
    ⟨fun f m _ _ _ => processMeasurement_initialized k f m, fun _ _ hf => hf, fun _ _ _ => trivial,
      fun _ _ _ hf _ _ => hf, fun _ hf _ => hf⟩
  exact (integrateMeasurements_holds hkeeps (P := P)
    ⟨hs, fun _ _ => trivial, fun _ _ => trivial, fun _ _ => trivial, fun _ => hs⟩).filter

theorem predictToCurrent_time (s : State T κ β γ Q) (currentTime : ℤ)
    (h : (predictToCurrent k true s currentTime).filter.initialized) :
    (predictToCurrent k true s currentTime).filter.lastMeasurementTime = currentTime := by
  unfold predictToCurrent at h ⊢
  split_ifs at h ⊢ with hinit
  · rfl
  · exact absurd (Bool.and_eq_true_iff.mpr ⟨h, rfl⟩) hinit

theorem integrateMeasurements_time (hpredict : cfg.predictToCurrentTime = true)
    (s : State T κ β γ Q) (currentTime : ℤ)
    (h : (integrateMeasurements cfg k P s currentTime).filter.initialized) :
    (integrateMeasurements cfg k P s currentTime).filter.lastMeasurementTime = currentTime := by
  unfold integrateMeasurements at h ⊢
  rw [hpredict] at h ⊢
  cases hpop : P.pop s.measurementQueue with
  | none =>
    rw [hpop] at h
    exact predictToCurrent_time s currentTime h
  | some x =>
    rw [hpop] at h
    exact predictToCurrent_time _ currentTime h

theorem keeps_measurements (M : Measurement β γ → Prop) (now : ℤ) :
    Keeps cfg k (fun _ => True) (fun _ => True) M now :=
  ⟨fun _ _ _ _ _ => trivial, fun _ _ _ => trivial, fun _ _ _ => trivial,
    fun _ _ _ _ _ _ => trivial, fun _ _ _ => trivial⟩

/-- Where the filter does not go back, or is brought to the clock reading after it did. -/
theorem updateFilter_reached (hcfg : cfg.smoothLaggedData = false ∨ cfg.predictToCurrentTime = true)
    {s : State T κ β γ Q} {last : Estimate κ} (hs : Stamped P s last) {curTime now : ℤ}
    (hx : OnTime P s (.update curTime now)) :
    Holds P (fun f => s.lastPublishedStamp ≤ reached f) (fun _ => True) (fun m => 0 ≤ m.time)
      (updateFilter cfg k P s curTime now) := by
  have hreached := hs.2.2.filter
  obtain ⟨hsorted, hreadings⟩ := hx
  obtain ⟨hcur, hahead⟩ := hreadings curTime List.mem_cons_self
  have hlater : curTime ≤ now :=
    (List.pairwise_cons.mp hsorted).1 now (List.mem_singleton_self now)
  have hlast : s.lastPublishedStamp ≤ curTime := by
    have htime := hahead.filter
    unfold reached at hreached
    split_ifs at hreached <;> omega
  cases hon : s.toggledOn with
  | false =>
    refine updateFilter_holds hs.2.2 ⟨fun h => absurd (hon.symm.trans h) Bool.false_ne_true, ?_⟩
    intro _ hinit
    unfold reached
    rw [if_pos hinit]
    exact hlast.trans hlater
  | true =>
    rcases hcfg with hsmooth | hpredict
    · exact updateFilter_holds hs.2.2
        ⟨fun _ => keeps_reached hsmooth hlast, fun h => absurd hon h⟩
    · have hmeasured : Holds P (fun _ => True) (fun _ => True) (fun m => 0 ≤ m.time)
          (updateFilter cfg k P s curTime now) :=
        updateFilter_holds (hs.2.2.mono (fun _ _ => trivial) (fun _ h => h) fun _ h => h)
          ⟨fun _ => keeps_measurements _ _, fun _ _ => trivial⟩
      refine ⟨?_, hmeasured.saved, hmeasured.handled, hmeasured.queued, hmeasured.started⟩
      unfold updateFilter
      rw [if_pos hon]
      unfold reached
      split_ifs with hinit
      · rw [integrateMeasurements_time hpredict s curTime hinit]
        exact hlast
      · rw [reached, if_neg fun h => hinit (integrateMeasurements_initialized h curTime)]
          at hreached
        exact hreached

theorem Stamped.of_eq {s s' : State T κ β γ Q} {last : Estimate κ} (hs : Stamped P s last)
    (hlast : s'.lastPublishedStamp = s.lastPublishedStamp) (hpose : 0 ≤ s'.lastSetPoseTime)
    (h : Holds P (fun f => s.lastPublishedStamp ≤ reached f) (fun _ => True)
      (fun m => 0 ≤ m.time) s') : Stamped P s' last :=
  ⟨hs.1.trans_eq hlast.symm, hpose, by rwa [hlast]⟩

theorem updateFilter_stamped (hcfg : cfg.smoothLaggedData = false ∨ cfg.predictToCurrentTime = true)
    {s : State T κ β γ Q} {last : Estimate κ} (hs : Stamped P s last) {curTime now : ℤ}
    (hx : OnTime P s (.update curTime now)) :
    Stamped P (updateFilter cfg k P s curTime now) last := by
  have hreached := updateFilter_reached (k := k) hcfg hs hx
  obtain ⟨f, q, hist, handled, hframe⟩ := framed_updateFilter cfg k P s curTime now
  rw [hframe] at hreached ⊢
  exact hs.of_eq rfl hs.2.1 hreached

theorem expireHistory_stamped {s : State T κ β γ Q} {last : Estimate κ} (hs : Stamped P s last) :
    Stamped P (expireHistory cfg s) last := by
  have hholds : Holds P (fun f => s.lastPublishedStamp ≤ reached f) (fun _ => True)
      (fun m => 0 ≤ m.time) (expireHistory cfg s) := expireHistory_holds hs.2.2
  obtain ⟨f, q, hist, handled, hframe⟩ := framed_expireHistory cfg s
  rw [hframe] at hholds ⊢
  exact hs.of_eq rfl hs.2.1 hholds

theorem publishEstimate_stamped (hpermit : cfg.permitCorrectedPublication = false)
    {s : State T κ β γ Q} {last : Estimate κ} (hs : Stamped P s last) :
    ((publishEstimate cfg s).2 = none → Stamped P (publishEstimate cfg s).1 last) ∧
      ∀ o, (publishEstimate cfg s).2 = some o →
        last.stamp < o.stamp ∧ Stamped P (publishEstimate cfg s).1 o := by
  obtain ⟨hlast, hpose, hholds⟩ := hs
  unfold publishEstimate
  split
  case isFalse => exact ⟨fun _ => ⟨hlast, hpose, hholds⟩, nofun⟩
  case isTrue hinit =>
    have hreached := hholds.filter
    rw [reached, if_pos hinit] at hreached
    have hstamped : Holds P (fun f => s.filter.lastMeasurementTime ≤ reached f) (fun _ => True)
        (fun m => 0 ≤ m.time) s := by
      refine ⟨?_, hholds.saved, hholds.handled, hholds.queued, hholds.started⟩
      rw [reached, if_pos hinit]
    have hkept : Holds P (fun f => s.filter.lastMeasurementTime ≤ reached f) (fun _ => True)
        (fun m => 0 ≤ m.time) { s with lastPublishedStamp := s.filter.lastMeasurementTime } :=
      ⟨hstamped.filter, hstamped.saved, hstamped.handled, hstamped.queued, hstamped.started⟩
    simp only [hpermit, Bool.not_false, Bool.true_and, decide_eq_true_eq]
    split_ifs with hcorrected
    · exact ⟨fun _ => ⟨hlast.trans hreached, hpose, hkept⟩, nofun⟩
    · refine ⟨nofun, ?_⟩
      rintro o ⟨⟩
      exact ⟨hlast.trans_lt (not_le.mp hcorrected), le_rfl, hpose, hkept⟩

theorem periodicUpdate_stamped (hpermit : cfg.permitCorrectedPublication = false)
    (hcfg : cfg.smoothLaggedData = false ∨ cfg.predictToCurrentTime = true)
    {s : State T κ β γ Q} {last : Estimate κ} (hs : Stamped P s last) {curTime now : ℤ}
    (hx : OnTime P s (.update curTime now)) :
    ((periodicUpdate cfg k P s curTime now).2 = none →
      Stamped P (periodicUpdate cfg k P s curTime now).1 last) ∧
    ∀ o, (periodicUpdate cfg k P s curTime now).2 = some o →
      last.stamp < o.stamp ∧ Stamped P (periodicUpdate cfg k P s curTime now).1 o := by
  obtain ⟨hnone, hsome⟩ := publishEstimate_stamped hpermit (updateFilter_stamped (k := k) hcfg hs hx)
  unfold periodicUpdate
  split_ifs
  · refine ⟨fun h => expireHistory_stamped (hnone h), ?_⟩
    intro o h
    exact ⟨(hsome o h).1, expireHistory_stamped (hsome o h).2⟩
  · exact ⟨fun _ => hs, nofun⟩

theorem sensorCallback_stamps [DecidableEq T] (P : MeasurementQueue β γ Q) (s : State T κ β γ Q)
    (topic : T) (stamp : ℤ) (body : Option β) :
    (sensorCallback P s topic stamp body).lastPublishedStamp = s.lastPublishedStamp ∧
      (sensorCallback P s topic stamp body).lastSetPoseTime = s.lastSetPoseTime := by
  unfold sensorCallback
  split_ifs
  · exact ⟨rfl, rfl⟩
  · exact ⟨rfl, rfl⟩
  · exact ⟨rfl, rfl⟩
  · exact ⟨rfl, rfl⟩

/-- What every event but a reset does with the stamps. -/
theorem step_stamped [DecidableEq T] (hpermit : cfg.permitCorrectedPublication = false)
    (hcfg : cfg.smoothLaggedData = false ∨ cfg.predictToCurrentTime = true)
    {s : State T κ β γ Q} {x : Event T κ β γ} {last : Estimate κ} (hs : Stamped P s last)
    (hx : OnTime P s x ∧ NoReset x) :
    ((step cfg k P s x).2 = none → Stamped P (step cfg k P s x).1 last) ∧
      ∀ o, (step cfg k P s x).2 = some o →
        last.stamp < o.stamp ∧ Stamped P (step cfg k P s x).1 o := by
  obtain ⟨htime, hreset⟩ := hx
  have hholds := hs.2.2
  cases x with
  | sensor topic stamp body =>
    obtain ⟨hlast, hpose⟩ := sensorCallback_stamps P s topic stamp body
    have hsensor := sensorCallback_holds hholds topic stamp body
      fun b _ hstamp => hs.2.1.trans hstamp.le
    exact ⟨fun _ => hs.of_eq hlast (hs.2.1.trans_eq hpose.symm) hsensor, nofun⟩
  | control control stamp =>
    exact ⟨fun _ => hs.of_eq rfl hs.2.1
      ⟨hholds.filter, hholds.saved, hholds.handled, hholds.queued, hholds.started⟩, nofun⟩
  | setPose stamp estimate now =>
    refine ⟨fun _ => hs.of_eq rfl hreset (cleared_holds ?_ rfl rfl rfl), nofun⟩
    obtain ⟨hnow, hahead⟩ := htime.2 now (List.mem_singleton_self now)
    have hfilter := hholds.filter
    unfold reached at hfilter
    split_ifs at hfilter with hinit
    · exact (hfilter.trans hahead.filter).trans_eq (if_pos hinit).symm
    · exact hfilter.trans_eq (if_neg hinit).symm
  | reset => exact absurd hreset not_false
  | toggle on =>
    exact ⟨fun _ => hs.of_eq rfl hs.2.1
      ⟨hholds.filter, hholds.saved, hholds.handled, hholds.queued, hholds.started⟩, nofun⟩
  | enable =>
    exact ⟨fun _ => hs.of_eq rfl hs.2.1
      ⟨hholds.filter, hholds.saved, hholds.handled, hholds.queued, hholds.started⟩, nofun⟩
  | deactivate => exact absurd hreset not_false
  | update curTime now => exact periodicUpdate_stamped hpermit hcfg hs htime

/-- The stamps of the estimates that a run publishes increase, whatever the order in which
measurements arrive. -/
theorem published_stamps_increase [DecidableEq T]
    (hpermit : cfg.permitCorrectedPublication = false)
    (hcfg : cfg.smoothLaggedData = false ∨ cfg.predictToCurrentTime = true)
    (control : γ × ℤ) (enabled : Bool) {xs : List (Event T κ β γ)} (hsteady : Steady xs)
    (hxs : ∀ x ∈ xs, NoReset x) :
    (Callback.published (step cfg k P) (initial cfg P control enabled) xs).Pairwise
      fun o o' => o.stamp < o'.stamp := by
  have hchain := Callback.published_isChain (step cfg k P) (J := Stamped P)
    (R := fun o o' => o.stamp < o'.stamp) (fun s x last hs hx => (step_stamped hpermit hcfg hs hx).1)
    (fun s x last o hs hx => (step_stamped hpermit hcfg hs hx).2 o)
    (initial cfg P control enabled) xs ⟨0, cfg.initialEstimate⟩
    ⟨le_rfl, le_rfl, cleared_holds le_rfl rfl rfl rfl⟩
    ((onTime_initial cfg k hsteady control enabled).and _
      (Callback.allSteps_of_forall_mem _ (fun x hx _ => hxs x hx) _))
  exact (List.isChain_iff_pairwise.mp hchain.of_cons)

theorem published_stamps_increase_late :
    (Callback.published (step ⟨false, 0, false, false, 50, false, 0⟩ doubling fifo)
      (initial ⟨false, 0, false, false, 50, false, 0⟩ fifo ((), 0) true)
      (late ++ [.update 6 6])).Pairwise fun o o' => o.stamp < o'.stamp :=
  published_stamps_increase rfl (Or.inl rfl) ((), 0) true (by unfold Steady; decide)
    (by simp [late, NoReset])

/-- A sensor timeout predicts past a measurement that is on its way: with smoothing and
without `predict_to_current_time` its estimate is left out, and the next one has an
earlier stamp than the last. -/
example :
    (Callback.published
      (step ⟨true, 100, false, false, 5, false, ()⟩ ⟨fun _ x => x, fun _ _ _ x => x, fun _ x => x⟩
        (sortedList (Measurement.time : Measurement Unit Unit → ℤ)))
      (initial ⟨true, 100, false, false, 5, false, ()⟩ (sortedList Measurement.time) ((), 0) true)
      [.sensor false 10 (some ()), .update 11 11, .update 20 20, .sensor true 15 (some ()),
        .update 21 21, .sensor false 18 (some ()), .update 22 22]).map Estimate.stamp
      = [10, 20, 18] := by
  decide

end Stamps

end RosFilter
end RtkLocalization
