import RtkLocalization.RosFilter

/-!
# Runs of the filter node

What holds in every run of the callbacks, whatever the filter computes. A fact about
the filter is lifted to the node by `integrateMeasurements_holds`: it has to survive a
measurement, a prediction, a change of the control and the return to a saved state
(`Keeps`); `Holds` then carries it through the two deques and the queue.
-/

namespace RtkLocalization
namespace RosFilter

open FilterBase TimedQueue

variable {T κ β γ Q : Type}

/-! ### What an update leaves alone -/

section Frame
variable (cfg : Config κ) (k : Kernel κ β γ) (P : MeasurementQueue β γ Q)

/-- The states that differ from `s` in the filter, the queue and the deques at most. -/
def Framed (s s' : State T κ β γ Q) : Prop :=
  ∃ f q hist handled,
    s' = { s with
      filter := f, measurementQueue := q, filterStateHistory := hist,
      measurementHistory := handled }

theorem Framed.trans {s s' s'' : State T κ β γ Q} (h : Framed s s') (h' : Framed s' s'') :
    Framed s s'' := by
  obtain ⟨f, q, hist, handled, rfl⟩ := h
  obtain ⟨f', q', hist', handled', rfl⟩ := h'
  exact ⟨f', q', hist', handled', rfl⟩

theorem framed_revertTo (s : State T κ β γ Q) (time : ℤ) : Framed s (revertTo P s time) := by
  unfold revertTo
  cases reversionState s.filterStateHistory time with
  | none => exact ⟨_, _, _, _, rfl⟩
  | some st => exact ⟨_, _, _, _, rfl⟩

theorem framed_revertForLate (s : State T κ β γ Q) (first : Measurement β γ) :
    Framed s (revertForLate cfg P s first) := by
  unfold revertForLate
  split_ifs
  · exact framed_revertTo P s _
  · exact ⟨_, _, _, _, rfl⟩

theorem framed_handle (x : State T κ β γ Q × ℕ) (m : Measurement β γ) (rest : Q) :
    Framed x.1 (handle cfg k P x m rest).1 := by
  unfold handle
  dsimp only
  cases cfg.smoothLaggedData with
  | false => exact ⟨_, _, _, _, rfl⟩
  | true => exact ⟨_, _, _, _, rfl⟩

theorem framed_processDue (s : State T κ β γ Q) (restored : ℕ) (currentTime : ℤ) :
    Framed s (processDue cfg k P s restored currentTime) := by
  have hloop : Framed s
      (drain P currentTime (handle cfg k P) (P.size s.measurementQueue) s.measurementQueue
        (s, restored)).2.1 := by
    refine drain_invariant P (J := fun x : State T κ β γ Q × ℕ => Framed s x.1)
      ⟨_, _, _, _, rfl⟩ ?_
    intro x m rest hx _ _
    exact hx.trans (framed_handle cfg k P x m rest)
  exact hloop.trans ⟨_, _, _, _, rfl⟩

theorem framed_predictToCurrent (predict : Bool) (s : State T κ β γ Q) (currentTime : ℤ) :
    Framed s (predictToCurrent k predict s currentTime) := by
  unfold predictToCurrent
  split_ifs
  · exact ⟨_, _, _, _, rfl⟩
  · exact ⟨_, _, _, _, rfl⟩

theorem framed_updateFilter (s : State T κ β γ Q) (curTime now : ℤ) :
    Framed s (updateFilter cfg k P s curTime now) := by
  unfold updateFilter
  split_ifs
  · unfold integrateMeasurements
    cases P.pop s.measurementQueue with
    | none => exact framed_predictToCurrent k _ s curTime
    | some x =>
      exact ((framed_revertForLate cfg P s x.1).trans (framed_processDue cfg k P _ _ _)).trans
        (framed_predictToCurrent k _ _ _)
  · exact ⟨_, _, _, _, rfl⟩
  · exact ⟨_, _, _, _, rfl⟩

theorem framed_expireHistory (s : State T κ β γ Q) : Framed s (expireHistory cfg s) := by
  unfold expireHistory
  split_ifs
  · exact ⟨_, _, _, _, rfl⟩
  · exact ⟨_, _, _, _, rfl⟩

theorem framed_periodicUpdate (s : State T κ β γ Q) (curTime now : ℤ) :
    ∃ stamp, Framed { s with lastPublishedStamp := stamp }
      (periodicUpdate cfg k P s curTime now).1 := by
  unfold periodicUpdate
  split_ifs
  · obtain ⟨f, q, hist, handled, hupdate⟩ := framed_updateFilter cfg k P s curTime now
    rw [hupdate]
    dsimp only
    unfold publishEstimate
    split_ifs
    · exact ⟨_, Framed.trans ⟨_, _, _, _, rfl⟩ (framed_expireHistory cfg _)⟩
    · exact ⟨s.lastPublishedStamp, Framed.trans ⟨_, _, _, _, rfl⟩ (framed_expireHistory cfg _)⟩
  · exact ⟨s.lastPublishedStamp, _, _, _, _, rfl⟩

end Frame

/-! ### Facts about the filter -/

section Holds
variable (cfg : Config κ) (k : Kernel κ β γ) (P : MeasurementQueue β γ Q)
  (F : Filter κ γ → Prop) (S : FilterState κ → Prop) (M : Measurement β γ → Prop)

/-- No state is saved before the first measurement. -/
structure Holds (s : State T κ β γ Q) : Prop where
  filter : F s.filter
  saved : ∀ st ∈ s.filterStateHistory, S st
  handled : ∀ m ∈ s.measurementHistory, M m
  queued : ∀ m ∈ P.elems s.measurementQueue, M m
  started : s.filterStateHistory ≠ [] → s.filter.initialized

/-- `F` survives what the node does with its filter up to the time `now`. -/
structure Keeps (now : ℤ) : Prop where
  measurement : ∀ f m, F f → M m → m.time ≤ now → F (processMeasurement k f m)
  control : ∀ f c, F f → F { f with control := c }
  save : ∀ f : Filter κ γ, F f → f.initialized → S ⟨f.estimate, f.lastMeasurementTime⟩
  restore : cfg.smoothLaggedData → ∀ f st, F f → f.initialized → S st →
    F { f with estimate := st.estimate, lastMeasurementTime := st.lastMeasurementTime }
  predict : ∀ f : Filter κ γ, F f → f.initialized →
    F { f with
      estimate := k.predict f.control now (now - f.lastMeasurementTime) f.estimate
      lastMeasurementTime := now }

variable {cfg k P F S M}

theorem reversionState_mem {history : List (FilterState κ)} {time : ℤ} {st : FilterState κ}
    (h : reversionState history time = some st) : st ∈ history := by
  unfold reversionState at h
  split at h
  next st' rest hdrop =>
    obtain rfl := Option.some.inj h
    exact (List.dropWhile_sublist _).subset (hdrop ▸ List.mem_cons_self)
  next => exact List.mem_of_getLast? h

theorem revertTo_holds {now : ℤ} (hk : Keeps cfg k F S M now) (hsmooth : cfg.smoothLaggedData)
    {s : State T κ β γ Q} (hs : Holds P F S M s) (time : ℤ) :
    Holds P F S M (revertTo P s time) := by
  have hkept : ∀ st ∈ s.filterStateHistory.dropWhile fun st => time < st.lastMeasurementTime,
      S st := fun st hst => hs.saved st ((List.dropWhile_sublist _).subset hst)
  have hstarted : (s.filterStateHistory.dropWhile fun st => time < st.lastMeasurementTime) ≠ [] →
      s.filter.initialized := by
    intro hne
    apply hs.started
    intro hnil
    exact hne (by rw [hnil]; rfl)
  unfold revertTo
  cases hst : reversionState s.filterStateHistory time with
  | none => exact ⟨hs.filter, hkept, hs.handled, hs.queued, hstarted⟩
  | some st =>
    have hmem := reversionState_mem hst
    refine ⟨?_, hkept, ?_, ?_, hstarted⟩
    · exact hk.restore hsmooth s.filter st hs.filter (hs.started (List.ne_nil_of_mem hmem))
        (hs.saved st hmem)
    · intro m hm
      exact hs.handled m ((List.dropWhile_sublist _).subset hm)
    · intro m hm
      rw [P.elems_foldl_push] at hm
      rcases Multiset.mem_add.mp hm with hm | hm
      · have hpopped := List.mem_of_mem_filter (Multiset.mem_coe.mp hm)
        exact hs.handled m ((List.takeWhile_sublist _).subset hpopped)
      · exact hs.queued m hm

theorem revertForLate_holds {now : ℤ} (hk : Keeps cfg k F S M now) {s : State T κ β γ Q}
    (hs : Holds P F S M s) (first : Measurement β γ) :
    Holds P F S M (revertForLate cfg P s first) := by
  unfold revertForLate
  split_ifs with hlate
  · exact revertTo_holds hk (Bool.and_eq_true_iff.mp hlate).1 hs _
  · exact hs

theorem handle_holds {now : ℤ} (hk : Keeps cfg k F S M now) {x : State T κ β γ Q × ℕ}
    (hx : Holds P F S M x.1) {m : Measurement β γ} (hm : M m) (hdue : m.time ≤ now) (rest : Q) :
    Holds P F S M (handle cfg k P x m rest).1 := by
  have hcontrolled : F (controlled cfg x.1.filter x.2 m) := by
    unfold controlled
    split_ifs
    · exact hk.control _ _ hx.filter
    · exact hx.filter
  have hfilter := hk.measurement _ m hcontrolled hm hdue
  have hinit := processMeasurement_initialized k (controlled cfg x.1.filter x.2 m) m
  unfold handle
  dsimp only
  cases cfg.smoothLaggedData with
  | false => exact ⟨hfilter, hx.saved, hx.handled, hx.queued, fun _ => hinit⟩
  | true =>
    refine ⟨hfilter, ?_, List.forall_mem_cons.mpr ⟨hm, hx.handled⟩, hx.queued, fun _ => hinit⟩
    simp only [if_true]
    split_ifs
    · exact List.forall_mem_cons.mpr ⟨hk.save _ hfilter hinit, hx.saved⟩
    · exact hx.saved

theorem processDue_holds {now : ℤ} (hk : Keeps cfg k F S M now) {s : State T κ β γ Q}
    (hs : Holds P F S M s) (restored : ℕ) :
    Holds P F S M (processDue cfg k P s restored now) := by
  have hloop : Holds P F S M
      (drain P now (handle cfg k P) (P.size s.measurementQueue) s.measurementQueue
        (s, restored)).2.1 := by
    refine drain_invariant P (J := fun x : State T κ β γ Q × ℕ => Holds P F S M x.1) hs ?_
    intro x m rest hx hm hdue
    exact handle_holds hk hx (hs.queued m hm) hdue rest
  refine ⟨hloop.filter, hloop.saved, hloop.handled, ?_, hloop.started⟩
  intro m hm
  apply hs.queued
  rw [elems_eq_due_add_later P now (P.size s.measurementQueue)]
  apply Multiset.mem_add.mpr
  right
  simpa only [processDue, drain_eq] using hm

theorem predictToCurrent_holds {now : ℤ} (hk : Keeps cfg k F S M now) {s : State T κ β γ Q}
    (hs : Holds P F S M s) (predict : Bool) :
    Holds P F S M (predictToCurrent k predict s now) := by
  unfold predictToCurrent
  split_ifs with hpredict
  · exact ⟨hk.predict _ hs.filter (Bool.and_eq_true_iff.mp hpredict).1, hs.saved, hs.handled,
      hs.queued, hs.started⟩
  · exact hs

theorem integrateMeasurements_holds {now : ℤ} (hk : Keeps cfg k F S M now)
    {s : State T κ β γ Q} (hs : Holds P F S M s) :
    Holds P F S M (integrateMeasurements cfg k P s now) := by
  unfold integrateMeasurements
  cases P.pop s.measurementQueue with
  | none => exact predictToCurrent_holds hk hs _
  | some x =>
    exact predictToCurrent_holds hk
      (processDue_holds hk (revertForLate_holds hk hs x.1) _) _

theorem expireHistory_holds {s : State T κ β γ Q} (hs : Holds P F S M s) :
    Holds P F S M (expireHistory cfg s) := by
  unfold expireHistory
  split_ifs
  · refine ⟨hs.filter, ?_, ?_, hs.queued, ?_⟩
    · intro st hst
      exact hs.saved st ((List.rdropWhile_prefix _ _).subset hst)
    · intro m hm
      exact hs.handled m ((List.rdropWhile_prefix _ _).subset hm)
    · intro hne
      obtain ⟨st, hst⟩ := List.exists_mem_of_ne_nil _ hne
      exact hs.started (List.ne_nil_of_mem ((List.rdropWhile_prefix _ _).subset hst))
  · exact hs

theorem publishEstimate_holds {s : State T κ β γ Q} (hs : Holds P F S M s) :
    Holds P F S M (publishEstimate cfg s).1 := by
  unfold publishEstimate
  split_ifs
  · exact ⟨hs.filter, hs.saved, hs.handled, hs.queued, hs.started⟩
  · exact hs

theorem sensorCallback_holds [DecidableEq T] {s : State T κ β γ Q} (hs : Holds P F S M s)
    (topic : T) (stamp : ℤ) (body : Option β)
    (hbody : ∀ b ∈ body, s.lastSetPoseTime < stamp → M ⟨stamp, b, s.latestControl⟩) :
    Holds P F S M (sensorCallback P s topic stamp body) := by
  unfold sensorCallback
  split_ifs with _ hold
  · exact hs
  · refine ⟨hs.filter, hs.saved, hs.handled, ?_, hs.started⟩
    cases body with
    | none => exact hs.queued
    | some b =>
      intro m hm
      rw [P.elems_push, Multiset.mem_cons] at hm
      rcases hm with rfl | hm
      · exact hbody b rfl (not_le.mp hold)
      · exact hs.queued m hm
  · exact hs
  · exact hs

theorem Holds.and {F' : Filter κ γ → Prop} {S' : FilterState κ → Prop}
    {M' : Measurement β γ → Prop} {s : State T κ β γ Q} (h : Holds P F S M s)
    (h' : Holds P F' S' M' s) :
    Holds P (fun f => F f ∧ F' f) (fun st => S st ∧ S' st) (fun m => M m ∧ M' m) s :=
  ⟨⟨h.filter, h'.filter⟩, fun st hst => ⟨h.saved st hst, h'.saved st hst⟩,
    fun m hm => ⟨h.handled m hm, h'.handled m hm⟩, fun m hm => ⟨h.queued m hm, h'.queued m hm⟩, h.started⟩

theorem Holds.mono {F' : Filter κ γ → Prop} {S' : FilterState κ → Prop}
    {M' : Measurement β γ → Prop} {s : State T κ β γ Q} (h : Holds P F S M s)
    (hF : ∀ f, F f → F' f) (hS : ∀ st, S st → S' st) (hM : ∀ m, M m → M' m) :
    Holds P F' S' M' s :=
  ⟨hF _ h.filter, fun st hst => hS st (h.saved st hst), fun m hm => hM m (h.handled m hm),
    fun m hm => hM m (h.queued m hm), h.started⟩

variable (cfg k F S M)

/-- What one event asks of the facts. -/
def KeepsEvent (s : State T κ β γ Q) : Event T κ β γ → Prop
  | .sensor _ stamp (some b) => s.lastSetPoseTime < stamp → M ⟨stamp, b, s.latestControl⟩
  | .control control stamp => F { s.filter with control := (control, stamp) }
  | .setPose _ estimate now =>
    F { s.filter with estimate := estimate, lastMeasurementTime := now }
  | .reset | .deactivate =>
    F { s.filter with
      initialized := false, estimate := cfg.initialEstimate, lastMeasurementTime := 0 }
  | .update curTime now =>
    (s.toggledOn → Keeps cfg k F S M curTime) ∧
      (¬ s.toggledOn → s.filter.initialized → F { s.filter with lastMeasurementTime := now })
  | _ => True

variable {cfg k F S M}

theorem updateFilter_holds {s : State T κ β γ Q} (hs : Holds P F S M s) {curTime now : ℤ}
    (hx : KeepsEvent cfg k F S M s (.update curTime now)) :
    Holds P F S M (updateFilter cfg k P s curTime now) := by
  unfold updateFilter
  split_ifs with hon hinit
  · exact integrateMeasurements_holds (hx.1 hon) hs
  · refine ⟨hx.2 hon hinit, hs.saved, hs.handled, ?_, hs.started⟩
    intro m hm
    exact absurd (P.elems_empty ▸ hm) (Multiset.notMem_zero m)
  · refine ⟨hs.filter, hs.saved, hs.handled, ?_, hs.started⟩
    intro m hm
    exact absurd (P.elems_empty ▸ hm) (Multiset.notMem_zero m)

theorem publishEstimate_some {s : State T κ β γ Q} {o : Estimate κ}
    (h : o ∈ (publishEstimate cfg s).2) :
    s.filter.initialized ∧ o = ⟨s.filter.lastMeasurementTime, s.filter.estimate⟩ := by
  unfold publishEstimate at h
  split at h
  next hinit =>
    dsimp only at h
    split_ifs at h
    · exact absurd h (Option.not_mem_none o)
    · exact ⟨hinit, (Option.mem_some_iff.mp h).symm⟩
  next => exact absurd h (Option.not_mem_none o)

theorem periodicUpdate_holds {s : State T κ β γ Q} (hs : Holds P F S M s) {curTime now : ℤ}
    (hx : KeepsEvent cfg k F S M s (.update curTime now))
    (hsave : ∀ f : Filter κ γ, F f → f.initialized → S ⟨f.estimate, f.lastMeasurementTime⟩) :
    Holds P F S M (periodicUpdate cfg k P s curTime now).1 ∧
      ∀ o ∈ (periodicUpdate cfg k P s curTime now).2, S ⟨o.estimate, o.stamp⟩ := by
  unfold periodicUpdate
  split_ifs
  · have hupdate := updateFilter_holds hs hx
    refine ⟨expireHistory_holds (publishEstimate_holds hupdate), ?_⟩
    intro o ho
    obtain ⟨hinit, rfl⟩ := publishEstimate_some ho
    exact hsave _ hupdate.filter hinit
  · exact ⟨hs, fun o ho => absurd ho (Option.not_mem_none o)⟩

theorem cleared_holds {s : State T κ β γ Q} (hfilter : F s.filter)
    (hsaved : s.filterStateHistory = []) (hhandled : s.measurementHistory = [])
    (hqueue : s.measurementQueue = P.empty) : Holds P F S M s := by
  refine ⟨hfilter, ?_, ?_, ?_, fun hne => absurd hsaved hne⟩
  · rw [hsaved]
    exact fun st hst => absurd hst List.not_mem_nil
  · rw [hhandled]
    exact fun m hm => absurd hm List.not_mem_nil
  · rw [hqueue, P.elems_empty]
    exact fun m hm => absurd hm (Multiset.notMem_zero m)

theorem step_holds [DecidableEq T] {s : State T κ β γ Q} {x : Event T κ β γ}
    (hs : Holds P F S M s) (hx : KeepsEvent cfg k F S M s x)
    (hsave : ∀ f : Filter κ γ, F f → f.initialized → S ⟨f.estimate, f.lastMeasurementTime⟩) :
    Holds P F S M (step cfg k P s x).1 ∧
      ∀ o ∈ (step cfg k P s x).2, S ⟨o.estimate, o.stamp⟩ := by
  have hnone : ∀ o ∈ (none : Option (Estimate κ)), S ⟨o.estimate, o.stamp⟩ :=
    fun o ho => absurd ho (Option.not_mem_none o)
  cases x with
  | sensor topic stamp body =>
    refine ⟨sensorCallback_holds hs topic stamp body ?_, hnone⟩
    rintro b rfl
    exact hx
  | control control stamp => exact ⟨⟨hx, hs.saved, hs.handled, hs.queued, hs.started⟩, hnone⟩
  | setPose stamp estimate now => exact ⟨cleared_holds hx rfl rfl rfl, hnone⟩
  | reset => exact ⟨cleared_holds hx rfl rfl rfl, hnone⟩
  | toggle on => exact ⟨⟨hs.filter, hs.saved, hs.handled, hs.queued, hs.started⟩, hnone⟩
  | enable => exact ⟨⟨hs.filter, hs.saved, hs.handled, hs.queued, hs.started⟩, hnone⟩
  | deactivate => exact ⟨cleared_holds hx rfl rfl rfl, hnone⟩
  | update curTime now => exact periodicUpdate_holds hs hx hsave

end Holds

/-! ### The clock -/

section Clock
variable (P : MeasurementQueue β γ Q)

def Event.readings : Event T κ β γ → List ℤ
  | .setPose _ _ now => [now]
  | .update curTime now => [curTime, now]
  | _ => []

/-- No reading of the clock is before an earlier one, or negative. -/
def Steady (xs : List (Event T κ β γ)) : Prop :=
  (0 :: xs.flatMap Event.readings).Pairwise (· ≤ ·)

/-- No time of the filter, now or saved, is after `t`. -/
def NotAhead (t : ℤ) : State T κ β γ Q → Prop :=
  Holds P (fun f => f.lastMeasurementTime ≤ t) (fun st => st.lastMeasurementTime ≤ t)
    fun _ => True

/-- What a steady clock gives each event: its readings are in order, and not before the
times of the filter. -/
def OnTime (s : State T κ β γ Q) (x : Event T κ β γ) : Prop :=
  x.readings.Pairwise (· ≤ ·) ∧ ∀ r ∈ x.readings, 0 ≤ r ∧ NotAhead P r s

variable {P} (cfg : Config κ) (k : Kernel κ β γ)

theorem keeps_time {now t : ℤ} (h : now ≤ t) :
    Keeps (β := β) cfg k (fun f => f.lastMeasurementTime ≤ t)
      (fun st => st.lastMeasurementTime ≤ t) (fun _ => True) now where
  measurement f m hf _ hm := by
    rw [processMeasurement_time]
    split_ifs <;> omega
  control _ _ hf := hf
  save _ hf _ := hf
  restore _ _ _ _ _ hst := hst
  predict _ _ _ := h

theorem notAhead_step [DecidableEq T] {s : State T κ β γ Q} {x : Event T κ β γ} {t : ℤ}
    (hs : NotAhead P t s) (h0 : 0 ≤ t) (hx : ∀ r ∈ x.readings, r ≤ t) :
    NotAhead P t (step cfg k P s x).1 := by
  refine (step_holds hs ?_ fun _ hf _ => hf).1
  cases x with
  | sensor topic stamp body =>
    cases body with
    | none => trivial
    | some b => exact fun _ => trivial
  | control control stamp => exact hs.filter
  | setPose stamp estimate now => exact hx now (List.mem_singleton_self now)
  | reset => exact h0
  | toggle on => trivial
  | enable => trivial
  | deactivate => exact h0
  | update curTime now =>
    exact ⟨fun _ => keeps_time cfg k (hx curTime (by simp [Event.readings])),
      fun _ _ => hx now (by simp [Event.readings])⟩

theorem onTime_of_steady [DecidableEq T] {s : State T κ β γ Q} {xs : List (Event T κ β γ)}
    (hsteady : Steady xs) (hs : ∀ r ∈ xs.flatMap Event.readings, NotAhead P r s) :
    Callback.AllSteps (step cfg k P) (OnTime P) s xs := by
  induction xs generalizing s with
  | nil => trivial
  | cons x xs ih =>
    obtain ⟨hnonneg, hsorted⟩ := List.pairwise_cons.mp hsteady
    rw [List.flatMap_cons] at hnonneg hsorted hs
    obtain ⟨hx, hxs, hbefore⟩ := List.pairwise_append.mp hsorted
    refine ⟨⟨hx, ?_⟩, ih ?_ ?_⟩
    · intro r hr
      have hmem := List.mem_append_left (xs.flatMap Event.readings) hr
      exact ⟨hnonneg r hmem, hs r hmem⟩
    · refine List.pairwise_cons.mpr ⟨?_, hxs⟩
      intro r hr
      exact hnonneg r (List.mem_append_right x.readings hr)
    · intro r hr
      have hmem := List.mem_append_right x.readings hr
      exact notAhead_step cfg k (hs r hmem) (hnonneg r hmem) fun r' hr' => hbefore r' hr' r hr

theorem onTime_initial [DecidableEq T] {xs : List (Event T κ β γ)} (hsteady : Steady xs)
    (control : γ × ℤ) (enabled : Bool) :
    Callback.AllSteps (step cfg k P) (OnTime P) (initial cfg P control enabled) xs := by
  apply onTime_of_steady cfg k hsteady
  intro r hr
  exact cleared_holds ((List.pairwise_cons.mp hsteady).1 r hr) rfl rfl rfl

end Clock

/-! ### What the kernel preserves -/

section Preserved
variable [DecidableEq T] {cfg : Config κ} {k : Kernel κ β γ} {P : MeasurementQueue β γ Q}
  {J₀ J : κ → Prop} {good : β → Prop}

/-- Measurements are good, and a pose set by hand is one to go on from. -/
def GoodEvent (J₀ J : κ → Prop) (good : β → Prop) (s : State T κ β γ Q) : Event T κ β γ → Prop
  | .sensor _ _ (some b) => good b
  | .setPose _ estimate _ => if s.filter.initialized then J estimate else J₀ estimate
  | _ => True

def SoundState (P : MeasurementQueue β γ Q) (J₀ J : κ → Prop) (good : β → Prop) :
    State T κ β γ Q → Prop :=
  Holds P (Sound J₀ J) (fun st => J st.estimate) fun m => good m.body

theorem keeps_sound (hk : k.Preserves J₀ J good) (now : ℤ) :
    Keeps (γ := γ) cfg k (fun f => Sound J₀ J f ∧ f.lastMeasurementTime ≤ now)
      (fun st => J st.estimate ∧ st.lastMeasurementTime ≤ now) (fun m => good m.body ∧ True)
      now where
  measurement _ m hf hm hdue :=
    ⟨processMeasurement_preserves hk hf.1 hm.1,
      (keeps_time cfg k le_rfl).measurement _ m hf.2 trivial hdue⟩
  control _ _ hf := hf
  save _ hf hinit := ⟨hf.1.initialized hinit, hf.2⟩
  restore _ _ _ _ hinit hst := ⟨(if_pos hinit).mpr hst.1, hst.2⟩
  predict _ hf hinit :=
    ⟨(if_pos hinit).mpr
      (hk.predict _ _ _ _ (Int.sub_nonneg.mpr hf.2) (hf.1.initialized hinit)), le_rfl⟩

theorem step_sound (hk : k.Preserves J₀ J good) (h0 : J₀ cfg.initialEstimate)
    {s : State T κ β γ Q} {x : Event T κ β γ} (hs : SoundState P J₀ J good s)
    (hx : OnTime P s x ∧ GoodEvent J₀ J good s x) :
    SoundState P J₀ J good (step cfg k P s x).1 ∧ ∀ o ∈ (step cfg k P s x).2, J o.estimate := by
  obtain ⟨htime, hgood⟩ := hx
  have hsave : ∀ f : Filter κ γ, Sound J₀ J f → f.initialized → J f.estimate :=
    fun _ hf hinit => hf.initialized hinit
  cases x with
  | sensor topic stamp body =>
    refine step_holds hs ?_ hsave
    cases body with
    | none => trivial
    | some b => exact fun _ => hgood
  | control control stamp => exact step_holds hs hs.filter hsave
  | setPose stamp estimate now => exact step_holds hs hgood hsave
  | reset => exact step_holds hs h0 hsave
  | toggle on => exact step_holds hs trivial hsave
  | enable => exact step_holds hs trivial hsave
  | deactivate => exact step_holds hs h0 hsave
  | update curTime now =>
    have hahead : NotAhead P curTime s := (htime.2 curTime List.mem_cons_self).2
    cases hon : s.toggledOn with
    | false =>
      refine step_holds hs ⟨fun h => ?_, fun _ _ => hs.filter⟩ hsave
      exact absurd (hon.symm.trans h) Bool.false_ne_true
    | true =>
      have hupdate : KeepsEvent cfg k (fun f => Sound J₀ J f ∧ f.lastMeasurementTime ≤ curTime)
          (fun st => J st.estimate ∧ st.lastMeasurementTime ≤ curTime)
          (fun m => good m.body ∧ True) s (.update curTime now) :=
        ⟨fun _ => keeps_sound hk curTime, fun h => absurd hon h⟩
      have hboth := step_holds (hs.and hahead) hupdate
        fun _ hf hinit => ⟨hf.1.initialized hinit, hf.2⟩
      exact ⟨hboth.1.mono (fun _ h => h.1) (fun _ h => h.1) fun _ h => h.1,
        fun o ho => (hboth.2 o ho).1⟩

/-- Every estimate that a run publishes is one the kernel can make: the filter never
predicts backwards, whatever the order in which measurements arrive. -/
theorem published_sound (hk : k.Preserves J₀ J good) (h0 : J₀ cfg.initialEstimate)
    (control : γ × ℤ) (enabled : Bool) {xs : List (Event T κ β γ)} (hsteady : Steady xs)
    (hxs : Callback.AllSteps (step cfg k P) (GoodEvent J₀ J good)
      (initial cfg P control enabled) xs) :
    ∀ o ∈ Callback.published (step cfg k P) (initial cfg P control enabled) xs, J o.estimate := by
  refine Callback.published_forall _ (J := SoundState P J₀ J good) ?_
    (cleared_holds h0 rfl rfl rfl) ((onTime_initial cfg k hsteady control enabled).and _ hxs)
  intro s x hs hx
  exact step_sound hk h0 hs hx

end Preserved

/-! ### A run

Its last measurement is late, and the filter tells any two orders apart. -/

def doubling : Kernel ℤ ℤ Unit := ⟨fun b _ => b, fun _ _ d x => x + d, fun b x => 2 * x + b⟩

def fifo : MeasurementQueue ℤ Unit (SortedList (Measurement.time : Measurement ℤ Unit → ℤ)) :=
  sortedList Measurement.time

def late : List (Event Bool ℤ ℤ Unit) :=
  [.sensor false 1 (some 5), .update 2 2, .sensor false 4 (some 7), .update 5 5,
    .sensor true 3 (some 11)]

end RosFilter
end RtkLocalization
