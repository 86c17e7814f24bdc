import RtkLocalization.RosFilterRuns

/-!
# The measurement queue

What becomes of the measurements that the callbacks enqueue.
-/

namespace RtkLocalization
namespace RosFilter

open FilterBase TimedQueue

variable {T κ β γ Q : Type}

section Queued
variable (cfg : Config κ) (k : Kernel κ β γ) (P : MeasurementQueue β γ Q)

/-- What the loop starts with. -/
def reverted (s : State T κ β γ Q) : State T κ β γ Q :=
  match P.pop s.measurementQueue with
  | none => s
  | some (first, _) => revertForLate cfg P s first

/-- The measurements that the loop hands to the filter, in their order. -/
def batch (s : State T κ β γ Q) (currentTime : ℤ) : List (Measurement β γ) :=
  let q := (reverted cfg P s).measurementQueue
  (due P currentTime (P.size q) q).map Prod.fst

theorem processDue_queue (s : State T κ β γ Q) (restored : ℕ) (currentTime : ℤ) :
    (processDue cfg k P s restored currentTime).measurementQueue
      = later P currentTime (P.size s.measurementQueue) s.measurementQueue := by
  unfold processDue
  rw [drain_eq]

theorem predictToCurrent_queue (predict : Bool) (s : State T κ β γ Q) (currentTime : ℤ) :
    (predictToCurrent k predict s currentTime).measurementQueue = s.measurementQueue := by
  unfold predictToCurrent
  split_ifs <;> rfl

theorem integrateMeasurements_queue (s : State T κ β γ Q) (currentTime : ℤ) :
    (integrateMeasurements cfg k P s currentTime).measurementQueue
      = later P currentTime (P.size (reverted cfg P s).measurementQueue)
          (reverted cfg P s).measurementQueue := by
  unfold integrateMeasurements reverted
  cases hpop : P.pop s.measurementQueue with
  | none =>
    dsimp only
    rw [predictToCurrent_queue, Queue.size, P.pop_none _ hpop]
    rfl
  | some x =>
    dsimp only
    rw [predictToCurrent_queue, processDue_queue]

theorem batch_add_queue (s : State T κ β γ Q) (currentTime : ℤ) :
    (batch cfg P s currentTime : Multiset (Measurement β γ))
        + P.elems (integrateMeasurements cfg k P s currentTime).measurementQueue
      = P.elems (reverted cfg P s).measurementQueue := by
  rw [integrateMeasurements_queue]
  exact (elems_eq_due_add_later P currentTime _ _).symm

theorem periodicUpdate_queue {s : State T κ β γ Q} (henabled : s.enabled) (curTime now : ℤ) :
    (periodicUpdate cfg k P s curTime now).1.measurementQueue
      = (updateFilter cfg k P s curTime now).measurementQueue := by
  unfold periodicUpdate
  rw [if_neg (not_not.mpr henabled)]
  dsimp only
  unfold expireHistory publishEstimate
  split_ifs <;> rfl

/-- An update hands the filter what is due in order of time, and leaves what is later. -/
theorem batch_inOrder (s : State T κ β γ Q) (curTime : ℤ) :
    (batch cfg P s curTime).Pairwise (fun m m' => m.time ≤ m'.time) ∧
      (∀ m ∈ batch cfg P s curTime, m.time ≤ curTime) ∧
      ∀ m ∈ P.elems (integrateMeasurements cfg k P s curTime).measurementQueue,
        curTime < m.time := by
  refine ⟨due_sorted P curTime _ _, due_le P curTime _ _, ?_⟩
  rw [integrateMeasurements_queue]
  exact later_gt P curTime le_rfl

theorem reverted_of_not_smooth (hsmooth : cfg.smoothLaggedData = false) (s : State T κ β γ Q) :
    reverted cfg P s = s := by
  unfold reverted revertForLate
  rw [hsmooth]
  split <;> rfl

end Queued

section Conservation
variable [DecidableEq T] (cfg : Config κ) (k : Kernel κ β γ) (P : MeasurementQueue β γ Q)

/-- The measurement that an event puts into the queue. -/
def enqueued (s : State T κ β γ Q) : Event T κ β γ → Option (Measurement β γ)
  | .sensor topic stamp (some b) =>
    if s.enabled ∧ s.lastSetPoseTime < stamp ∧ (s.lastMessageTimes topic).getD stamp ≤ stamp then
      some ⟨stamp, b, s.latestControl⟩
    else none
  | _ => none

def handedOver (s : State T κ β γ Q) : Event T κ β γ → List (Measurement β γ)
  | .update curTime _ => if s.enabled && s.toggledOn then batch cfg P s curTime else []
  | _ => []

def enqueuedIn (s : State T κ β γ Q) (xs : List (Event T κ β γ)) : List (Measurement β γ) :=
  Callback.observed (step cfg k P) enqueued s xs

def handedOverIn (s : State T κ β γ Q) (xs : List (Event T κ β γ)) : List (Measurement β γ) :=
  (Callback.observed (step cfg k P) (fun s x => some (handedOver cfg P s x)) s xs).flatten

/-- The event does not empty the queue. -/
def Kept (s : State T κ β γ Q) : Event T κ β γ → Prop
  | .setPose .. | .reset | .deactivate => False
  | .update .. => s.toggledOn
  | _ => True

variable {cfg k P}

theorem sensorCallback_queue (s : State T κ β γ Q) (topic : T) (stamp : ℤ) (body : Option β) :
    P.elems (sensorCallback P s topic stamp body).measurementQueue
      = (enqueued s (.sensor topic stamp body)).toList + P.elems s.measurementQueue := by
  cases body with
  | none =>
    unfold sensorCallback
    split_ifs <;> exact (zero_add _).symm
  | some b =>
    by_cases haccept : s.enabled ∧ s.lastSetPoseTime < stamp ∧
        (s.lastMessageTimes topic).getD stamp ≤ stamp
    · obtain ⟨henabled, hpose, htime⟩ := haccept
      simp only [sensorCallback, enqueued, henabled, hpose, htime, not_le.mpr hpose,
        not_true_eq_false, if_false, if_true, and_self, P.elems_push]
      rfl
    · rw [enqueued, if_neg haccept, sensorCallback]
      split_ifs with henabled hpose htime
      · exact (zero_add _).symm
      · exact absurd ⟨henabled, not_le.mp hpose, htime⟩ haccept
      · exact (zero_add _).symm
      · exact (zero_add _).symm

/-- One event: what is queued and what it enqueues is handed over or still queued. -/
theorem step_conserves (hsmooth : cfg.smoothLaggedData = false) {s : State T κ β γ Q}
    {x : Event T κ β γ} (hx : Kept s x) :
    (handedOver cfg P s x : Multiset (Measurement β γ))
        + P.elems (step cfg k P s x).1.measurementQueue
      = (enqueued s x).toList + P.elems s.measurementQueue := by
  cases x with
  | sensor topic stamp body => exact (zero_add _).trans (sensorCallback_queue s topic stamp body)
  | control control stamp => rfl
  | setPose stamp estimate now => exact absurd hx not_false
  | reset => exact absurd hx not_false
  | toggle on => rfl
  | enable => rfl
  | deactivate => exact absurd hx not_false
  | update curTime now =>
    have hbatch := batch_add_queue cfg k P s curTime
    rw [reverted_of_not_smooth cfg P hsmooth] at hbatch
    have hon : s.toggledOn = true := hx
    simp only [handedOver, step, enqueued, hon, Bool.and_true, Option.toList_none]
    cases henabled : s.enabled with
    | false =>
      simp only [Bool.false_eq_true, if_false, periodicUpdate, henabled, not_false_eq_true, if_true]
    | true =>
      rw [if_pos rfl, periodicUpdate_queue cfg k P henabled, updateFilter, if_pos hon, hbatch]
      exact (zero_add _).symm

theorem enqueuedIn_append_singleton (s : State T κ β γ Q) (xs : List (Event T κ β γ))
    (x : Event T κ β γ) :
    enqueuedIn cfg k P s (xs ++ [x])
      = enqueuedIn cfg k P s xs
        ++ (enqueued (Callback.stateAfter (step cfg k P) s xs) x).toList := by
  simp only [enqueuedIn, Callback.observed_append, Callback.observed, List.append_nil]

theorem handedOverIn_append_singleton (s : State T κ β γ Q) (xs : List (Event T κ β γ))
    (x : Event T κ β γ) :
    handedOverIn cfg k P s (xs ++ [x])
      = handedOverIn cfg k P s xs
        ++ handedOver cfg P (Callback.stateAfter (step cfg k P) s xs) x := by
  simp only [handedOverIn, Callback.observed_append, Callback.observed, List.append_nil,
    List.flatten_append, Option.toList_some, List.flatten_singleton]

end Conservation

end RosFilter
end RtkLocalization
