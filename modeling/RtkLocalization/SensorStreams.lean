import RtkLocalization.LaggedData
import RtkLocalization.Lib.Keyed

/-!
# Sensor streams

Each topic delivers its messages in their order, but the topics are interleaved with one
another and with the updates in any way. What the node enqueues of a topic depends on
the messages of that topic alone, so with smoothing the interleaving does not matter.
-/

namespace RtkLocalization
namespace RosFilter

open FilterBase TimedQueue

variable {T κ β γ Q : Type}

section Streams
variable [DecidableEq T]

/-- The message that an event brings on a topic. -/
def Event.onTopic (topic : T) : Event T κ β γ → Option (ℤ × Option β)
  | .sensor topic' stamp body => if topic' = topic then some (stamp, body) else none
  | _ => none

/-- What the messages of one topic enqueue, `last` being the stamp of the last one. -/
def enqueuedFrom (control : γ × ℤ) : Option ℤ → List (ℤ × Option β) → List (Measurement β γ)
  | _, [] => []
  | last, (stamp, body) :: rest =>
    if 0 < stamp ∧ last.getD stamp ≤ stamp then
      (body.map fun b => ⟨stamp, b, control⟩).toList ++ enqueuedFrom control (some stamp) rest
    else enqueuedFrom control last rest

/-- Nothing but measurements, updates and switching on. -/
def Listens : Event T κ β γ → Prop
  | .sensor .. | .toggle _ | .enable | .update .. => True
  | _ => False

structure Listening (control : γ × ℤ) (s : State T κ β γ Q) : Prop where
  enabled : s.enabled = true
  lastSetPoseTime : s.lastSetPoseTime = 0
  latestControl : s.latestControl = control

def enqueuedOn (s : State T κ β γ Q) : Event T κ β γ → Option (T × Measurement β γ)
  | .sensor topic stamp body => (enqueued s (.sensor topic stamp body)).map (topic, ·)
  | _ => none

variable (cfg : Config κ) (k : Kernel κ β γ) (P : MeasurementQueue β γ Q)

theorem step_listening {control : γ × ℤ} {s : State T κ β γ Q} (hs : Listening control s)
    {x : Event T κ β γ} (hx : Listens x) : Listening control (step cfg k P s x).1 := by
  cases x with
  | sensor topic stamp body =>
    simp only [step, sensorCallback]
    split_ifs
    · exact hs
    · exact ⟨hs.enabled, hs.lastSetPoseTime, hs.latestControl⟩
    · exact hs
    · exact hs
  | control control stamp => exact absurd hx not_false
  | setPose stamp estimate now => exact absurd hx not_false
  | reset => exact absurd hx not_false
  | toggle on => exact ⟨hs.enabled, hs.lastSetPoseTime, hs.latestControl⟩
  | enable => exact ⟨rfl, hs.lastSetPoseTime, hs.latestControl⟩
  | deactivate => exact absurd hx not_false
  | update curTime now =>
    obtain ⟨stamp, f, q, hist, handled, hframe⟩ := framed_periodicUpdate cfg k P s curTime now
    simp only [step]
    rw [hframe]
    exact ⟨hs.enabled, hs.lastSetPoseTime, hs.latestControl⟩

theorem step_lastMessageTimes {s : State T κ β γ Q} {x : Event T κ β γ} (hx : Listens x)
    {topic : T} (htopic : x.onTopic topic = none) :
    (step cfg k P s x).1.lastMessageTimes topic = s.lastMessageTimes topic := by
  cases x with
  | sensor topic' stamp body =>
    have hne : topic ≠ topic' := by
      rintro rfl
      exact absurd htopic (by simp [Event.onTopic])
    simp only [step, sensorCallback]
    split_ifs
    · rfl
    · exact Function.update_of_ne hne _ _
    · rfl
    · rfl
  | control control stamp => exact absurd hx not_false
  | setPose stamp estimate now => exact absurd hx not_false
  | reset => exact absurd hx not_false
  | toggle on => rfl
  | enable => rfl
  | deactivate => exact absurd hx not_false
  | update curTime now =>
    obtain ⟨stamp, f, q, hist, handled, hframe⟩ := framed_periodicUpdate cfg k P s curTime now
    simp only [step]
    rw [hframe]

/-- A message on the topic: what it enqueues, and the stamp that the node then keeps. -/
theorem enqueuedFrom_cons {control : γ × ℤ} {s : State T κ β γ Q} (hs : Listening control s)
    (topic : T) (stamp : ℤ) (body : Option β) (rest : List (ℤ × Option β)) :
    enqueuedFrom control (s.lastMessageTimes topic) ((stamp, body) :: rest)
      = (enqueued s (.sensor topic stamp body)).toList
        ++ enqueuedFrom control
          ((sensorCallback P s topic stamp body).lastMessageTimes topic) rest := by
  by_cases haccept : 0 < stamp ∧ (s.lastMessageTimes topic).getD stamp ≤ stamp
  · have htimes : (sensorCallback P s topic stamp body).lastMessageTimes topic = some stamp := by
      simp only [sensorCallback, hs.enabled, hs.lastSetPoseTime, not_le.mpr haccept.1, haccept.2,
        not_true_eq_false, if_false, if_true, Function.update_self]
    rw [enqueuedFrom, if_pos haccept, htimes]
    cases body with
    | none => rfl
    | some b =>
      rw [enqueued, if_pos ⟨hs.enabled, hs.lastSetPoseTime.trans_lt haccept.1, haccept.2⟩,
        hs.latestControl]
      rfl
  · have hrefused : sensorCallback P s topic stamp body = s := by
      unfold sensorCallback
      split_ifs with _ hpose htime
      · rfl
      · rw [hs.lastSetPoseTime] at hpose
        exact absurd ⟨not_le.mp hpose, htime⟩ haccept
      · rfl
      · rfl
    rw [enqueuedFrom, if_neg haccept, hrefused]
    cases body with
    | none => rfl
    | some b =>
      rw [enqueued, if_neg]
      · rfl
      · rintro ⟨-, hpose, htime⟩
        exact haccept ⟨hs.lastSetPoseTime ▸ hpose, htime⟩

theorem enqueuedOn_of_onTopic_none {x : Event T κ β γ} {topic : T}
    (htopic : x.onTopic topic = none) (s : State T κ β γ Q) :
    valuesOf (enqueuedOn s x).toList topic = [] := by
  cases x with
  | sensor topic' stamp body =>
    have hne : topic' ≠ topic := by
      rintro rfl
      exact absurd htopic (by simp [Event.onTopic])
    simp only [enqueuedOn]
    cases enqueued s (.sensor topic' stamp body) with
    | none => rfl
    | some m => simp [valuesOf, hne]
  | control control stamp => rfl
  | setPose stamp estimate now => rfl
  | reset => rfl
  | toggle on => rfl
  | enable => rfl
  | deactivate => rfl
  | update curTime now => rfl

theorem eq_sensor_of_onTopic {x : Event T κ β γ} {topic : T} {message : ℤ × Option β}
    (h : x.onTopic topic = some message) :
    ∃ stamp body, x = .sensor topic stamp body ∧ message = (stamp, body) := by
  cases x with
  | sensor topic' stamp body =>
    simp only [Event.onTopic] at h
    split_ifs at h with htopic
    · exact ⟨stamp, body, by rw [htopic], (Option.some.inj h).symm⟩
  | control control stamp => exact absurd h (by simp [Event.onTopic])
  | setPose stamp estimate now => exact absurd h (by simp [Event.onTopic])
  | reset => exact absurd h (by simp [Event.onTopic])
  | toggle on => exact absurd h (by simp [Event.onTopic])
  | enable => exact absurd h (by simp [Event.onTopic])
  | deactivate => exact absurd h (by simp [Event.onTopic])
  | update curTime now => exact absurd h (by simp [Event.onTopic])

/-- What the node enqueues of a topic depends on the messages of the topic alone. -/
theorem valuesOf_enqueuedOn {control : γ × ℤ} {s : State T κ β γ Q} (hs : Listening control s)
    {xs : List (Event T κ β γ)} (hxs : ∀ x ∈ xs, Listens x) (topic : T) :
    valuesOf (Callback.observed (step cfg k P) enqueuedOn s xs) topic
      = enqueuedFrom control (s.lastMessageTimes topic) (xs.filterMap (Event.onTopic topic)) := by
  induction xs generalizing s with
  | nil => rfl
  | cons x xs ih =>
    obtain ⟨hx, hrest⟩ := List.forall_mem_cons.mp hxs
    rw [Callback.observed, valuesOf_append, ih (step_listening cfg k P hs hx) hrest]
    cases htopic : x.onTopic topic with
    | none =>
      rw [List.filterMap_cons_none htopic, enqueuedOn_of_onTopic_none htopic, List.nil_append,
        step_lastMessageTimes cfg k P hx htopic]
    | some message =>
      obtain ⟨stamp, body, rfl, rfl⟩ := eq_sensor_of_onTopic htopic
      have hvalues : valuesOf (enqueuedOn s (.sensor topic stamp body)).toList topic
          = (enqueued s (.sensor topic stamp body)).toList := by
        simp only [enqueuedOn]
        cases enqueued s (.sensor topic stamp body) with
        | none => rfl
        | some m => simp [valuesOf]
      rw [List.filterMap_cons_some htopic, hvalues, enqueuedFrom_cons P hs]
      rfl

theorem enqueuedIn_eq (s : State T κ β γ Q) (xs : List (Event T κ β γ)) :
    enqueuedIn cfg k P s xs
      = (Callback.observed (step cfg k P) enqueuedOn s xs).map Prod.snd := by
  unfold enqueuedIn
  induction xs generalizing s with
  | nil => rfl
  | cons x xs ih =>
    rw [Callback.observed, Callback.observed, List.map_append, ← ih]
    congr 1
    cases x with
    | sensor topic stamp body =>
      simp only [enqueuedOn]
      cases enqueued s (.sensor topic stamp body) with
      | none => rfl
      | some m => rfl
    | control control stamp => rfl
    | setPose stamp estimate now => rfl
    | reset => rfl
    | toggle on => rfl
    | enable => rfl
    | deactivate => rfl
    | update curTime now => rfl

variable {cfg k P}

/-- However the streams of the topics are interleaved, the same measurements are enqueued. -/
theorem enqueuedIn_perm_of_streams (control : γ × ℤ) {xs ys : List (Event T κ β γ)}
    (hxs : ∀ x ∈ xs, Listens x) (hys : ∀ y ∈ ys, Listens y)
    (hstreams : ∀ topic,
      xs.filterMap (Event.onTopic topic) = ys.filterMap (Event.onTopic topic)) :
    (enqueuedIn cfg k P (initial cfg P control true) xs).Perm
      (enqueuedIn cfg k P (initial cfg P control true) ys) := by
  have hs : Listening control (initial (T := T) cfg P control true) := ⟨rfl, rfl, rfl⟩
  rw [enqueuedIn_eq, enqueuedIn_eq]
  apply List.Perm.map
  apply perm_of_valuesOf_eq
  intro topic
  rw [valuesOf_enqueuedOn cfg k P hs hxs, valuesOf_enqueuedOn cfg k P hs hys, hstreams]

theorem listens_of_measures {s : State T κ β γ Q} {xs : List (Event T κ β γ)}
    (hxs : Callback.AllSteps (step cfg k P) (Measures cfg P) s xs) : ∀ x ∈ xs, Listens x := by
  induction xs generalizing s with
  | nil => exact fun x hx => absurd hx List.not_mem_nil
  | cons x xs ih =>
    refine List.forall_mem_cons.mpr ⟨?_, ih hxs.2⟩
    have hx := hxs.1
    cases x with
    | update curTime now => trivial
    | _ => exact hx

/-- The messages of `late` as they were sent. -/
def asSent : List (Event Bool ℤ ℤ Unit) :=
  [.sensor false 1 (some 5), .update 2 2, .sensor true 3 (some 11), .sensor false 4 (some 7)]

end Streams

end RosFilter
end RtkLocalization
